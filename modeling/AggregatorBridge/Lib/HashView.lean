import AggregatorBridge.Lib.Remote

/-!
# What a reader makes of a hash

A hash of texts and a reader of texts make a hash of what can be read (`filterMapValues`). Every
command on the texts is a command on that: a write of a text that can be read is a write of what is
read, and a write of one that cannot is a deletion. So who only reads may as well have the values.
-/

namespace Remote

namespace Hash

variable {K V W : Type} [DecidableEq K] {read : V → Option W} {h : Hash K V} {field : K}

/-- What is read of an entry. -/
private def readEntry (read : V → Option W) (e : Sigma fun _ : K => V) :
    Option (Sigma fun _ : K => W) :=
  (read e.2).map fun w => ⟨e.1, w⟩

omit [DecidableEq K] in
private theorem key_of_readEntry {e : Sigma fun _ : K => V} {e' : Sigma fun _ : K => W}
    (made : readEntry read e = some e') : e'.1 = e.1 := by
  obtain ⟨w, -, rfl⟩ := Option.map_eq_some_iff.mp made
  rfl

private theorem filterMap_kerase {l : List (Sigma fun _ : K => V)} (distinct : l.NodupKeys) :
    (l.kerase field).filterMap (readEntry read) =
      (l.filterMap (readEntry read)).kerase field := by
  induction l with
  | nil => rfl
  | cons e l ih =>
    obtain ⟨fresh, distinct⟩ := List.nodupKeys_cons.mp distinct
    by_cases same : field = e.1
    · rw [List.kerase_cons_eq same]
      cases made : readEntry read e with
      | none =>
        -- nothing of that key comes later
        have later : field ∉ (l.filterMap (readEntry read)).keys := by
          intro mem
          obtain ⟨e', listed, key⟩ := List.mem_map.mp mem
          obtain ⟨e'', there, made'⟩ := List.mem_filterMap.mp listed
          apply fresh
          rw [← same, ← key, key_of_readEntry made']
          exact List.mem_map_of_mem there
        rw [List.filterMap_cons_none made, List.kerase_of_notMem_keys later]
      | some e' =>
        rw [List.filterMap_cons_some made,
          List.kerase_cons_eq (same.trans (key_of_readEntry made).symm)]
    · rw [List.kerase_cons_ne same]
      cases made : readEntry read e with
      | none => rw [List.filterMap_cons_none made, List.filterMap_cons_none made, ih distinct]
      | some e' =>
        have other : field ≠ e'.1 := fun key => same (key.trans (key_of_readEntry made))
        rw [List.filterMap_cons_some made, List.filterMap_cons_some made,
          List.kerase_cons_ne other, ih distinct]

/-- A deletion is a deletion to the reader. -/
theorem filterMapValues_del :
    filterMapValues read (AList.erase field h) = AList.erase field (filterMapValues read h) := by
  apply AList.ext
  exact filterMap_kerase h.nodupKeys

/-- A write that can be read is a write of what is read. -/
theorem filterMapValues_set {v : V} {w : W} (reads : read v = some w) :
    filterMapValues read (AList.insert field v h) =
      AList.insert field w (filterMapValues read h) := by
  apply AList.ext
  have made : readEntry read ⟨field, v⟩ = some ⟨field, w⟩ := by rw [readEntry, reads]; rfl
  show (_ :: h.entries.kerase field).filterMap (readEntry read) = _ :: _
  rw [List.filterMap_cons_some made, filterMap_kerase h.nodupKeys]
  rfl

/-- A write that cannot be read deletes what was there. -/
theorem filterMapValues_spoil {v : V} (reads : read v = none) :
    filterMapValues read (AList.insert field v h) = AList.erase field (filterMapValues read h) := by
  apply AList.ext
  have made : readEntry read ⟨field, v⟩ = none := by rw [readEntry, reads]; rfl
  show (_ :: h.entries.kerase field).filterMap (readEntry read) = _
  rw [List.filterMap_cons_none made, filterMap_kerase h.nodupKeys]
  rfl

omit [DecidableEq K] in
/-- The values that are read are those of what can be read. -/
theorem values_filterMapValues : values (filterMapValues read h) = (values h).filterMap read := by
  rw [values, values, filterMapValues, List.map_filterMap, List.filterMap_map]
  apply List.filterMap_congr
  intro e _
  show ((read e.2).map fun w => (⟨e.1, w⟩ : Sigma fun _ : K => W)).map Sigma.snd = read e.2
  rw [Option.map_map, Function.comp_def, Option.map_id']

end Hash

end Remote
