import Mathlib.Data.List.AList

/-!
# A remote store of hashes

A store that is reached over a connection has hashes, and commands on them that can fail.
A command fails in one of two ways that its caller cannot tell apart: the store never saw it,
or the store executed it and the answer got lost. `Reply` keeps the two apart, because what
the store holds afterwards differs.

A hash is Mathlib's association list; the lemmas here put its lookups in the form the proofs
about runs want, one conditional per command.
-/

namespace Remote

/-- What becomes of a command over a connection that may fail. The caller cannot tell the two errors
apart. -/
inductive Reply where
  /-- Executed, and the caller was told. -/
  | ok
  /-- Executed, but the caller saw an error. -/
  | lost
  /-- Not executed; the caller saw an error. -/
  | failed
  deriving DecidableEq, Repr

/-- The store executed the command. -/
def Reply.took : Reply → Bool
  | ok => true
  | lost => true
  | failed => false

/-- The effect of a command on what it is about. -/
def Reply.effect {σ : Type*} (reply : Reply) (f : σ → σ) (s : σ) : σ :=
  if reply.took then f s else s

@[simp] theorem Reply.effect_ok {σ : Type*} (f : σ → σ) (s : σ) : Reply.ok.effect f s = f s := rfl

/-- A command leaves its object alone or does to it what it does. -/
theorem Reply.effect_cases {σ : Type*} (reply : Reply) (f : σ → σ) (s : σ) :
    reply.effect f s = s ∨ reply.effect f s = f s := by
  unfold Reply.effect
  split
  · exact .inr rfl
  · exact .inl rfl

/-- A call other than the one that executed is still there. -/
theorem mem_calls_of_ne {γ : Type*} {calls : List γ} {k : Nat} {c d : γ}
    (called : calls[k]? = some d) (mem : c ∈ calls) (other : c ≠ d) : c ∈ calls.eraseIdx k := by
  obtain ⟨i, at_⟩ := List.mem_iff_getElem?.mp mem
  refine List.mem_eraseIdx_iff_getElem?.mpr ⟨i, ?_, at_⟩
  rintro rfl
  rw [called] at at_
  exact other (Option.some.inj at_).symm

/-- A hash: fields to values. -/
abbrev Hash (K V : Type) := AList fun _ : K => V

namespace Hash

variable {K V : Type} [DecidableEq K]

/-- The values of a hash, as `HGETALL` returns them. -/
def values (h : Hash K V) : List V :=
  h.entries.map Sigma.snd

theorem lookup_set (h : Hash K V) (field k : K) (v : V) :
    AList.lookup k (AList.insert field v h) = if k = field then some v else AList.lookup k h := by
  by_cases same : k = field
  · subst same
    rw [if_pos rfl, AList.lookup_insert]
  · rw [if_neg same, AList.lookup_insert_ne same]

theorem lookup_del (h : Hash K V) (field k : K) :
    AList.lookup k (AList.erase field h) = if k = field then none else AList.lookup k h := by
  by_cases same : k = field
  · subst same
    rw [if_pos rfl, AList.lookup_erase]
  · rw [if_neg same, AList.lookup_erase_ne same]

/-- The values of a hash are the ones its fields hold. -/
theorem mem_values {h : Hash K V} {v : V} : v ∈ values h ↔ ∃ k, AList.lookup k h = some v := by
  constructor
  · intro mem
    obtain ⟨⟨k, w⟩, listed, rfl⟩ := List.mem_map.mp mem
    exact ⟨k, AList.mem_lookup_iff.mpr listed⟩
  · rintro ⟨k, found⟩
    exact List.mem_map.mpr ⟨⟨k, v⟩, AList.mem_lookup_iff.mp found, rfl⟩

theorem lookup_of_keys_nil {h : Hash K V} (empty : h.keys = []) (field : K) :
    AList.lookup field h = none := by
  rw [AList.lookup_eq_none, AList.mem_keys, empty]
  exact List.not_mem_nil

/-- An update of every value where it stands. -/
def mapValues (f : V → V) (h : Hash K V) : Hash K V :=
  ⟨h.entries.map (.map id fun _ => f), List.NodupKeys.map₂ (fun _ => f) h.entries h.nodupKeys⟩

theorem lookup_mapValues (f : V → V) (h : Hash K V) (k : K) :
    AList.lookup k (mapValues f h) = (AList.lookup k h).map f :=
  List.dlookup_map₂ k

/-- The entries that pass a test. -/
def filter (p : K → V → Bool) (h : Hash K V) : Hash K V :=
  ⟨h.entries.filter fun e => p e.1 e.2, h.nodupKeys.sublist List.filter_sublist⟩

theorem lookup_filter {p : K → V → Bool} {h : Hash K V} {k : K} {v : V} :
    AList.lookup k (filter p h) = some v ↔ AList.lookup k h = some v ∧ p k v = true := by
  rw [← Option.mem_def, ← Option.mem_def, AList.mem_lookup_iff, AList.mem_lookup_iff]
  exact List.mem_filter

/-- The fields with a value that `f` makes something of. -/
def filterMapValues {W : Type} (f : V → Option W) (h : Hash K V) : Hash K W where
  entries := h.entries.filterMap fun e => (f e.2).map fun w => ⟨e.1, w⟩
  nodupKeys := by
    rw [List.nodupKeys_iff_pairwise]
    refine (List.nodupKeys_iff_pairwise.mp h.nodupKeys).filterMap _ ?_
    intro a a' distinct b made b' made'
    obtain ⟨w, -, rfl⟩ := Option.map_eq_some_iff.mp made
    obtain ⟨w', -, rfl⟩ := Option.map_eq_some_iff.mp made'
    exact distinct

theorem lookup_filterMapValues {W : Type} (f : V → Option W) (h : Hash K V) (k : K) :
    AList.lookup k (filterMapValues f h) = (AList.lookup k h).bind f := by
  apply Option.ext
  intro w
  rw [← Option.mem_def, AList.mem_lookup_iff, Option.bind_eq_some_iff]
  simp only [filterMapValues, List.mem_filterMap, Option.map_eq_some_iff]
  constructor
  · rintro ⟨⟨k', v⟩, entry, w', made, same⟩
    cases same
    exact ⟨v, AList.mem_lookup_iff.mpr entry, made⟩
  · rintro ⟨v, found, made⟩
    exact ⟨⟨k, v⟩, AList.mem_lookup_iff.mp found, w, made, rfl⟩

/-- Several fields deleted. -/
def delAll (fields : List K) (h : Hash K V) : Hash K V :=
  fields.foldl (fun h field => AList.erase field h) h

theorem lookup_delAll (fields : List K) (h : Hash K V) (k : K) :
    AList.lookup k (delAll fields h) = if k ∈ fields then none else AList.lookup k h := by
  induction fields generalizing h with
  | nil => rfl
  | cons field fields ih =>
    rw [delAll, List.foldl_cons, ← delAll, ih, lookup_del]
    by_cases later : k ∈ fields
    · simp [later]
    · simp [later]

/-! ### Caches

A hash that caches a source is right as long as everything it holds is what the source holds.
It need not hold everything, so deletions are harmless; what hurts is a source that changes
under a field the hash has. -/

/-- Everything the hash holds is what the source holds. -/
def Agrees (h : Hash K V) (source : K → Option V) : Prop :=
  ∀ k v, AList.lookup k h = some v → source k = some v

namespace Agrees

variable {h : Hash K V} {source later : K → Option V}

theorem empty : Agrees (∅ : Hash K V) source := by
  intro k v found
  cases found

/-- What the source holds can be stored. -/
theorem set (agrees : Agrees h source) {field : K} {v : V} (held : source field = some v) :
    Agrees (AList.insert field v h) source := by
  intro k w found
  rw [lookup_set] at found
  split at found
  · next here =>
    cases found
    exact here ▸ held
  · exact agrees k w found

/-- Also by a command that may not execute. -/
theorem effect_set (agrees : Agrees h source) (reply : Reply) {field : K} {v : V}
    (held : source field = some v) :
    Agrees (reply.effect (AList.insert field v) h) source := by
  rcases reply.effect_cases (AList.insert field v) h with same | set
  · rw [same]
    exact agrees
  · rw [set]
    exact agrees.set held

theorem del (agrees : Agrees h source) (field : K) : Agrees (AList.erase field h) source := by
  intro k w found
  rw [lookup_del] at found
  split at found
  · cases found
  · exact agrees k w found

/-- The source may change where the hash holds nothing. -/
theorem change (agrees : Agrees h source) (same : ∀ k ∈ h.keys, later k = source k) :
    Agrees h later := by
  intro k v found
  have listed : k ∈ h.keys := by
    rw [← AList.mem_keys, ← AList.lookup_isSome, found]
    rfl
  rw [same k listed]
  exact agrees k v found

end Agrees

end Hash

end Remote
