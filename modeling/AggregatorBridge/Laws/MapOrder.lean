import AggregatorBridge.Laws.DlmsRegisters

/-!
# What the order of a map decides

`map_payload` walks over a `HashMap`, whose order changes from process to process. A register
or a metadata name with one writer is safe. Some have several: the consumption register is
written by the electricity import and by the gas and water volumes, `utility_type` and
`volume_m3` by gas and by water, and `voltage_v`, like every other name that an OBIS code is
given, by that code and by a plain member of the same name.

`order_free_iff` is that this is all: the walk gives the same result in every order exactly for
the payloads whose members do not disagree on anything that two of them write.

The law does not say which of several members wins where they disagree: in one process the order may
be any.
-/

namespace AggregatorBridge

namespace DlmsStack

open Overwrite

variable {F : Type} [Float64 F]

/-- The same energies, and the same metadata as a map. -/
structure SameDecoding (r₁ r₂ : F × F × List (String × Json F)) : Prop where
  generated : r₁.1 = r₂.1
  consumed : r₁.2.1 = r₂.2.1
  metadata : ∀ name, r₁.2.2.lookup name = r₂.2.2.lookup name

/-- A member that writes the consumption register, in kilowatt-hours. -/
def memberKwh (m : String × Json F) : F :=
  Float64.div (numberOrZero m.2) (Float64.ofInt 1000)

/-- No two members disagree on what both of them write. -/
structure OrderFree (members : List (String × Json F)) : Prop where
  names : ∀ m₁ ∈ members, ∀ m₂ ∈ members, ∀ name v₁ v₂,
    (metadataArm m₁.1 m₁.2).lookup name = some v₁ →
      (metadataArm m₂.1 m₂.2).lookup name = some v₂ → v₁ = v₂
  volumes : ∀ m₁ ∈ members, ∀ m₂ ∈ members, isVolumeKey m₁.1 → isVolumeKey m₂.1 →
    memberKwh m₁ = memberKwh m₂

/-! ## Metadata -/

omit [Float64 F] in
theorem lookup_filter_ne (members : List (String × Json F)) (key name : String) :
    (members.filter fun m => m.1 ≠ key).lookup name =
      if name = key then none else members.lookup name := by
  induction members with
  | nil =>
    rw [List.filter_nil, List.lookup_nil, ite_self]
  | cons m members ih =>
    obtain ⟨k, v⟩ := m
    by_cases dropped : k = key
    · subst dropped
      rw [List.filter_cons_of_neg (by simp), ih]
      by_cases same : name = k
      · rw [if_pos same, if_pos same]
      · rw [if_neg same, if_neg same, List.lookup_cons, beq_false_of_ne same]
    · rw [List.filter_cons_of_pos (by simpa using dropped), List.lookup_cons, List.lookup_cons, ih]
      by_cases found : name = k
      · subst found
        rw [beq_self_eq_true]
        exact (if_neg dropped).symm
      · rw [beq_false_of_ne found]

omit [Float64 F] in
theorem lookup_insertMember (members : List (String × Json F)) (m : String × Json F)
    (name : String) :
    (Json.insertMember members m.1 m.2).lookup name =
      if m.1 == name then some m.2 else members.lookup name := by
  obtain ⟨key, value⟩ := m
  rw [Json.insertMember, List.lookup_append, lookup_filter_ne, List.lookup_cons, List.lookup_nil]
  by_cases same : key = name
  · subst same
    simp
  · have other : (name == key) = false := beq_false_of_ne (Ne.symm same)
    simp [same, Ne.symm same, other]

/-- No arm writes a name twice. -/
theorem metadataArm_distinct (m : String × Json F) :
    ((metadataArm m.1 m.2).map Prod.fst).Nodup := by
  have either {c : Prop} [Decidable c] {a b : List (String × Json F)}
      (distinct : (a.map Prod.fst).Nodup) (distinct' : (b.map Prod.fst).Nodup) :
      ((if c then a else b).map Prod.fst).Nodup := by
    split
    · exact distinct
    · exact distinct'
  unfold metadataArm
  repeat' apply either
  all_goals simp

/-- What one member writes under a name. -/
theorem lookup_foldl_arm (name : String) (acc : List (String × Json F)) (m : String × Json F) :
    ((metadataArm m.1 m.2).foldl (fun acc e => Json.insertMember acc e.1 e.2) acc).lookup name =
      if ((metadataArm m.1 m.2).lookup name).isSome then (metadataArm m.1 m.2).lookup name
      else acc.lookup name := by
  have written := foldl_overwrite_key (f := some)
    (fun acc e => lookup_insertMember acc e name) (metadataArm_distinct m) acc
  rw [written]
  cases (metadataArm m.1 m.2).lookup name with
  | none => rfl
  | some v => rfl

theorem collectMetadata_eq (members : List (String × Json F)) :
    collectMetadata members = members.foldl (fun acc m =>
      (metadataArm m.1 m.2).foldl (fun acc e => Json.insertMember acc e.1 e.2) acc) [] := by
  rw [collectMetadata, List.foldl_flatMap]

/-- Where the members agree on every name, the metadata is the same in every order. -/
theorem lookup_collectMetadata_perm {ms₁ ms₂ : List (String × Json F)} (perm : ms₁.Perm ms₂)
    (free : OrderFree ms₁) (name : String) :
    (collectMetadata ms₁).lookup name = (collectMetadata ms₂).lookup name := by
  rw [collectMetadata_eq, collectMetadata_eq]
  refine foldl_eq_of_perm (lookup_foldl_arm name) perm [] fun m mem m' mem' written written' => ?_
  obtain ⟨v, here⟩ := Option.isSome_iff_exists.mp written
  obtain ⟨v', there⟩ := Option.isSome_iff_exists.mp written'
  rw [here, there, free.names m mem m' mem' name v v' here there]

/-- Every member's entry is in the metadata, in some order. -/
theorem exists_perm_lookup {members : List (String × Json F)} {m : String × Json F}
    (mem : m ∈ members) {name : String} {v : Json F}
    (written : (metadataArm m.1 m.2).lookup name = some v) :
    ∃ ms : List (String × Json F), ms.Perm members ∧
      (collectMetadata ms).lookup name = some v := by
  obtain ⟨ms, perm, last⟩ := exists_perm_foldl_eq (lookup_foldl_arm name) mem
    (Option.isSome_iff_exists.mpr ⟨v, written⟩) []
  refine ⟨ms, perm, ?_⟩
  rw [collectMetadata_eq, last, written]

/-! ## Registers -/

/-- The consumption register in kilowatt-hours. -/
def Registers.consumedKwh (regs : Registers F) : F :=
  Float64.div regs.consumedWh (Float64.ofInt 1000)

theorem registerArm_consumedKwh (acc : Registers F) (m : String × Json F) :
    (registerArm acc m.1 m.2).consumedKwh =
      if isVolumeKey m.1 then memberKwh m else acc.consumedKwh := by
  rw [Registers.consumedKwh, registerArm_consumedWh, memberKwh]
  split
  · rfl
  · rfl

/-- The decoded consumption, from the register in kilowatt-hours and the plain number. -/
theorem mapPayload_consumed (members : List (String × Json F)) :
    (mapPayload members).2.1 =
      if (collectRegisters members).obisConsumed then
        (collectRegisters members).consumedKwh
      else
        ((collectRegisters members).plainConsumedKwh.map fun kwh =>
          Float64.div (Float64.mul kwh (Float64.ofInt 1000)) (Float64.ofInt 1000)).getD
            (collectRegisters members).consumedKwh := by
  change Float64.div (resolveWh _ _ _) _ = _
  unfold resolveWh
  split
  · rfl
  · cases (collectRegisters members).plainConsumedKwh with
    | none => rfl
    | some kwh => rfl

/-- A register with one writing key is the same in every order. -/
theorem collect_perm_key {γ : Type} {proj : Registers F → γ} {key : String} {f : Json F → γ}
    (writes : ∀ acc (m : String × Json F), proj (registerArm acc m.1 m.2) =
      if m.1 == key then f m.2 else proj acc)
    (o : JsonObject F) {ms : List (String × Json F)} (perm : o.members.Perm ms) :
    proj (collectRegisters o.members) = proj (collectRegisters ms) := by
  refine foldl_eq_of_perm (f := fun m => f m.2) writes perm _ fun m mem m' mem' here here' => ?_
  have same : m.1 = m'.1 := (beq_iff_eq.mp here).trans (beq_iff_eq.mp here').symm
  rw [List.inj_on_of_nodup_map o.distinct mem mem' same]

theorem mapPayload_generated_perm (o : JsonObject F) {ms : List (String × Json F)}
    (perm : o.members.Perm ms) : (mapPayload o.members).1 = (mapPayload ms).1 := by
  have wh := collect_perm_key registerArm_generatedWh o perm
  have obis := collect_perm_key (f := fun _ => true) registerArm_obisGenerated o perm
  have plain := collect_perm_key registerArm_plainGeneratedKwh o perm
  change Float64.div (resolveWh _ _ _) _ = Float64.div (resolveWh _ _ _) _
  rw [wh, obis, plain]

theorem mapPayload_consumed_perm (o : JsonObject F) {ms : List (String × Json F)}
    (perm : o.members.Perm ms) (free : OrderFree o.members) :
    (mapPayload o.members).2.1 = (mapPayload ms).2.1 := by
  have kwh := foldl_eq_of_perm registerArm_consumedKwh perm Registers.init free.volumes
  have obis := collect_perm_key (f := fun _ => true) registerArm_obisConsumed o perm
  have plain := collect_perm_key registerArm_plainConsumedKwh o perm
  change (collectRegisters o.members).consumedKwh = (collectRegisters ms).consumedKwh at kwh
  rw [mapPayload_consumed, mapPayload_consumed, kwh, obis, plain]

/-- With the electricity import in the payload, every volume is the consumption in some order. -/
theorem exists_perm_consumed (o : JsonObject F) {m : String × Json F} (mem : m ∈ o.members)
    (volume : isVolumeKey m.1) (imported : Obis.elecActiveImportTotal ∈ o.members.map Prod.fst) :
    ∃ ms : List (String × Json F), ms.Perm o.members ∧ (mapPayload ms).2.1 = memberKwh m := by
  obtain ⟨ms, perm, last⟩ :=
    exists_perm_foldl_eq registerArm_consumedKwh (a := m) mem volume Registers.init
  have obis := collect_perm_key (f := fun _ => true) registerArm_obisConsumed o perm.symm
  rw [collect_obisConsumed] at obis
  have present : (o.members.lookup Obis.elecActiveImportTotal).isSome = true := by
    obtain ⟨entry, there, key⟩ := List.mem_map.mp imported
    rw [List.lookup_isSome_iff]
    exact ⟨entry, there, by simp [key]⟩
  refine ⟨ms, perm, ?_⟩
  rw [mapPayload_consumed, ← obis, present, if_pos rfl]
  exact last

/-- Gas and water give `utility_type` different values. -/
theorem gas_water_disagree {members : List (String × Json F)}
    (names : ∀ m₁ ∈ members, ∀ m₂ ∈ members, ∀ name v₁ v₂,
      (metadataArm m₁.1 m₁.2).lookup name = some v₁ →
        (metadataArm m₂.1 m₂.2).lookup name = some v₂ → v₁ = v₂)
    {gas water : Json F} (gasMem : (Obis.gasVolumeTotal, gas) ∈ members)
    (waterMem : (Obis.waterVolumeTotal, water) ∈ members) : False := by
  have same := names _ gasMem _ waterMem "utility_type" (.str "gas") (.str "water") rfl rfl
  simp at same

/-- Without the electricity import, volumes that agree on their names are one volume. -/
theorem volumes_agree (o : JsonObject F)
    (names : ∀ m₁ ∈ o.members, ∀ m₂ ∈ o.members, ∀ name v₁ v₂,
      (metadataArm m₁.1 m₁.2).lookup name = some v₁ →
        (metadataArm m₂.1 m₂.2).lookup name = some v₂ → v₁ = v₂)
    (absent : Obis.elecActiveImportTotal ∉ o.members.map Prod.fst) {m₁ m₂ : String × Json F}
    (mem₁ : m₁ ∈ o.members) (mem₂ : m₂ ∈ o.members) (volume₁ : isVolumeKey m₁.1)
    (volume₂ : isVolumeKey m₂.1) : memberKwh m₁ = memberKwh m₂ := by
  have keys {m : String × Json F} (mem : m ∈ o.members) (volume : isVolumeKey m.1) :
      m.1 = Obis.gasVolumeTotal ∨ m.1 = Obis.waterVolumeTotal := by
    simp only [isVolumeKey, Bool.or_eq_true, beq_iff_eq] at volume
    obtain (imported | gas) | water := volume
    · exact absurd (imported ▸ List.mem_map_of_mem mem) absent
    · exact .inl gas
    · exact .inr water
  by_cases same : m₁.1 = m₂.1
  · rw [List.inj_on_of_nodup_map o.distinct mem₁ mem₂ same]
  · obtain ⟨key₁, v₁⟩ := m₁
    obtain ⟨key₂, v₂⟩ := m₂
    obtain rfl | rfl := keys mem₁ volume₁
    · obtain rfl | rfl := keys mem₂ volume₂
      · exact absurd rfl same
      · exact (gas_water_disagree names mem₁ mem₂).elim
    · obtain rfl | rfl := keys mem₂ volume₂
      · exact (gas_water_disagree names mem₂ mem₁).elim
      · exact absurd rfl same

/-- The walk decodes a payload to the same energies and the same metadata in every order of its
members, exactly if no two members disagree on a metadata name or on the consumption. -/
theorem order_free_iff (o : JsonObject F) :
    (∀ ms₁ ms₂ : List (String × Json F), ms₁.Perm o.members → ms₂.Perm o.members →
      SameDecoding (mapPayload ms₁) (mapPayload ms₂)) ↔ OrderFree o.members := by
  constructor
  · intro same
    have names : ∀ m₁ ∈ o.members, ∀ m₂ ∈ o.members, ∀ name v₁ v₂,
        (metadataArm m₁.1 m₁.2).lookup name = some v₁ →
          (metadataArm m₂.1 m₂.2).lookup name = some v₂ → v₁ = v₂ := by
      intro m₁ mem₁ m₂ mem₂ name v₁ v₂ written₁ written₂
      obtain ⟨ms₁, perm₁, last₁⟩ := exists_perm_lookup mem₁ written₁
      obtain ⟨ms₂, perm₂, last₂⟩ := exists_perm_lookup mem₂ written₂
      have agree := (same ms₁ ms₂ perm₁ perm₂).metadata name
      change (collectMetadata ms₁).lookup name = (collectMetadata ms₂).lookup name at agree
      rw [last₁, last₂] at agree
      exact Option.some.inj agree
    refine ⟨names, fun m₁ mem₁ m₂ mem₂ volume₁ volume₂ => ?_⟩
    by_cases imported : Obis.elecActiveImportTotal ∈ o.members.map Prod.fst
    · obtain ⟨ms₁, perm₁, last₁⟩ := exists_perm_consumed o mem₁ volume₁ imported
      obtain ⟨ms₂, perm₂, last₂⟩ := exists_perm_consumed o mem₂ volume₂ imported
      rw [← last₁, ← last₂]
      exact (same ms₁ ms₂ perm₁ perm₂).consumed
    · exact volumes_agree o names imported mem₁ mem₂ volume₁ volume₂
  · intro free ms₁ ms₂ perm₁ perm₂
    refine ⟨?_, ?_, fun name => ?_⟩
    · rw [← mapPayload_generated_perm o perm₁.symm, ← mapPayload_generated_perm o perm₂.symm]
    · rw [← mapPayload_consumed_perm o perm₁.symm free, ← mapPayload_consumed_perm o perm₂.symm free]
    · change (collectMetadata ms₁).lookup name = (collectMetadata ms₂).lookup name
      rw [← lookup_collectMetadata_perm perm₁.symm free, ← lookup_collectMetadata_perm perm₂.symm free]

/-- An electricity import of five kilowatt-hours and a gas volume of seven are a consumption of
five or of seven. -/
theorem import_and_gas_race :
    ¬ ∀ (o : JsonObject ℚ) (ms₁ ms₂ : List (String × Json ℚ)),
      ms₁.Perm o.members → ms₂.Perm o.members →
        SameDecoding (mapPayload ms₁) (mapPayload ms₂) := by
  intro law
  let imported : String × Json ℚ := (Obis.elecActiveImportTotal, .num (.posInt 5000))
  let gas : String × Json ℚ := (Obis.gasVolumeTotal, .num (.posInt 7000))
  have same := law ⟨[imported, gas], by decide⟩ [imported, gas] [gas, imported] (List.Perm.refl _)
    (List.Perm.swap imported gas [])
  have consumed := same.consumed
  change ((7000 : Int) : ℚ) / ((1000 : Int) : ℚ) = ((5000 : Int) : ℚ) / ((1000 : Int) : ℚ) at consumed
  norm_num at consumed

end DlmsStack

end AggregatorBridge
