import AggregatorBridge.Dlms
import AggregatorBridge.Lib.Overwrite
import Mathlib.Tactic.SplitIfs

/-!
# Which member of a payload ends up in which register

The walk of `map_payload` writes registers as it meets their keys, so a register holds what
the LAST member that writes it left there. For the registers with one key that is simply the
member under the key. The consumption register has three keys: the electricity import, and
the gas and water volumes that are tracked in its place; between those the iteration order of
the map decides.

`decoded_consumed` and `decoded_generated` put the registers together: which member the
decoded energies are read from, for every object and every order of its members.

Nothing is said of which member comes last: that is the order of the map, and `MapOrder` has what
hangs on it.
-/

namespace AggregatorBridge

namespace DlmsStack

/-! ## Folds that overwrite -/

section Overwrite

variable {β γ V : Type}

/-- With distinct keys the last member under a key is the one a lookup finds. -/
theorem getLast?_filter_key {members : List (String × V)} {key : String}
    (distinct : (members.map Prod.fst).Nodup) :
    ((members.filter fun m => m.1 == key).getLast?).map Prod.snd = members.lookup key := by
  induction members with
  | nil => rfl
  | cons m members ih =>
    obtain ⟨k, v⟩ := m
    rw [List.map_cons, List.nodup_cons] at distinct
    by_cases here : k = key
    · subst here
      have others : members.filter (fun m => m.1 == k) = [] := by
        rw [List.filter_eq_nil_iff]
        intro m mem same
        have found : m.1 ∈ members.map Prod.fst := List.mem_map_of_mem mem
        rw [beq_iff_eq.mp same] at found
        exact distinct.1 found
      simp [others]
    · have passed : (k == key) = false := by simpa using here
      have passed' : (key == k) = false := by simpa using Ne.symm here
      rw [List.lookup_cons, passed', List.filter_cons, if_neg (by simp [passed])]
      exact ih distinct.2

/-- A value with one writing key is the one under that key. -/
theorem foldl_overwrite_key {step : β → String × V → β} {proj : β → γ} {key : String}
    {f : V → γ}
    (writes : ∀ acc m, proj (step acc m) = if m.1 == key then f m.2 else proj acc)
    {members : List (String × V)} (distinct : (members.map Prod.fst).Nodup) (acc : β) :
    proj (members.foldl step acc) = ((members.lookup key).map f).getD (proj acc) := by
  rw [Overwrite.foldl_eq writes, ← getLast?_filter_key distinct]
  cases (members.filter fun m => m.1 == key).getLast? with
  | none => rfl
  | some m => rfl

end Overwrite

/-! ## The registers after the walk -/

variable {F : Type} [Float64 F]

/-- The keys that write the consumption register. -/
def isVolumeKey (key : String) : Bool :=
  key == Obis.elecActiveImportTotal || key == Obis.gasVolumeTotal ||
    key == Obis.waterVolumeTotal

theorem registerArm_consumedWh (acc : Registers F) (m : String × Json F) :
    (registerArm acc m.1 m.2).consumedWh =
      if isVolumeKey m.1 then numberOrZero m.2 else acc.consumedWh := by
  unfold registerArm isVolumeKey
  split_ifs <;> simp_all [Obis.elecActiveImportTotal, Obis.elecActiveExportTotal,
    Obis.gasVolumeTotal, Obis.waterVolumeTotal]

theorem registerArm_generatedWh (acc : Registers F) (m : String × Json F) :
    (registerArm acc m.1 m.2).generatedWh =
      if m.1 == Obis.elecActiveExportTotal then numberOrZero m.2 else acc.generatedWh := by
  unfold registerArm
  split_ifs <;> simp_all [Obis.elecActiveImportTotal, Obis.elecActiveExportTotal]

theorem registerArm_plainGeneratedKwh (acc : Registers F) (m : String × Json F) :
    (registerArm acc m.1 m.2).plainGeneratedKwh =
      if m.1 == "energy_generated" then m.2.asF64 else acc.plainGeneratedKwh := by
  unfold registerArm
  split_ifs <;> simp_all [Obis.elecActiveImportTotal, Obis.elecActiveExportTotal]

theorem registerArm_plainConsumedKwh (acc : Registers F) (m : String × Json F) :
    (registerArm acc m.1 m.2).plainConsumedKwh =
      if m.1 == "energy_consumed" then m.2.asF64 else acc.plainConsumedKwh := by
  unfold registerArm
  split_ifs <;> simp_all [Obis.elecActiveImportTotal, Obis.elecActiveExportTotal]

theorem registerArm_obisGenerated (acc : Registers F) (m : String × Json F) :
    (registerArm acc m.1 m.2).obisGenerated =
      if m.1 == Obis.elecActiveExportTotal then true else acc.obisGenerated := by
  unfold registerArm
  split_ifs <;> simp_all [Obis.elecActiveImportTotal, Obis.elecActiveExportTotal]

theorem registerArm_obisConsumed (acc : Registers F) (m : String × Json F) :
    (registerArm acc m.1 m.2).obisConsumed =
      if m.1 == Obis.elecActiveImportTotal then true else acc.obisConsumed := by
  unfold registerArm
  split_ifs <;> simp_all [Obis.elecActiveImportTotal]

/-- The member that writes the consumption register last. -/
def lastVolume (members : List (String × Json F)) : Option (String × Json F) :=
  (members.filter fun m => isVolumeKey m.1).getLast?

/-- The register is in watt hours. -/
def volumeKwh (members : List (String × Json F)) : F :=
  match lastVolume members with
  | some m => Float64.div (numberOrZero m.2) (Float64.ofInt 1000)
  | none => Float64.ofInt 0

theorem collect_consumedWh (members : List (String × Json F)) :
    (collectRegisters members).consumedWh =
      ((lastVolume members).map fun m => numberOrZero m.2).getD (Float64.ofInt 0) :=
  Overwrite.foldl_eq registerArm_consumedWh members Registers.init

theorem collect_obisConsumed (o : JsonObject F) :
    (collectRegisters o.members).obisConsumed =
      (o.members.lookup Obis.elecActiveImportTotal).isSome := by
  refine (foldl_overwrite_key (f := fun _ => true) registerArm_obisConsumed o.distinct _).trans ?_
  cases o.members.lookup Obis.elecActiveImportTotal <;> rfl

theorem collect_obisGenerated (o : JsonObject F) :
    (collectRegisters o.members).obisGenerated =
      (o.members.lookup Obis.elecActiveExportTotal).isSome := by
  refine (foldl_overwrite_key (f := fun _ => true) registerArm_obisGenerated o.distinct _).trans ?_
  cases o.members.lookup Obis.elecActiveExportTotal <;> rfl

theorem collect_generatedWh (o : JsonObject F) :
    (collectRegisters o.members).generatedWh =
      ((o.members.lookup Obis.elecActiveExportTotal).map numberOrZero).getD (Float64.ofInt 0) :=
  foldl_overwrite_key registerArm_generatedWh o.distinct _

theorem collect_plainConsumedKwh (o : JsonObject F) :
    (collectRegisters o.members).plainConsumedKwh =
      (o.members.lookup "energy_consumed").bind Json.asF64 := by
  refine (foldl_overwrite_key registerArm_plainConsumedKwh o.distinct _).trans ?_
  cases o.members.lookup "energy_consumed" <;> rfl

theorem collect_plainGeneratedKwh (o : JsonObject F) :
    (collectRegisters o.members).plainGeneratedKwh =
      (o.members.lookup "energy_generated").bind Json.asF64 := by
  refine (foldl_overwrite_key registerArm_plainGeneratedKwh o.distinct _).trans ?_
  cases o.members.lookup "energy_generated" <;> rfl

/-! ## The decoded energies -/

variable [ExactScaling F]

/-- The decoded consumption: the register when the OBIS import is present, else the plain
number, else what gas or water left in the register. -/
theorem decoded_consumed (o : JsonObject F) :
    (mapPayload o.members).2.1 =
      if (o.members.lookup Obis.elecActiveImportTotal).isSome then volumeKwh o.members
      else ((o.members.lookup "energy_consumed").bind Json.asF64).getD (volumeKwh o.members) := by
  have register : Float64.div (collectRegisters o.members).consumedWh (Float64.ofInt 1000) =
      volumeKwh o.members := by
    rw [collect_consumedWh, volumeKwh]
    cases lastVolume o.members with
    | none => exact ExactScaling.zero_div_thousand
    | some m => rfl
  change Float64.div (resolveWh _ _ _) _ = _
  rw [collect_obisConsumed, collect_plainConsumedKwh]
  unfold resolveWh
  split
  · exact register
  · cases (o.members.lookup "energy_consumed").bind Json.asF64 with
    | none => exact register
    | some kwh => exact ExactScaling.mul_div_thousand kwh

/-- The decoded generation: the OBIS export when present, else the plain number, else zero. -/
theorem decoded_generated (o : JsonObject F) :
    (mapPayload o.members).1 =
      match o.members.lookup Obis.elecActiveExportTotal with
      | some v => Float64.div (numberOrZero v) (Float64.ofInt 1000)
      | none =>
        ((o.members.lookup "energy_generated").bind Json.asF64).getD (Float64.ofInt 0) := by
  change Float64.div (resolveWh _ _ _) _ = _
  rw [collect_generatedWh, collect_obisGenerated, collect_plainGeneratedKwh]
  unfold resolveWh
  cases o.members.lookup Obis.elecActiveExportTotal with
  | some v => rfl
  | none =>
    cases (o.members.lookup "energy_generated").bind Json.asF64 with
    | none => exact ExactScaling.zero_div_thousand
    | some kwh => exact ExactScaling.mul_div_thousand kwh

end DlmsStack

end AggregatorBridge
