import AggregatorBridge.JsonText
import AggregatorBridge.Lib.HashView
import AggregatorBridge.Lib.Run
import AggregatorBridge.StoredFormats

/-!
# What is stored can be loaded

A bin is read back as it was written, but for its decimals, each of which has gone through a double
(`bin_restored_iff`). So it comes back as it was if and only if every one of them does. A document that
lacks fields that came later, or has fields that nobody knows, in whatever order, is read as the bin
with nothing in those fields (`older_bin_loads`).

How a decimal is read back is a parameter. The law does not say which decimals have an exact double.
-/

namespace AggregatorBridge

open Json Remote Transition

variable {F : Type} {json : SerdeJson F} {numbers : NumberSerde F}

/-! ## Documents with other members -/

namespace Json

variable {members members' : List (String × Json F)} {key : String}

/-- The order of the members does not matter. -/
theorem single_perm (perm : members.Perm members') : single members key = single members' key := by
  have found := perm.filter fun m => m.1 = key
  unfold single
  generalize members.filter (fun m => m.1 = key) = l at found ⊢
  generalize members'.filter (fun m => m.1 = key) = l' at found ⊢
  cases l with
  | nil => rw [found.nil_eq]
  | cons a l =>
    cases l with
    | nil => rw [← List.singleton_perm.mp found]
    | cons b l =>
      have long := found.length_eq
      cases l' with
      | nil => cases long
      | cons a' l' =>
        cases l' with
        | nil => cases long
        | cons b' l' => rfl

/-- Members with other keys do not matter. -/
theorem single_append {unknown : List (String × Json F)} (other : key ∉ unknown.map Prod.fst) :
    single (members ++ unknown) key = single members key := by
  have none_ : unknown.filter (fun m => m.1 = key) = [] := by
    refine List.filter_eq_nil_iff.mpr fun m mem here => other ?_
    exact of_decide_eq_true here ▸ List.mem_map_of_mem mem
  unfold single
  rw [List.filter_append, none_, List.append_nil]

/-- Members that are left out are not found, and the others are. -/
theorem single_filter (kept : String → Bool) :
    single (members.filter fun m => kept m.1) key =
      if kept key then single members key else some none := by
  unfold single
  rw [List.filter_filter]
  by_cases keeps : kept key = true
  · have same : (members.filter fun m => decide (m.1 = key) && kept m.1) =
        members.filter fun m => m.1 = key := by
      refine List.filter_congr fun m _ => ?_
      by_cases here : m.1 = key
      · simp [here, keeps]
      · simp [here]
    rw [same, if_pos keeps]
  · have none_ : (members.filter fun m => decide (m.1 = key) && kept m.1) = [] := by
      refine List.filter_eq_nil_iff.mpr fun m _ here => keeps ?_
      obtain ⟨here, keeps⟩ := Bool.and_eq_true_iff.mp here
      exact of_decide_eq_true here ▸ keeps
    rw [none_, if_neg keeps]

/-- Of members with distinct keys each is found. -/
theorem single_of_distinct (distinct : (members.map Prod.fst).Nodup) :
    single members key = some (members.lookup key) := by
  induction members with
  | nil => rfl
  | cons m members ih =>
    obtain ⟨fresh, distinct⟩ := List.nodup_cons.mp distinct
    unfold single
    by_cases here : m.1 = key
    · have others : members.filter (fun m => m.1 = key) = [] := by
        refine List.filter_eq_nil_iff.mpr fun other mem same => fresh ?_
        rw [here, ← of_decide_eq_true same]
        exact List.mem_map_of_mem mem
      rw [List.filter_cons_of_pos (by simpa using here), others, List.lookup_cons, here]
      simp
    · rw [List.filter_cons_of_neg (by simpa using here), List.lookup_cons]
      have other : (key == m.1) = false := beq_false_of_ne (Ne.symm here)
      rw [other]
      exact ih distinct

/-- The fields of an object in which each of them is found or absent. -/
theorem fields_obj {names : List String} {found : String → Option (Json F)}
    (each : ∀ name ∈ names, single members name = some (found name)) :
    fields names (obj members) = some (names.map found) := by
  show names.mapM (single members) = _
  induction names with
  | nil => rfl
  | cons name names ih =>
    have rest := ih fun other mem => each other (List.mem_cons_of_mem _ mem)
    rw [List.mapM_cons, each name List.mem_cons_self, rest]
    rfl

end Json

/-! ## Bins -/

/-- A decimal that is read back as it was. -/
structure NumberSerde.Kept (numbers : NumberSerde F) (json : SerdeJson F) (d : ℚ) : Prop where
  finite : json.isFinite (numbers.toF64 d) = true
  same : numbers.reread d = some d

namespace BillingBin

variable {bin : BillingBin}

/-- The counters are those of the source's types. -/
structure Typed (bin : BillingBin) : Prop where
  readingCount : bin.readingCount < 2 ^ 64
  zoneCode : ∀ zone ∈ bin.zoneCode, zone < 2 ^ 16

/-- The decimals of a bin. -/
def decimals (bin : BillingBin) : List ℚ :=
  [bin.energyGenerated, bin.energyConsumed, bin.energyGeneratedPeak, bin.energyGeneratedOffpeak,
    bin.energyConsumedPeak, bin.energyConsumedOffpeak, bin.maxDemandKw]

/-- The bin with every decimal as it is read back, if all are. -/
def reread (numbers : NumberSerde F) (bin : BillingBin) : Option BillingBin := do
  some { bin with
    energyGenerated := ← numbers.reread bin.energyGenerated
    energyConsumed := ← numbers.reread bin.energyConsumed
    energyGeneratedPeak := ← numbers.reread bin.energyGeneratedPeak
    energyGeneratedOffpeak := ← numbers.reread bin.energyGeneratedOffpeak
    energyConsumedPeak := ← numbers.reread bin.energyConsumedPeak
    energyConsumedOffpeak := ← numbers.reread bin.energyConsumedOffpeak
    maxDemandKw := ← numbers.reread bin.maxDemandKw }

/-- A bin is read back as it was exactly if all of its decimals are. -/
theorem reread_eq_some_iff :
    bin.reread numbers = some bin ↔ ∀ d ∈ bin.decimals, numbers.reread d = some d := by
  simp only [decimals, List.forall_mem_cons]
  constructor
  · intro same
    simp only [reread, Option.bind_eq_bind, Option.bind_eq_some_iff, Option.some.injEq] at same
    obtain ⟨a, ha, b, hb, c, hc, d, hd, e, he, f, hf, g, hg, same⟩ := same
    cases bin
    injection same
    subst_vars
    exact ⟨ha, hb, hc, hd, he, hf, hg, nofun⟩
  · rintro ⟨ha, hb, hc, hd, he, hf, hg, -⟩
    simp [reread, ha, hb, hc, hd, he, hf, hg]

theorem reread_of_stable {loaded : BillingBin} (typed : bin.Typed)
    (stable : ∀ d d', numbers.reread d = some d' → numbers.Kept json d')
    (first : bin.reread numbers = some loaded) :
    loaded.Typed ∧ ∀ d ∈ loaded.decimals, numbers.Kept json d := by
  simp only [reread, Option.bind_eq_bind, Option.bind_eq_some_iff, Option.some.injEq] at first
  obtain ⟨a, ha, b, hb, c, hc, d, hd, e, he, f, hf, g, hg, rfl⟩ := first
  refine ⟨⟨typed.readingCount, typed.zoneCode⟩, ?_⟩
  simp only [decimals, List.forall_mem_cons]
  exact ⟨stable _ _ ha, stable _ _ hb, stable _ _ hc, stable _ _ hd, stable _ _ he, stable _ _ hf,
    stable _ _ hg, nofun⟩

/-- The bin without the fields that are not kept. -/
def keep (kept : String → Bool) (bin : BillingBin) : BillingBin :=
  let decimal (name : String) (d : ℚ) := if kept name then d else 0
  { bin with
    energyGeneratedPeak := decimal "energy_generated_peak" bin.energyGeneratedPeak
    energyGeneratedOffpeak := decimal "energy_generated_offpeak" bin.energyGeneratedOffpeak
    energyConsumedPeak := decimal "energy_consumed_peak" bin.energyConsumedPeak
    energyConsumedOffpeak := decimal "energy_consumed_offpeak" bin.energyConsumedOffpeak
    maxDemandKw := decimal "max_demand_kw" bin.maxDemandKw
    zoneCode := if kept "zone_code" then bin.zoneCode else none }

variable (json) in
theorem members_distinct : ((bin.members json numbers).map Prod.fst).Nodup := by
  simp [members]

/-- What is found of the members that are kept, in the order of the fields. -/
theorem kept_members (kept : String → Bool) :
    ((requiredNames ++ laterNames).map fun name =>
      if kept name then (bin.members json numbers).lookup name else none) =
    [if kept "meter_id" then some (str (json.uuid.display bin.meterId)) else none,
      if kept "user_id" then some (str (json.uuid.display bin.userId)) else none,
      if kept "meter_serial" then some (str bin.meterSerial) else none,
      if kept "start_time" then some (str (json.displayTime bin.startTime)) else none,
      if kept "end_time" then some (str (json.displayTime bin.endTime)) else none,
      if kept "energy_generated" then some (numbers.decimal bin.energyGenerated) else none,
      if kept "energy_consumed" then some (numbers.decimal bin.energyConsumed) else none,
      if kept "reading_count" then some (num (.posInt bin.readingCount)) else none,
      if kept "energy_generated_peak" then some (numbers.decimal bin.energyGeneratedPeak) else none,
      if kept "energy_generated_offpeak" then some (numbers.decimal bin.energyGeneratedOffpeak)
        else none,
      if kept "energy_consumed_peak" then some (numbers.decimal bin.energyConsumedPeak) else none,
      if kept "energy_consumed_offpeak" then some (numbers.decimal bin.energyConsumedOffpeak)
        else none,
      if kept "max_demand_kw" then some (numbers.decimal bin.maxDemandKw) else none,
      if kept "zone_code" then some (zoneJson bin.zoneCode) else none] :=
  rfl

theorem zoneOf_zoneJson (small : ∀ zone ∈ bin.zoneCode, zone < 2 ^ 16) :
    zoneOf (some (zoneJson bin.zoneCode : Json F)) = some bin.zoneCode := by
  cases zone : bin.zoneCode with
  | none => rfl
  | some code =>
    have fits : code < 65536 := small code zone
    simp [zoneJson, zoneOf, asU64, JsonNumber.asU64, Option.filter, fits]

/-- Of an object with the fields that are kept, and maybe others, the bin without the rest is read. -/
theorem fromJson_kept (trips : json.RoundTrips) (typed : bin.Typed) {kept : String → Bool}
    (required : ∀ name ∈ requiredNames, kept name = true)
    (zero : (∀ name, kept name = true) ∨ numbers.reread 0 = some 0)
    {unknown members : List (String × Json F)}
    (strange : ∀ name ∈ unknown.map Prod.fst, name ∉ requiredNames ++ laterNames)
    (order : members.Perm ((bin.members json numbers).filter (fun m => kept m.1) ++ unknown)) :
    fromJson json numbers (obj members) = (bin.keep kept).reread numbers := by
  have found (name : String) (known : name ∈ requiredNames ++ laterNames) :
      single members name =
        some (if kept name then (bin.members json numbers).lookup name else none) := by
    rw [single_perm order, single_append fun mem => strange name mem known, single_filter,
      single_of_distinct (members_distinct json)]
    split <;> rfl
  have each := fields_obj found
  rw [kept_members] at each
  have decimal (name : String) (d : ℚ) :
      numbers.decimalOr (if kept name then some (numbers.decimal d) else none) =
        numbers.reread (if kept name then d else 0) := by
    split
    · rfl
    · next dropped => exact (zero.resolve_left fun all => dropped (all name)).symm
  have zone : zoneOf (if kept "zone_code" then some (zoneJson bin.zoneCode : Json F) else none) =
      some (if kept "zone_code" then bin.zoneCode else none) := by
    split
    · exact zoneOf_zoneJson typed.zoneCode
    · rfl
  simp only [requiredNames, List.forall_mem_cons] at required
  obtain ⟨meterId, userId, serial, start, ends, generated, consumed, count, -⟩ := required
  rw [fromJson, each, Option.bind_some]
  simp only [meterId, userId, serial, start, ends, generated, consumed, count, if_true, ofFields,
    asStr, asU64, JsonNumber.asU64, Option.bind_eq_bind, Option.bind_some, trips.uuids,
    trips.times, decimal, zone]
  rfl

theorem members_written (finite : ∀ d ∈ bin.decimals, json.isFinite (numbers.toF64 d) = true) :
    writtenMembers json.isFinite (bin.members json numbers) = bin.members json numbers := by
  have decimal {d : ℚ} (ok : json.isFinite (numbers.toF64 d) = true) :
      (numbers.decimal d).written json.isFinite = numbers.decimal d := by
    rw [NumberSerde.decimal, Json.written, if_pos ok]
  have zone : (zoneJson bin.zoneCode : Json F).written json.isFinite = zoneJson bin.zoneCode := by
    cases bin.zoneCode <;> rfl
  simp only [decimals, List.forall_mem_cons] at finite
  obtain ⟨a, b, c, d, e, f, g, -⟩ := finite
  refine writtenMembers_eq ?_
  simp only [BillingBin.members, List.forall_mem_cons]
  exact ⟨rfl, rfl, rfl, rfl, rfl, decimal a, decimal b, rfl, decimal c, decimal d, decimal e,
    decimal f, decimal g, zone, List.forall_mem_nil _⟩

theorem members_fit (typed : bin.Typed) : (obj (bin.members json numbers)).fits = true := by
  have count : bin.readingCount < 18446744073709551616 := typed.readingCount
  cases zone : bin.zoneCode with
  | none =>
    simp [BillingBin.members, NumberSerde.decimal, zone, zoneJson, fits, fitsMembers, count]
  | some code =>
    have small : code < 18446744073709551616 := lt_trans (typed.zoneCode code zone) (by decide)
    simp [BillingBin.members, NumberSerde.decimal, zone, zoneJson, fits, fitsMembers, count, small]

end BillingBin

open BillingBin

/-- A bin is read back with each of its decimals as it is read back, so as itself if and only if all
of them are. If what is read of a decimal is read back as it was, then so is a bin that was loaded. -/
theorem bin_restored_iff (trips : json.RoundTrips) {bin : BillingBin} (typed : bin.Typed)
    (finite : ∀ d ∈ bin.decimals, json.isFinite (numbers.toF64 d) = true) :
    (BinCodec.serde json numbers).parse ((BinCodec.serde json numbers).json bin) =
        bin.reread numbers ∧
      ((BinCodec.serde json numbers).parse ((BinCodec.serde json numbers).json bin) = some bin ↔
        ∀ d ∈ bin.decimals, numbers.reread d = some d) ∧
      ((∀ d d', numbers.reread d = some d' → numbers.Kept json d') →
        ∀ loaded, (BinCodec.serde json numbers).parse ((BinCodec.serde json numbers).json bin) =
          some loaded →
        (BinCodec.serde json numbers).parse ((BinCodec.serde json numbers).json loaded) =
          some loaded) := by
  have read {bin : BillingBin} (typed : bin.Typed)
      (finite : ∀ d ∈ bin.decimals, json.isFinite (numbers.toF64 d) = true) :
      (BinCodec.serde json numbers).parse ((BinCodec.serde json numbers).json bin) =
        bin.reread numbers := by
    have whole : (bin.members json numbers).Perm
        ((bin.members json numbers).filter (fun _ => true) ++ []) := by
      rw [List.filter_true, List.append_nil]
    have known : ∀ name ∈ ([] : List (String × Json F)).map Prod.fst,
        name ∉ requiredNames ++ laterNames := by simp
    show (json.fromStr (json.toString _)).bind _ = _
    rw [trips.texts _ (members_fit typed), Option.bind_some, written_obj, members_written finite,
      fromJson_kept trips typed (fun _ _ => rfl) (.inl fun _ => rfl) known whole]
    rfl
  refine ⟨read typed finite, ?_, fun stable loaded first => ?_⟩
  · rw [read typed finite, reread_eq_some_iff]
  · rw [read typed finite] at first
    obtain ⟨typed', kept⟩ := reread_of_stable typed stable first
    rw [read typed' fun d mem => (kept d mem).finite, reread_eq_some_iff]
    exact fun d mem => (kept d mem).same

/-- Fields that came later may be missing, and fields that nobody knows may be there. So a bin that
an older process has stored is loaded, and so is one to which a newer process has added. -/
theorem older_bin_loads (trips : json.RoundTrips) (zero : numbers.reread 0 = some 0)
    {bin : BillingBin} (typed : bin.Typed) {kept : String → Bool}
    (required : ∀ name ∈ requiredNames, kept name = true)
    {unknown members : List (String × Json F)}
    (strange : ∀ name ∈ unknown.map Prod.fst, name ∉ requiredNames ++ laterNames)
    (order : members.Perm ((bin.members json numbers).filter (fun m => kept m.1) ++ unknown))
    {text : String} (document : json.fromStr text = some (obj members)) :
    (BinCodec.serde json numbers).parse text = (bin.keep kept).reread numbers := by
  show (json.fromStr text).bind (fromJson json numbers) = _
  rw [document, Option.bind_some]
  exact fromJson_kept trips typed required (.inr zero) strange order

/-- Whole decimals over whole doubles. -/
private def wholeNumbers : NumberSerde WholeDouble where
  toF64 d := some ⌊d⌋
  decimalOf
    | .num (.float x) => x.map fun n => (n : ℚ)
    | .num (.posInt n) => some n
    | .num (.negInt n) => some n
    | _ => none
  double q := some ⌊q⌋
  value x := ((x.getD 0 : Int) : ℚ)

private theorem reread_whole (n : Int) : wholeNumbers.reread n = some (n : ℚ) := by
  show some ((⌊(n : ℚ)⌋ : Int) : ℚ) = some (n : ℚ)
  rw [Int.floor_intCast]

private def wholeBin : BillingBin :=
  ⟨7, 8, "MTR-001", .ofSecs 1700000000, .ofSecs 1700000900, (12 : Int), (4 : Int), 7, (8 : Int),
    (4 : Int), (3 : Int), (1 : Int), (2 : Int), some 5⟩

private theorem wholeBin_typed : wholeBin.Typed :=
  ⟨by decide, by rintro zone ⟨⟩; decide⟩

theorem whole_bin_restored :
    (BinCodec.serde compactJson wholeNumbers).parse
      ((BinCodec.serde compactJson wholeNumbers).json wholeBin) = some wholeBin := by
  refine (bin_restored_iff compactJson_roundTrips wholeBin_typed fun _ _ => rfl).2.1.mpr ?_
  simp only [decimals, wholeBin, List.forall_mem_cons]
  exact ⟨reread_whole _, reread_whole _, reread_whole _, reread_whole _, reread_whole _,
    reread_whole _, reread_whole _, nofun⟩

/-- The members of a bin from before there were zones, and one that came later. -/
private noncomputable def unzonedMembers : List (String × Json WholeDouble) :=
  ("settled", .bool false) :: (wholeBin.members compactJson wholeNumbers).filter (·.1 ≠ "zone_code")

theorem unzoned_bin_loads :
    (BinCodec.serde compactJson wholeNumbers).parse
      (compactJson.toString (obj unzonedMembers)) = some { wholeBin with zoneCode := none } := by
  have document : compactJson.fromStr (compactJson.toString (obj unzonedMembers)) =
      some (obj unzonedMembers) := compactJson_roundTrips.texts _ rfl
  have order : unzonedMembers.Perm ((wholeBin.members compactJson wholeNumbers).filter
      (fun m => decide (m.1 ≠ "zone_code")) ++ [("settled", .bool false)]) :=
    (List.perm_append_singleton _ _).symm
  have required : ∀ name ∈ requiredNames, decide (name ≠ "zone_code") = true := by decide
  have strange : ∀ name ∈ [("settled", (.bool false : Json WholeDouble))].map Prod.fst,
      name ∉ requiredNames ++ laterNames := by decide
  have rest : wholeBin.keep (fun name => decide (name ≠ "zone_code")) =
      { wholeBin with zoneCode := none } := rfl
  rw [older_bin_loads compactJson_roundTrips (reread_whole 0) wholeBin_typed required strange order
    document, rest]
  refine reread_eq_some_iff.mpr ?_
  simp only [decimals, wholeBin, List.forall_mem_cons]
  exact ⟨reread_whole _, reread_whole _, reread_whole _, reread_whole _, reread_whole _,
    reread_whole _, reread_whole _, nofun⟩

/-! ## Pending mints -/

namespace PendingMint

variable {p : PendingMint} {i : Int}

/-- The milliseconds are of 64 bits, and the energy is a finite double. -/
structure Typed (json : SerdeJson F) (numbers : NumberSerde F) (p : PendingMint) : Prop where
  window : -2 ^ 63 ≤ p.windowStartMs ∧ p.windowStartMs < 2 ^ 63
  enqueued : -2 ^ 63 ≤ p.enqueuedAtMs ∧ p.enqueuedAtMs < 2 ^ 63
  energy : numbers.value (numbers.double p.energyKwh) = p.energyKwh
  finite : json.isFinite (numbers.double p.energyKwh) = true

theorem fits_intJson (small : -2 ^ 63 ≤ i ∧ i < 2 ^ 63) : (intJson i : Json F).fits = true := by
  unfold intJson
  split
  · exact decide_eq_true (by omega)
  · exact Bool.and_eq_true_iff.mpr ⟨decide_eq_true small.1, decide_eq_true (by omega)⟩

theorem asI64_intJson (small : -2 ^ 63 ≤ i ∧ i < 2 ^ 63) :
    (intJson i : Json F).asI64 = some i := by
  unfold intJson
  split
  · next nonneg =>
    have below : i.toNat < 2 ^ 63 := by omega
    show (if i.toNat < 2 ^ 63 then some (i.toNat : Int) else none) = some i
    rw [if_pos below, Int.toNat_of_nonneg nonneg]
  · rfl

theorem written_intJson (finite : F → Bool) : (intJson i : Json F).written finite = intJson i := by
  unfold intJson
  split <;> rfl

variable [Float64 F]

/-- A mint is read back as it was. -/
theorem read_written (trips : json.RoundTrips) (typed : p.Typed json numbers) :
    StoredOutbox.read json numbers (json.toString (p.toJson json numbers)) = some ⟨p, ()⟩ := by
  have fit : (p.toJson json numbers).fits = true := by
    simp [toJson, fits, fitsMembers, fits_intJson typed.window, fits_intJson typed.enqueued]
  have same : (p.toJson json numbers).written json.isFinite = p.toJson json numbers := by
    simp [toJson, written_obj, writtenMembers, written_intJson, Json.written, typed.finite]
  have back : fromJson json numbers (p.toJson json numbers) = some p := by
    simp [fromJson, toJson, fields, single, ofFields, asStr, asF64, JsonNumber.asF64,
      asI64_intJson typed.window, asI64_intJson typed.enqueued, trips.uuids, typed.energy]
  rw [StoredOutbox.read, trips.texts _ fit, same, Option.bind_some, back]
  rfl

end PendingMint

/-! ## The outbox -/

namespace Outbox

variable {cfg : DrainConfig} {s : Outbox Unit} {e : Event}

/-- An entry that is spoiled is none that anybody holds. -/
theorem Holds.of_foreign {t : Outbox Unit} {p : Owed Unit} {isParked : Bool} {field text : String}
    (moved : move cfg s (.foreign isParked field text) = some t) (held : t.Holds p) :
    s.Holds p := by
  cases isParked with
  | true =>
    cases moved
    cases held with
    | outbox at_ found => exact .outbox at_ found
    | parked at_ found =>
      have found : (Reply.ok.effect (AList.erase field) s.parked).lookup at_ = some p := found
      exact .parked at_ (lookup_effect_del found)
    | hand mem => exact .hand mem
  | false =>
    cases moved
    cases held with
    | outbox at_ found =>
      have found : (Reply.ok.effect (AList.erase field) s.outbox).lookup at_ = some p := found
      exact .outbox at_ (lookup_effect_del found)
    | parked at_ found => exact .parked at_ found
    | hand mem => exact .hand mem

/-- Beside loads and commands, a move does not look at the hashes. -/
theorem step_hashes (cfg : DrainConfig) (loads : ∀ nowMs, e ≠ .load nowMs)
    (commands : ∀ k reply, e ≠ .command k reply) (outbox parked : Hash String (Owed Unit)) :
    step cfg { s with outbox := outbox, parked := parked } e =
      (step cfg s e).map fun t => { t with outbox := outbox, parked := parked } := by
  cases e with
  | load nowMs => exact absurd rfl (loads nowMs)
  | examine i =>
    simp only [step, examine]
    cases s.ticks[i]? with
    | none => rfl
    | some tick =>
      cases pending : tick.pending with
      | nil => simp [pending]
      | cons p rest => simp only [Option.bind_eq_bind, Option.bind_some, pending]; split <;> rfl
  | batch i =>
    simp only [step, batch]
    cases s.ticks[i]? with
    | none => rfl
    | some tick => simp only [Option.bind_eq_bind, Option.bind_some]; split <;> rfl
  | publish j resolved =>
    simp only [step, publish]
    cases s.spawned[j]? with
    | none => rfl
    | some attempt =>
      simp only [Option.bind_eq_bind, Option.bind_some, inFlightKeys]
      generalize claim resolved _ attempt.entries = claimed
      cases attempt <;> cases claimed <;> rfl
  | reply j answer =>
    simp only [step, reply]
    cases s.inFlight[j]? with
    | none => rfl
    | some attempt =>
      simp only [Option.bind_eq_bind, Option.bind_some]
      cases confirmed attempt answer <;> rfl
  | command k reply => exact absurd rfl (commands k reply)

end Outbox

namespace StoredOutbox

variable [Float64 F] {cfg : DrainConfig} {s t : StoredOutbox} {e : StoredEvent}

/-- What is enqueued is a mint of the source's types, and what others write is none. -/
def Fits (json : SerdeJson F) (numbers : NumberSerde F) : StoredEvent → Prop
  | .enqueue p _ => p.Typed json numbers
  | .spawn p => p.Typed json numbers
  | .foreign _ _ text => read json numbers text = none
  | _ => True

/-- Every mint in the hashes or in somebody's hands has the types of the source. -/
def Sound (json : SerdeJson F) (numbers : NumberSerde F) (s : StoredOutbox) : Prop :=
  ∀ p, (s.view json numbers).Holds p → p.mint.Typed json numbers

/-- A write of a mint is a write of the mint to who reads. -/
theorem view_write (trips : json.RoundTrips) {p : PendingMint} (typed : p.Typed json numbers)
    (reply : Reply) (texts : Hash String String) :
    Hash.filterMapValues (read json numbers) (reply.effect (write json numbers p) texts) =
      reply.effect (AList.insert p.field ⟨p, ()⟩)
        (Hash.filterMapValues (read json numbers) texts) := by
  have written : Hash.filterMapValues (read json numbers)
        (write json numbers p texts) =
      AList.insert p.field ⟨p, ()⟩ (Hash.filterMapValues (read json numbers) texts) :=
    Hash.filterMapValues_set (PendingMint.read_written trips typed)
  unfold Reply.effect
  split
  · exact written
  · rfl

theorem view_del (reply : Reply) (field : String) (texts : Hash String String) :
    Hash.filterMapValues (read json numbers) (reply.effect (AList.erase field) texts) =
      reply.effect (AList.erase field) (Hash.filterMapValues (read json numbers) texts) := by
  unfold Reply.effect
  split
  · exact Hash.filterMapValues_del
  · rfl

theorem loadAll_eq : s.loadAll json numbers = Hash.values (s.view json numbers).outbox :=
  Hash.values_filterMapValues.symm

theorem view_execute (trips : json.RoundTrips) {call : OutboxCall Unit} {reply : Reply}
    (typed : ∀ p, call = .parkSet p → p.mint.Typed json numbers) :
    (execute json numbers s call reply).view json numbers =
      Outbox.execute (s.view json numbers) call reply := by
  cases call with
  | parkSet p =>
    simp only [execute, view, Outbox.execute, view_write trips (typed p rfl)]
    rfl
  | parkDel field => simp only [execute, view, Outbox.execute, view_del]
  | removeOutbox field => simp only [execute, view, Outbox.execute, view_del]
  | removeParked field => simp only [execute, view, Outbox.execute, view_del]

/-- A move on the texts is that move on the mints. -/
theorem move_of_step (trips : json.RoundTrips) (sound : s.Sound json numbers)
    (fits : Fits json numbers e) (moved : step json numbers cfg s e = some t) :
    Outbox.move cfg (s.view json numbers) e = some (t.view json numbers) := by
  have others {e : Outbox.Event} (loads : ∀ nowMs, e ≠ .load nowMs)
      (commands : ∀ k reply, e ≠ .command k reply)
      (moved : (Outbox.step cfg s.parties e).map
        (fun parties => { s with parties := parties }) = some t) :
      Outbox.move cfg (s.view json numbers) (.party e) = some (t.view json numbers) := by
    obtain ⟨parties, acted, rfl⟩ := Option.map_eq_some_iff.mp moved
    have same := Outbox.step_hashes cfg (s := s.parties) loads commands
      (s.view json numbers).outbox (s.view json numbers).parked
    rw [acted] at same
    exact same
  cases e with
  | enqueue p reply =>
    cases moved
    simp only [Outbox.move, Outbox.enqueue, view, view_write trips fits]
    rfl
  | spawn p =>
    cases moved
    rfl
  | party e =>
    cases e with
    | load nowMs =>
      cases moved
      simp only [Outbox.move, Outbox.step, loadAll_eq]
      rfl
    | command k reply =>
      obtain ⟨call, called, moved⟩ := Option.bind_eq_some_iff.mp moved
      cases moved
      have typed : ∀ p, call = .parkSet p → p.mint.Typed json numbers := by
        rintro p rfl
        refine sound p (.hand (Outbox.calls_subset_hands _ ?_))
        exact List.mem_flatMap.mpr ⟨_, List.mem_of_getElem? called, List.mem_singleton_self p⟩
      rw [view_execute trips typed]
      simp only [Outbox.move, Outbox.step, Outbox.command, view, called]
      rfl
    | examine i => exact others nofun nofun moved
    | batch i => exact others nofun nofun moved
    | publish j resolved => exact others nofun nofun moved
    | reply j answer => exact others nofun nofun moved
  | crash =>
    cases moved
    rfl
  | foreign isParked field text =>
    cases isParked <;> cases moved <;>
      simp only [Outbox.move, view, Hash.filterMapValues_spoil fits]

/-- The mints stay typed. -/
theorem sound_step (trips : json.RoundTrips) (sound : s.Sound json numbers)
    (fits : Fits json numbers e) (moved : step json numbers cfg s e = some t) :
    t.Sound json numbers := by
  intro p held
  have acted := move_of_step trips sound fits moved
  cases e with
  | enqueue q reply =>
    rw [← Option.some.inj acted] at held
    rcases held.of_enqueue with before | rfl
    · exact sound p before
    · exact fits
  | spawn q =>
    rw [← Option.some.inj acted] at held
    rcases held.of_spawn with before | rfl
    · exact sound p before
    · exact fits
  | party e => exact sound p (Outbox.Holds.of_step acted held)
  | crash =>
    rw [← Option.some.inj acted] at held
    exact sound p held.of_crash
  | foreign isParked field text => exact sound p (Outbox.Holds.of_foreign acted held)

/-- Every run of the outbox on texts is a run on mints, whatever fails, crashes or is written by
others, and what is loaded is what is in it. A text that does not parse neither hides a mint nor
stands for one. -/
theorem stored_outbox_refines (trips : json.RoundTrips)
    (chain : Steps (step json numbers cfg) (fun _ e => Fits json numbers e) init s) :
    Steps (Outbox.move cfg) Always Outbox.init (s.view json numbers) ∧
      s.loadAll json numbers = Hash.values (s.view json numbers).outbox := by
  refine ⟨?_, loadAll_eq⟩
  have both : Steps (Outbox.move cfg) Always Outbox.init (s.view json numbers) ∧
      s.Sound json numbers := by
    induction chain with
    | refl =>
      refine ⟨.refl _, fun p held => ?_⟩
      cases held with
      | outbox _ found => cases found
      | parked _ found => cases found
      | hand mem => cases mem
    | tail _ fits moved ih =>
      exact ⟨.tail ih.1 trivial (move_of_step trips ih.2 fits moved),
        sound_step trips ih.2 fits moved⟩
  exact both.1

/-- Twelve units for a window. -/
private def twelve : PendingMint :=
  ⟨"MTR-001", 7, 1700000000000, (12 : Int), 1700000000123⟩

private theorem twelve_typed : twelve.Typed compactJson wholeNumbers where
  window := by decide
  enqueued := by decide
  energy := by
    show ((⌊((12 : Int) : ℚ)⌋ : Int) : ℚ) = ((12 : Int) : ℚ)
    rw [Int.floor_intCast]
  finite := rfl

/-- The text of an empty array. -/
private noncomputable def emptyArray : String :=
  compactJson.toString (.arr [])

private theorem read_emptyArray : read compactJson wholeNumbers emptyArray = none := by
  rw [read, emptyArray, compactJson_roundTrips.texts _ rfl]
  rfl

/-- The outbox after a mint was enqueued, somebody wrote something else, and the process died. -/
private noncomputable def twoEntries : StoredOutbox :=
  ⟨AList.insert "MTR-002" emptyArray (write compactJson wholeNumbers twelve ∅), ∅, Outbox.init⟩

private theorem twoEntries_reached :
    Steps (step compactJson wholeNumbers ⟨0, 50⟩) (fun _ e => Fits compactJson wholeNumbers e) init
      twoEntries := by
  have enqueued : Steps (step compactJson wholeNumbers ⟨0, 50⟩)
      (fun _ e => Fits compactJson wholeNumbers e) init
      ⟨write compactJson wholeNumbers twelve ∅, ∅, Outbox.init⟩ :=
    .tail (e := .enqueue twelve .ok) (.refl _) twelve_typed rfl
  refine .tail (e := .crash) (.tail (e := .foreign false "MTR-002" emptyArray) enqueued ?_ rfl)
    trivial rfl
  exact read_emptyArray

/-- The mint is loaded, and the rest is not. -/
theorem spoiled_outbox_loads :
    twoEntries.loadAll compactJson wholeNumbers = [⟨twelve, ()⟩] := by
  rw [(stored_outbox_refines compactJson_roundTrips twoEntries_reached).2]
  have spoiled : (twoEntries.view compactJson wholeNumbers).outbox =
      AList.erase "MTR-002" (AList.insert twelve.field ⟨twelve, ()⟩ ∅) := by
    show Hash.filterMapValues _ (AList.insert _ _ (AList.insert _ _ ∅)) = _
    rw [Hash.filterMapValues_spoil read_emptyArray,
      Hash.filterMapValues_set (PendingMint.read_written compactJson_roundTrips twelve_typed)]
    rfl
  rw [spoiled]
  decide +kernel

end StoredOutbox

end AggregatorBridge
