import AggregatorBridge.CheckedBilling
import AggregatorBridge.ZoneIngester

/-!
# The time-of-use split of a bin

A meter reports its active tariff as a number in the metadata of a reading: one is peak, two is
off-peak, and anything else leaves the split alone. Between the metadata and the bin the number is
cut down to a byte. A tariff from 256 on that ends in the byte 1 or 2 is then taken for one of the
two, and the split gets energy that is not its own (`split_follows_tariff_iff`). A number that does
not fit 64 bits is read as a double, which is no tariff.

The law does not say that a split adds up to the totals: readings without a tariff are in the totals
alone.
-/

namespace AggregatorBridge

variable {F : Type} [Float64 F]

/-- A natural number as `serde_json` reads it: a double, from 2⁶⁴ on. -/
def Json.ofNat (n : Nat) : Json F :=
  .num (if n < 2 ^ 64 then .posInt n else .float (Float64.ofInt n))

/-- What was added to a bin was added to the peak split under tariff one, to the off-peak split
under tariff two, and to neither under any other. -/
structure SplitFollows (n : Nat) (before after : BillingBin) : Prop where
  generatedPeak : after.energyGeneratedPeak - before.energyGeneratedPeak =
    if n = 1 then after.energyGenerated - before.energyGenerated else 0
  consumedPeak : after.energyConsumedPeak - before.energyConsumedPeak =
    if n = 1 then after.energyConsumed - before.energyConsumed else 0
  generatedOffpeak : after.energyGeneratedOffpeak - before.energyGeneratedOffpeak =
    if n = 2 then after.energyGenerated - before.energyGenerated else 0
  consumedOffpeak : after.energyConsumedOffpeak - before.energyConsumedOffpeak =
    if n = 2 then after.energyConsumed - before.energyConsumed else 0

/-- The byte of a tariff is 1 or 2, and the tariff is not. -/
def Mistaken (n : Nat) : Prop :=
  256 ≤ n ∧ n < 2 ^ 64 ∧ (n % 256 = 1 ∨ n % 256 = 2)

instance (n : Nat) : Decidable (Mistaken n) :=
  inferInstanceAs (Decidable (_ ∧ _))

/-- The byte says what the tariff says, unless it is mistaken for it. -/
theorem tariffByte_iff {n : Nat} (right : ¬ Mistaken n) {rate : Nat} (known : rate = 1 ∨ rate = 2) :
    ((Json.ofNat n : Json F).asU64.map (· % 256)) = some rate ↔ n = rate := by
  unfold Mistaken at right
  unfold Json.ofNat
  by_cases fits : n < 2 ^ 64
  · simp only [fits, if_true, Json.asU64, JsonNumber.asU64, Option.map_some, Option.some.injEq]
    omega
  · simp only [fits, if_false, Json.asU64, JsonNumber.asU64, Option.map_none, reduceCtorEq,
      false_iff]
    omega

section Split

variable {codec : DecimalCodec F} {newV5 : String → Uuid} {userId : Uuid}
  {reading : DeviceReading F} {n : Nat}

theorem tariffPeriod_ofDevice (codec : DecimalCodec F) (newV5 : String → Uuid) (userId : Uuid)
    (tariff : reading.metadata.lookup "active_tariff" = some (.ofNat n)) :
    (BillingReading.ofDevice codec newV5 userId reading).tariffPeriod =
      (Json.ofNat n : Json F).asU64.map (· % 256) := by
  change (extractTariffDemand codec reading.metadata).1 = _
  rw [extractTariffDemand, tariff]
  rfl

/-- An accumulated reading follows its tariff unless the byte is mistaken and there is energy. -/
theorem splitFollows_accumulate (bin : BillingBin)
    (tariff : reading.metadata.lookup "active_tariff" = some (.ofNat n)) :
    SplitFollows n bin
        (Aggregator.accumulate bin (.ofDevice codec newV5 userId reading)) ↔
      billedEnergies codec reading.metrics = (0, 0) ∨ ¬ Mistaken n := by
  have period := tariffPeriod_ofDevice codec newV5 userId tariff
  generalize hr : BillingReading.ofDevice codec newV5 userId reading = r at period
  have energies : billedEnergies codec reading.metrics = (r.generated, r.consumed) := by
    rw [← hr]
    rfl
  rw [energies, Prod.mk.injEq]
  have parts : SplitFollows n bin (Aggregator.accumulate bin r) ↔
      ((if r.tariffPeriod = some 1 then r.generated else 0) = if n = 1 then r.generated else 0) ∧
      ((if r.tariffPeriod = some 1 then r.consumed else 0) = if n = 1 then r.consumed else 0) ∧
      ((if r.tariffPeriod = some 2 then r.generated else 0) = if n = 2 then r.generated else 0) ∧
      ((if r.tariffPeriod = some 2 then r.consumed else 0) = if n = 2 then r.consumed else 0) := by
    constructor
    · rintro ⟨first, second, third, fourth⟩
      simp only [Aggregator.accumulate, add_sub_cancel_left] at first second third fourth
      exact ⟨first, second, third, fourth⟩
    · rintro ⟨first, second, third, fourth⟩
      constructor <;> simpa only [Aggregator.accumulate, add_sub_cancel_left]
  rw [parts, period]
  by_cases mistaken : Mistaken n
  · obtain ⟨large, fits, byte⟩ := id mistaken
    have none_ : n ≠ 1 ∧ n ≠ 2 := by omega
    have read : (Json.ofNat n : Json F).asU64.map (· % 256) = some (n % 256) := by
      rw [Json.ofNat, if_pos fits]
      rfl
    rw [read]
    rcases byte with byte | byte
    · simp [none_, byte, mistaken]
    · simp [none_, byte, mistaken]
  · simp only [tariffByte_iff mistaken (.inl rfl), tariffByte_iff mistaken (.inr rfl), and_self,
      mistaken, not_false_eq_true, or_true]

/-- A reading with a tariff changes the split of its bin as the tariff says, exactly if it is late,
or without energy, or its tariff is not mistaken for another. The totals of the bin are not affected
by the tariff. -/
theorem split_follows_tariff_iff (codec : DecimalCodec F) (newV5 : String → Uuid) (userId : Uuid)
    (agg : Aggregator) (now : DateTime) {reading : DeviceReading F} {n : Nat}
    (tariff : reading.metadata.lookup "active_tariff" = some (.ofNat n)) :
    SplitFollows n (agg.binFor (.ofDevice codec newV5 userId reading))
        ((agg.handleReading now (.ofDevice codec newV5 userId reading)).1.binFor
          (.ofDevice codec newV5 userId reading)) ↔
      agg.IsSettled (reading.binKey newV5) ∨ billedEnergies codec reading.metrics = (0, 0) ∨
        ¬ Mistaken n := by
  have key : (BillingReading.ofDevice codec newV5 userId reading).key = reading.binKey newV5 := rfl
  by_cases late : agg.IsSettled (reading.binKey newV5)
  · have same : (agg.handleReading now (.ofDevice codec newV5 userId reading)).1.binFor
        (.ofDevice codec newV5 userId reading) =
          agg.binFor (.ofDevice codec newV5 userId reading) := by
      unfold Aggregator.binFor
      rw [Aggregator.handleReading_late late]
    rw [same]
    refine iff_of_true ?_ (.inl late)
    constructor <;> simp only [sub_self, ite_self]
  · have next : (agg.handleReading now (.ofDevice codec newV5 userId reading)).1.binFor
        (.ofDevice codec newV5 userId reading) =
          Aggregator.accumulate (agg.binFor (.ofDevice codec newV5 userId reading))
            (.ofDevice codec newV5 userId reading) := by
      rw [Aggregator.binFor, Aggregator.lookup_handleReading_accepted late, if_pos rfl]
      rfl
    rw [next, splitFollows_accumulate _ tariff]
    simp only [late, false_or]

end Split

/-- Five kilowatt hours of the meter `MTR-1` under some tariff. -/
def underTariff (n : Nat) : DeviceReading ℚ :=
  { generatedAt 0 5 with metadata := [("active_tariff", .ofNat n)] }

/-- Tariff 1 is peak. -/
theorem tariff_one_is_peak :
    SplitFollows 1 (Aggregator.new.binFor (.ofDevice exactCodec (fun _ => 1) 7 (underTariff 1)))
      ((Aggregator.new.handleReading (.ofSecs 1)
        (.ofDevice exactCodec (fun _ => 1) 7 (underTariff 1))).1.binFor
          (.ofDevice exactCodec (fun _ => 1) 7 (underTariff 1))) :=
  (split_follows_tariff_iff exactCodec (fun _ => 1) 7 Aggregator.new (.ofSecs 1)
    rfl).mpr (.inr (.inr (by decide)))

/-- Tariff 257 is billed as peak. -/
theorem tariff_257_is_billed_as_peak :
    ((Aggregator.new.handleReading (.ofSecs 1)
        (.ofDevice exactCodec (fun _ => 1) 7 (underTariff 257))).1.binFor
          (.ofDevice exactCodec (fun _ => 1) 7 (underTariff 257))).energyGeneratedPeak = 5 ∧
    ¬ SplitFollows 257
      (Aggregator.new.binFor (.ofDevice exactCodec (fun _ => 1) 7 (underTariff 257)))
      ((Aggregator.new.handleReading (.ofSecs 1)
        (.ofDevice exactCodec (fun _ => 1) 7 (underTariff 257))).1.binFor
          (.ofDevice exactCodec (fun _ => 1) 7 (underTariff 257))) := by
  have peak : ((Aggregator.new.handleReading (.ofSecs 1)
      (.ofDevice exactCodec (fun _ => 1) 7 (underTariff 257))).1.binFor
        (.ofDevice exactCodec (fun _ => 1) 7 (underTariff 257))).energyGeneratedPeak = 5 := by
    decide +kernel
  have empty : (Aggregator.new.binFor
      (.ofDevice exactCodec (fun _ => 1) 7 (underTariff 257))).energyGeneratedPeak = 0 := by
    decide +kernel
  refine ⟨peak, ?_⟩
  intro follows
  have added := follows.generatedPeak
  rw [peak, empty, if_neg (by decide)] at added
  exact absurd added (by decide +kernel)

end AggregatorBridge
