import AggregatorBridge.Aggregator
import AggregatorBridge.Lib.Checked
import AggregatorBridge.Lib.Decimal

/-!
# Billing with the arithmetic of its types

`Aggregator` computes with exact energies and an unbounded calendar. The source computes with
`rust_decimal::Decimal`, whose `+` rounds a sum to 96 bits and panics if that is not possible,
and with `chrono::DateTime`, whose `+` and `-` panic outside the calendar. This module is the
aggregator's operations once more, each addition the one of its type, in the order in which the
source performs them. A panic is the end of the task that made it, with the lock released and
the aggregator as far as it got, which is `afterPanic` for a reading; runs of operations end
there.

Peeking and removing only add to instants, so where they return they do exactly what the exact
operations do (`checkedPeekCompletedBinsAt_eq`, `checkedRemoveBins_eq`). Handling a reading also
adds energies, and it does what the exact operation does where the sums are decimals
(`checkedAccumulate_of_exact`).

The difference of two instants is a duration that every pair of instants has, and
`get_window_start` only sets parts of the time of day to smaller ones, so neither can fail.
-/

namespace AggregatorBridge

open Checked

/-- `rust_decimal::Decimal`: 96 bits of mantissa, up to 28 fractional digits. -/
def decimal96 : Decimal.Format where
  limit := 2 ^ 96
  limit_even := by decide
  digits := 28

/-- `a + b` on decimals. -/
def addDecimal (a b : ℚ) : Checked Empty ℚ :=
  unwrap (decimal96.add a b)

/-- The value does not need more than 96 bits before the point, also once it is rounded. -/
def InDecimalRange (x : ℚ) : Prop :=
  |x| < 2 ^ 96 - 1 / 2

instance (x : ℚ) : Decidable (InDecimalRange x) :=
  inferInstanceAs (Decidable (_ < _))

theorem returns_addDecimal {a b : ℚ} : (addDecimal a b).Returns ↔ InDecimalRange (a + b) := by
  have bound : ((decimal96.limit : ℕ) : ℚ) = 2 ^ 96 := by
    norm_num [decimal96]
  unfold addDecimal InDecimalRange
  rw [returns_unwrap, Ne, Decimal.Format.add_eq_none, not_le, bound]

theorem addDecimal_of_representable {a b : ℚ} (exact_ : decimal96.Representable (a + b)) :
    addDecimal a b = ok (a + b) := by
  unfold addDecimal
  rw [Decimal.Format.add_of_representable exact_]
  rfl

namespace DateTime

/-- `self + chrono::Duration::seconds(n)`, with its panic. -/
def checkedAddSecs (t : DateTime) (n : Int) : Checked Empty DateTime :=
  require (t.addSecs n).InCalendar (t.addSecs n)

end DateTime

/-- The reading carries an instant of the calendar. -/
def BillingOp.Timed : BillingOp → Prop
  | .reading _ r => r.timestamp.InCalendar
  | .sweep _ _ => True

namespace Aggregator

/-! ## The operations -/

/-- The energies of a reading added to a pair of totals, the generated one first. -/
def addEnergies (generated consumed : ℚ) (r : BillingReading) : Checked Empty (ℚ × ℚ) := do
  let generated ← addDecimal generated r.generated
  let consumed ← addDecimal consumed r.consumed
  pure (generated, consumed)

/-- The totals of the window, the count, and the zone if there was none. -/
def addTotals (bin : BillingBin) (r : BillingReading) : Checked Empty BillingBin := do
  let totals ← addEnergies bin.energyGenerated bin.energyConsumed r
  pure { bin with
    energyGenerated := totals.1
    energyConsumed := totals.2
    readingCount := bin.readingCount + 1
    zoneCode := bin.zoneCode.or r.zoneCode }

/-- The split of the active tariff. -/
def addTariff (bin : BillingBin) (r : BillingReading) : Checked Empty BillingBin :=
  match r.tariffPeriod with
  | some 1 => do
    let peak ← addEnergies bin.energyGeneratedPeak bin.energyConsumedPeak r
    pure { bin with energyGeneratedPeak := peak.1, energyConsumedPeak := peak.2 }
  | some 2 => do
    let offpeak ← addEnergies bin.energyGeneratedOffpeak bin.energyConsumedOffpeak r
    pure { bin with energyGeneratedOffpeak := offpeak.1, energyConsumedOffpeak := offpeak.2 }
  | _ => pure bin

/-- The peak demand of the window. -/
def trackDemand (bin : BillingBin) (r : BillingReading) : BillingBin :=
  { bin with
    maxDemandKw := r.demandKw.elim bin.maxDemandKw fun d =>
      if bin.maxDemandKw < d then d else bin.maxDemandKw }

/-- One reading into a bin: totals, tariff split, demand. -/
def checkedAccumulate (bin : BillingBin) (r : BillingReading) : Checked Empty BillingBin := do
  let bin ← addTotals bin r
  let bin ← addTariff bin r
  pure (trackDemand bin r)

/-- The bin a reading is accumulated in. -/
def binFor (agg : Aggregator) (r : BillingReading) : BillingBin :=
  (agg.activeBins.lookup r.key).getD (emptyBin r)

/-- `Aggregator::handle_reading`. The end of the window is computed before anything else, also
for a reading that turns out to be late. -/
def checkedHandleReading (agg : Aggregator) (now : DateTime) (r : BillingReading) :
    Checked Empty (Aggregator × Option BillingBin) := do
  let _endTime ← (windowStart r.timestamp).checkedAddSecs (windowMinutes * 60)
  let progress := agg.progress.insert r.meterId (agg.nextProgress now r)
  if agg.IsSettled r.key then pure ({ agg with progress := progress }, none)
  else
    let bin ← checkedAccumulate (agg.binFor r) r
    pure ({ agg with progress := progress, activeBins := agg.activeBins.insert r.key bin },
      some bin)

/-- The split of the active tariff, up to the addition that panics. -/
def tornTariff (bin : BillingBin) (r : BillingReading) : BillingBin :=
  match r.tariffPeriod with
  | some 1 =>
    match addDecimal bin.energyGeneratedPeak r.generated with
    | .ok generated => { bin with energyGeneratedPeak := generated }
    | _ => bin
  | some 2 =>
    match addDecimal bin.energyGeneratedOffpeak r.generated with
    | .ok generated => { bin with energyGeneratedOffpeak := generated }
    | _ => bin
  | _ => bin

/-- A bin that a reading was being added to, up to the addition that panics. -/
def tornBin (bin : BillingBin) (r : BillingReading) : BillingBin :=
  match addDecimal bin.energyGenerated r.generated with
  | .ok generated =>
    match addTotals bin r with
    | .ok bin => tornTariff bin r
    | _ => { bin with energyGenerated := generated }
  | _ => bin

/-- What `handle_reading` leaves behind if it panics. -/
def afterPanic (agg : Aggregator) (now : DateTime) (r : BillingReading) : Aggregator :=
  match (windowStart r.timestamp).checkedAddSecs (windowMinutes * 60) with
  | .ok _ =>
    { agg with
      progress := agg.progress.insert r.meterId (agg.nextProgress now r)
      activeBins := agg.activeBins.insert r.key (tornBin (agg.binFor r) r) }
  | _ => agg

/-- Whether the window of a bin is over. Either way `end_time + grace` is computed first. -/
def checkedIsCompleted (agg : Aggregator) (now : DateTime) (grace : Int) (bin : BillingBin) :
    Checked Empty Bool :=
  match agg.progress.lookup bin.meterId with
  | some p => do
    let due ← bin.endTime.checkedAddSecs grace
    pure (decide (due ≤ p.watermark) ||
      (decide (0 < grace) && decide (grace * 1000000000 ≤ now.durationSince p.lastArrival) &&
        decide (bin.endTime ≤ now)))
  | none => do
    let due ← bin.endTime.checkedAddSecs grace
    pure (decide (due ≤ now))

/-- `Aggregator::peek_completed_bins_at`. -/
def checkedPeekCompletedBinsAt (agg : Aggregator) (now : DateTime) (grace : Int) :
    Checked Empty (List BillingBin) :=
  Checked.filter (agg.checkedIsCompleted now grace) agg.bins

/-- The settled windows of a meter with one more, less those before the horizon. -/
def checkedNextSettled (agg : Aggregator) (key : BinKey) : Checked Empty (List DateTime) :=
  let windows := key.2 :: (agg.settled.lookup key.1).getD []
  match agg.progress.lookup key.1 with
  | some p => do
    let horizon ← p.watermark.checkedAddSecs (-(settledRetentionHours * 3600))
    pure (windows.filter fun w => horizon ≤ w)
  | none => pure windows

/-- One key of `remove_bins`. -/
def checkedRemoveBin (agg : Aggregator) (key : BinKey) : Checked Empty Aggregator := do
  let windows ← agg.checkedNextSettled key
  pure { agg with
    activeBins := agg.activeBins.erase key
    settled := agg.settled.insert key.1 windows }

/-- As `removeBins`, with the arithmetic of every removal checked. -/
def checkedRemoveBins (agg : Aggregator) (keys : List BinKey) : Checked Empty Aggregator :=
  keys.foldlM checkedRemoveBin agg

/-- As `next`, for values that may leave the range of a decimal or of the calendar, where the
operation panics. -/
def checkedNext (agg : Aggregator) : BillingOp → Checked Empty Aggregator
  | .reading now r => do
    let (agg, _) ← agg.checkedHandleReading now r
    pure agg
  | .sweep now grace => do
    let bins ← agg.checkedPeekCompletedBinsAt now grace
    agg.checkedRemoveBins (bins.map BillingBin.key)

/-- The aggregator after some operations, if none of them panicked. -/
def checkedAfter (agg : Aggregator) (ops : List BillingOp) : Checked Empty Aggregator :=
  ops.foldlM checkedNext agg

/-! ## When they return -/

variable {agg : Aggregator} {now : DateTime} {grace : Int} {r : BillingReading}

/-- What is true of every sum that a reading makes in its bin: the totals, and those of its
tariff. -/
structure Sums (P : ℚ → Prop) (bin : BillingBin) (r : BillingReading) : Prop where
  generated : P (bin.energyGenerated + r.generated)
  consumed : P (bin.energyConsumed + r.consumed)
  peak : r.tariffPeriod = some 1 →
    P (bin.energyGeneratedPeak + r.generated) ∧ P (bin.energyConsumedPeak + r.consumed)
  offpeak : r.tariffPeriod = some 2 →
    P (bin.energyGeneratedOffpeak + r.generated) ∧ P (bin.energyConsumedOffpeak + r.consumed)

/-- A reading keeps its bin in range. -/
abbrev Fits (bin : BillingBin) (r : BillingReading) : Prop :=
  Sums InDecimalRange bin r

theorem returns_addEnergies {generated consumed : ℚ} :
    (addEnergies generated consumed r).Returns ↔
      InDecimalRange (generated + r.generated) ∧ InDecimalRange (consumed + r.consumed) := by
  unfold addEnergies
  rw [returns_bind, returns_addDecimal]
  constructor
  · rintro ⟨first, then_⟩
    obtain ⟨x, sum⟩ := exists_ok (returns_addDecimal.mpr first)
    exact ⟨first, returns_addDecimal.mp (returns_bind.mp (then_ x sum)).1⟩
  · rintro ⟨first, second⟩
    refine ⟨first, fun x _ => returns_bind.mpr ⟨returns_addDecimal.mpr second, ?_⟩⟩
    exact fun y _ => returns_ok _

theorem returns_addTariff {bin : BillingBin} :
    (addTariff bin r).Returns ↔
      (r.tariffPeriod = some 1 → InDecimalRange (bin.energyGeneratedPeak + r.generated) ∧
        InDecimalRange (bin.energyConsumedPeak + r.consumed)) ∧
      (r.tariffPeriod = some 2 → InDecimalRange (bin.energyGeneratedOffpeak + r.generated) ∧
        InDecimalRange (bin.energyConsumedOffpeak + r.consumed)) := by
  unfold addTariff
  split
  · next peak =>
    rw [returns_bind_pure, returns_addEnergies]
    simp [peak]
  · next offpeak =>
    rw [returns_bind_pure, returns_addEnergies]
    simp [offpeak]
  · next notPeak notOffpeak =>
    exact iff_of_true (returns_ok _) ⟨fun peak => (notPeak peak).elim,
      fun offpeak => (notOffpeak offpeak).elim⟩

theorem returns_checkedAccumulate {bin : BillingBin} :
    (checkedAccumulate bin r).Returns ↔ Fits bin r := by
  unfold checkedAccumulate addTotals
  rw [returns_bind, returns_bind_pure, returns_addEnergies]
  -- The totals do not touch the split.
  have split_ {totals : ℚ × ℚ} : (addTariff { bin with
      energyGenerated := totals.1
      energyConsumed := totals.2
      readingCount := bin.readingCount + 1
      zoneCode := bin.zoneCode.or r.zoneCode } r).Returns ↔ (addTariff bin r).Returns := by
    rw [returns_addTariff, returns_addTariff]
  constructor
  · rintro ⟨totals, then_⟩
    obtain ⟨sums, added⟩ := exists_ok (returns_addEnergies.mpr totals)
    have rest := then_ _ (by rw [added, ok_bind, pure_eq])
    rw [returns_bind_pure, split_, returns_addTariff] at rest
    exact ⟨totals.1, totals.2, rest.1, rest.2⟩
  · intro fits
    refine ⟨⟨fits.generated, fits.consumed⟩, fun bin' added => ?_⟩
    obtain ⟨sums, _, same⟩ := bind_eq_ok added
    cases same
    rw [returns_bind_pure, split_, returns_addTariff]
    exact ⟨fits.peak, fits.offpeak⟩

/-- A window ends within the calendar unless it is the calendar's last one. -/
theorem windowEnd_inCalendar {t : DateTime} (inCalendar : t.InCalendar) :
    ((windowStart t).addSecs (windowMinutes * 60)).InCalendar ↔
      t.secs + 900 ≤ DateTime.maxSecs := by
  have ends :
      ((windowStart t).addSecs (windowMinutes * 60)).secs = t.secs - t.secs % 900 + 900 := by
    rw [windowStart_eq]
    rfl
  unfold DateTime.InCalendar at *
  rw [ends]
  unfold DateTime.minSecs DateTime.maxSecs at *
  omega

/-- The reading can be added to its bin, if its window is still open, and the window ends. -/
def Takes (agg : Aggregator) (r : BillingReading) : Prop :=
  ((windowStart r.timestamp).addSecs (windowMinutes * 60)).InCalendar ∧
    (¬ agg.IsSettled r.key → Fits (agg.binFor r) r)

/-- Billing a reading panics exactly where one of its sums leaves its range. -/
theorem returns_iff_takes : (agg.checkedHandleReading now r).Returns ↔ agg.Takes r := by
  unfold checkedHandleReading DateTime.checkedAddSecs Takes
  rw [require_bind]
  split
  · next ends =>
    simp only [ends, true_and]
    split
    · next late => simp [late]
    · next accepted =>
      simp only [accepted, not_false_eq_true, forall_const]
      rw [returns_bind_pure, returns_checkedAccumulate]
  · next never => simp [never]

theorem returns_checkedHandleReading (inCalendar : r.timestamp.InCalendar) :
    (agg.checkedHandleReading now r).Returns ↔
      r.timestamp.secs + 900 ≤ DateTime.maxSecs ∧
        (¬ agg.IsSettled r.key → Fits (agg.binFor r) r) := by
  rw [returns_iff_takes, Takes, windowEnd_inCalendar inCalendar]

/-- Peeking looks at every bin, and where it returns it peeks. -/
theorem checkedPeekCompletedBinsAt_eq :
    agg.checkedPeekCompletedBinsAt now grace =
      require (∀ bin ∈ agg.bins, (bin.endTime.addSecs grace).InCalendar)
        (agg.peekCompletedBinsAt now grace) := by
  have each : agg.checkedIsCompleted now grace = fun bin =>
      require (bin.endTime.addSecs grace).InCalendar (agg.isCompleted now grace bin) := by
    funext bin
    unfold checkedIsCompleted isCompleted DateTime.checkedAddSecs
    cases agg.progress.lookup bin.meterId with
    | none =>
      simp only [require_bind]
      rfl
    | some p =>
      simp only [require_bind]
      rfl
  unfold checkedPeekCompletedBinsAt peekCompletedBinsAt
  rw [each, filter_require]

/-- The retention horizon of the meter is in the calendar. -/
def HasHorizon (agg : Aggregator) (meterId : Uuid) : Prop :=
  ∀ p ∈ agg.progress.lookup meterId,
    (p.watermark.addSecs (-(settledRetentionHours * 3600))).InCalendar

instance (agg : Aggregator) (meterId : Uuid) : Decidable (agg.HasHorizon meterId) :=
  inferInstanceAs (Decidable (∀ p ∈ agg.progress.lookup meterId, _))

/-- The settled windows are looked through only if the day before the watermark can be computed. -/
theorem checkedNextSettled_eq {key : BinKey} :
    agg.checkedNextSettled key = require (agg.HasHorizon key.1) (agg.nextSettled key) := by
  unfold checkedNextSettled nextSettled DateTime.checkedAddSecs
  cases found : agg.progress.lookup key.1 with
  | none =>
    have horizon : agg.HasHorizon key.1 := by simp [HasHorizon, found]
    rw [require_of horizon]
    rfl
  | some p =>
    have iff_ : agg.HasHorizon key.1 ↔
        (p.watermark.addSecs (-(settledRetentionHours * 3600))).InCalendar := by
      simp [HasHorizon, found]
    simp only [require_bind]
    by_cases horizon : agg.HasHorizon key.1
    · rw [if_pos (iff_.mp horizon), require_of horizon]
      rfl
    · rw [if_neg (mt iff_.mpr horizon), require, if_neg horizon]

/-- A removal either panics at the horizon of its meter or does what the unchecked one does. -/
theorem checkedRemoveBin_eq {key : BinKey} :
    agg.checkedRemoveBin key = require (agg.HasHorizon key.1) (agg.removeBin key) := by
  unfold checkedRemoveBin removeBin
  rw [checkedNextSettled_eq, require_bind]
  rfl

/-- Removing bins needs the horizon of each of their meters, and where it returns it removes. -/
theorem checkedRemoveBins_eq (keys : List BinKey) :
    agg.checkedRemoveBins keys =
      require (∀ key ∈ keys, agg.HasHorizon key.1) (agg.removeBins keys) := by
  unfold checkedRemoveBins removeBins
  refine foldlM_require (c := fun key => agg.HasHorizon key.1)
    (P := fun later : Aggregator => later.progress = agg.progress) ?_ ?_ rfl keys
  · exact fun later key same => same
  · intro later key same
    rw [checkedRemoveBin_eq]
    apply require_congr
    unfold HasHorizon
    rw [same]

/-! ## Runs -/

/-- What an operation needs of the aggregator it finds. -/
def Within (agg : Aggregator) : BillingOp → Prop
  | .reading _ r =>
    r.timestamp.secs + 900 ≤ DateTime.maxSecs ∧
      (¬ agg.IsSettled r.key → Fits (agg.binFor r) r)
  | .sweep now grace =>
    (∀ bin ∈ agg.bins, (bin.endTime.addSecs grace).InCalendar) ∧
      ∀ bin ∈ agg.peekCompletedBinsAt now grace, agg.HasHorizon bin.meterId

theorem checkedNext_sweep :
    agg.checkedNext (.sweep now grace) =
      require (∀ bin ∈ agg.bins, (bin.endTime.addSecs grace).InCalendar)
        (agg.peekCompletedBinsAt now grace) >>= fun bins =>
      require (∀ key ∈ bins.map BillingBin.key, agg.HasHorizon key.1)
        (agg.removeBins (bins.map BillingBin.key)) := by
  simp only [checkedNext, checkedPeekCompletedBinsAt_eq, checkedRemoveBins_eq]

theorem returns_checkedNext {op : BillingOp} (timed : op.Timed) :
    (agg.checkedNext op).Returns ↔ agg.Within op := by
  cases op with
  | reading now r =>
    unfold checkedNext
    exact returns_bind_pure.trans (returns_checkedHandleReading timed)
  | sweep now grace =>
    rw [checkedNext_sweep, require_bind]
    unfold Within
    split
    · next ends =>
      rw [returns_require, List.forall_mem_map]
      exact (and_iff_right ends).symm
    · next never => simp [never]

/-- A run returns exactly if each of its operations is within bounds where it begins. -/
theorem returns_checkedAfter {ops : List BillingOp} (timed : ∀ op ∈ ops, op.Timed) :
    (agg.checkedAfter ops).Returns ↔
      ∀ before op later, ops = before ++ op :: later →
        ∀ found, agg.checkedAfter before = ok found → found.Within op := by
  unfold checkedAfter
  induction ops generalizing agg with
  | nil => simp
  | cons op ops ih =>
    have timed_ : op.Timed := timed op List.mem_cons_self
    have rest : ∀ op ∈ ops, op.Timed := fun op mem => timed op (List.mem_cons_of_mem _ mem)
    rw [List.foldlM_cons, returns_bind, returns_checkedNext timed_]
    constructor
    · rintro ⟨first, then_⟩ before op' later split_ found reached
      cases before with
      | nil =>
        cases split_
        cases reached
        exact first
      | cons op'' before =>
        obtain ⟨rfl, tail⟩ := List.cons.inj split_
        rw [List.foldlM_cons] at reached
        obtain ⟨next, moved, reached⟩ := bind_eq_ok reached
        exact (ih rest).mp (then_ next moved) before op' later tail found reached
    · intro each
      refine ⟨each [] op ops rfl agg rfl, fun next moved => ?_⟩
      refine (ih rest).mpr fun before op' later split_ found reached => ?_
      refine each (op :: before) op' later (by rw [split_, List.cons_append]) found ?_
      rw [List.foldlM_cons, moved, ok_bind]
      exact reached

/-! ## Where the arithmetic is exact -/

theorem addEnergies_of_exact {generated consumed : ℚ}
    (first : decimal96.Representable (generated + r.generated))
    (second : decimal96.Representable (consumed + r.consumed)) :
    addEnergies generated consumed r = ok (generated + r.generated, consumed + r.consumed) := by
  unfold addEnergies
  rw [addDecimal_of_representable first, ok_bind, addDecimal_of_representable second, ok_bind,
    pure_eq]

/-- The exact accumulation, its demand last. -/
theorem accumulate_eq (bin : BillingBin) (r : BillingReading) :
    accumulate bin r = trackDemand { accumulate bin r with maxDemandKw := bin.maxDemandKw } r := by
  unfold accumulate trackDemand
  cases r.demandKw with
  | none => rfl
  | some d => rfl

/-- If every sum is a decimal, nothing is rounded and the reading is accumulated. -/
theorem checkedAccumulate_of_exact {bin : BillingBin}
    (exact_ : Sums decimal96.Representable bin r) :
    checkedAccumulate bin r = ok (accumulate bin r) := by
  unfold checkedAccumulate addTotals addTariff
  rw [addEnergies_of_exact exact_.generated exact_.consumed]
  simp only [ok_bind, pure_eq]
  split
  · next peak =>
    obtain ⟨generated, consumed⟩ := exact_.peak peak
    rw [addEnergies_of_exact generated consumed, accumulate_eq]
    simp [accumulate, peak]
  · next offpeak =>
    obtain ⟨generated, consumed⟩ := exact_.offpeak offpeak
    rw [addEnergies_of_exact generated consumed, accumulate_eq]
    simp [accumulate, offpeak]
  · next notPeak notOffpeak =>
    have peak : r.tariffPeriod ≠ some 1 := notPeak
    have offpeak : r.tariffPeriod ≠ some 2 := notOffpeak
    rw [accumulate_eq]
    simp [accumulate, peak, offpeak]

/-- What an operation needs to do exactly what its exact model does. -/
def WithinExactly (agg : Aggregator) (op : BillingOp) : Prop :=
  agg.Within op ∧
    match op with
    | .reading _ r => ¬ agg.IsSettled r.key → Sums decimal96.Representable (agg.binFor r) r
    | .sweep _ _ => True

theorem checkedNext_of_exact {op : BillingOp} (timed : op.Timed) (exact_ : agg.WithinExactly op) :
    agg.checkedNext op = ok (agg.next op) := by
  obtain ⟨within, sums⟩ := exact_
  cases op with
  | reading now r =>
    have ends := (windowEnd_inCalendar timed).mpr within.1
    simp only [checkedNext, checkedHandleReading, DateTime.checkedAddSecs, require_of ends,
      ok_bind, next, handleReading]
    by_cases late : agg.IsSettled r.key
    · rw [if_pos late, if_pos late]
      rfl
    · rw [if_neg late, if_neg late, checkedAccumulate_of_exact (sums late)]
      rfl
  | sweep now grace =>
    have horizons : ∀ key ∈ (agg.peekCompletedBinsAt now grace).map BillingBin.key,
        agg.HasHorizon key.1 :=
      List.forall_mem_map.mpr within.2
    rw [checkedNext_sweep, require_of within.1, ok_bind, require_of horizons]
    rfl

/-- A run whose sums are all decimals is a run of the exact model. -/
theorem checkedAfter_of_exact {ops : List BillingOp} (timed : ∀ op ∈ ops, op.Timed)
    (each : ∀ before op later, ops = before ++ op :: later →
      (agg.after before).WithinExactly op) :
    agg.checkedAfter ops = ok (agg.after ops) := by
  unfold checkedAfter
  induction ops generalizing agg with
  | nil => rfl
  | cons op ops ih =>
    have first : agg.checkedNext op = ok (agg.next op) :=
      checkedNext_of_exact (timed op List.mem_cons_self) (each [] op ops rfl)
    rw [List.foldlM_cons, first, ok_bind]
    refine ih (fun op mem => timed op (List.mem_cons_of_mem _ mem)) ?_
    intro before op' later split_
    exact each (op :: before) op' later (by rw [split_, List.cons_append])

/-! ## Where the bin is kept

Whatever the sums are, and also if one of them panics, a reading changes its own bin and no
other one, and it does not move it. -/

theorem addTotals_key {bin bin' : BillingBin} (added : addTotals bin r = .ok bin') :
    bin'.key = bin.key := by
  obtain ⟨totals, _, rest⟩ := bind_eq_ok added
  cases rest
  rfl

theorem addTariff_key {bin bin' : BillingBin} (added : addTariff bin r = .ok bin') :
    bin'.key = bin.key := by
  unfold addTariff at added
  split at added
  · obtain ⟨peak, _, rest⟩ := bind_eq_ok added
    cases rest
    rfl
  · obtain ⟨offpeak, _, rest⟩ := bind_eq_ok added
    cases rest
    rfl
  · cases added
    rfl

theorem checkedAccumulate_key {bin bin' : BillingBin}
    (accumulated : checkedAccumulate bin r = .ok bin') : bin'.key = bin.key := by
  obtain ⟨counted, totals, rest⟩ := bind_eq_ok accumulated
  obtain ⟨split_, tariff, rest⟩ := bind_eq_ok rest
  cases rest
  calc (trackDemand split_ r).key = split_.key := rfl
    _ = counted.key := addTariff_key tariff
    _ = bin.key := addTotals_key totals

theorem tornTariff_key (bin : BillingBin) : (tornTariff bin r).key = bin.key := by
  unfold tornTariff
  split
  · split <;> rfl
  · split <;> rfl
  · rfl

theorem tornBin_key (bin : BillingBin) : (tornBin bin r).key = bin.key := by
  unfold tornBin
  split
  · split
    · next added => rw [tornTariff_key, addTotals_key added]
    · rfl
  · rfl

theorem Keyed.binFor_key (keyed : agg.Keyed) : (agg.binFor r).key = r.key :=
  keyed.nextBin_key

/-- A reading that returned, late or with its bin. -/
theorem bins_checkedHandleReading (keyed : agg.Keyed) {agg' : Aggregator}
    {updated : Option BillingBin} (handled : agg.checkedHandleReading now r = .ok (agg', updated)) :
    (updated = none ∧ agg'.activeBins = agg.activeBins) ∨
      ∃ bin, updated = some bin ∧ bin.key = r.key ∧
        agg'.activeBins = agg.activeBins.insert r.key bin := by
  obtain ⟨_, _, rest⟩ := bind_eq_ok handled
  split at rest
  · cases rest
    exact .inl ⟨rfl, rfl⟩
  · obtain ⟨bin, accumulated, rest⟩ := bind_eq_ok rest
    cases rest
    exact .inr ⟨bin, rfl, (checkedAccumulate_key accumulated).trans keyed.binFor_key, rfl⟩

theorem bins_afterPanic (keyed : agg.Keyed) :
    (agg.afterPanic now r).activeBins = agg.activeBins ∨
      ∃ bin, bin.key = r.key ∧
        (agg.afterPanic now r).activeBins = agg.activeBins.insert r.key bin := by
  unfold afterPanic
  split
  · exact .inr ⟨_, (tornBin_key _).trans keyed.binFor_key, rfl⟩
  · exact .inl rfl

end Aggregator

end AggregatorBridge
