import AggregatorBridge.Models
import Mathlib.Data.List.AList

/-!
# Billing bins

`Aggregator` accumulates readings into fifteen-minute bins, one for each meter and window,
tells the settlement sweep which windows are over, and remembers the windows that were taken
from it so that a straggler cannot form a second bin. The model is the source's state (three
maps) and its operations, with the clock as an argument.

Energies are exact rationals: a bin adds `Decimal`s, and the model does not bound their
scale. A map is a list of entries with distinct keys; the order in which a `HashMap` yields
its values is the order of that list and nothing below depends on it.

Each operation comes with one lemma per map that says what it did to it: `lookup` after the
operation in terms of `lookup` before.
-/

namespace AggregatorBridge

/-- Duration of a billing window in minutes. -/
def windowMinutes : Int := 15

/-- How long a settled window is remembered, in hours of the meter's own time. -/
def settledRetentionHours : Int := 24

/-- `Aggregator::get_window_start`: the quarter of the hour an instant lies in. -/
def windowStart (time : DateTime) : DateTime :=
  let minute := time.minute / windowMinutes * windowMinutes
  DateTime.ofSecs (time.secs - time.secs % 3600 + minute * 60)

/-- A window starts at a whole multiple of 900 seconds. -/
theorem windowStart_eq (time : DateTime) :
    windowStart time = DateTime.ofSecs (time.secs - time.secs % 900) := by
  have floor : time.secs - time.secs % 3600 + time.secs / 60 % 60 / 15 * 15 * 60 =
      time.secs - time.secs % 900 := by
    omega
  simp only [windowStart, DateTime.minute, windowMinutes, floor]

@[simp] theorem windowStart_nanos (time : DateTime) : (windowStart time).nanos = 0 := rfl

/-- Stable identity of a billing bin: meter and window start. -/
abbrev BinKey := Uuid × DateTime

/-- The energy of one meter in one window. -/
structure BillingBin where
  meterId : Uuid
  userId : Uuid
  meterSerial : String
  startTime : DateTime
  endTime : DateTime
  energyGenerated : ℚ
  energyConsumed : ℚ
  readingCount : Nat
  energyGeneratedPeak : ℚ
  energyGeneratedOffpeak : ℚ
  energyConsumedPeak : ℚ
  energyConsumedOffpeak : ℚ
  maxDemandKw : ℚ
  zoneCode : Option Nat
  deriving DecidableEq

namespace BillingBin

/-- A bin is filed under its meter and the start of its window; the serial and the zone are not part
of the key. -/
def key (bin : BillingBin) : BinKey :=
  (bin.meterId, bin.startTime)

/-- The start of the window as the mint keys and the outbox fields spell it. -/
def windowStartMs (bin : BillingBin) : Int :=
  bin.startTime.timestampMillis

/-- The surplus of a bin, which is what its settlement mints if it is positive. -/
def net (bin : BillingBin) : ℚ :=
  bin.energyGenerated - bin.energyConsumed

/-- `BillingBin::net_surplus_kwh`: the mintable amount, if there is one. -/
def netSurplusKwh (bin : BillingBin) : Option ℚ :=
  if 0 < bin.net then some bin.net else none

theorem netSurplusKwh_eq_some {bin : BillingBin} {kwh : ℚ} :
    bin.netSurplusKwh = some kwh ↔ 0 < bin.net ∧ kwh = bin.net := by
  unfold netSurplusKwh
  by_cases surplus : 0 < bin.net
  · simp [surplus, eq_comm]
  · simp [surplus]

end BillingBin

/-- What the aggregator remembers of a meter beside its bins: how far its readings have come, and
when the last of them arrived. -/
structure MeterProgress where
  watermark : DateTime
  lastArrival : DateTime
  deriving DecidableEq

/-- A reading as `handle_reading` takes it, with its energies as decimals. Everything the source
would look up or default has been settled by its caller. -/
structure BillingReading where
  meterId : Uuid
  userId : Uuid
  meterSerial : String
  generated : ℚ
  consumed : ℚ
  timestamp : DateTime
  /-- Active tariff: 1 is peak, 2 is off-peak. -/
  tariffPeriod : Option Nat
  demandKw : Option ℚ
  zoneCode : Option Nat
  deriving DecidableEq

/-- The bin that a reading goes to, whether or not that window is settled already. -/
def BillingReading.key (r : BillingReading) : BinKey :=
  (r.meterId, windowStart r.timestamp)

/-- What the process does to its aggregator after startup. -/
inductive BillingOp where
  | reading (now : DateTime) (r : BillingReading)
  /-- The settlement sweep takes what it peeks, under one lock. -/
  | sweep (now : DateTime) (grace : Int)
  deriving DecidableEq

/-- The in-memory state of billing. -/
structure Aggregator where
  activeBins : AList fun _ : BinKey => BillingBin
  progress : AList fun _ : Uuid => MeterProgress
  settled : AList fun _ : Uuid => List DateTime

namespace Aggregator

/-- An aggregator that has seen no reading; a restart begins here and restores the bins that were
stored. -/
def new : Aggregator :=
  ⟨∅, ∅, ∅⟩

/-- The window was taken from this process already. -/
def IsSettled (agg : Aggregator) (key : BinKey) : Prop :=
  key.2 ∈ (agg.settled.lookup key.1).getD []

instance (agg : Aggregator) (key : BinKey) : Decidable (agg.IsSettled key) :=
  inferInstanceAs (Decidable (_ ∈ _))

/-! ## Handling a reading -/

/-- The progress of a meter after a reading. -/
def nextProgress (agg : Aggregator) (now : DateTime) (r : BillingReading) : MeterProgress :=
  let p := (agg.progress.lookup r.meterId).getD ⟨r.timestamp, now⟩
  ⟨if r.timestamp ≤ p.watermark then p.watermark else r.timestamp, now⟩

/-- A bin nothing has been accumulated in. -/
def emptyBin (r : BillingReading) : BillingBin where
  meterId := r.meterId
  userId := r.userId
  meterSerial := r.meterSerial
  startTime := windowStart r.timestamp
  endTime := (windowStart r.timestamp).addSecs (windowMinutes * 60)
  energyGenerated := 0
  energyConsumed := 0
  readingCount := 0
  energyGeneratedPeak := 0
  energyGeneratedOffpeak := 0
  energyConsumedPeak := 0
  energyConsumedOffpeak := 0
  maxDemandKw := 0
  zoneCode := r.zoneCode

/-- One reading into a bin: totals, tariff split, demand, and the zone if there was none. -/
def accumulate (bin : BillingBin) (r : BillingReading) : BillingBin :=
  { bin with
    energyGenerated := bin.energyGenerated + r.generated
    energyConsumed := bin.energyConsumed + r.consumed
    readingCount := bin.readingCount + 1
    zoneCode := bin.zoneCode.or r.zoneCode
    energyGeneratedPeak :=
      bin.energyGeneratedPeak + if r.tariffPeriod = some 1 then r.generated else 0
    energyConsumedPeak :=
      bin.energyConsumedPeak + if r.tariffPeriod = some 1 then r.consumed else 0
    energyGeneratedOffpeak :=
      bin.energyGeneratedOffpeak + if r.tariffPeriod = some 2 then r.generated else 0
    energyConsumedOffpeak :=
      bin.energyConsumedOffpeak + if r.tariffPeriod = some 2 then r.consumed else 0
    maxDemandKw :=
      match r.demandKw with
      | some d => if bin.maxDemandKw < d then d else bin.maxDemandKw
      | none => bin.maxDemandKw }

/-- The bin of a reading after it was accumulated. -/
def nextBin (agg : Aggregator) (r : BillingReading) : BillingBin :=
  accumulate ((agg.activeBins.lookup r.key).getD (emptyBin r)) r

/-- `Aggregator::handle_reading`: the updated bin, or `none` for a late arrival. Progress is
recorded either way. -/
def handleReading (agg : Aggregator) (now : DateTime) (r : BillingReading) :
    Aggregator × Option BillingBin :=
  let progress := agg.progress.insert r.meterId (agg.nextProgress now r)
  if agg.IsSettled r.key then ({ agg with progress := progress }, none)
  else
    let bin := agg.nextBin r
    ({ agg with progress := progress, activeBins := agg.activeBins.insert r.key bin }, some bin)

/-! ## Settling windows -/

/-- A bin whose window is over: the meter's own time has passed it, or the meter has been
quiet for the grace period, or, without progress, the wall clock has passed it. -/
def isCompleted (agg : Aggregator) (now : DateTime) (grace : Int) (bin : BillingBin) : Bool :=
  match agg.progress.lookup bin.meterId with
  | some p =>
    decide (bin.endTime.addSecs grace ≤ p.watermark) ||
      (decide (0 < grace) && decide (grace * 1000000000 ≤ now.durationSince p.lastArrival) &&
        decide (bin.endTime ≤ now))
  | none => decide (bin.endTime.addSecs grace ≤ now)

/-- The bins that are being filled, in the order of the map, on which nothing depends. -/
def bins (agg : Aggregator) : List BillingBin :=
  agg.activeBins.entries.map Sigma.snd

/-- `Aggregator::peek_completed_bins_at`, with the grace in seconds. -/
def peekCompletedBinsAt (agg : Aggregator) (now : DateTime) (grace : Int) : List BillingBin :=
  agg.bins.filter (agg.isCompleted now grace)

/-- Remembers a settled window and forgets the ones a day of meter time behind. -/
def nextSettled (agg : Aggregator) (key : BinKey) : List DateTime :=
  let windows := key.2 :: (agg.settled.lookup key.1).getD []
  match agg.progress.lookup key.1 with
  | some p => windows.filter fun w => p.watermark.addSecs (-(settledRetentionHours * 3600)) ≤ w
  | none => windows

/-- One key of `remove_bins`. -/
def removeBin (agg : Aggregator) (key : BinKey) : Aggregator :=
  { agg with
    activeBins := agg.activeBins.erase key
    settled := agg.settled.insert key.1 (agg.nextSettled key) }

/-- What a sweep does with the bins it has taken, one key after the other. -/
def removeBins (agg : Aggregator) (keys : List BinKey) : Aggregator :=
  keys.foldl removeBin agg

/-- What a start does with the bins that were loaded. A later bin under one key replaces an earlier
one, and the progress of the meters is not restored. -/
def restoreBins (agg : Aggregator) (bins : List BillingBin) : Aggregator :=
  bins.foldl (fun agg bin => { agg with activeBins := agg.activeBins.insert bin.key bin }) agg

/-! ## One process -/

/-- The bins an operation hands out for settlement. -/
def swept (agg : Aggregator) : BillingOp → List BillingBin
  | .reading _ _ => []
  | .sweep now grace => agg.peekCompletedBinsAt now grace

/-- One operation of the two that change the aggregator; what a sweep takes is read off the state
before it. -/
def next (agg : Aggregator) : BillingOp → Aggregator
  | .reading now r => (agg.handleReading now r).1
  | .sweep now grace => agg.removeBins ((agg.peekCompletedBinsAt now grace).map BillingBin.key)

/-- The aggregator after some operations. -/
def after (agg : Aggregator) (ops : List BillingOp) : Aggregator :=
  ops.foldl next agg

/-- Every bin is filed under its own key. -/
def Keyed (agg : Aggregator) : Prop :=
  ∀ key bin, agg.activeBins.lookup key = some bin → bin.key = key

/-! ## What the operations do to the maps -/

variable {agg : Aggregator} {now : DateTime} {r : BillingReading} {key : BinKey}

@[simp] theorem accumulate_key (bin : BillingBin) (r : BillingReading) :
    (accumulate bin r).key = bin.key := rfl

@[simp] theorem accumulate_generated (bin : BillingBin) (r : BillingReading) :
    (accumulate bin r).energyGenerated = bin.energyGenerated + r.generated := rfl

@[simp] theorem accumulate_consumed (bin : BillingBin) (r : BillingReading) :
    (accumulate bin r).energyConsumed = bin.energyConsumed + r.consumed := rfl

@[simp] theorem accumulate_readingCount (bin : BillingBin) (r : BillingReading) :
    (accumulate bin r).readingCount = bin.readingCount + 1 := rfl

/-- A reading is late exactly when its window was settled. -/
theorem handleReading_eq_none : (agg.handleReading now r).2 = none ↔ agg.IsSettled r.key := by
  unfold handleReading
  by_cases late : agg.IsSettled r.key
  · simp [late]
  · simp [late]

/-- A late reading leaves the bins alone. -/
theorem handleReading_late (late : agg.IsSettled r.key) :
    (agg.handleReading now r).1.activeBins = agg.activeBins := by
  simp [handleReading, late]

/-- An accepted reading replaces its own bin and no other. -/
theorem handleReading_accepted (open_ : ¬ agg.IsSettled r.key) :
    (agg.handleReading now r).1.activeBins = agg.activeBins.insert r.key (agg.nextBin r) := by
  simp [handleReading, open_]

@[simp] theorem handleReading_settled :
    (agg.handleReading now r).1.settled = agg.settled := by
  unfold handleReading
  split <;> rfl

/-- A reading settles nothing. -/
theorem isSettled_handleReading :
    (agg.handleReading now r).1.IsSettled key ↔ agg.IsSettled key := by
  unfold IsSettled
  rw [handleReading_settled]

@[simp] theorem handleReading_progress :
    (agg.handleReading now r).1.progress =
      agg.progress.insert r.meterId (agg.nextProgress now r) := by
  unfold handleReading
  split <;> rfl

/-- The removed keys are gone, every other bin stays. -/
theorem lookup_removeBins (keys : List BinKey) :
    (agg.removeBins keys).activeBins.lookup key =
      if key ∈ keys then none else agg.activeBins.lookup key := by
  induction keys generalizing agg with
  | nil => rfl
  | cons k keys ih =>
    rw [removeBins, List.foldl_cons, ← removeBins, ih]
    by_cases later : key ∈ keys
    · simp [later]
    · by_cases here : key = k
      · subst here
        simp [removeBin]
      · simp [later, here, removeBin, AList.lookup_erase_ne here]

/-- A restore knows nothing of progress and settled windows. -/
theorem restoreBins_else (agg : Aggregator) (bins : List BillingBin) :
    (agg.restoreBins bins).progress = agg.progress ∧
      (agg.restoreBins bins).settled = agg.settled := by
  induction bins generalizing agg with
  | nil => exact ⟨rfl, rfl⟩
  | cons bin bins ih => exact ih { agg with activeBins := agg.activeBins.insert bin.key bin }

/-- After a restore a key holds the last bin restored under it, if any. -/
theorem lookup_restoreBins_of_not_mem {bins : List BillingBin}
    (absent : ∀ bin ∈ bins, bin.key ≠ key) :
    (agg.restoreBins bins).activeBins.lookup key = agg.activeBins.lookup key := by
  induction bins generalizing agg with
  | nil => rfl
  | cons bin bins ih =>
    rw [restoreBins, List.foldl_cons, ← restoreBins,
      ih fun b mem => absent b (List.mem_cons_of_mem _ mem)]
    exact AList.lookup_insert_ne (absent bin List.mem_cons_self).symm

/-- What a restore put under a key was restored under it. -/
theorem mem_of_lookup_restoreBins {bins : List BillingBin} {bin : BillingBin}
    (found : (agg.restoreBins bins).activeBins.lookup key = some bin) :
    agg.activeBins.lookup key = some bin ∨ (bin ∈ bins ∧ bin.key = key) := by
  induction bins generalizing agg with
  | nil => exact .inl found
  | cons b bins ih =>
    rw [restoreBins, List.foldl_cons, ← restoreBins] at found
    rcases ih found with earlier | ⟨mem, keyed⟩
    · by_cases here : key = b.key
      · subst here
        rw [AList.lookup_insert] at earlier
        cases earlier
        exact .inr ⟨List.mem_cons_self, rfl⟩
      · rw [AList.lookup_insert_ne here] at earlier
        exact .inl earlier
    · exact .inr ⟨List.mem_cons_of_mem _ mem, keyed⟩

/-- A bin that is the only one restored under its key is found there. -/
theorem lookup_restoreBins_of_mem {bins : List BillingBin} {bin : BillingBin}
    (mem : bin ∈ bins) (only : ∀ b ∈ bins, b.key = bin.key → b = bin) :
    (agg.restoreBins bins).activeBins.lookup bin.key = some bin := by
  induction bins generalizing agg with
  | nil => cases mem
  | cons b bins ih =>
    rw [restoreBins, List.foldl_cons, ← restoreBins]
    by_cases later : bin ∈ bins
    · exact ih later fun b' mem' => only b' (List.mem_cons_of_mem _ mem')
    · rcases List.mem_cons.mp mem with rfl | mem
      · rw [lookup_restoreBins_of_not_mem]
        · exact AList.lookup_insert _
        · intro b' mem' same
          exact later (only b' (List.mem_cons_of_mem _ mem') same ▸ mem')
      · exact absurd mem later

theorem mem_bins {bin : BillingBin} :
    bin ∈ agg.bins ↔ ∃ key, agg.activeBins.lookup key = some bin := by
  constructor
  · intro mem
    obtain ⟨⟨key, bin⟩, listed, rfl⟩ := List.mem_map.mp mem
    exact ⟨key, AList.mem_lookup_iff.mpr listed⟩
  · rintro ⟨key, found⟩
    exact List.mem_map.mpr ⟨⟨key, bin⟩, AList.mem_lookup_iff.mp found, rfl⟩

theorem lookup_handleReading_accepted (open_ : ¬ agg.IsSettled r.key) :
    (agg.handleReading now r).1.activeBins.lookup key =
      if key = r.key then some (agg.nextBin r) else agg.activeBins.lookup key := by
  rw [handleReading_accepted open_]
  by_cases here : key = r.key
  · subst here
    rw [if_pos rfl, AList.lookup_insert]
  · rw [if_neg here, AList.lookup_insert_ne here]

namespace Keyed

theorem nextBin_key (keyed : agg.Keyed) : (agg.nextBin r).key = r.key := by
  unfold nextBin
  rw [accumulate_key]
  cases found : agg.activeBins.lookup r.key with
  | none => rfl
  | some bin => exact keyed _ _ found

theorem mem_bins (keyed : agg.Keyed) {bin : BillingBin} :
    bin ∈ agg.bins ↔ agg.activeBins.lookup bin.key = some bin := by
  rw [Aggregator.mem_bins]
  constructor
  · rintro ⟨key, found⟩
    rw [keyed key bin found]
    exact found
  · exact fun found => ⟨_, found⟩

/-- No two bins have the same key. -/
theorem nodup (keyed : agg.Keyed) : (agg.bins.map BillingBin.key).Nodup := by
  have keys : agg.bins.map BillingBin.key = agg.activeBins.keys := by
    unfold bins AList.keys List.keys
    rw [List.map_map]
    apply List.map_congr_left
    rintro ⟨key, bin⟩ mem
    exact keyed key bin (AList.mem_lookup_iff.mpr mem)
  rw [keys]
  exact agg.activeBins.keys_nodup

theorem restoreBins (bins : List BillingBin) : (new.restoreBins bins).Keyed := by
  intro key bin found
  rcases mem_of_lookup_restoreBins found with before | ⟨_, keyed⟩
  · cases before
  · exact keyed

theorem next (keyed : agg.Keyed) (op : BillingOp) : (agg.next op).Keyed := by
  intro key bin found
  cases op with
  | reading now r =>
    change (agg.handleReading now r).1.activeBins.lookup key = some bin at found
    by_cases late : agg.IsSettled r.key
    · rw [handleReading_late late] at found
      exact keyed key bin found
    · rw [lookup_handleReading_accepted late] at found
      split at found
      · next here =>
        cases found
        rw [keyed.nextBin_key, here]
      · exact keyed key bin found
  | sweep now grace =>
    change (agg.removeBins _).activeBins.lookup key = some bin at found
    rw [lookup_removeBins] at found
    split at found
    · cases found
    · exact keyed key bin found

theorem after (keyed : agg.Keyed) (ops : List BillingOp) : (agg.after ops).Keyed := by
  induction ops generalizing agg with
  | nil => exact keyed
  | cons op ops ih => exact ih (keyed.next op)

end Keyed

end Aggregator

end AggregatorBridge
