import AggregatorBridge.Aggregator
import Mathlib.Algebra.BigOperators.Group.List.Basic
import Mathlib.Algebra.Order.Ring.Rat
import Mathlib.Tactic.Abel
import Mathlib.Tactic.Linarith

/-!
# The balance of the aggregator

A bin is only totals, so what it was made of is kept beside it: the bin that was restored under
its key, if there was one, and the readings accumulated in it (`Parts`). `Billing` runs the
aggregator with these parts next to every active bin and every bin a sweep took. They are a
ghost; the aggregator inside never looks at them.

Two facts hold in every run. A bin is exactly what its parts make, in memory and after the sweep
took it (`Accounted.active`, `Accounted.output`). And for each key the parts of all its bins, put
together, are what was restored and what was accepted for that key, nothing twice and nothing left
out. Every total is then a sum over a list that is known.

The sums are those of rationals. When a `Decimal` would overflow is said by `BillingOverflow`, and
what a restart loses is not part of the balance.
-/

namespace AggregatorBridge

open Aggregator (accumulate emptyBin)

/-- What a bin is made of. -/
structure Parts where
  restored : Option BillingBin
  readings : List BillingReading

namespace Parts

def none : Parts :=
  ⟨.none, []⟩

/-- Readings are counted once for each time they are billed, so this is a list and not a set. -/
def add (parts : Parts) (r : BillingReading) : Parts :=
  { parts with readings := parts.readings ++ [r] }

/-- The bin the parts make; the first reading starts one that was not restored. -/
def bin (parts : Parts) : Option BillingBin :=
  match parts.restored, parts.readings with
  | some bin, readings => some (readings.foldl accumulate bin)
  | .none, r :: rest => some ((r :: rest).foldl accumulate (emptyBin r))
  | .none, [] => .none

/-- A further reading is accumulated into the bin, or starts it. -/
theorem bin_add (parts : Parts) (r : BillingReading) :
    (parts.add r).bin = some (accumulate (parts.bin.getD (emptyBin r)) r) := by
  obtain ⟨restored, readings⟩ := parts
  cases restored with
  | some bin =>
    show some ((readings ++ [r]).foldl accumulate bin) = _
    rw [List.foldl_concat]
    rfl
  | none =>
    cases readings with
    | nil => rfl
    | cons first rest =>
      show some ((first :: rest ++ [r]).foldl accumulate (emptyBin first)) = _
      rw [List.foldl_concat]
      rfl

/-- What the bins to start from have and every reading keeps, every bin has. -/
theorem invariant {P : BillingBin → Prop} {parts : Parts} {bin : BillingBin}
    (restored : ∀ bin, parts.restored = some bin → P bin) (empty : ∀ r, P (emptyBin r))
    (kept : ∀ bin, ∀ r ∈ parts.readings, P bin → P (accumulate bin r))
    (made : parts.bin = some bin) : P bin := by
  have fold : ∀ (readings : List BillingReading) start,
      (∀ bin, ∀ r ∈ readings, P bin → P (accumulate bin r)) →
      P start → P (readings.foldl accumulate start) := by
    intro readings
    induction readings with
    | nil => exact fun start _ holds => holds
    | cons r rest ih =>
      intro start kept holds
      exact ih _ (fun bin r mem => kept bin r (List.mem_cons_of_mem _ mem))
        (kept start r List.mem_cons_self holds)
  obtain ⟨start, readings⟩ := parts
  cases start with
  | some start =>
    cases made
    exact fold readings start kept (restored start rfl)
  | none =>
    cases readings with
    | nil => cases made
    | cons first rest =>
      cases made
      exact fold (first :: rest) (emptyBin first) kept (empty first)

section Measures

variable {M : Type} [AddCommMonoid M] {ofBin : BillingBin → M} {ofReading : BillingReading → M}

/-- A quantity that starts at zero and that every reading adds to is the sum over the parts. -/
theorem measure (empty : ∀ r, ofBin (emptyBin r) = 0)
    (adds : ∀ bin r, ofBin (accumulate bin r) = ofBin bin + ofReading r) (parts : Parts) :
    (parts.bin.toList.map ofBin).sum =
      (parts.restored.toList.map ofBin).sum + (parts.readings.map ofReading).sum := by
  have fold : ∀ (readings : List BillingReading) start, ofBin (readings.foldl accumulate start) =
      ofBin start + (readings.map ofReading).sum := by
    intro readings
    induction readings with
    | nil => exact fun start => (add_zero _).symm
    | cons r rest ih =>
      intro start
      rw [List.foldl_cons, ih, adds, List.map_cons, List.sum_cons, add_assoc]
  obtain ⟨start, readings⟩ := parts
  cases start with
  | some start =>
    show ofBin (readings.foldl accumulate start) + 0 = (ofBin start + 0) + _
    rw [fold, add_zero, add_zero]
  | none =>
    cases readings with
    | nil => exact (add_zero _).symm
    | cons first rest =>
      show ofBin ((first :: rest).foldl accumulate (emptyBin first)) + 0 = 0 + _
      rw [fold, empty, add_zero]

end Measures

end Parts

/-- The aggregator with what its bins are made of. -/
structure Billing where
  agg : Aggregator
  /-- What the active bin under a key is made of. -/
  parts : BinKey → Parts
  /-- The bins that sweeps took, with what they were made of. -/
  output : List (BillingBin × Parts)
  /-- The readings for which `handle_reading` returned a bin. -/
  accepted : List BillingReading

namespace Billing

/-- A process with some bins to start from. -/
def ofAgg (agg : Aggregator) : Billing where
  agg := agg
  parts := fun key => ⟨agg.activeBins.lookup key, []⟩
  output := []
  accepted := []

/-- A process that has restored some bins. -/
def start (restored : List BillingBin) : Billing :=
  ofAgg (Aggregator.new.restoreBins restored)

/-- The step of the source, and beside it what went into each bin. -/
def step (b : Billing) : BillingOp → Billing
  | .reading now r =>
    match b.agg.handleReading now r with
    | (agg, some _) =>
      { b with
        agg := agg
        parts := Function.update b.parts r.key ((b.parts r.key).add r)
        accepted := b.accepted ++ [r] }
    | (agg, none) => { b with agg := agg }
  | .sweep now grace =>
    let bins := b.agg.peekCompletedBinsAt now grace
    { b with
      agg := b.agg.removeBins (bins.map BillingBin.key)
      parts := fun key => if key ∈ bins.map BillingBin.key then Parts.none else b.parts key
      output := b.output ++ bins.map fun bin => (bin, b.parts bin.key) }

def run (b : Billing) (ops : List BillingOp) : Billing :=
  ops.foldl step b

theorem step_late {b : Billing} {now : DateTime} {r : BillingReading}
    (late : b.agg.IsSettled r.key) :
    b.step (.reading now r) = { b with agg := (b.agg.handleReading now r).1 } := by
  simp only [step, Aggregator.handleReading, if_pos late]

theorem step_accepted {b : Billing} {now : DateTime} {r : BillingReading}
    (open_ : ¬ b.agg.IsSettled r.key) :
    b.step (.reading now r) =
      { b with
        agg := (b.agg.handleReading now r).1
        parts := Function.update b.parts r.key ((b.parts r.key).add r)
        accepted := b.accepted ++ [r] } := by
  simp only [step, Aggregator.handleReading, if_neg open_]

/-- The aggregator inside does what it does without the parts. -/
theorem agg_run (b : Billing) (ops : List BillingOp) : (b.run ops).agg = b.agg.after ops := by
  induction ops generalizing b with
  | nil => rfl
  | cons op ops ih =>
    have same : (b.step op).agg = b.agg.next op := by
      cases op with
      | reading now r =>
        by_cases late : b.agg.IsSettled r.key
        · rw [step_late late]
          rfl
        · rw [step_accepted late]
          rfl
      | sweep now grace => rfl
    show ((b.step op).run ops).agg = (b.agg.next op).after ops
    rw [ih, same]

/-- The bins of a key: the active one and the ones that sweeps took. -/
def binsOf (b : Billing) (key : BinKey) : List BillingBin :=
  (b.agg.activeBins.lookup key).toList ++
    (b.output.filter fun out => out.1.key = key).map Prod.fst

/-- The parts of all bins are what was restored and what was accepted. -/
structure Accounted (restored : List BillingBin) (b : Billing) : Prop where
  keyed : b.agg.Keyed
  active : ∀ key, b.agg.activeBins.lookup key = (b.parts key).bin
  output : ∀ out ∈ b.output, out.2.bin = some out.1
  readings : ∀ key, b.accepted.filter (fun r => r.key = key) =
    (b.output.filter fun out => out.1.key = key).flatMap (fun out => out.2.readings) ++
      (b.parts key).readings
  restored : ∀ key, restored.filter (fun bin => bin.key = key) =
    (b.output.filter fun out => out.1.key = key).flatMap (fun out => out.2.restored.toList) ++
      (b.parts key).restored.toList

/-- With distinct keys a filter by key finds at most one. -/
theorem filter_key_of_nodup {bins : List BillingBin} (distinct : (bins.map BillingBin.key).Nodup)
    (key : BinKey) :
    bins.filter (fun bin => bin.key = key) = (bins.find? fun bin => bin.key = key).toList := by
  induction bins with
  | nil => rfl
  | cons bin bins ih =>
    obtain ⟨absent, rest⟩ := List.nodup_cons.mp distinct
    by_cases here : bin.key = key
    · have others : bins.filter (fun bin => bin.key = key) = [] := by
        rw [List.filter_eq_nil_iff]
        intro other mem same
        refine absent (List.mem_map.mpr ⟨other, mem, ?_⟩)
        rw [here, of_decide_eq_true same]
      simp [here, others]
    · simp [here, ih rest]

theorem accounted_ofAgg {restored : List BillingBin} {agg : Aggregator} (keyed : agg.Keyed)
    (same : ∀ key, restored.filter (fun bin => bin.key = key) =
      (agg.activeBins.lookup key).toList) : Accounted restored (ofAgg agg) where
  keyed := keyed
  active key := by
    show agg.activeBins.lookup key = Parts.bin ⟨agg.activeBins.lookup key, []⟩
    cases agg.activeBins.lookup key with
    | none => rfl
    | some bin => rfl
  output out mem := absurd mem List.not_mem_nil
  readings key := rfl
  restored := same

theorem accounted_start {restored : List BillingBin}
    (distinct : (restored.map BillingBin.key).Nodup) : Accounted restored (start restored) := by
  refine accounted_ofAgg (Aggregator.Keyed.restoreBins restored) fun key => ?_
  rw [filter_key_of_nodup distinct]
  cases found : restored.find? fun bin => bin.key = key with
  | none =>
    rw [List.find?_eq_none] at found
    rw [Aggregator.lookup_restoreBins_of_not_mem]
    · rfl
    · intro bin mem same
      exact found bin mem (decide_eq_true same)
  | some bin =>
    have mem := List.mem_of_find?_eq_some found
    have here : bin.key = key := by simpa using List.find?_some found
    subst here
    rw [Aggregator.lookup_restoreBins_of_mem mem fun other listed same =>
      List.inj_on_of_nodup_map distinct listed mem same]

/-- Any bins filed under their keys are something to start from. -/
theorem accounted_bins {agg : Aggregator} (keyed : agg.Keyed) : Accounted agg.bins (ofAgg agg) := by
  refine accounted_ofAgg keyed fun key => ?_
  rw [filter_key_of_nodup keyed.nodup]
  cases found : agg.bins.find? fun bin => bin.key = key with
  | none =>
    cases active : agg.activeBins.lookup key with
    | none => rfl
    | some bin =>
      have mem : bin ∈ agg.bins := Aggregator.mem_bins.mpr ⟨key, active⟩
      exact absurd (decide_eq_true (keyed key bin active)) (List.find?_eq_none.mp found bin mem)
  | some bin =>
    have here : bin.key = key := by simpa using List.find?_some found
    subst here
    rw [keyed.mem_bins.mp (List.mem_of_find?_eq_some found)]

theorem accounted_reading {restored : List BillingBin} {b : Billing}
    (accounted : Accounted restored b) (now : DateTime) (r : BillingReading) :
    Accounted restored (b.step (.reading now r)) := by
  have keyed : (b.agg.handleReading now r).1.Keyed := accounted.keyed.next (.reading now r)
  by_cases late : b.agg.IsSettled r.key
  · rw [step_late late]
    refine ⟨keyed, ?_, accounted.output, accounted.readings, accounted.restored⟩
    intro key
    show (b.agg.handleReading now r).1.activeBins.lookup key = _
    rw [Aggregator.handleReading_late late]
    exact accounted.active key
  · rw [step_accepted late]
    refine ⟨keyed, ?_, accounted.output, ?_, ?_⟩
    · intro key
      show (b.agg.handleReading now r).1.activeBins.lookup key =
        (Function.update b.parts r.key _ key).bin
      rw [Aggregator.lookup_handleReading_accepted late]
      by_cases here : key = r.key
      · subst here
        rw [if_pos rfl, Function.update_self, Parts.bin_add, ← accounted.active, Aggregator.nextBin]
      · rw [if_neg here, Function.update_of_ne here]
        exact accounted.active key
    · intro key
      show (b.accepted ++ [r]).filter _ = _ ++ (Function.update b.parts r.key _ key).readings
      rw [List.filter_append, accounted.readings]
      by_cases here : key = r.key
      · subst here
        rw [Function.update_self]
        simp [Parts.add]
      · rw [Function.update_of_ne here]
        simp [Ne.symm here]
    · intro key
      show _ = _ ++ (Function.update b.parts r.key _ key).restored.toList
      rw [accounted.restored]
      by_cases here : key = r.key
      · subst here
        rw [Function.update_self]
        rfl
      · rw [Function.update_of_ne here]

/-- A sweep moves the parts of a key from the active bin to the one it takes. -/
theorem moved_parts {α : Type} {bins : List BillingBin}
    (distinct : (bins.map BillingBin.key).Nodup) (parts : BinKey → Parts)
    (part : Parts → List α) (nothing : part Parts.none = []) (key : BinKey) :
    ((bins.map fun bin => (bin, parts bin.key)).filter fun out => out.1.key = key).flatMap
        (fun out => part out.2) ++
      part (if key ∈ bins.map BillingBin.key then Parts.none else parts key) =
    part (parts key) := by
  rw [List.filter_map]
  show (List.map _ (bins.filter fun bin => bin.key = key)).flatMap _ ++ _ = _
  rw [filter_key_of_nodup distinct]
  cases found : bins.find? fun bin => bin.key = key with
  | none =>
    have absent : key ∉ bins.map BillingBin.key := by
      intro mem
      obtain ⟨bin, listed, here⟩ := List.mem_map.mp mem
      exact List.find?_eq_none.mp found bin listed (decide_eq_true here)
    rw [if_neg absent]
    rfl
  | some bin =>
    have here : bin.key = key := by simpa using List.find?_some found
    have listed : key ∈ bins.map BillingBin.key :=
      List.mem_map.mpr ⟨bin, List.mem_of_find?_eq_some found, here⟩
    rw [if_pos listed, nothing, ← here]
    simp

theorem accounted_sweep {restored : List BillingBin} {b : Billing}
    (accounted : Accounted restored b) (now : DateTime) (grace : Int) :
    Accounted restored (b.step (.sweep now grace)) := by
  let bins := b.agg.peekCompletedBinsAt now grace
  have distinct : (bins.map BillingBin.key).Nodup :=
    accounted.keyed.nodup.sublist (List.filter_sublist.map _)
  refine ⟨accounted.keyed.next (.sweep now grace), ?_, ?_, ?_, ?_⟩
  · intro key
    show (b.agg.removeBins (bins.map BillingBin.key)).activeBins.lookup key =
      (if key ∈ bins.map BillingBin.key then Parts.none else b.parts key).bin
    rw [Aggregator.lookup_removeBins]
    split
    · rfl
    · exact accounted.active key
  · intro out mem
    rcases List.mem_append.mp mem with before | now
    · exact accounted.output out before
    · obtain ⟨bin, taken, rfl⟩ := List.mem_map.mp now
      show (b.parts bin.key).bin = some bin
      rw [← accounted.active]
      exact accounted.keyed.mem_bins.mp (List.mem_of_mem_filter taken)
  · intro key
    show b.accepted.filter _ =
      ((b.output ++ bins.map fun bin => (bin, b.parts bin.key)).filter _).flatMap _ ++ _
    rw [accounted.readings, List.filter_append, List.flatMap_append, List.append_assoc]
    exact congrArg _ (moved_parts distinct b.parts Parts.readings rfl key).symm
  · intro key
    show restored.filter _ =
      ((b.output ++ bins.map fun bin => (bin, b.parts bin.key)).filter _).flatMap _ ++ _
    rw [accounted.restored, List.filter_append, List.flatMap_append, List.append_assoc]
    exact congrArg _
      (moved_parts distinct b.parts (fun parts => parts.restored.toList) rfl key).symm

/-- Every operation keeps the books, so every run does. -/
theorem accounted_run {restored : List BillingBin} {b : Billing}
    (accounted : Accounted restored b) (ops : List BillingOp) : Accounted restored (b.run ops) := by
  induction ops generalizing b with
  | nil => exact accounted
  | cons op ops ih =>
    cases op with
    | reading now r => exact ih (accounted_reading accounted now r)
    | sweep now grace => exact ih (accounted_sweep accounted now grace)

/-- A quantity that every reading adds to is neither lost nor made. -/
theorem Accounted.conserved {M : Type} [AddCommMonoid M] {ofBin : BillingBin → M}
    {ofReading : BillingReading → M} {restored : List BillingBin} {b : Billing}
    (accounted : Accounted restored b) (empty : ∀ r, ofBin (emptyBin r) = 0)
    (adds : ∀ bin r, ofBin (accumulate bin r) = ofBin bin + ofReading r) (key : BinKey) :
    ((b.binsOf key).map ofBin).sum =
      ((restored.filter fun bin => bin.key = key).map ofBin).sum +
        ((b.accepted.filter fun r => r.key = key).map ofReading).sum := by
  have taken : ∀ outs : List (BillingBin × Parts), (∀ out ∈ outs, out.2.bin = some out.1) →
      ((outs.map Prod.fst).map ofBin).sum =
        ((outs.flatMap fun out => out.2.restored.toList).map ofBin).sum +
          ((outs.flatMap fun out => out.2.readings).map ofReading).sum := by
    intro outs made
    induction outs with
    | nil => exact (add_zero _).symm
    | cons out outs ih =>
      have first := Parts.measure empty adds out.2
      rw [made out List.mem_cons_self] at first
      have rest := ih fun out mem => made out (List.mem_cons_of_mem _ mem)
      simp only [Option.toList_some, List.map_cons, List.map_nil, List.sum_cons, List.sum_nil,
        add_zero] at first
      simp only [List.map_cons, List.sum_cons, List.flatMap_cons, List.map_append, List.sum_append,
        rest, first]
      exact add_add_add_comm _ _ _ _
  have active := Parts.measure empty adds (b.parts key)
  rw [← accounted.active] at active
  have before := taken (b.output.filter fun out => out.1.key = key) fun out mem =>
    accounted.output out (List.mem_of_mem_filter mem)
  rw [binsOf, accounted.readings, accounted.restored]
  simp only [List.map_append, List.sum_append, active, before]
  abel

end Billing

/-! ## Tariffs and demand -/

/-- The tariff buckets do not hold more than the totals. -/
structure BillingBin.SplitWithin (bin : BillingBin) : Prop where
  generated : bin.energyGeneratedPeak + bin.energyGeneratedOffpeak ≤ bin.energyGenerated
  consumed : bin.energyConsumedPeak + bin.energyConsumedOffpeak ≤ bin.energyConsumed

/-- The tariff buckets hold the totals. -/
structure BillingBin.SplitExact (bin : BillingBin) : Prop where
  generated : bin.energyGeneratedPeak + bin.energyGeneratedOffpeak = bin.energyGenerated
  consumed : bin.energyConsumedPeak + bin.energyConsumedOffpeak = bin.energyConsumed

namespace BillingReading

/-- The tariff is the peak or the off-peak one. -/
def InTariff (r : BillingReading) : Prop :=
  r.tariffPeriod = some 1 ∨ r.tariffPeriod = some 2

end BillingReading

namespace Parts

variable {parts : Parts} {bin : BillingBin}

/-- At most one bucket takes the energy of a reading. -/
theorem buckets_le (tariff : Option Nat) {energy : ℚ} (nonneg : 0 ≤ energy) :
    (if tariff = some 1 then energy else 0) + (if tariff = some 2 then energy else 0) ≤ energy := by
  by_cases peak : tariff = some 1
  · simp [peak]
  · by_cases offpeak : tariff = some 2
    · simp [offpeak]
    · simp [peak, offpeak, nonneg]

/-- With a tariff that is one or two, the two buckets of a reading are all of its energy. -/
theorem buckets_eq {r : BillingReading} (inTariff : r.InTariff) (energy : ℚ) :
    (if r.tariffPeriod = some 1 then energy else 0) +
      (if r.tariffPeriod = some 2 then energy else 0) = energy := by
  rcases inTariff with peak | offpeak
  · simp [peak]
  · simp [offpeak]

theorem splitWithin (restored : ∀ bin, parts.restored = some bin → bin.SplitWithin)
    (nonneg : ∀ r ∈ parts.readings, 0 ≤ r.generated ∧ 0 ≤ r.consumed)
    (made : parts.bin = some bin) : bin.SplitWithin := by
  refine invariant restored ?_ ?_ made
  · exact fun r => ⟨(add_zero (0 : ℚ)).le, (add_zero (0 : ℚ)).le⟩
  · intro bin r mem within
    have generated := buckets_le r.tariffPeriod (nonneg r mem).1
    have consumed := buckets_le r.tariffPeriod (nonneg r mem).2
    constructor
    · show bin.energyGeneratedPeak + _ + (bin.energyGeneratedOffpeak + _) ≤ bin.energyGenerated + _
      linarith [within.generated]
    · show bin.energyConsumedPeak + _ + (bin.energyConsumedOffpeak + _) ≤ bin.energyConsumed + _
      linarith [within.consumed]

theorem splitExact (restored : ∀ bin, parts.restored = some bin → bin.SplitExact)
    (inTariff : ∀ r ∈ parts.readings, r.InTariff) (made : parts.bin = some bin) :
    bin.SplitExact := by
  refine invariant restored ?_ ?_ made
  · exact fun r => ⟨add_zero (0 : ℚ), add_zero (0 : ℚ)⟩
  · intro bin r mem exact_
    have generated := buckets_eq (inTariff r mem) r.generated
    have consumed := buckets_eq (inTariff r mem) r.consumed
    constructor
    · show bin.energyGeneratedPeak + _ + (bin.energyGeneratedOffpeak + _) = bin.energyGenerated + _
      linarith [exact_.generated]
    · show bin.energyConsumedPeak + _ + (bin.energyConsumedOffpeak + _) = bin.energyConsumed + _
      linarith [exact_.consumed]

/-- The demands a bin has seen. -/
def demands (parts : Parts) : List ℚ :=
  parts.restored.toList.map BillingBin.maxDemandKw ++
    parts.readings.filterMap BillingReading.demandKw

theorem maxDemandKw_accumulate (bin : BillingBin) (r : BillingReading) :
    (accumulate bin r).maxDemandKw = (r.demandKw.toList).foldl max bin.maxDemandKw := by
  unfold accumulate
  cases r.demandKw with
  | none => rfl
  | some demand =>
    show (if bin.maxDemandKw < demand then demand else bin.maxDemandKw) = max bin.maxDemandKw demand
    split
    · next higher => exact (max_eq_right higher.le).symm
    · next lower => exact (max_eq_left (not_lt.mp lower)).symm

theorem maxDemandKw_foldl (readings : List BillingReading) (bin : BillingBin) :
    (readings.foldl accumulate bin).maxDemandKw =
      (readings.filterMap BillingReading.demandKw).foldl max bin.maxDemandKw := by
  induction readings generalizing bin with
  | nil => rfl
  | cons r rest ih =>
    rw [List.foldl_cons, ih, maxDemandKw_accumulate, List.filterMap_cons]
    cases r.demandKw with
    | none => rfl
    | some demand => rfl

theorem maxDemandKw (restored : ∀ bin, parts.restored = some bin → 0 ≤ bin.maxDemandKw)
    (made : parts.bin = some bin) : bin.maxDemandKw = parts.demands.foldl max 0 := by
  obtain ⟨start, readings⟩ := parts
  cases start with
  | some start =>
    cases made
    rw [maxDemandKw_foldl]
    show _ = (readings.filterMap BillingReading.demandKw).foldl max (max 0 start.maxDemandKw)
    rw [max_eq_right (restored start rfl)]
  | none =>
    cases readings with
    | nil => cases made
    | cons first rest =>
      cases made
      rw [maxDemandKw_foldl]
      rfl

end Parts

namespace Billing

/-- The parts of a bin that is active or was taken by a sweep. -/
def Made (b : Billing) (bin : BillingBin) (parts : Parts) : Prop :=
  (∃ key, b.agg.activeBins.lookup key = some bin ∧ b.parts key = parts) ∨ (bin, parts) ∈ b.output

section

variable {restored : List BillingBin} {b : Billing} {bin : BillingBin} {parts : Parts}

theorem Accounted.bin_of_made (accounted : Accounted restored b) (made : b.Made bin parts) :
    parts.bin = some bin := by
  rcases made with ⟨key, found, rfl⟩ | taken
  · rw [← accounted.active, found]
  · exact accounted.output _ taken

theorem Accounted.readings_of_made (accounted : Accounted restored b) (made : b.Made bin parts) :
    ∀ r ∈ parts.readings, r ∈ b.accepted := by
  intro r mem
  rcases made with ⟨key, _, rfl⟩ | taken
  · apply List.mem_of_mem_filter
    rw [accounted.readings key]
    exact List.mem_append_right _ mem
  · apply List.mem_of_mem_filter
    rw [accounted.readings bin.key]
    refine List.mem_append_left _ (List.mem_flatMap.mpr ⟨(bin, parts), ?_, mem⟩)
    exact List.mem_filter.mpr ⟨taken, decide_eq_true rfl⟩

theorem Accounted.restored_of_made (accounted : Accounted restored b) (made : b.Made bin parts)
    {start : BillingBin} (found : parts.restored = some start) : start ∈ restored := by
  have mem : start ∈ parts.restored.toList := Option.mem_toList.mpr found
  rcases made with ⟨key, _, rfl⟩ | taken
  · apply List.mem_of_mem_filter
    rw [accounted.restored key]
    exact List.mem_append_right _ mem
  · apply List.mem_of_mem_filter
    rw [accounted.restored bin.key]
    refine List.mem_append_left _ (List.mem_flatMap.mpr ⟨(bin, parts), ?_, mem⟩)
    exact List.mem_filter.mpr ⟨taken, decide_eq_true rfl⟩

end

/-- What was accepted was handled. -/
theorem accepted_run (b : Billing) (ops : List BillingOp) {r : BillingReading}
    (mem : r ∈ (b.run ops).accepted) : r ∈ b.accepted ∨ ∃ now, .reading now r ∈ ops := by
  induction ops generalizing b with
  | nil => exact .inl mem
  | cons op ops ih =>
    rcases ih (b.step op) mem with before | ⟨now, later⟩
    · cases op with
      | sweep now grace => exact .inl before
      | reading now handled =>
        by_cases late : b.agg.IsSettled handled.key
        · rw [step_late late] at before
          exact .inl before
        · rw [step_accepted late] at before
          rcases List.mem_append.mp before with earlier | here
          · exact .inl earlier
          · rw [List.mem_singleton.mp here]
            exact .inr ⟨now, List.mem_cons_self⟩
    · exact .inr ⟨now, List.mem_cons_of_mem _ later⟩

/-- In every run of one process, for every key, the bins of the key hold together what was
restored and what was accepted for it; and every bin keeps its tariff buckets within its totals
and its demand at the highest it has seen. -/
theorem billing_conserves_energy (restored : List BillingBin)
    (distinct : (restored.map BillingBin.key).Nodup) (ops : List BillingOp) :
    (∀ key : BinKey,
      ((((start restored).run ops).binsOf key).map BillingBin.energyGenerated).sum =
        ((restored.filter fun bin => bin.key = key).map BillingBin.energyGenerated).sum +
        ((((start restored).run ops).accepted.filter fun r => r.key = key).map
          BillingReading.generated).sum ∧
      ((((start restored).run ops).binsOf key).map BillingBin.energyConsumed).sum =
        ((restored.filter fun bin => bin.key = key).map BillingBin.energyConsumed).sum +
        ((((start restored).run ops).accepted.filter fun r => r.key = key).map
          BillingReading.consumed).sum ∧
      ((((start restored).run ops).binsOf key).map BillingBin.readingCount).sum =
        ((restored.filter fun bin => bin.key = key).map BillingBin.readingCount).sum +
        (((start restored).run ops).accepted.filter fun r => r.key = key).length) ∧
    ((∀ now r, .reading now r ∈ ops → 0 ≤ r.generated ∧ 0 ≤ r.consumed) →
      (∀ bin ∈ restored, bin.SplitWithin ∧ 0 ≤ bin.maxDemandKw) →
      ∀ bin parts, ((start restored).run ops).Made bin parts →
        bin.SplitWithin ∧
        ((∀ r ∈ parts.readings, r.InTariff) →
          (∀ start, parts.restored = some start → start.SplitExact) → bin.SplitExact) ∧
        bin.maxDemandKw = parts.demands.foldl max 0) := by
  have accounted := accounted_run (accounted_start distinct) ops
  constructor
  · intro key
    refine ⟨accounted.conserved (fun _ => rfl) (fun _ _ => rfl) key,
      accounted.conserved (fun _ => rfl) (fun _ _ => rfl) key, ?_⟩
    have ones : ∀ readings : List BillingReading,
        (readings.map fun _ => 1).sum = readings.length := by simp
    rw [← ones]
    exact accounted.conserved (fun _ => rfl) (fun _ _ => rfl) key
  · intro nonneg sound bin parts made
    have whole := accounted.bin_of_made made
    have handled : ∀ r ∈ parts.readings, 0 ≤ r.generated ∧ 0 ≤ r.consumed := by
      intro r mem
      rcases accepted_run _ ops (accounted.readings_of_made made r mem) with before | ⟨now, op⟩
      · cases before
      · exact nonneg now r op
    have restoredSound := fun start (found : parts.restored = some start) =>
      sound start (accounted.restored_of_made made found)
    exact ⟨Parts.splitWithin (fun start found => (restoredSound start found).1) handled whole,
      fun inTariff exact_ => Parts.splitExact exact_ inTariff whole,
      Parts.maxDemandKw (fun start found => (restoredSound start found).2) whole⟩

/-- A bin is restored, with energy of the first tariff and demand. A reading adds to it, a sweep takes
it, and a straggler is refused. -/
theorem swept_window_is_balanced :
    let r : BillingReading := ⟨1, 2, "M1", 3, 1, .ofSecs 900, some 1, some 4, none⟩
    let kept : BillingBin := Aggregator.accumulate (Aggregator.emptyBin r) r
    let b := (start [kept]).run [.reading (.ofSecs 901) r, .sweep (.ofSecs 2000) 100,
      .reading (.ofSecs 2001) r]
    ((b.binsOf r.key).map BillingBin.energyGenerated).sum = 6 ∧ b.accepted.length = 1 ∧
      ∀ bin parts, b.Made bin parts → bin.SplitWithin := by
  intro r kept b
  have balanced := billing_conserves_energy [kept] (List.nodup_singleton _)
    [.reading (.ofSecs 901) r, .sweep (.ofSecs 2000) 100, .reading (.ofSecs 2001) r]
  refine ⟨(balanced.1 r.key).1.trans ?_, by decide +kernel, ?_⟩
  · decide +kernel
  · intro bin parts made
    refine (balanced.2 ?_ ?_ bin parts made).1
    · intro now handled mem
      have same : handled = r := by
        simp only [List.mem_cons, BillingOp.reading.injEq, reduceCtorEq, List.not_mem_nil, false_or,
          or_false] at mem
        rcases mem with ⟨_, same⟩ | ⟨_, same⟩
        · exact same
        · exact same
      rw [same]
      decide +kernel
    · intro restored mem
      rw [List.mem_singleton.mp mem]
      exact ⟨⟨by decide +kernel, by decide +kernel⟩, by decide +kernel⟩

end Billing

end AggregatorBridge
