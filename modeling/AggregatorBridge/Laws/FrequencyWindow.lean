import AggregatorBridge.GridStatus
import AggregatorBridge.Lib.SlidingWindow
import Mathlib.Data.List.Induction
import Mathlib.Tactic.NormNum

/-!
# The frequency window

Samples come with the times of their calls, and cutoffs are a fixed duration before them, so
neither goes back and the monitor is an exact sliding window: at the end of a call that looked at
the clock it holds the plausible samples that are not older than the window, and a mean is over
those (`frequency_window_exact`). As long as there is no moment that long ago it holds all.

A report that is not plausible is dropped before the clock is looked at. Such a call evicts
nothing, so what the monitor holds after it may be out of date by then
(`dropped_report_evicts_nothing`); the next mean evicts first.

The samples are rationals and the mean is theirs; how a sum of doubles is rounded is not part of the
law.
-/

namespace AggregatorBridge

open Expiring SlidingWindow

theorem checkedSub_le {now cutoff : Instant} {duration : Nat}
    (held : checkedSub now duration = some cutoff) : cutoff ≤ now := by
  unfold checkedSub at held
  split at held
  · cases held
    exact Nat.sub_le _ _
  · cases held

/-- The cutoff follows the clock. -/
theorem checkedSub_notBefore {now later : Instant} (passed : now ≤ later) (duration : Nat) :
    NotBefore (checkedSub now duration) (checkedSub later duration) := by
  by_cases early : duration ≤ now
  · rw [checkedSub, if_pos early, checkedSub, if_pos (early.trans passed)]
    exact notBefore_some (Nat.sub_le_sub_right passed duration)
  · rw [checkedSub, if_neg early]
    exact notBefore_none _

namespace FrequencyMonitor

/-- The eviction of the source is that of a sliding window, where there is a moment that long ago.
-/
theorem evict_eq (now : Instant) (window : Nat) (samples : List (Instant × ℚ)) :
    evict now window samples = SlidingWindow.evict (checkedSub now window) samples := by
  unfold evict SlidingWindow.evict fresh
  cases checkedSub now window with
  | none =>
    symm
    cases samples with
    | nil => rfl
    | cons sample samples => exact List.dropWhile_cons_of_neg (by simp)
  | some cutoff => simp only [← decide_not, not_le]

/-- The plausible samples recorded by some calls. -/
def recorded (calls : List Call) : List (Instant × ℚ) :=
  calls.filterMap Call.sample

/-- The clock does not go back during some calls, nor between them. -/
def NonDecreasing (calls : List Call) : Prop :=
  (calls.flatMap Call.times).Pairwise (· ≤ ·)

instance (calls : List Call) : Decidable (NonDecreasing calls) :=
  inferInstanceAs (Decidable (List.Pairwise _ _))

/-- When the clock was looked at last. -/
def lastLook (calls : List Call) : Instant :=
  calls.foldl (fun looked call => if call.dropped then looked else call.clock) 0

/-- The plain mean of a window, as a specification of the running sum. -/
def average (values : List ℚ) : Option ℚ :=
  if values = [] then none else some (values.sum / values.length)

variable {calls : List Call} {call : Call}

theorem clock_mem_times (call : Call) : call.clock ∈ call.times := by
  cases call with
  | record hz stamp now => exact List.mem_cons_of_mem _ List.mem_cons_self
  | mean now => exact List.mem_cons_self

theorem after_snoc (window : Nat) (calls : List Call) (call : Call) :
    after window (calls ++ [call]) = (after window calls).apply call :=
  List.foldl_concat _ _ _ _

theorem recorded_snoc (calls : List Call) (call : Call) :
    recorded (calls ++ [call]) = recorded calls ++ call.sample.toList := by
  rw [recorded, List.filterMap_append, recorded]
  cases sampled : call.sample <;> simp [sampled]

theorem lastLook_snoc (calls : List Call) (call : Call) :
    lastLook (calls ++ [call]) = if call.dropped then lastLook calls else call.clock :=
  List.foldl_concat _ _ _ _

theorem NonDecreasing.snoc (ordered : NonDecreasing (calls ++ [call])) :
    NonDecreasing calls ∧ call.times.Pairwise (· ≤ ·) ∧
      ∀ t ∈ call.times, ∀ s ∈ calls.flatMap Call.times, s ≤ t := by
  unfold NonDecreasing at ordered
  rw [List.flatMap_append, List.flatMap_singleton] at ordered
  obtain ⟨before, during, between⟩ := List.pairwise_append.mp ordered
  exact ⟨before, during, fun t mem s mem' => between s mem' t mem⟩

/-- The last look is not later than what comes after all calls. -/
theorem lastLook_le {t : Instant} (passed : ∀ s ∈ calls.flatMap Call.times, s ≤ t) :
    lastLook calls ≤ t := by
  induction calls using List.reverseRecOn with
  | nil => exact Nat.zero_le t
  | append_singleton calls call ih =>
    rw [List.flatMap_append, List.flatMap_singleton] at passed
    rw [lastLook_snoc]
    split
    · exact ih fun s mem => passed s (List.mem_append_left _ mem)
    · exact passed _ (List.mem_append_right _ (clock_mem_times call))

theorem recorded_le {t : Instant} (passed : ∀ s ∈ calls.flatMap Call.times, s ≤ t)
    {sample : Instant × ℚ} (mem : sample ∈ recorded calls) : sample.1 ≤ t := by
  obtain ⟨call, called, sampled⟩ := List.mem_filterMap.mp mem
  apply passed
  refine List.mem_flatMap.mpr ⟨call, called, ?_⟩
  cases call with
  | record hz stamp now =>
    obtain ⟨_, -, rfl⟩ := Option.map_eq_some_iff.mp sampled
    exact List.mem_cons_self
  | mean now => cases sampled

theorem window_apply (m : FrequencyMonitor) (call : Call) : (m.apply call).window = m.window := by
  cases call with
  | record hz stamp now =>
    simp only [apply, record]
    split <;> rfl
  | mean now =>
    simp only [apply, mean]
    split <;> rfl

theorem window_after (window : Nat) (calls : List Call) :
    (after window calls).window = window := by
  induction calls using List.reverseRecOn with
  | nil => rfl
  | append_singleton calls call ih => rw [after_snoc, window_apply, ih]

theorem apply_of_dropped {m : FrequencyMonitor} (dropped : call.dropped = true) :
    m.apply call = m := by
  cases call with
  | record hz stamp now =>
    have implausible : plausibleHz hz = none := Option.isNone_iff_eq_none.mp dropped
    simp only [apply, record, implausible]
  | mean now => cases dropped

theorem sample_of_dropped (dropped : call.dropped = true) : call.sample = none := by
  cases call with
  | record hz stamp now =>
    have implausible : plausibleHz hz = none := Option.isNone_iff_eq_none.mp dropped
    rw [Call.sample, implausible]
    rfl
  | mean now => cases dropped

theorem samples_mean (m : FrequencyMonitor) (now : Instant) :
    (m.mean now).1.samples = SlidingWindow.evict (checkedSub now m.window) m.samples := by
  rw [← evict_eq]
  simp only [mean]
  split <;> rfl

/-- A call keeps the window exact, and moves the cutoff to its own if it looks at the clock. -/
theorem exact_apply {window : Nat} {m : FrequencyMonitor} (mine : m.window = window)
    (ordered : NonDecreasing (calls ++ [call]))
    (exact_ : Exact (recorded calls) (checkedSub (lastLook calls) window) m.samples) :
    Exact (recorded (calls ++ [call])) (checkedSub (lastLook (calls ++ [call])) window)
      (m.apply call).samples := by
  obtain ⟨-, during, between⟩ := ordered.snoc
  cases dropped : call.dropped with
  | true =>
    rw [recorded_snoc, sample_of_dropped dropped, Option.toList_none, List.append_nil,
      lastLook_snoc, dropped, if_pos rfl, apply_of_dropped dropped]
    exact exact_
  | false =>
    have moved := checkedSub_notBefore (lastLook_le (between _ (clock_mem_times call))) window
    rw [recorded_snoc, lastLook_snoc, dropped, if_neg Bool.false_ne_true]
    cases call with
    | mean now =>
      show Exact (recorded calls ++ []) _ (m.mean now).1.samples
      rw [samples_mean, mine, List.append_nil]
      exact exact_.evict moved
    | record hz stamp now =>
      obtain ⟨hz', taken⟩ : ∃ hz', plausibleHz hz = some hz' :=
        Option.ne_none_iff_exists'.mp fun none_ => by simp [Call.dropped, none_] at dropped
      have stampLast := between stamp List.mem_cons_self
      have pushed := exact_.push hz' (fun sample mem => recorded_le stampLast mem)
        (fun cutoff held => (checkedSub_le held).trans (lastLook_le stampLast))
      have sampled : (Call.record hz stamp now).sample = some (stamp, hz') := by
        rw [Call.sample, taken]
        rfl
      rw [sampled]
      simp only [apply, record, taken, evict_eq, mine]
      exact pushed.evict moved

/-- At any time the monitor holds what was fresh when the clock was last looked at. -/
theorem exact_after (window : Nat) (ordered : NonDecreasing calls) :
    Exact (recorded calls) (checkedSub (lastLook calls) window) (after window calls).samples := by
  induction calls using List.reverseRecOn with
  | nil => exact Exact.empty
  | append_singleton calls call ih =>
    rw [after_snoc]
    exact exact_apply (window_after window calls) ordered (ih ordered.snoc.1)

theorem mean_eq_average (m : FrequencyMonitor) (now : Instant) :
    (m.mean now).2 = average ((m.mean now).1.samples.map Prod.snd) := by
  simp only [mean, average]
  by_cases empty : evict now m.window m.samples = []
  · simp [empty]
  · simp [empty]

/-- After every call that looks at the clock the monitor holds exactly the plausible samples
recorded so far that are not older than the window by the clock of the call, or all of them
while there is no moment that long ago. A report that is not plausible changes nothing. The
samples are in the order of their times, and a mean is the average of those it leaves, if any. -/
theorem frequency_window_exact (window : Nat) (ordered : NonDecreasing (calls ++ [call])) :
    (call.dropped = false →
      (after window (calls ++ [call])).samples =
        (recorded (calls ++ [call])).filter (fresh (checkedSub call.clock window))) ∧
      (call.dropped = true → after window (calls ++ [call]) = after window calls) ∧
      InOrder (after window (calls ++ [call])).samples ∧
      ∀ now, call = .mean now → ((after window calls).mean now).2 =
        average (((recorded calls).filter (fresh (checkedSub now window))).map Prod.snd) := by
  have exact_ := exact_after window ordered
  have held : call.dropped = false → (after window (calls ++ [call])).samples =
      (recorded (calls ++ [call])).filter (fresh (checkedSub call.clock window)) := by
    intro looks
    have samples := exact_.holds
    rw [lastLook_snoc, looks, if_neg Bool.false_ne_true] at samples
    exact samples
  refine ⟨held, ?_, exact_.queue_inOrder, ?_⟩
  · intro dropped
    rw [after_snoc, apply_of_dropped dropped]
  · rintro now rfl
    have samples := held rfl
    rw [recorded_snoc, after_snoc] at samples
    change ((after window calls).mean now).1.samples =
      (recorded calls ++ []).filter (fresh (checkedSub now window)) at samples
    rw [mean_eq_average, samples, List.append_nil]

/-- A sample that has grown old, two that have not, and a meter that is booting. -/
def fewReports : List Call :=
  [.record (some 49) 0 0, .record (some 50) 6 6, .record (some 0) 7 7, .record (some 51) 8 9]

theorem few_reports_averaged :
    NonDecreasing (fewReports ++ [.mean 12]) ∧
      ((after 10 fewReports).mean 12).2 = some (101 / 2) := by
  have ordered : NonDecreasing (fewReports ++ [.mean 12]) := by decide
  have averaged := (frequency_window_exact 10 ordered).2.2.2 12 rfl
  have fresh_ : (recorded fewReports).filter (fresh (checkedSub 12 10)) = [(6, 50), (8, 51)] := by
    decide
  refine ⟨ordered, averaged.trans ?_⟩
  rw [fresh_]
  show some (([50, 51] : List ℚ).sum / 2) = some (101 / 2)
  norm_num

/-- The second report evicts nothing, and the sample of the first is still there. -/
theorem dropped_report_evicts_nothing :
    NonDecreasing [.record (some 50) 0 0, .record (some 0) 12 12] ∧
      (after 10 [.record (some 50) 0 0, .record (some 0) 12 12]).samples ≠
        (recorded [.record (some 50) 0 0, .record (some 0) 12 12]).filter
          (fresh (checkedSub (Call.record (some 0) 12 12).clock 10)) := by
  decide

end FrequencyMonitor

end AggregatorBridge
