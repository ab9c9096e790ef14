import AggregatorBridge.Lib.Expiring
import Mathlib.Algebra.Order.Ring.Rat

/-!
# The frequency monitor

Meters report the frequency of the grid, and the mean over a rolling window of the plausible
reports is what is published for dispatch. The monitor is shared, but both of its operations
hold its lock from their first look at the clock on, so they come one after the other and the
clock does not go back between them.

A double is the rational it stands for, or nothing if it is a NaN or an infinity, and the sum of
a mean is exact. Moments are counted from the earliest one an `Instant` can hold, so there is a
moment `window` ago if and only if that much time has passed since.
-/

namespace AggregatorBridge

open Expiring

/-- `Instant::checked_sub`. -/
def checkedSub (now : Instant) (duration : Nat) : Option Instant :=
  if duration ≤ now then some (now - duration) else none

/-- A sample below or above these is taken for a broken meter, and is dropped. -/
def minPlausibleHz : ℚ := 40

def maxPlausibleHz : ℚ := 70

/-- The frequency that a report is taken for, if it is one. -/
def plausibleHz (hz : Option ℚ) : Option ℚ :=
  hz.filter fun hz => minPlausibleHz ≤ hz ∧ hz ≤ maxPlausibleHz

/-- The samples in the order in which they came, which need not be that of their times. -/
structure FrequencyMonitor where
  samples : List (Instant × ℚ)
  /-- In nanoseconds. -/
  window : Nat
  deriving DecidableEq

namespace FrequencyMonitor

/-- A monitor without samples. -/
def new (window : Nat) : FrequencyMonitor :=
  ⟨[], window⟩

/-- `evict`, at the moment it looks at the clock. -/
def evict (now : Instant) (window : Nat) (samples : List (Instant × ℚ)) : List (Instant × ℚ) :=
  match checkedSub now window with
  | none => samples
  | some cutoff => samples.dropWhile fun sample => decide (sample.1 < cutoff)

/-- `record`, which looks at the clock once for the sample and once more to evict. -/
def record (m : FrequencyMonitor) (hz : Option ℚ) (stamp now : Instant) : FrequencyMonitor :=
  match plausibleHz hz with
  | none => m
  | some hz => { m with samples := evict now m.window (m.samples ++ [(stamp, hz)]) }

/-- The mean of what is left in the window at this moment; asking for it evicts, too. -/
def mean (m : FrequencyMonitor) (now : Instant) : FrequencyMonitor × Option ℚ :=
  let samples := evict now m.window m.samples
  let m := { m with samples := samples }
  if samples.isEmpty then (m, none)
  else (m, some ((samples.map Prod.snd).sum / samples.length))

/-- A call, with the time on the clock wherever it looks or could look. -/
inductive Call where
  | record (hz : Option ℚ) (stamp now : Instant)
  | mean (now : Instant)
  deriving DecidableEq

namespace Call

/-- When a call reads the clock. -/
def times : Call → List Instant
  | record _ stamp now => [stamp, now]
  | mean now => [now]

/-- The time of a call, the last one on the clock during it. -/
def clock : Call → Instant
  | record _ _ now => now
  | mean now => now

/-- The sample a call records. -/
def sample : Call → Option (Instant × ℚ)
  | record hz stamp _ => (plausibleHz hz).map fun hz => (stamp, hz)
  | mean _ => none

/-- The report of the call is dropped, and with it the call is over. -/
def dropped : Call → Bool
  | record hz _ _ => (plausibleHz hz).isNone
  | mean _ => false

end Call

/-- The monitor after a call. -/
def apply (m : FrequencyMonitor) : Call → FrequencyMonitor
  | .record hz stamp now => m.record hz stamp now
  | .mean now => (m.mean now).1

/-- The monitor after some calls. -/
def after (window : Nat) (calls : List Call) : FrequencyMonitor :=
  calls.foldl apply (new window)

end FrequencyMonitor

end AggregatorBridge
