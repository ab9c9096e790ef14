import Mathlib.Order.Basic
import Mathlib.Tactic.Linarith

/-!
# Instants as the bridge reads them

The bridge keeps every instant as a `chrono::DateTime<Utc>`: whole seconds since the epoch
and a nanosecond part. The nanosecond part can reach past one second, which is how chrono
writes a leap second (`23:59:60` is second `59` with a part of at least 10⁹), and it can only
do so in the last second of a minute. Both bounds are fields of the structure, so an instant
that chrono cannot represent cannot be built here.

The arithmetic is chrono's, leap seconds included. It does not stop at the ends of chrono's
calendar (the years -262143 and 262142), where the operators panic: here only `timestampOpt`,
which is where an outside number becomes an instant, checks the range. `CheckedBilling` has the
additions that do, and `VenOps.ending` those of durations that others send.
-/

namespace AggregatorBridge

/-- A `chrono::DateTime<Utc>`. -/
@[ext]
structure DateTime where
  secs : Int
  /-- The nanosecond part; from 10⁹ on it is a leap second. -/
  nanos : Nat
  nanos_lt : nanos < 2000000000
  leap : 1000000000 ≤ nanos → secs % 60 = 59
  deriving DecidableEq

namespace DateTime

/-- A whole second. -/
def ofSecs (secs : Int) : DateTime :=
  ⟨secs, 0, by omega, by omega⟩

@[simp] theorem ofSecs_secs (n : Int) : (ofSecs n).secs = n := rfl

@[simp] theorem ofSecs_nanos (n : Int) : (ofSecs n).nanos = 0 := rfl

/-- A whole second is determined by its second count. -/
theorem eq_ofSecs {t : DateTime} (whole : t.nanos = 0) : t = ofSecs t.secs := by
  ext
  · rfl
  · exact whole

/-- The derived order: seconds first, then the nanosecond part. -/
def le (a b : DateTime) : Prop :=
  a.secs < b.secs ∨ a.secs = b.secs ∧ a.nanos ≤ b.nanos

instance : LE DateTime := ⟨le⟩

instance (a b : DateTime) : Decidable (a ≤ b) :=
  inferInstanceAs (Decidable (a.secs < b.secs ∨ a.secs = b.secs ∧ a.nanos ≤ b.nanos))

theorem le_trans' {a b c : DateTime} (first : a ≤ b) (second : b ≤ c) : a ≤ c := by
  have ab : a.secs < b.secs ∨ a.secs = b.secs ∧ a.nanos ≤ b.nanos := first
  have bc : b.secs < c.secs ∨ b.secs = c.secs ∧ b.nanos ≤ c.nanos := second
  show a.secs < c.secs ∨ a.secs = c.secs ∧ a.nanos ≤ c.nanos
  omega

/-- Of two instants one is not later. -/
theorem le_of_not_le {a b : DateTime} (later : ¬ a ≤ b) : b ≤ a := by
  have ab : ¬ (a.secs < b.secs ∨ a.secs = b.secs ∧ a.nanos ≤ b.nanos) := later
  show b.secs < a.secs ∨ b.secs = a.secs ∧ b.nanos ≤ a.nanos
  omega

/-- `self + chrono::Duration::seconds(n)`. An instant inside a leap second leaves it first:
forwards it becomes the same part of the second it interrupts, backwards of the next one. -/
def addSecs (t : DateTime) (n : Int) : DateTime :=
  if inLeap : 1000000000 ≤ t.nanos then
    if 0 < n then
      ⟨t.secs + n, t.nanos - 1000000000, by have := t.nanos_lt; omega,
        by have := t.nanos_lt; omega⟩
    else if n < 0 then
      ⟨t.secs + 1 + n, t.nanos - 1000000000, by have := t.nanos_lt; omega,
        by have := t.nanos_lt; omega⟩
    else t
  else
    ⟨t.secs + n, t.nanos, t.nanos_lt, by omega⟩

/-- `self - rhs` in nanoseconds. A leap second between the two times of day counts once. -/
def durationSince (t rhs : DateTime) : Int :=
  let ofDay := t.secs % 86400
  let rhsOfDay := rhs.secs % 86400
  let adjust : Int :=
    if rhsOfDay < ofDay ∧ 1000000000 ≤ rhs.nanos then 1
    else if ofDay < rhsOfDay ∧ 1000000000 ≤ t.nanos then -1
    else 0
  (t.secs - rhs.secs + adjust) * 1000000000 + ((t.nanos : Int) - rhs.nanos)

/-- Whole milliseconds since the epoch; what is below a millisecond is cut off, towards the past
before the epoch too. -/
def timestampMillis (t : DateTime) : Int :=
  t.secs * 1000 + (t.nanos / 1000000 : Nat)

theorem timestampMillis_ofSecs (s : Int) : (ofSecs s).timestampMillis = s * 1000 := by
  simp [timestampMillis]

/-- The first second of chrono's calendar, `-262143-01-01T00:00:00`. -/
def minSecs : Int := -8334601228800

/-- The last second of chrono's calendar, `262142-12-31T23:59:59`. -/
def maxSecs : Int := 8210266876799

/-- The instants chrono has. -/
def InCalendar (t : DateTime) : Prop :=
  minSecs ≤ t.secs ∧ t.secs ≤ maxSecs

instance (t : DateTime) : Decidable t.InCalendar :=
  inferInstanceAs (Decidable (_ ∧ _))

/-- `Utc.timestamp_opt(secs, 0).single()`: an instant, if the calendar reaches that far. -/
def timestampOpt (secs : Int) : Option DateTime :=
  if minSecs ≤ secs ∧ secs ≤ maxSecs then some (ofSecs secs) else none

/-- The minute of the hour, from the seconds since the epoch; a leap second does not change it. -/
def minute (t : DateTime) : Int :=
  t.secs / 60 % 60

end DateTime

end AggregatorBridge
