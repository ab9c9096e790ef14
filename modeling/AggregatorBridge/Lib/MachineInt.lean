import Mathlib.Algebra.Group.Nat.Defs
import Mathlib.Algebra.Order.Group.Int

/-!
# Machine integers

Conversions between the fixed-width integers a program computes with and the unbounded ones a
proof computes with: a cast wraps, a saturating operation stops at the bounds.
-/

namespace MachineInt

/-- A number an `i64` can hold. -/
def IsI64 (n : Int) : Prop :=
  -2 ^ 63 ≤ n ∧ n < 2 ^ 63

instance (n : Int) : Decidable (IsI64 n) :=
  inferInstanceAs (Decidable (_ ∧ _))

/-- `n as i64` of an unsigned 64-bit value. -/
def asI64 (n : Nat) : Int :=
  if n < 2 ^ 63 then n else (n : Int) - 2 ^ 64

/-- The result of a saturating 64-bit operation whose exact result is `n`. -/
def saturateI64 (n : Int) : Int :=
  max (-2 ^ 63) (min n (2 ^ 63 - 1))

end MachineInt
