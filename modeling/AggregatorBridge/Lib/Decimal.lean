import Mathlib.Data.Rat.Floor
import Mathlib.Algebra.Order.Floor.Ring
import Mathlib.Algebra.Ring.Int.Parity
import Mathlib.Tactic.Linarith
import Mathlib.Tactic.Positivity

/-!
# Decimals with a bounded mantissa

A decimal is an integer mantissa over a power of ten. The mantissa is bounded and so is the
number of fractional digits, and a sum that does not fit gives up fractional digits, rounding
half to even, until it does. Only when the integer part alone is too large is there no result.

`Format.fit` is that search, and `fit_eq_none` says where it ends: the bound is half a unit
below the mantissa's, because a value that close is rounded out of range. Where the exact value
is a decimal of the format nothing is rounded (`fit_of_representable`).
-/

namespace Decimal

/-- The integer nearest to a rational; of two equally near ones the even one. -/
def round (x : ℚ) : ℤ :=
  if x - ⌊x⌋ < 1 / 2 then ⌊x⌋
  else if 1 / 2 < x - ⌊x⌋ then ⌊x⌋ + 1
  else if Even ⌊x⌋ then ⌊x⌋
  else ⌊x⌋ + 1

theorem abs_round_sub_le (x : ℚ) : |(round x : ℚ) - x| ≤ 1 / 2 := by
  have below := Int.floor_le x
  have above := Int.lt_floor_add_one x
  unfold round
  rw [abs_le]
  split
  · constructor <;> linarith
  split
  · push_cast
    constructor <;> linarith
  split
  · constructor <;> linarith
  · push_cast
    constructor <;> linarith

@[simp] theorem round_intCast (n : ℤ) : round n = n := by
  unfold round
  rw [if_pos (by rw [Int.floor_intCast, sub_self]; norm_num), Int.floor_intCast]

/-- A tie goes to the even neighbour. -/
theorem round_of_tie {x : ℚ} {n : ℤ} (even : Even n) (tie : |x - n| = 1 / 2) : round x = n := by
  rcases abs_eq (by norm_num) |>.mp tie with above | below
  · have floor : ⌊x⌋ = n := by
      rw [Int.floor_eq_iff]
      constructor <;> linarith
    have part : x - ⌊x⌋ = 1 / 2 := by rw [floor]; exact above
    unfold round
    rw [if_neg part.not_lt, if_neg part.symm.not_lt, if_pos (floor ▸ even), floor]
  · have floor : ⌊x⌋ = n - 1 := by
      rw [Int.floor_eq_iff]
      push_cast
      constructor <;> linarith
    have part : x - ⌊x⌋ = 1 / 2 := by rw [floor]; push_cast; linarith
    have odd : ¬ Even ⌊x⌋ := by
      rw [floor, Int.not_even_iff_odd]
      exact even.sub_odd odd_one
    unfold round
    rw [if_neg part.not_lt, if_neg part.symm.not_lt, if_neg odd, floor]
    ring

/-- What the mantissa and the fractional digits of a decimal are bounded by. -/
structure Format where
  limit : ℕ
  limit_even : Even limit
  digits : ℕ

namespace Format

variable (fmt : Format)

/-- The value with as many fractional digits as fit, at most the given number. -/
def fit : ℕ → ℚ → Option ℚ
  | 0, x => if (round x).natAbs < fmt.limit then some (round x) else none
  | s + 1, x =>
    if (round (x * 10 ^ (s + 1))).natAbs < fmt.limit then
      some (round (x * 10 ^ (s + 1)) / 10 ^ (s + 1))
    else fit s x

/-- `a + b`, if it has a result. -/
def add (a b : ℚ) : Option ℚ :=
  fmt.fit fmt.digits (a + b)

/-- The values the format has. -/
def Representable (x : ℚ) : Prop :=
  ∃ s ≤ fmt.digits, ∃ m : ℤ, m.natAbs < fmt.limit ∧ x = m / 10 ^ s

variable {fmt}

/-- Half a unit below the limit is a tie, and the limit is even. -/
theorem natAbs_round_of_tie {x : ℚ} (tie : |x| = fmt.limit - 1 / 2) :
    (round x).natAbs = fmt.limit := by
  have even : Even (fmt.limit : ℤ) := by exact_mod_cast fmt.limit_even
  rcases abs_choice x with sign | sign
  · have value : x - ((fmt.limit : ℤ) : ℚ) = -(1 / 2) := by
      push_cast
      linarith
    have up : round x = (fmt.limit : ℤ) := by
      apply round_of_tie even
      rw [value, abs_neg]
      norm_num
    rw [up, Int.natAbs_natCast]
  · have value : x - ((-(fmt.limit : ℤ) : ℤ) : ℚ) = 1 / 2 := by
      push_cast
      linarith
    have down : round x = -(fmt.limit : ℤ) := by
      apply round_of_tie even.neg
      rw [value]
      norm_num
    rw [down, Int.natAbs_neg, Int.natAbs_natCast]

/-- A value is rounded out of range from half a unit below the limit on. -/
theorem limit_le_round {x : ℚ} : fmt.limit ≤ (round x).natAbs ↔ fmt.limit - 1 / 2 ≤ |x| := by
  have error := abs_round_sub_le x
  have cast : ((round x).natAbs : ℚ) = |(round x : ℚ)| := by
    rw [Nat.cast_natAbs, Int.cast_abs]
  constructor
  · intro large
    have large : (fmt.limit : ℚ) ≤ |(round x : ℚ)| := by
      rw [← cast]
      exact_mod_cast large
    have triangle : |(round x : ℚ)| - |x| ≤ |(round x : ℚ) - x| := abs_sub_abs_le_abs_sub _ _
    linarith
  · intro large
    by_contra small
    have small : |(round x : ℚ)| + 1 ≤ fmt.limit := by
      rw [← cast]
      exact_mod_cast (by omega : (round x).natAbs + 1 ≤ fmt.limit)
    -- Rounding moves a value by at most a half, so this one is a tie.
    have triangle : |x| - |(round x : ℚ)| ≤ |(round x : ℚ) - x| := by
      rw [abs_sub_comm]
      exact abs_sub_abs_le_abs_sub _ _
    have tie : |x| = fmt.limit - 1 / 2 := by linarith
    rw [← cast, natAbs_round_of_tie tie] at small
    linarith

/-- There is no result exactly if the integer part alone is too large. -/
theorem fit_eq_none {s : ℕ} {x : ℚ} : fmt.fit s x = none ↔ fmt.limit - 1 / 2 ≤ |x| := by
  induction s with
  | zero =>
    unfold fit
    rw [← limit_le_round]
    split
    · next small => simp [small]
    · next large => simp [not_lt.mp large]
  | succ s ih =>
    unfold fit
    split
    · next small =>
      simp only [reduceCtorEq, false_iff, not_le]
      -- With more digits the value is only larger.
      have scaled : |x * 10 ^ (s + 1)| < fmt.limit - 1 / 2 :=
        not_le.mp fun large => absurd (limit_le_round.mpr large) small.not_ge
      refine lt_of_le_of_lt ?_ scaled
      rw [abs_mul, abs_of_pos (by positivity : (0 : ℚ) < 10 ^ (s + 1))]
      exact le_mul_of_one_le_right (abs_nonneg x) (one_le_pow₀ (by norm_num))
    · exact ih

theorem add_eq_none {a b : ℚ} : fmt.add a b = none ↔ fmt.limit - 1 / 2 ≤ |a + b| :=
  fit_eq_none

/-- A value the format has is not rounded. -/
theorem fit_of_representable {s : ℕ} {x : ℚ} {m : ℤ} {scale : ℕ} (within : scale ≤ s)
    (small : m.natAbs < fmt.limit) (exact_ : x = m / 10 ^ scale) : fmt.fit s x = some x := by
  have scaled (k : ℕ) : x * 10 ^ (scale + k) = ((m * 10 ^ k : ℤ) : ℚ) := by
    rw [exact_, pow_add]
    push_cast
    field_simp
  have ten (n : ℕ) : (10 : ℚ) ^ n ≠ 0 := by positivity
  induction s with
  | zero =>
    have value := scaled 0
    have none_ : scale = 0 := by omega
    subst none_
    simp only [Nat.add_zero, pow_zero, mul_one] at value
    unfold fit
    rw [value, round_intCast, if_pos small]
  | succ s ih =>
    unfold fit
    obtain ⟨k, split_⟩ := Nat.exists_eq_add_of_le within
    rw [split_, scaled k, round_intCast, ← scaled k, mul_div_assoc, div_self (ten _), mul_one]
    split
    · rfl
    · next large =>
      apply ih
      -- At its own scale the value fits.
      by_contra above
      have here : k = 0 := by omega
      subst here
      simp only [pow_zero, mul_one] at large
      exact large small

theorem add_of_representable {a b : ℚ} (exact_ : fmt.Representable (a + b)) :
    fmt.add a b = some (a + b) := by
  obtain ⟨scale, within, m, small, value⟩ := exact_
  exact fit_of_representable within small value

end Format

end Decimal
