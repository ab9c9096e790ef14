import Mathlib.Data.List.Basic

/-!
# Computations that can panic

A fallible computation of the source language ends in one of three ways: a value, an error
it reports to its caller, or a panic. The third is not a result at all, which is why it is a
constructor of its own and not one more error: `bind` propagates errors and panics alike,
but only an error can be recovered from, and totality is the absence of the third ending.

The accessors are the checked ones of a slice: each one panics exactly where its bound is
broken, and each comes with the one lemma that says when it returns.

What a panic leaves behind is not part of `Checked`. A loop over a state that outlives the panic is
a `foldlM` in `Except`, with the state at the panic for the error, and `Stopping` has its two rules:
one for steps that go through, one for steps that may stop.
-/

/-- A value, a reported error, or a panic. -/
inductive Checked (ε α : Type) where
  | ok (value : α)
  | error (reason : ε)
  | panic
  deriving Repr, DecidableEq

namespace Checked

variable {ε α β : Type}

/-- Sequencing: errors and panics both stop the computation. -/
def bind (x : Checked ε α) (f : α → Checked ε β) : Checked ε β :=
  match x with
  | ok a => f a
  | error e => error e
  | panic => panic

instance : Monad (Checked ε) where
  pure := ok
  bind := bind

/-- The computation came back to its caller, with a value or with an error. -/
def Returns (x : Checked ε α) : Prop :=
  x ≠ panic

instance (x : Checked ε α) : Decidable x.Returns :=
  match x with
  | ok _ => isTrue (by simp [Returns])
  | error _ => isTrue (by simp [Returns])
  | panic => isFalse (by simp [Returns])

@[simp] theorem returns_ok (a : α) : (ok a : Checked ε α).Returns := by
  simp [Returns]

@[simp] theorem returns_error (e : ε) : (error e : Checked ε α).Returns := by
  simp [Returns]

@[simp] theorem not_returns_panic : ¬ (panic : Checked ε α).Returns := by
  simp [Returns]

@[simp] theorem pure_eq (a : α) : (pure a : Checked ε α) = ok a := rfl

@[simp] theorem ok_bind (a : α) (f : α → Checked ε β) : (ok a >>= f) = f a := rfl

@[simp] theorem error_bind (e : ε) (f : α → Checked ε β) : (error e >>= f) = error e := rfl

@[simp] theorem panic_bind (f : α → Checked ε β) :
    ((panic : Checked ε α) >>= f) = panic := rfl

/-- A sequence returns exactly when its first part does and the rest returns on whatever
value the first part produced. -/
theorem returns_bind {x : Checked ε α} {f : α → Checked ε β} :
    (x >>= f).Returns ↔ x.Returns ∧ ∀ a, x = ok a → (f a).Returns := by
  cases x with
  | ok a => simp
  | error e => simp
  | panic => simp

/-- A sequence that produced a value did so through a value of its first part. -/
theorem bind_eq_ok {x : Checked ε α} {f : α → Checked ε β} {b : β}
    (produced : (x >>= f) = ok b) : ∃ a, x = ok a ∧ f a = ok b := by
  cases x with
  | ok a => exact ⟨a, rfl, produced⟩
  | error e => cases produced
  | panic => cases produced

/-- What comes after the last fallible part does not matter. -/
theorem returns_bind_pure {x : Checked ε α} {f : α → β} :
    (x >>= fun a => pure (f a)).Returns ↔ x.Returns := by
  rw [returns_bind]
  exact ⟨And.left, fun returned => ⟨returned, fun a _ => returns_ok _⟩⟩

/-- Where no error is possible, to return is to return a value. -/
theorem exists_ok [IsEmpty ε] {x : Checked ε α} (returned : x.Returns) : ∃ a, x = ok a := by
  cases x with
  | ok a => exact ⟨a, rfl⟩
  | error e => exact isEmptyElim e
  | panic => exact absurd returned not_returns_panic

/-- Recover an optional value, reporting `e` when there is none. -/
def ofOption (e : ε) : Option α → Checked ε α
  | some a => ok a
  | none => error e

@[simp] theorem returns_ofOption (e : ε) (o : Option α) : (ofOption e o).Returns := by
  cases o <;> simp [ofOption]

theorem of_ofOption {e : ε} {o : Option α} {a : α} (produced : ofOption e o = ok a) :
    o = some a := by
  cases o with
  | none => cases produced
  | some b => cases produced; rfl

/-- The caller handles the error: a value is kept, an error becomes `none`. A panic is not an
error and goes through. -/
def caught {ε' : Type} : Checked ε α → Checked ε' (Option α)
  | ok a => ok (some a)
  | error _ => ok none
  | panic => panic

theorem returns_caught {ε' : Type} {x : Checked ε α} :
    (x.caught : Checked ε' (Option α)).Returns ↔ x.Returns := by
  cases x with
  | ok a => simp [caught]
  | error e => simp [caught]
  | panic => simp [caught]

/-- A computation that handled its error only ever ends in a value or a panic. -/
theorem exists_ok_of_caught {ε' : Type} {x : Checked ε α}
    (returned : (x.caught : Checked ε' (Option α)).Returns) :
    ∃ o, (x.caught : Checked ε' (Option α)) = ok o := by
  cases x with
  | ok a => exact ⟨some a, rfl⟩
  | error e => exact ⟨none, rfl⟩
  | panic => exact absurd returned not_returns_panic

/-- `bail!(e)` unless the condition holds. -/
def ensure (c : Prop) [Decidable c] (e : ε) : Checked ε Unit :=
  if c then ok () else error e

@[simp] theorem returns_ensure (c : Prop) [Decidable c] (e : ε) : (ensure c e).Returns := by
  by_cases h : c <;> simp [ensure, h]

/-- A guard that let the computation through held. -/
theorem of_ensure {c : Prop} [Decidable c] {e : ε} {u : Unit} (passed : ensure c e = ok u) :
    c := by
  by_cases h : c
  · exact h
  · simp [ensure, h] at passed

theorem ensure_of {c : Prop} [Decidable c] {e : ε} (h : c) : ensure c e = ok () := by
  simp [ensure, h]

/-- A value the source unwraps: no value, no return. -/
def unwrap : Option α → Checked ε α
  | some a => ok a
  | none => panic

theorem returns_unwrap {o : Option α} : (unwrap o : Checked ε α).Returns ↔ o ≠ none := by
  cases o with
  | none => simp [unwrap]
  | some a => simp [unwrap]

/-- Panics unless the condition holds. -/
def require (c : Prop) [Decidable c] (a : α) : Checked ε α :=
  if c then ok a else panic

theorem returns_require {c : Prop} [Decidable c] {a : α} :
    (require c a : Checked ε α).Returns ↔ c := by
  by_cases h : c <;> simp [require, h]

theorem require_of {c : Prop} [Decidable c] {a : α} (h : c) :
    (require c a : Checked ε α) = ok a := by
  simp [require, h]

/-- `xs.filter(p)` with a predicate that can panic: it is asked about every element. -/
def filter (p : α → Checked ε Bool) : List α → Checked ε (List α)
  | [] => ok []
  | a :: as => do
    let keep ← p a
    let rest ← filter p as
    pure (if keep then a :: rest else rest)

theorem require_congr {c d : Prop} [Decidable c] [Decidable d] {a : α} (same : c ↔ d) :
    (require c a : Checked ε α) = require d a := by
  by_cases h : c
  · rw [require_of h, require_of (same.mp h)]
  · rw [require, require, if_neg h, if_neg (mt same.mpr h)]

theorem require_bind {c : Prop} [Decidable c] {a : α} {f : α → Checked ε β} :
    (require c a >>= f) = if c then f a else panic := by
  by_cases h : c <;> simp [require, h]

/-- Only elements the predicate cannot answer for stop the filter. -/
theorem filter_require {c : α → Prop} [DecidablePred c] {q : α → Bool} (as : List α) :
    (filter (fun a => require (c a) (q a)) as : Checked ε (List α)) =
      require (∀ a ∈ as, c a) (as.filter q) := by
  induction as with
  | nil => simp [filter, require]
  | cons a as ih =>
    rw [filter, ih, require_bind]
    by_cases first : c a
    · rw [if_pos first, require_bind, List.filter_cons]
      by_cases rest : ∀ b ∈ as, c b
      · have all : ∀ b ∈ a :: as, c b := List.forall_mem_cons.mpr ⟨first, rest⟩
        rw [if_pos rest, require_of all, pure_eq]
      · have some_ : ¬ ∀ b ∈ a :: as, c b := fun all => rest (List.forall_mem_cons.mp all).2
        rw [if_neg rest, require, if_neg some_]
    · have some_ : ¬ ∀ b ∈ a :: as, c b := fun all => first (List.forall_mem_cons.mp all).1
      rw [if_neg first, require, if_neg some_]

/-- A loop whose steps can only stop at their own element. `P` is what the steps rely on. -/
theorem foldlM_require {σ : Type} {f : σ → α → Checked ε σ} {g : σ → α → σ} {c : α → Prop}
    [DecidablePred c] {P : σ → Prop} (keeps : ∀ s a, P s → P (g s a))
    (each : ∀ s a, P s → f s a = require (c a) (g s a)) {s : σ} (holds : P s) (as : List α) :
    as.foldlM f s = require (∀ a ∈ as, c a) (as.foldl g s) := by
  induction as generalizing s with
  | nil => simp [require]
  | cons a as ih =>
    rw [List.foldlM_cons, each s a holds, require_bind]
    by_cases first : c a
    · rw [if_pos first, ih (keeps s a holds), List.foldl_cons]
      by_cases rest : ∀ b ∈ as, c b
      · have all : ∀ b ∈ a :: as, c b := List.forall_mem_cons.mpr ⟨first, rest⟩
        rw [require_of rest, require_of all]
      · have some_ : ¬ ∀ b ∈ a :: as, c b := fun all => rest (List.forall_mem_cons.mp all).2
        rw [require, if_neg rest, require, if_neg some_]
    · have some_ : ¬ ∀ b ∈ a :: as, c b := fun all => first (List.forall_mem_cons.mp all).1
      rw [if_neg first, require, if_neg some_]

/-- `xs[i]`: panics when `i` is out of range. -/
def index (xs : List α) (i : Nat) : Checked ε α :=
  unwrap xs[i]?

/-- `xs[i..j]`: panics when `j < i` or `j` is out of range. -/
def slice (xs : List α) (i j : Nat) : Checked ε (List α) :=
  if i ≤ j ∧ j ≤ xs.length then ok ((xs.take j).drop i) else panic

/-- A slice converted into an array of `n` elements and unwrapped. -/
def exactly (n : Nat) (xs : List α) : Checked ε (List α) :=
  if xs.length = n then ok xs else panic

theorem exactly_of_length {n : Nat} {xs : List α} (h : xs.length = n) :
    (exactly n xs : Checked ε (List α)) = ok xs := by
  simp [exactly, h]

/-- `a - b` on an unsigned machine integer whose wrapped result is only ever used as a bound:
a wrapped bound is out of range wherever it is used, so both build modes end in the panic. -/
def usub (a b : Nat) : Checked ε Nat :=
  if b ≤ a then ok (a - b) else panic

theorem index_of_lt {xs : List α} {i : Nat} (h : i < xs.length) :
    (index xs i : Checked ε α) = ok xs[i] := by
  simp [index, unwrap, h]

theorem slice_of_le {xs : List α} {i j : Nat} (hi : i ≤ j) (hj : j ≤ xs.length) :
    (slice xs i j : Checked ε (List α)) = ok ((xs.take j).drop i) := by
  simp [slice, hi, hj]

theorem returns_slice {xs : List α} {i j : Nat} :
    (slice xs i j : Checked ε (List α)).Returns ↔ i ≤ j ∧ j ≤ xs.length := by
  by_cases h : i ≤ j ∧ j ≤ xs.length <;> simp [slice, h]

theorem usub_of_le {a b : Nat} (h : b ≤ a) : (usub a b : Checked ε Nat) = ok (a - b) := by
  simp [usub, h]

end Checked

namespace Stopping

universe u v

variable {σ ε : Type u} {α : Type v} {f : σ → α → Except ε σ} {P : σ → Prop} {l : List α}

/-- A loop none of whose steps stops goes through, and keeps what its steps keep. -/
theorem exists_foldlM_ok (step : ∀ s, ∀ a ∈ l, P s → ∃ t, f s a = .ok t ∧ P t) {s : σ}
    (holds : P s) : ∃ t, l.foldlM f s = .ok t ∧ P t := by
  induction l generalizing s with
  | nil => exact ⟨s, rfl, holds⟩
  | cons a l ih =>
    obtain ⟨m, first, kept⟩ := step s a List.mem_cons_self holds
    obtain ⟨t, rest, holds⟩ := ih (fun s b mem => step s b (List.mem_cons_of_mem _ mem)) kept
    refine ⟨t, ?_, holds⟩
    rw [List.foldlM_cons, first]
    exact rest

/-- However a loop ends: what its steps keep holds where it went through, and what a step leaves
when it stops holds where the loop stopped. -/
theorem foldlM_ends {Q : ε → Prop}
    (step : ∀ s, ∀ a ∈ l, P s → (∀ t, f s a = .ok t → P t) ∧ ∀ e, f s a = .error e → Q e) {s : σ}
    (holds : P s) :
    (∀ t, l.foldlM f s = .ok t → P t) ∧ ∀ e, l.foldlM f s = .error e → Q e := by
  induction l generalizing s with
  | nil =>
    refine ⟨fun t done => ?_, fun e stopped => by cases stopped⟩
    cases done
    exact holds
  | cons a l ih =>
    obtain ⟨kept, left⟩ := step s a List.mem_cons_self holds
    rw [List.foldlM_cons]
    cases first : f s a with
    | ok m => exact ih (fun s b mem => step s b (List.mem_cons_of_mem _ mem)) (kept m first)
    | error e =>
      refine ⟨fun t done => (by cases done), fun e' stopped => ?_⟩
      cases stopped
      exact left e first

end Stopping
