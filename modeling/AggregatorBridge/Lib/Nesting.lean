import Mathlib.Logic.Relation
import Mathlib.Order.WellQuasiOrder

/-!
# Rewriting in place

A deterministic rewriting: a state is rewritten at one place, its focus, and what that place
becomes does not depend on the rest. The rest waits. It plays a part again only when what the place
has become cannot be rewritten any further, and then some of it is used up. A macro processor works
like this, and so does whatever keeps its continuation on a stack.

Such a rewriting goes on forever for one reason only. There is an endless nesting: a focus, a
focus that is met in what the first one becomes on its own, one that is met in what the second one
becomes, and so on (`Lawful.ends_iff`). Where the foci that can be nested are well-quasi-ordered,
one of them is met again, no smaller, in what it becomes itself (`Lawful.exists_comeback`).
-/

namespace Nesting

universe u v

variable {σ : Type u} {φ : Type v}

/-- A step function that acts at one place of a state at a time, with what such a place becomes on
its own and the size of what is behind it. -/
structure Rewriting (σ : Type u) (φ : Type v) where
  step : σ → Option σ
  /-- Where the next step acts. -/
  focus : σ → Option φ
  /-- What a focus becomes, on its own. -/
  body : φ → σ
  /-- The size of what waits behind the focus. -/
  behind : σ → Nat

namespace Rewriting

variable (R : Rewriting σ φ)

/-- Any number of steps. -/
abbrev Steps : σ → σ → Prop :=
  Relation.ReflTransGen fun s t => R.step s = some t

/-- No step is left after finitely many. -/
def Ends (s : σ) : Prop :=
  ∃ t, R.Steps s t ∧ R.step t = none

/-- A focus that some state on the way has. -/
def Meets (s : σ) (f : φ) : Prop :=
  ∃ t, R.Steps s t ∧ R.focus t = some f

/-- Foci without end, each met in what the one before becomes on its own. -/
def Nested (s : σ) : Prop :=
  ∃ chain : Nat → φ, R.Meets s (chain 0) ∧ ∀ i, R.Meets (R.body (chain i)) (chain (i + 1))

/-- What surrounds the focus of a state. -/
structure Surrounds (s : σ) (f : φ) (around : σ → σ) : Prop where
  acts : R.step s = some (around (R.body f))
  /-- Inside, everything goes on as on its own. -/
  keeps : ∀ {t t'}, R.step t = some t' → R.step (around t) = some (around t')
  keeps_focus : ∀ {t g}, R.focus t = some g → R.focus (around t) = some g
  /-- Only what has come to its end draws on the rest. -/
  leaves : ∀ {t}, R.step t = none → R.step (around t) = none ∨ R.behind (around t) < R.behind s

/-- Every step acts at a focus, and what is around a focus does not get in its way. -/
structure Lawful : Prop where
  focused : ∀ {s t}, R.step s = some t → ∃ f, R.focus s = some f
  surrounded : ∀ {s f}, R.focus s = some f → ∃ around, R.Surrounds s f around

variable {R} {s t : σ} {f g : φ}

/-- What goes on inside goes on as it would alone. -/
theorem Surrounds.steps {around : σ → σ} (surrounds : R.Surrounds s f around) {t t' : σ}
    (chain : R.Steps t t') : R.Steps (around t) (around t') := by
  induction chain with
  | refl => exact .refl
  | tail _ moved ih => exact ih.tail (surrounds.keeps moved)

theorem Surrounds.meets {around : σ → σ} (surrounds : R.Surrounds s f around)
    (met : R.Meets t g) : R.Meets (around t) g := by
  obtain ⟨u, chain, focus⟩ := met
  exact ⟨around u, surrounds.steps chain, surrounds.keeps_focus focus⟩

/-- What is met later is met. -/
theorem Meets.of_steps (chain : R.Steps s t) (met : R.Meets t f) : R.Meets s f := by
  obtain ⟨u, rest, focus⟩ := met
  exact ⟨u, chain.trans rest, focus⟩

/-- What is met again in what it becomes, is met without end. -/
theorem Nested.of_comeback (met : R.Meets s f) (again : R.Meets (R.body f) f) : R.Nested s :=
  ⟨fun _ => f, met, fun _ => again⟩

namespace Lawful

variable (lawful : R.Lawful)

include lawful

/-- What is met in what is met. -/
theorem meets_trans (met : R.Meets s f) (inside : R.Meets (R.body f) g) : R.Meets s g := by
  obtain ⟨t, chain, focus⟩ := met
  obtain ⟨around, surrounds⟩ := lawful.surrounded focus
  exact .of_steps (chain.tail surrounds.acts) (surrounds.meets inside)

/-- What meets only foci that end on their own, ends. -/
theorem ends_of_bodies (bodies : ∀ f, R.Meets s f → R.Ends (R.body f)) : R.Ends s := by
  -- Each focus that has come to its end has used up some of what waits behind it.
  induction size : R.behind s using Nat.strong_induction_on generalizing s with
  | h n ih =>
    cases moved : R.step s with
    | none => exact ⟨s, .refl, moved⟩
    | some t =>
      obtain ⟨f, focus⟩ := lawful.focused moved
      obtain ⟨around, surrounds⟩ := lawful.surrounded focus
      obtain ⟨w, chain, stuck⟩ := bodies f ⟨s, .refl, focus⟩
      have reached : R.Steps s (around w) := .head surrounds.acts (surrounds.steps chain)
      obtain ended | fewer := surrounds.leaves stuck
      · exact ⟨around w, reached, ended⟩
      · obtain ⟨u, rest, ended⟩ := ih _ (size ▸ fewer)
          (fun g met => bodies g (.of_steps reached met)) rfl
        exact ⟨u, reached.trans rest, ended⟩

theorem exists_not_ends (endless : ¬ R.Ends s) : ∃ f, R.Meets s f ∧ ¬ R.Ends (R.body f) := by
  by_contra bodies
  push Not at bodies
  exact endless (lawful.ends_of_bodies bodies)

theorem nested_of_not_ends (endless : ¬ R.Ends s) : R.Nested s := by
  obtain ⟨first, met, firstEndless⟩ := lawful.exists_not_ends endless
  choose next inside nextEndless using
    fun f : { f : φ // ¬ R.Ends (R.body f) } => lawful.exists_not_ends f.2
  let chain (i : Nat) : { f : φ // ¬ R.Ends (R.body f) } :=
    i.rec ⟨first, firstEndless⟩ fun _ f => ⟨next f, nextEndless f⟩
  exact ⟨fun i => (chain i).1, met, fun i => inside (chain i)⟩

/-- A nesting is still one after a step. -/
theorem nested_step (moved : R.step s = some t) (nested : R.Nested s) : R.Nested t := by
  obtain ⟨chain, ⟨u, steps, focus⟩, inside⟩ := nested
  obtain rfl | ⟨t', moved', rest⟩ := steps.cases_head
  · -- The first of the foci is rewritten; the second is met in what it becomes.
    obtain ⟨around, surrounds⟩ := lawful.surrounded focus
    rw [surrounds.acts] at moved
    cases moved
    exact ⟨fun i => chain (i + 1), surrounds.meets (inside 0), fun i => inside (i + 1)⟩
  · rw [moved'] at moved
    cases moved
    exact ⟨chain, ⟨u, rest, focus⟩, inside⟩

theorem not_nested_of_ends (ends : R.Ends s) : ¬ R.Nested s := by
  obtain ⟨t, steps, ended⟩ := ends
  induction steps using Relation.ReflTransGen.head_induction_on with
  | refl =>
    rintro ⟨chain, ⟨u, steps, focus⟩, _⟩
    obtain rfl | ⟨t', moved, _⟩ := steps.cases_head
    · obtain ⟨around, surrounds⟩ := lawful.surrounded focus
      rw [surrounds.acts] at ended
      cases ended
    · rw [moved] at ended
      cases ended
  | head moved _ ih => exact fun nested => ih (lawful.nested_step moved nested)

/-- Rewriting ends unless foci are nested without end. -/
theorem ends_iff : R.Ends s ↔ ¬ R.Nested s := by
  constructor
  · exact lawful.not_nested_of_ends
  · intro nested
    by_contra endless
    exact nested (lawful.nested_of_not_ends endless)

theorem meets_chain {chain : Nat → φ} (inside : ∀ i, R.Meets (R.body (chain i)) (chain (i + 1)))
    {i j : Nat} (before : i < j) : R.Meets (R.body (chain i)) (chain j) := by
  induction j, before using Nat.le_induction with
  | base => exact inside i
  | succ j _ ih => exact lawful.meets_trans ih (inside j)

theorem not_ends_body {chain : Nat → φ}
    (inside : ∀ i, R.Meets (R.body (chain i)) (chain (i + 1))) (i : Nat) :
    ¬ R.Ends (R.body (chain i)) := by
  intro ends
  refine lawful.not_nested_of_ends ends ?_
  exact ⟨fun j => chain (i + 1 + j), inside i, fun j => inside (i + 1 + j)⟩

/-- Among foci that are well-quasi-ordered, as far as they do not end on their own, one is met
again in what it becomes, and is no smaller. -/
theorem exists_comeback {le : φ → φ → Prop} {nestable : φ → Prop}
    (ordered : WellQuasiOrdered fun f g : { f : φ // nestable f } => le f.1 g.1)
    (nestables : ∀ f, ¬ R.Ends (R.body f) → nestable f) (nested : R.Nested s) :
    ∃ f g, R.Meets s f ∧ nestable f ∧ R.Meets (R.body f) g ∧ le f g := by
  obtain ⟨chain, met, inside⟩ := nested
  have isNestable (i : Nat) : nestable (chain i) :=
    nestables (chain i) (lawful.not_ends_body inside i)
  obtain ⟨i, j, before, larger⟩ := ordered fun i => ⟨chain i, isNestable i⟩
  refine ⟨chain i, chain j, ?_, isNestable i, lawful.meets_chain inside before, larger⟩
  cases i with
  | zero => exact met
  | succ i => exact lawful.meets_trans met (lawful.meets_chain inside (Nat.succ_pos i))

end Lawful

end Rewriting

end Nesting
