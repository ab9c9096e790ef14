import Mathlib.Order.Defs.Unbundled
import Mathlib.Data.Option.Basic

/-!
# Runs of a guarded transition function

A system is a partial step function `step : σ → ε → Option σ`: the event says which party
moves and how the outside world answered it, `none` says the event cannot happen in that
state. A run is a chain of enabled events. What a run theorem needs besides the chain is a
place for a side condition on each step (`C`, over the state BEFORE the step and the event),
because an invariant is often only preserved by the steps that meet one. `Steps step C` is
the reflexive and transitive closure of exactly those steps, and a system with no side
condition is the special case `Steps step Always`.

Nothing here says that an event is ever enabled: a claim about all runs is satisfied by a
system that never moves, so every use of this module comes with a concrete run, built with
`run` and turned into a chain by `Steps.of_run`.

A state does not remember how it was come by. `Passes` says it for the state: whatever chain leads
to it, one of its steps is of this kind.
-/

namespace Transition

universe u v

variable {σ : Type u} {ε : Type v}

/-- The side condition every step meets. -/
def Always : σ → ε → Prop :=
  fun _ _ => True

instance (s : σ) (e : ε) : Decidable (Always s e) :=
  inferInstanceAs (Decidable True)

/-- Chains of enabled steps, each of which meets `C` in the state it leaves. -/
inductive Steps (step : σ → ε → Option σ) (C : σ → ε → Prop) : σ → σ → Prop
  | refl (s : σ) : Steps step C s s
  | tail {s t u : σ} {e : ε} :
      Steps step C s t → C t e → step t e = some u → Steps step C s u

namespace Steps

variable {step : σ → ε → Option σ} {C D : σ → ε → Prop} {s t u : σ}

theorem single {e : ε} (meets : C s e) (moved : step s e = some t) : Steps step C s t :=
  .tail (.refl s) meets moved

theorem trans (first : Steps step C s t) (second : Steps step C t u) : Steps step C s u := by
  induction second with
  | refl => exact first
  | tail _ meets moved ih => exact .tail ih meets moved

/-- A chain under a stronger side condition is a chain under a weaker one. -/
theorem mono (weaker : ∀ s e, C s e → D s e) (chain : Steps step C s t) :
    Steps step D s t := by
  induction chain with
  | refl => exact .refl _
  | tail _ meets moved ih => exact .tail ih (weaker _ _ meets) moved

/-- The invariant rule: what every step that meets `C` preserves, every chain preserves. -/
theorem invariant {P : σ → Prop}
    (preserved : ∀ s e t, P s → C s e → step s e = some t → P t)
    (chain : Steps step C s t) (holds : P s) : P t := by
  induction chain with
  | refl => exact holds
  | tail _ meets moved ih => exact preserved _ _ _ ih meets moved

/-- Chains under a side condition that follows from the other one wherever the chain comes to. -/
theorem mono_reached (weaker : ∀ u e, Steps step C s u → C u e → D u e)
    (chain : Steps step C s t) : Steps step D s t := by
  induction chain with
  | refl => exact .refl _
  | tail before meets moved ih => exact .tail ih (weaker _ _ before meets) moved

/-- A chain avoids the steps of a kind, or there is one of them on it. -/
theorem avoids_or_passes (A : σ → ε → Prop) (chain : Steps step C s t) :
    Steps step (fun u e => C u e ∧ ¬ A u e) s t ∨
      ∃ u e v, Steps step C s u ∧ C u e ∧ A u e ∧ step u e = some v ∧ Steps step C v t := by
  induction chain with
  | refl => exact .inl (.refl _)
  | @tail m t e before meets moved ih =>
    rcases ih with avoids | ⟨u, f, v, reached, met, here, made, rest⟩
    · by_cases here : A m e
      · exact .inr ⟨m, e, t, before, meets, here, moved, .refl _⟩
      · exact .inl (.tail avoids ⟨meets, here⟩ moved)
    · exact .inr ⟨u, f, v, reached, met, here, made, .tail rest meets moved⟩

end Steps

/-! ## What every run has passed -/

/-- Every chain from `s` to `t` has a step of which `A` is true, in the state that the step
leaves: there is no chain without one. This is how a law speaks of the past of a state, whichever
way the state was come by. -/
def Passes (step : σ → ε → Option σ) (C A : σ → ε → Prop) (s t : σ) : Prop :=
  ¬ Steps step (fun u e => C u e ∧ ¬ A u e) s t

namespace Passes

variable {step : σ → ε → Option σ} {C A B : σ → ε → Prop} {s t : σ}

/-- The step may be described by whatever is true of it in all states that can be come to. -/
theorem mono (passes : Passes step C A s t)
    (weaker : ∀ u e, Steps step C s u → C u e → A u e → B u e) : Passes step C B s t := by
  intro avoids
  refine passes (avoids.mono_reached fun u e before both => ⟨both.1, fun here => both.2 ?_⟩)
  exact weaker u e (before.mono fun _ _ both => both.1) both.1 here

/-- On a chain there is one. -/
theorem exists_step (passes : Passes step C A s t) (chain : Steps step C s t) :
    ∃ u e v, Steps step C s u ∧ C u e ∧ A u e ∧ step u e = some v ∧ Steps step C v t :=
  (chain.avoids_or_passes A).resolve_left passes

end Passes

/-! ## Runs that are executed -/

/-- Executes a list of events, refusing the first one that is not enabled or does not meet
the side condition. -/
def run (step : σ → ε → Option σ) (C : σ → ε → Prop) [∀ s e, Decidable (C s e)] :
    List ε → σ → Option σ
  | [], s => some s
  | e :: es, s => if C s e then (step s e).bind (run step C es) else none

/-- A run that was computed is a chain of steps. -/
theorem Steps.of_run {step : σ → ε → Option σ} {C : σ → ε → Prop}
    [∀ s e, Decidable (C s e)] {es : List ε} {s t : σ}
    (ran : run step C es s = some t) : Steps step C s t := by
  induction es generalizing s with
  | nil =>
    simp only [run, Option.some.injEq] at ran
    subst ran
    exact .refl s
  | cons e es ih =>
    simp only [run] at ran
    split at ran
    · next meets =>
      obtain ⟨m, moved, rest⟩ := Option.bind_eq_some_iff.mp ran
      exact (Steps.single meets moved).trans (ih rest)
    · cases ran

/-- A list of events that can be executed leads to its final state. -/
theorem Steps.of_run_get {step : σ → ε → Option σ} {C : σ → ε → Prop}
    [∀ s e, Decidable (C s e)] {es : List ε} {s : σ} (ran : (run step C es s).isSome) :
    Steps step C s ((run step C es s).get ran) :=
  of_run (Option.some_get ran).symm

end Transition
