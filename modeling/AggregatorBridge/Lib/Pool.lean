import Mathlib.Algebra.BigOperators.Group.List.Basic
import Mathlib.Algebra.Ring.Nat
import Mathlib.Data.List.Perm.Basic
import AggregatorBridge.Lib.Run

/-!
# Processes that share a state

Any number of processes run the same code against one shared state. A process begins, makes
its moves, each of them atomic, and stays in the pool when it has ended; between two moves of
one process every other process may move, and so may the world outside. `System` says which
processes can begin, what a move does, and what the world can do.

Four rules go with it. `System.invariant` is rely and guarantee: a move keeps what is true of
the state and of the process that made it, and it does not disturb what is true of another.
`origin` and `recorded` look back: what a process carries, it obtained by a move of its own, and
what is on record in the shared state, some process put there, on every run that leads to the
state. `owns` is for a resource that is handed out: what the state has given away is what the
processes hold, taken together. None of them says that a process ever moves again.
-/

namespace Pool

open Transition

/-- The shared state and the processes, those that have ended included. -/
structure State (σ π : Type) where
  shared : σ
  procs : List π

/-- A process begins, moves, or something happens outside. -/
inductive Event (π ε η : Type) where
  | start (p : π)
  | move (i : Nat) (e : ε)
  | outside (e : η)

/-- How processes begin and move, and what else can happen to the shared state. -/
structure System (σ π ε η : Type) where
  admits : π → Bool
  act : σ → π → ε → Option (σ × π)
  world : σ → η → Option σ

variable {σ π ε η κ : Type}

namespace System

variable (sys : System σ π ε η)

/-- A process that has no such move stays, and so does the state. -/
def step (s : State σ π) : Event π ε η → Option (State σ π)
  | .start p => if sys.admits p then some { s with procs := s.procs ++ [p] } else none
  | .move i e => do
    let p ← s.procs[i]?
    let (shared, q) ← sys.act s.shared p e
    some ⟨shared, s.procs.set i q⟩
  | .outside e => (sys.world s.shared e).map fun shared => { s with shared := shared }

/-- What a step can be. -/
inductive Moves (s : State σ π) : Event π ε η → State σ π → Prop
  | start {p : π} (admitted : sys.admits p = true) :
      Moves s (.start p) { s with procs := s.procs ++ [p] }
  | move {i : Nat} {e : ε} {p q : π} {shared : σ} (here : s.procs[i]? = some p)
      (acted : sys.act s.shared p e = some (shared, q)) :
      Moves s (.move i e) ⟨shared, s.procs.set i q⟩
  | outside {e : η} {shared : σ} (changed : sys.world s.shared e = some shared) :
      Moves s (.outside e) { s with shared := shared }

variable {sys} {s t : State σ π} {e : Event π ε η} {C : State σ π → Event π ε η → Prop}

/-- Every step starts a process, moves one, or is one of the outside. -/
theorem moves_of_step (moved : sys.step s e = some t) : sys.Moves s e t := by
  cases e with
  | start p =>
    simp only [step] at moved
    split at moved
    · next admitted =>
      cases moved
      exact .start admitted
    · cases moved
  | move i e =>
    obtain ⟨p, here, moved⟩ := Option.bind_eq_some_iff.mp moved
    obtain ⟨⟨shared, q⟩, acted, moved⟩ := Option.bind_eq_some_iff.mp moved
    cases moved
    exact .move here acted
  | outside e =>
    obtain ⟨shared, changed, rfl⟩ := Option.map_eq_some_iff.mp moved
    exact .outside changed

theorem step_move {i : Nat} {e : ε} {p q : π} {shared : σ} (here : s.procs[i]? = some p)
    (acted : sys.act s.shared p e = some (shared, q)) :
    sys.step s (.move i e) = some ⟨shared, s.procs.set i q⟩ := by
  simp [step, here, acted]

/-- The side condition that every move meets `K`, in the state and at the stage it leaves. -/
def Meets (K : σ → π → ε → Prop) (s : State σ π) : Event π ε η → Prop
  | .move i e =>
    match s.procs[i]? with
    | some p => K s.shared p e
    | none => True
  | _ => True

instance {K : σ → π → ε → Prop} [∀ s p e, Decidable (K s p e)] (s : State σ π) :
    (e : Event π ε η) → Decidable (Meets K s e)
  | .start _ => inferInstanceAs (Decidable True)
  | .outside _ => inferInstanceAs (Decidable True)
  | .move i e =>
    match here : s.procs[i]? with
    | some p => decidable_of_iff (K s.shared p e) (by simp only [Meets, here])
    | none => .isTrue (by simp only [Meets, here])

theorem Meets.holds {K : σ → π → ε → Prop} {i : Nat} {p : π} {e : ε}
    (meets : Meets (η := η) K s (.move i e)) (here : s.procs[i]? = some p) : K s.shared p e := by
  simpa only [Meets, here] using meets

/-- `G` holds of the shared state, and `P` of every process. -/
def Holds (G : σ → Prop) (P : σ → π → Prop) (s : State σ π) : Prop :=
  G s.shared ∧ ∀ p ∈ s.procs, P s.shared p

/-- The rule of rely and guarantee. -/
theorem invariant {G : σ → Prop} {P : σ → π → Prop}
    (begins : ∀ s p, sys.admits p = true → G s → P s p)
    (own : ∀ (s : State σ π) i e p shared q, s.procs[i]? = some p → C s (.move i e) →
      Holds G P s → sys.act s.shared p e = some (shared, q) → G shared ∧ P shared q)
    (others : ∀ s p e shared q r, G s → P s p → P s r → sys.act s p e = some (shared, q) →
      P shared r)
    (world : ∀ s e shared, G s → sys.world s e = some shared →
      G shared ∧ ∀ r, P s r → P shared r)
    (chain : Steps sys.step C s t) (holds : Holds G P s) : Holds G P t := by
  refine Steps.invariant ?_ chain holds
  intro s e t inv meets moved
  cases moves_of_step moved with
  | start admitted =>
    refine ⟨inv.1, fun p mem => ?_⟩
    rcases List.mem_append.mp mem with old | new
    · exact inv.2 p old
    · cases List.mem_singleton.mp new
      exact begins _ _ admitted inv.1
  | move here acted =>
    have mine := own s _ _ _ _ _ here meets inv acted
    refine ⟨mine.1, fun r mem => ?_⟩
    rcases List.mem_or_eq_of_mem_set mem with old | rfl
    · exact others _ _ _ _ _ _ inv.1 (inv.2 _ (List.mem_of_getElem? here)) (inv.2 r old) acted
    · exact mine.2
  | outside changed =>
    have kept := world _ _ _ inv.1 changed
    exact ⟨kept.1, fun r mem => kept.2 r (inv.2 r mem)⟩

/-- Nobody has begun. -/
theorem holds_nil {G : σ → Prop} {P : σ → π → Prop} {shared : σ} (initially : G shared) :
    Holds G P ⟨shared, []⟩ :=
  ⟨initially, fun _ mem => absurd mem List.not_mem_nil⟩

/-- An invariant of the shared state alone. -/
theorem shared_invariant {G : σ → Prop}
    (own : ∀ (s : State σ π) i e p shared q, s.procs[i]? = some p → C s (.move i e) →
      G s.shared → sys.act s.shared p e = some (shared, q) → G shared)
    (world : ∀ s e shared, G s → sys.world s e = some shared → G shared)
    (chain : Steps sys.step C s t) (holds : G s.shared) : G t.shared := by
  refine Steps.invariant (P := fun s => G s.shared) ?_ chain holds
  intro s e t inv meets moved
  cases moves_of_step moved with
  | start _ => exact inv
  | move here acted => exact own s _ _ _ _ _ here meets inv acted
  | outside changed => exact world _ _ _ inv changed

/-- Where what a process carries comes from. If no process begins with it, and a move hands it on
or obtains it, then the process obtained it by a move of its own, on every run. -/
theorem origin {carries : π → Prop} {obtains : σ → π → ε → Prop} {shared : σ}
    (begins : ∀ p, sys.admits p = true → ¬ carries p)
    (act : ∀ s p e later q, sys.act s p e = some (later, q) → carries q →
      carries p ∨ obtains s p e)
    {i : Nat} {p : π} (here : s.procs[i]? = some p) (carried : carries p) :
    Passes sys.step C (fun u e => ∃ m p, e = .move i m ∧ u.procs[i]? = some p ∧
      obtains u.shared p m) ⟨shared, []⟩ s := by
  intro avoids
  -- along a run without such a move, the process never carries it
  have never : ∀ p, s.procs[i]? = some p → ¬ carries p := by
    refine Steps.invariant (P := fun s => ∀ p, s.procs[i]? = some p → ¬ carries p) ?_ avoids
      fun p none => by cases none
    intro s e t inv met moved q here carried
    cases moves_of_step moved with
    | start admitted =>
      rw [List.getElem?_append] at here
      split at here
      · exact inv q here carried
      · cases List.mem_singleton.mp (List.mem_of_getElem? here)
        exact begins q admitted carried
    | @move j m r q' later there acted =>
      by_cases same : j = i
      · subst same
        rw [List.getElem?_set_self (List.getElem?_eq_some_iff.mp there).1] at here
        cases here
        rcases act _ _ _ _ _ acted carried with had | obtained
        · exact inv r there had
        · exact met.2 ⟨m, r, rfl, there, obtained⟩
      · rw [List.getElem?_set_ne same] at here
        exact inv q here carried
    | outside changed => exact inv q here carried
  exact never p here carried

/-- Where what is on record in the shared state comes from. If it is not there at first, and a
move keeps what is there or puts there what its process has, then a process put it there, on every
run. -/
theorem recorded {logged : σ → Prop} {records : σ → π → ε → Prop} {shared : σ}
    (initially : ¬ logged shared)
    (act : ∀ s p e later q, sys.act s p e = some (later, q) → logged later →
      logged s ∨ records s p e)
    (world : ∀ s e later, sys.world s e = some later → logged later → logged s)
    (there : logged s.shared) :
    Passes sys.step C (fun u e => ∃ i m p, e = .move i m ∧ u.procs[i]? = some p ∧
      records u.shared p m) ⟨shared, []⟩ s := by
  intro avoids
  have never : ¬ logged s.shared := by
    refine Steps.invariant (P := fun s => ¬ logged s.shared) ?_ avoids initially
    intro s e t inv met moved there
    cases moves_of_step moved with
    | start _ => exact inv there
    | @move i m p q later here acted =>
      rcases act _ _ _ _ _ acted there with old | new
      · exact inv old
      · exact met.2 ⟨i, m, p, rfl, here, new⟩
    | outside changed => exact inv (world _ _ _ changed there)
  exact never there

/-! ## Resources -/

variable {held : π → List κ}

/-- What a process holds, and what the others hold. -/
theorem flatMap_perm {procs : List π} {i : Nat} {p : π} (here : procs[i]? = some p) :
    (procs.flatMap held).Perm (held p ++ (procs.eraseIdx i).flatMap held) := by
  obtain ⟨inside, rfl⟩ := List.getElem?_eq_some_iff.mp here
  exact ((List.getElem_cons_eraseIdx_perm inside).symm).flatMap_right held

/-- The same after the process has become `q`. -/
theorem flatMap_set_perm {procs : List π} {i : Nat} {p : π} (here : procs[i]? = some p) (q : π) :
    ((procs.set i q).flatMap held).Perm (held q ++ (procs.eraseIdx i).flatMap held) := by
  obtain ⟨inside, _⟩ := List.getElem?_eq_some_iff.mp here
  exact (List.set_perm_cons_eraseIdx inside q).flatMap_right held

/-- The moves that the processes have left, taken together, go down with those of one. -/
theorem sum_set_lt {procs : List π} {i : Nat} {p q : π} {left : π → Nat}
    (here : procs[i]? = some p) (less : left q < left p) :
    ((procs.set i q).map left).sum < (procs.map left).sum := by
  obtain ⟨inside, rfl⟩ := List.getElem?_eq_some_iff.mp here
  have before := ((List.getElem_cons_eraseIdx_perm inside).map left).sum_eq
  have after := ((List.set_perm_cons_eraseIdx inside q).map left).sum_eq
  simp only [List.map_cons, List.sum_cons] at before after
  omega

/-- What the state has given away is what the processes hold. -/
def Owns (given : σ → List κ) (held : π → List κ) (s : State σ π) : Prop :=
  (given s.shared).Perm (s.procs.flatMap held)

/-- A process that has just begun holds nothing, and a move changes what was given away as it
changes what the process holds. -/
theorem owns {given : σ → List κ}
    (begins : ∀ p, sys.admits p = true → held p = [])
    (act : ∀ s p e shared q rest, sys.act s p e = some (shared, q) →
      (given s).Perm (held p ++ rest) → (given shared).Perm (held q ++ rest))
    (world : ∀ s e shared, sys.world s e = some shared → given shared = given s)
    (chain : Steps sys.step C s t) (holds : Owns given held s) : Owns given held t := by
  refine Steps.invariant ?_ chain holds
  intro s e t inv _ moved
  cases moves_of_step moved with
  | @start p admitted =>
    unfold Owns
    rw [List.flatMap_append, List.flatMap_singleton, begins p admitted, List.append_nil]
    exact inv
  | move here acted =>
    have before : (given s.shared).Perm _ := inv.trans (flatMap_perm here)
    exact (act _ _ _ _ _ _ acted before).trans (flatMap_set_perm here _).symm
  | outside changed =>
    unfold Owns
    rw [world _ _ _ changed]
    exact inv

/-- Resources that nobody has twice: what two processes hold is disjoint. -/
theorem disjoint_held {procs : List π} {i j : Nat} {p r : π} (nodup : (procs.flatMap held).Nodup)
    (here : procs[i]? = some p) (there : procs[j]? = some r) (other : i ≠ j) :
    (held p).Disjoint (held r) := by
  have apart : ∀ k ∈ held p, ∀ k' ∈ (procs.eraseIdx i).flatMap held, k ≠ k' :=
    (List.nodup_append.mp ((flatMap_perm here).nodup nodup)).2.2
  intro k mine theirs
  have listed : r ∈ procs.eraseIdx i := List.mem_eraseIdx_iff_getElem?.mpr ⟨j, other.symm, there⟩
  exact apart k mine k (List.mem_flatMap.mpr ⟨r, listed, theirs⟩) rfl

/-- The rule of rely and guarantee where no resource has two holders: what is true of a process
may be disturbed by a move of one that holds what it holds. -/
theorem invariant_apart {G : σ → Prop} {P : σ → π → Prop}
    (apart : ∀ u, Steps sys.step C s u → (u.procs.flatMap held).Nodup)
    (begins : ∀ s p, sys.admits p = true → G s → P s p)
    (own : ∀ (s : State σ π) i e p shared q, s.procs[i]? = some p → C s (.move i e) →
      Holds G P s → sys.act s.shared p e = some (shared, q) → G shared ∧ P shared q)
    (others : ∀ s p e shared q r, G s → P s p → P s r → (held p).Disjoint (held r) →
      sys.act s p e = some (shared, q) → P shared r)
    (world : ∀ s e shared, G s → sys.world s e = some shared →
      G shared ∧ ∀ r, P s r → P shared r)
    (chain : Steps sys.step C s t) (holds : Holds G P s) : Holds G P t := by
  induction chain with
  | refl => exact holds
  | tail before meets moved ih =>
    have nodup := apart _ before
    cases moves_of_step moved with
    | start admitted =>
      refine ⟨ih.1, fun p mem => ?_⟩
      rcases List.mem_append.mp mem with old | new
      · exact ih.2 p old
      · cases List.mem_singleton.mp new
        exact begins _ _ admitted ih.1
    | @move i e p q shared here acted =>
      have mine := own _ _ _ _ _ _ here meets ih acted
      refine ⟨mine.1, fun r mem => ?_⟩
      obtain ⟨j, at_⟩ := List.mem_iff_getElem?.mp mem
      by_cases same : i = j
      · subst same
        rw [List.getElem?_set_self (List.getElem?_eq_some_iff.mp here).1] at at_
        cases at_
        exact mine.2
      · rw [List.getElem?_set_ne same] at at_
        exact others _ _ _ _ _ _ ih.1 (ih.2 p (List.mem_of_getElem? here))
          (ih.2 r (List.mem_of_getElem? at_)) (disjoint_held nodup here at_ same) acted
    | outside changed =>
      have kept := world _ _ _ ih.1 changed
      exact ⟨kept.1, fun r mem => kept.2 r (ih.2 r mem)⟩

end System

end Pool
