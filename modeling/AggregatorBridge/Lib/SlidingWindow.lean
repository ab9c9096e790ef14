import Mathlib.Data.List.Basic
import Mathlib.Order.Lattice

/-!
# Sliding windows

A queue of stamped values from whose front the old ones are dropped. Dropping stops at the first
value that is not old, so what it leaves is the fresh values only as long as the queue is in the
order of the stamps (`evict_eq_filter`). `Exact` is that order together with what the queue has
to hold, in terms of everything that was ever pushed, and pushing and evicting keep it if stamps
and cutoffs do not go back.

There may be no cutoff yet, and then everything is fresh.
-/

namespace SlidingWindow

variable {T V : Type*} [LinearOrder T]

/-- An element is not older than the cutoff; without a cutoff all are fresh. -/
def fresh (cutoff : Option T) (e : T × V) : Bool :=
  match cutoff with
  | some c => decide (c ≤ e.1)
  | none => true

/-- Drops old values from the front until one is fresh. -/
def evict (cutoff : Option T) (queue : List (T × V)) : List (T × V) :=
  queue.dropWhile fun e => !fresh cutoff e

/-- The times of a queue do not go back. -/
def InOrder (queue : List (T × V)) : Prop :=
  queue.Pairwise fun a b => a.1 ≤ b.1

/-- What is fresh for the later cutoff was fresh for the earlier one. -/
def NotBefore (earlier later : Option T) : Prop :=
  ∀ t : T, (∀ c, later = some c → c ≤ t) → ∀ c, earlier = some c → c ≤ t

theorem fresh_iff {cutoff : Option T} {e : T × V} :
    fresh cutoff e = true ↔ ∀ c, cutoff = some c → c ≤ e.1 := by
  cases cutoff with
  | none => simp [fresh]
  | some c => simp [fresh]

theorem notBefore_none (later : Option T) : NotBefore none later := by
  intro t _ c held
  cases held

theorem notBefore_some {earlier later : T} (le : earlier ≤ later) :
    NotBefore (some earlier) (some later) := by
  intro t after c held
  cases held
  exact le_trans le (after later rfl)

theorem evict_eq_filter (cutoff : Option T) {queue : List (T × V)} (inOrder : InOrder queue) :
    evict cutoff queue = queue.filter (fresh cutoff) := by
  induction queue with
  | nil => rfl
  | cons e rest ih =>
    obtain ⟨after, inOrder⟩ := List.pairwise_cons.mp inOrder
    by_cases isFresh : fresh cutoff e = true
    · have all : ∀ e' ∈ rest, fresh cutoff e' = true := by
        intro e' mem
        rw [fresh_iff] at isFresh ⊢
        exact fun c held => le_trans (isFresh c held) (after e' mem)
      rw [evict, List.dropWhile_cons_of_neg (by simp [isFresh]), List.filter_cons_of_pos isFresh,
        List.filter_eq_self.mpr all]
    · rw [evict, List.dropWhile_cons_of_pos (by simpa using isFresh), ← evict, ih inOrder,
        List.filter_cons_of_neg isFresh]

/-- The queue holds what is fresh of everything that was pushed, in the order of the stamps. -/
structure Exact (pushed : List (T × V)) (cutoff : Option T) (queue : List (T × V)) : Prop where
  inOrder : InOrder pushed
  holds : queue = pushed.filter (fresh cutoff)

namespace Exact

variable {pushed queue : List (T × V)} {cutoff later : Option T}

theorem empty : Exact ([] : List (T × V)) cutoff [] where
  inOrder := List.Pairwise.nil
  holds := rfl

theorem queue_inOrder (exact_ : Exact pushed cutoff queue) : InOrder queue := by
  rw [exact_.holds]
  exact exact_.inOrder.sublist List.filter_sublist

/-- A value with the latest stamp goes to the back, if the cutoff is not past it. -/
theorem push (exact_ : Exact pushed cutoff queue) {t : T} (v : V)
    (latest : ∀ e ∈ pushed, e.1 ≤ t) (notPast : ∀ c, cutoff = some c → c ≤ t) :
    Exact (pushed ++ [(t, v)]) cutoff (queue ++ [(t, v)]) where
  inOrder := by
    refine List.pairwise_append.mpr ⟨exact_.inOrder, List.pairwise_singleton _ _, ?_⟩
    intro e mem e' new
    cases List.mem_singleton.mp new
    exact latest e mem
  holds := by
    rw [List.filter_append, ← exact_.holds, List.filter_cons_of_pos (fresh_iff.mpr notPast),
      List.filter_nil]

/-- Later cutoffs evict more, and what earlier ones evicted is not missed. -/
theorem evict (exact_ : Exact pushed cutoff queue) (notBefore : NotBefore cutoff later) :
    Exact pushed later (evict later queue) where
  inOrder := exact_.inOrder
  holds := by
    rw [evict_eq_filter later exact_.queue_inOrder, exact_.holds, List.filter_filter]
    apply List.filter_congr
    intro e _
    by_cases isFresh : fresh later e = true
    · have wasFresh : fresh cutoff e = true :=
        fresh_iff.mpr (notBefore e.1 (fresh_iff.mp isFresh))
      rw [isFresh, wasFresh]
      rfl
    · rw [Bool.eq_false_iff.mpr isFresh]
      rfl

end Exact

end SlidingWindow
