import Mathlib.Data.List.Induction

/-!
# Folds that overwrite

A loop that assigns: some elements set a value, the others leave it alone, and no element reads
what an earlier one wrote. What such a loop leaves is what its LAST writer wrote, which is a
fact about the loop and not about what it writes. Over a collection that comes in any order the
last writer is anyone, so the result is determined exactly when all writers agree.
-/

namespace Overwrite

variable {α β γ : Type}

/-- A value that some elements overwrite and no other element touches is the one the last of
them wrote. -/
theorem foldl_eq {step : β → α → β} {proj : β → γ} {p : α → Bool} {f : α → γ}
    (writes : ∀ acc a, proj (step acc a) = if p a then f a else proj acc)
    (as : List α) (acc : β) :
    proj (as.foldl step acc) = ((as.filter p).getLast?.map f).getD (proj acc) := by
  induction as using List.reverseRecOn with
  | nil => rfl
  | append_singleton as a ih =>
    rw [List.foldl_append, List.filter_append, List.foldl_cons, List.foldl_nil, writes, ih]
    by_cases written : p a
    · simp [written]
    · simp [written]

section Order

variable {step : β → α → β} {proj : β → γ} {p : α → Bool} {f : α → γ}
  (writes : ∀ acc a, proj (step acc a) = if p a then f a else proj acc)

include writes

/-- Where all writers agree, their order does not matter. -/
theorem foldl_eq_of_perm {as bs : List α} (perm : as.Perm bs) (acc : β)
    (agree : ∀ a ∈ as, ∀ b ∈ as, p a → p b → f a = f b) :
    proj (as.foldl step acc) = proj (bs.foldl step acc) := by
  rw [foldl_eq writes, foldl_eq writes]
  have writers := perm.filter p
  cases first : (as.filter p).getLast? with
  | none =>
    rw [List.getLast?_eq_none_iff] at first
    rw [first] at writers
    rw [writers.nil_eq.symm]
    rfl
  | some a =>
    have wrote := List.mem_of_getLast? first
    cases second : (bs.filter p).getLast? with
    | none =>
      rw [List.getLast?_eq_none_iff] at second
      rw [second] at writers
      rw [writers.eq_nil] at wrote
      exact absurd wrote List.not_mem_nil
    | some b =>
      have wrote' := writers.mem_iff.mpr (List.mem_of_getLast? second)
      rw [List.mem_filter] at wrote wrote'
      exact agree a wrote.1 b wrote'.1 wrote.2 wrote'.2

/-- Every writer can be the last. -/
theorem exists_perm_foldl_eq {as : List α} {a : α} (mem : a ∈ as) (written : p a) (acc : β) :
    ∃ bs : List α, bs.Perm as ∧ proj (bs.foldl step acc) = f a := by
  obtain ⟨front, back, rfl⟩ := List.append_of_mem mem
  refine ⟨front ++ back ++ [a], ?_, ?_⟩
  · rw [List.append_assoc]
    exact List.perm_append_comm.append_left front
  · rw [List.foldl_append, List.foldl_cons, List.foldl_nil, writes, if_pos written]

end Order

end Overwrite
