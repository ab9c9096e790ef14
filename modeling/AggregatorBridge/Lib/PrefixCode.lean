import Mathlib.Data.List.Infix
import Mathlib.Data.List.Flatten

/-!
# Prefix codes

A code spells every letter as a word, and a text is words one after the other with something
behind them. If no word begins with another one there is only one way to read a text from the
front: the first letter is determined, and then the next. So reading goes on as long as a word
stands at the front, what it has read by then is the longest thing that can be read
(`longest_iff`), and nothing else is as long (`Longest.unique`).
-/

namespace PrefixCode

variable {α β : Type*} {word : α → List β}

/-- No word is empty and none begins with another. -/
structure PrefixFree (word : α → List β) : Prop where
  ne_nil : ∀ a, word a ≠ []
  eq_of_prefix : ∀ a b, word a <+: word b → a = b

/-- No word stands at the front. -/
def Incomplete (word : α → List β) (text : List β) : Prop :=
  ∀ a, ¬ word a <+: text

/-- Nothing that can be read from the front of a text is longer. -/
structure Longest (word : α → List β) (text : List β) (letters : List α) : Prop where
  isPrefix : letters.flatMap word <+: text
  longest : ∀ others : List α, others.flatMap word <+: text →
    (others.flatMap word).length ≤ (letters.flatMap word).length

/-- Reading from the front comes to an end. -/
theorem exists_reading (code : PrefixFree word) (text : List β) :
    ∃ (letters : List α) (rest : List β),
      text = letters.flatMap word ++ rest ∧ Incomplete word rest := by
  by_cases stuck : Incomplete word text
  · exact ⟨[], text, rfl, stuck⟩
  · obtain ⟨a, front⟩ := not_forall_not.mp stuck
    obtain ⟨behind, rfl⟩ := front
    have shorter : behind.length < (word a ++ behind).length := by
      rw [List.length_append]
      exact Nat.lt_add_of_pos_left (List.length_pos_iff.mpr (code.ne_nil a))
    obtain ⟨letters, rest, read, stuck⟩ := exists_reading code behind
    refine ⟨a :: letters, rest, ?_, stuck⟩
    rw [read, List.flatMap_cons, List.append_assoc]
termination_by text.length

/-- Two words at the front of one text are one. -/
theorem PrefixFree.eq_of_front (code : PrefixFree word) {a b : α} {text : List β}
    (one : word a <+: text) (other : word b <+: text) : a = b := by
  rcases List.prefix_or_prefix_of_prefix one other with shorter | longer
  · exact code.eq_of_prefix a b shorter
  · exact (code.eq_of_prefix b a longer).symm

/-- Whatever can be read is the beginning of what is read when nothing more can be. -/
theorem prefix_of_reading (code : PrefixFree word) {rest : List β}
    (stuck : Incomplete word rest) {letters others : List α}
    (read : others.flatMap word <+: letters.flatMap word ++ rest) : others <+: letters := by
  induction others generalizing letters with
  | nil => exact List.nil_prefix
  | cons b others ih =>
    rw [List.flatMap_cons] at read
    have first := (List.prefix_append _ _).trans read
    cases letters with
    | nil => exact absurd first (stuck b)
    | cons a letters =>
      rw [List.flatMap_cons, List.append_assoc] at first read
      cases code.eq_of_front first (List.prefix_append (word a) _)
      exact List.cons_prefix_cons.mpr ⟨rfl, ih ((List.prefix_append_right_inj _).mp read)⟩

theorem length_le_of_prefix {others letters : List α} (shorter : others <+: letters) :
    (others.flatMap word).length ≤ (letters.flatMap word).length := by
  obtain ⟨more, rfl⟩ := shorter
  rw [List.flatMap_append]
  exact (List.prefix_append _ _).length_le

/-- The longest reading is the one that ends where no word follows. -/
theorem longest_iff (code : PrefixFree word) {text : List β} {letters : List α} :
    Longest word text letters ↔
      ∃ rest, text = letters.flatMap word ++ rest ∧ Incomplete word rest := by
  constructor
  · rintro ⟨⟨rest, rfl⟩, longest⟩
    refine ⟨rest, rfl, ?_⟩
    intro a more
    have further : (letters ++ [a]).flatMap word <+: letters.flatMap word ++ rest := by
      rw [List.flatMap_append, List.flatMap_singleton]
      exact (List.prefix_append_right_inj _).mpr more
    have bound := longest _ further
    rw [List.flatMap_append, List.flatMap_singleton, List.length_append] at bound
    have := List.length_pos_iff.mpr (code.ne_nil a)
    omega
  · rintro ⟨rest, rfl, stuck⟩
    exact ⟨List.prefix_append _ _,
      fun others read => length_le_of_prefix (prefix_of_reading code stuck read)⟩

theorem Longest.unique (code : PrefixFree word) {text : List β} {letters others : List α}
    (one : Longest word text letters) (other : Longest word text others) : others = letters := by
  obtain ⟨rest, rfl, stuck⟩ := (longest_iff code).mp one
  obtain ⟨rest', same, stuck'⟩ := (longest_iff code).mp other
  have shorter := prefix_of_reading code stuck other.isPrefix
  have longer := prefix_of_reading code stuck' (same ▸ one.isPrefix)
  exact shorter.eq_of_length (le_antisymm shorter.length_le longer.length_le)

end PrefixCode
