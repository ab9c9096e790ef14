import AggregatorBridge.DispatchEngine
import Mathlib.Data.List.Induction

/-!
# Selecting the adapters

The list of adapters is text from the environment: names between commas, with blanks around
them, repeated, misspelled or missing. What is selected is each registered name among them once,
where it occurs first, and if there is none the default adapter. Dispatch relies on two things:
the list is not empty, or a frequency out of its band would go unanswered, and no name is on it
twice, or the cooldown of an adapter would be checked twice before it is recorded once.

An item that is empty once it is trimmed is not a name, even if an adapter is registered under
the empty name (`empty_item_is_no_name`).

The law is about names. That an adapter is registered does not mean that it answers, and an order
among adapters means nothing to the engine.
-/

namespace AggregatorBridge

namespace DispatchEngine

/-- The registered ones of some names, in the order in which they occur first, or the default. -/
def selection (adapters names : List String) : List String :=
  match (names.filter (· ∈ adapters)).eraseDups with
  | [] => [defaultAdapterName adapters]
  | selected => selected

variable {adapters : List String}

theorem eraseDups_concat (names : List String) (name : String) :
    (names ++ [name]).eraseDups =
      if name ∈ names then names.eraseDups else names.eraseDups ++ [name] := by
  rw [List.eraseDups_append]
  by_cases old : name ∈ names
  · simp [List.removeAll, old]
  · simp [List.removeAll, old, List.eraseDups_cons]

/-- A name is selected at most once, and where it comes first. -/
theorem foldl_selectAdapter (names : List String) :
    names.foldl (selectAdapter adapters) [] = (names.filter (· ∈ adapters)).eraseDups := by
  induction names using List.reverseRecOn with
  | nil => rfl
  | append_singleton names name ih =>
    rw [List.foldl_concat, ih, selectAdapter, List.filter_append]
    by_cases registered : name ∈ adapters
    · rw [if_neg (not_not.mpr registered), List.filter_cons_of_pos (by simpa using registered),
        List.filter_nil, eraseDups_concat]
      simp only [List.mem_eraseDups]
    · rw [if_pos registered, List.filter_cons_of_neg (by simpa using registered),
        List.filter_nil, List.append_nil]

/-- The loop over the items is the selection from the list of the trimmed names. -/
theorem selectAdaptersFrom_eq {raw : String} {items : List String}
    (separated : Text.Separated ',' raw items) :
    selectAdaptersFrom raw adapters =
      selection adapters ((items.map Text.trim).filter (· ≠ "")) := by
  rw [Text.separated_iff.mp separated, List.map_map, selection, ← foldl_selectAdapter]
  rfl

theorem defaultAdapterName_mem (registered : "ieee" ∈ adapters) :
    defaultAdapterName adapters ∈ adapters := by
  unfold defaultAdapterName
  split
  · next openleadr => exact openleadr
  · exact registered

theorem selection_ne_nil (names : List String) : selection adapters names ≠ [] := by
  unfold selection
  split
  · exact List.cons_ne_nil _ _
  · next some_ => exact some_

theorem selection_subset (registered : "ieee" ∈ adapters) (names : List String) :
    selection adapters names ⊆ adapters := by
  unfold selection
  split
  · intro name mem
    cases List.mem_singleton.mp mem
    exact defaultAdapterName_mem registered
  · intro name mem
    exact of_decide_eq_true (List.mem_filter.mp (List.mem_eraseDups.mp mem)).2

/-- Whatever the text is, it is a list of items between commas, and what is selected from it is
not empty, without repetition and registered: the registered names among the items that are not
blank, trimmed, in the order in which they occur first, or the default if there are none. -/
theorem selected_adapters_usable (raw : String) (registered : "ieee" ∈ adapters) :
    ∃ items, (∀ others, Text.Separated ',' raw others ↔ others = items) ∧
      selectAdaptersFrom raw adapters =
        selection adapters ((items.map Text.trim).filter (· ≠ "")) ∧
      selectAdaptersFrom raw adapters ≠ [] ∧ (selectAdaptersFrom raw adapters).Nodup ∧
      selectAdaptersFrom raw adapters ⊆ adapters := by
  have separated := Text.separated_iff.mpr (Eq.refl ((raw.toList.splitOn ',').map String.ofList))
  refine ⟨_, fun _ => Text.separated_iff, selectAdaptersFrom_eq separated, ?_,
    nodup_selectAdaptersFrom raw adapters, ?_⟩
  · rw [selectAdaptersFrom_eq separated]
    exact selection_ne_nil _
  · rw [selectAdaptersFrom_eq separated]
    exact selection_subset registered _

/-- Blanks, a repeated name, an unknown one and an item that is empty. -/
theorem grpc_then_ieee :
    selectAdaptersFrom " grpc,, vtn ,ieee,grpc " ["grpc", "ieee"] = ["grpc", "ieee"] ∧
      selectAdaptersFrom " grpc,, vtn ,ieee,grpc " ["grpc", "ieee"] ⊆ ["grpc", "ieee"] := by
  have registered : "ieee" ∈ ["grpc", "ieee"] := by decide
  obtain ⟨_, -, -, -, -, usable⟩ :=
    selected_adapters_usable " grpc,, vtn ,ieee,grpc " registered
  exact ⟨by decide, usable⟩

/-- An adapter under the empty name is never selected by an empty item. -/
theorem empty_item_is_no_name :
    Text.Separated ',' "ieee," ["ieee", ""] ∧ "ieee" ∈ ["ieee", ""] ∧
      selectAdaptersFrom "ieee," ["ieee", ""] ≠
        selection ["ieee", ""] (["ieee", ""].map Text.trim) := by
  refine ⟨⟨by decide, by decide, by decide⟩, by decide, by decide⟩

end DispatchEngine

end AggregatorBridge
