import Mathlib.Algebra.BigOperators.Group.List.Basic
import Mathlib.Data.List.Induction
import Mathlib.Order.Lattice

/-!
# Ordered maps

A map that keeps its entries in the order of their keys. The order is a field, so an entry is
found under its key or not at all, and two maps that hold the same under every key are one map
(`OrderedMap.ext_lookup`).

The second half is about a loop that files elements under keys and adds each of them to what
its key has by then (`tally`). Something that every step adds up, such as a sum over the
elements, is added up per key (`measure_tally`) and over all keys (`sum_tally`): nothing is lost
between the keys and nothing is counted under two of them. If elements of one key can change
places the order of the elements does not matter at all (`tally_perm`).
-/

universe u v w

/-- A map whose entries are in the order of their keys, each key once. -/
structure OrderedMap (K : Type u) (V : Type v) [LT K] where
  entries : List (K × V)
  sorted : entries.Pairwise fun a b => a.1 < b.1

namespace OrderedMap

variable {K : Type u} {V : Type v} [LinearOrder K]

/-- The map without entries. -/
def empty : OrderedMap K V :=
  ⟨[], List.Pairwise.nil⟩

/-- The keys in their order. -/
def keys (m : OrderedMap K V) : List K :=
  m.entries.map Prod.fst

/-- The values in the order of their keys. -/
def values (m : OrderedMap K V) : List V :=
  m.entries.map Prod.snd

/-- What a list of entries has under a key. -/
def lookupIn (k : K) : List (K × V) → Option V
  | [] => none
  | (k', v) :: rest => if k = k' then some v else lookupIn k rest

/-- The value under a key. -/
def lookup (k : K) (m : OrderedMap K V) : Option V :=
  lookupIn k m.entries

/-- Changes the entry under a key, or makes one in its place. -/
def upsertIn (k : K) (f : Option V → V) : List (K × V) → List (K × V)
  | [] => [(k, f none)]
  | (k', v) :: rest =>
    if k < k' then (k, f none) :: (k', v) :: rest
    else if k = k' then (k, f (some v)) :: rest
    else (k', v) :: upsertIn k f rest

theorem mem_keys_upsertIn {k l : K} {f : Option V → V} {entries : List (K × V)}
    (mem : l ∈ (upsertIn k f entries).map Prod.fst) : l = k ∨ l ∈ entries.map Prod.fst := by
  induction entries with
  | nil => exact .inl (List.mem_singleton.mp mem)
  | cons e rest ih =>
    obtain ⟨k', v⟩ := e
    unfold upsertIn at mem
    split at mem
    · exact List.mem_cons.mp mem
    · split at mem
      · next same =>
        subst same
        exact .inr mem
      · rcases List.mem_cons.mp mem with here | later
        · exact .inr (here ▸ List.mem_cons_self)
        · exact (ih later).imp_right (List.mem_cons_of_mem _)

theorem sorted_upsertIn (k : K) (f : Option V → V) {entries : List (K × V)}
    (sorted : entries.Pairwise fun a b => a.1 < b.1) :
    (upsertIn k f entries).Pairwise fun a b => a.1 < b.1 := by
  induction entries with
  | nil => exact List.pairwise_singleton _ _
  | cons e rest ih =>
    obtain ⟨k', v⟩ := e
    obtain ⟨below, rest_⟩ := List.pairwise_cons.mp sorted
    unfold upsertIn
    split
    · next before =>
      refine List.pairwise_cons.mpr ⟨?_, sorted⟩
      intro e mem
      rcases List.mem_cons.mp mem with rfl | later
      · exact before
      · exact before.trans (below e later)
    · next notBefore =>
      split
      · next same =>
        subst same
        exact List.pairwise_cons.mpr ⟨below, rest_⟩
      · next other =>
        refine List.pairwise_cons.mpr ⟨?_, ih rest_⟩
        intro e mem
        rcases mem_keys_upsertIn (List.mem_map_of_mem mem) with here | later
        · exact here ▸ lt_of_le_of_ne (not_lt.mp notBefore) (Ne.symm other)
        · obtain ⟨e', mem', same⟩ := List.mem_map.mp later
          exact same ▸ below e' mem'

/-- Changes the value under a key, or puts one there. -/
def upsert (k : K) (f : Option V → V) (m : OrderedMap K V) : OrderedMap K V :=
  ⟨upsertIn k f m.entries, sorted_upsertIn k f m.sorted⟩

/-! ## Lookups -/

/-- Behind a larger key there is nothing to be found. -/
theorem lookupIn_of_lt {k : K} {entries : List (K × V)} (above : ∀ e ∈ entries, k < e.1) :
    lookupIn k entries = none := by
  induction entries with
  | nil => rfl
  | cons e rest ih =>
    rw [lookupIn, if_neg (above e List.mem_cons_self).ne]
    exact ih fun e mem => above e (List.mem_cons_of_mem _ mem)

theorem lookup_upsert (k l : K) (f : Option V → V) (m : OrderedMap K V) :
    (m.upsert k f).lookup l = if l = k then some (f (m.lookup k)) else m.lookup l := by
  obtain ⟨entries, sorted⟩ := m
  show lookupIn l (upsertIn k f entries) =
    if l = k then some (f (lookupIn k entries)) else lookupIn l entries
  induction entries with
  | nil => rfl
  | cons e rest ih =>
    obtain ⟨k', v⟩ := e
    obtain ⟨below, rest_⟩ := List.pairwise_cons.mp sorted
    unfold upsertIn
    split
    · next before =>
      have absent : lookupIn k ((k', v) :: rest) = none := by
        apply lookupIn_of_lt
        intro e mem
        rcases List.mem_cons.mp mem with rfl | later
        · exact before
        · exact before.trans (below e later)
      rw [absent]
      rfl
    · split
      · next same =>
        subst same
        simp only [lookupIn, if_true]
        split <;> rfl
      · next other =>
        simp only [lookupIn, if_neg other]
        by_cases here : l = k'
        · subst here
          rw [if_pos rfl, if_neg (Ne.symm other), if_pos rfl]
        · rw [if_neg here, ih rest_, if_neg here]

theorem mem_of_lookup {k : K} {v : V} {m : OrderedMap K V} (found : m.lookup k = some v) :
    (k, v) ∈ m.entries := by
  obtain ⟨entries, sorted⟩ := m
  change lookupIn k entries = some v at found
  show (k, v) ∈ entries
  clear sorted
  induction entries with
  | nil => cases found
  | cons e rest ih =>
    rw [lookupIn] at found
    split at found
    · next same =>
      cases found
      subst same
      exact List.mem_cons_self
    · exact List.mem_cons_of_mem _ (ih found)

theorem lookup_of_mem {k : K} {v : V} {m : OrderedMap K V} (mem : (k, v) ∈ m.entries) :
    m.lookup k = some v := by
  obtain ⟨entries, sorted⟩ := m
  change (k, v) ∈ entries at mem
  show lookupIn k entries = some v
  induction entries with
  | nil => cases mem
  | cons e rest ih =>
    obtain ⟨below, rest_⟩ := List.pairwise_cons.mp sorted
    rcases List.mem_cons.mp mem with rfl | later
    · exact if_pos rfl
    · rw [lookupIn, if_neg (below _ later).ne']
      exact ih rest_ later

/-- What is listed under a key is what a lookup finds. -/
theorem mem_entries_iff {k : K} {v : V} {m : OrderedMap K V} :
    (k, v) ∈ m.entries ↔ m.lookup k = some v :=
  ⟨lookup_of_mem, mem_of_lookup⟩

theorem mem_keys_iff {k : K} {m : OrderedMap K V} : k ∈ m.keys ↔ m.lookup k ≠ none := by
  rw [Option.ne_none_iff_exists']
  constructor
  · intro mem
    obtain ⟨⟨_, v⟩, listed, rfl⟩ := List.mem_map.mp mem
    exact ⟨v, lookup_of_mem listed⟩
  · rintro ⟨v, found⟩
    exact List.mem_map.mpr ⟨(k, v), mem_of_lookup found, rfl⟩

theorem nodup_entries (m : OrderedMap K V) : m.entries.Nodup :=
  m.sorted.imp fun less same => less.ne (congrArg Prod.fst same)

/-- A map is what it holds. -/
theorem ext_lookup {m n : OrderedMap K V} (same : ∀ k, m.lookup k = n.lookup k) : m = n := by
  have perm : m.entries.Perm n.entries := by
    rw [List.perm_ext_iff_of_nodup m.nodup_entries n.nodup_entries]
    rintro ⟨k, v⟩
    rw [mem_entries_iff, mem_entries_iff, same]
  have entries : m.entries = n.entries :=
    perm.eq_of_pairwise (fun a b _ _ ab ba => absurd ab ba.asymm) m.sorted n.sorted
  cases m
  cases n
  cases entries
  rfl

/-! ## Adding up under keys -/

section Tally

variable {A : Type w} (key : A → K) (add : Option V → A → V)

/-- Files elements under their keys, each added to what its key has by then. -/
def tally (as : List A) : OrderedMap K V :=
  as.foldl (fun m a => m.upsert (key a) (add · a)) empty

theorem tally_snoc (as : List A) (a : A) :
    tally key add (as ++ [a]) = (tally key add as).upsert (key a) (add · a) :=
  List.foldl_concat _ _ _ _

/-- What a key has is what its own elements add up to. -/
theorem lookup_tally (as : List A) (k : K) :
    (tally key add as).lookup k =
      (as.filter fun a => key a = k).foldl (fun v a => some (add v a)) none := by
  induction as using List.reverseRecOn with
  | nil => rfl
  | append_singleton as a ih =>
    rw [tally_snoc, lookup_upsert, List.filter_append]
    by_cases mine : key a = k
    · subst mine
      rw [if_pos rfl, ih, List.filter_cons_of_pos (by simp), List.filter_nil,
        List.foldl_concat]
    · rw [if_neg (Ne.symm mine), ih, List.filter_cons_of_neg (by simp [mine]), List.filter_nil,
        List.append_nil]

theorem mem_keys_tally {as : List A} {k : K} :
    k ∈ (tally key add as).keys ↔ ∃ a ∈ as, key a = k := by
  induction as using List.reverseRecOn with
  | nil => simp [tally, empty, keys]
  | append_singleton as a ih =>
    rw [mem_keys_iff] at ih ⊢
    rw [tally_snoc, lookup_upsert]
    by_cases mine : k = key a
    · rw [if_pos mine]
      exact ⟨fun _ => ⟨a, List.mem_concat_self, mine.symm⟩, fun _ => Option.some_ne_none _⟩
    · rw [if_neg mine, ih]
      constructor
      · rintro ⟨b, mem, same⟩
        exact ⟨b, List.mem_append_left _ mem, same⟩
      · rintro ⟨b, mem, same⟩
        rcases List.mem_append.mp mem with old | new
        · exact ⟨b, old, same⟩
        · cases List.mem_singleton.mp new
          exact absurd same.symm mine

/-- Where two elements of one key can change places, the order of the elements does not matter. -/
theorem tally_perm
    (swaps : ∀ v a b, key a = key b → add (some (add v a)) b = add (some (add v b)) a)
    {as bs : List A} (perm : as.Perm bs) : tally key add as = tally key add bs := by
  apply ext_lookup
  intro k
  rw [lookup_tally, lookup_tally]
  apply (perm.filter _).foldl_eq'
  intro a mem b mem' v
  have mine : key a = k := of_decide_eq_true (List.mem_filter.mp mem).2
  have mine' : key b = k := of_decide_eq_true (List.mem_filter.mp mem').2
  rw [swaps v a b (mine.trans mine'.symm)]

variable {M : Type*} [AddCommMonoid M] {μ : V → M} {weight : A → M}

/-- What a map holds under a key, measured; nothing measures zero. -/
def measured (μ : V → M) : Option V → M
  | none => 0
  | some v => μ v

/-- One change adds to the measure of all values what it adds to the one it changes. -/
theorem sum_upsert {k : K} {f : Option V → V} {more : M}
    (adds : ∀ v, μ (f v) = measured μ v + more) (m : OrderedMap K V) :
    ((m.upsert k f).values.map μ).sum = (m.values.map μ).sum + more := by
  obtain ⟨entries, sorted⟩ := m
  show (((upsertIn k f entries).map Prod.snd).map μ).sum =
    ((entries.map Prod.snd).map μ).sum + more
  clear sorted
  induction entries with
  | nil => simp [upsertIn, adds, measured]
  | cons e rest ih =>
    obtain ⟨k', v⟩ := e
    unfold upsertIn
    split
    · simp only [List.map_cons, List.sum_cons, adds, measured, zero_add]
      exact add_comm _ _
    · split
      · simp only [List.map_cons, List.sum_cons, adds, measured]
        exact add_right_comm _ _ _
      · simp only [List.map_cons, List.sum_cons, ih]
        exact (add_assoc _ _ _).symm

/-- Over all keys the elements are measured once each. -/
theorem sum_tally (adds : ∀ v a, μ (add v a) = measured μ v + weight a) (as : List A) :
    ((tally key add as).values.map μ).sum = (as.map weight).sum := by
  induction as using List.reverseRecOn with
  | nil => rfl
  | append_singleton as a ih =>
    rw [tally_snoc, sum_upsert (fun v => adds v a), ih, List.map_append, List.sum_append,
      List.map_singleton, List.sum_singleton]

/-- Under a key its own elements are measured, and no others. -/
theorem measure_tally (adds : ∀ v a, μ (add v a) = measured μ v + weight a) (as : List A) (k : K) :
    measured μ ((tally key add as).lookup k) =
      ((as.filter fun a => key a = k).map weight).sum := by
  rw [lookup_tally]
  induction as.filter (fun a => key a = k) using List.reverseRecOn with
  | nil => rfl
  | append_singleton own a ih =>
    rw [List.foldl_concat, measured, adds, ih, List.map_append, List.sum_append,
      List.map_singleton, List.sum_singleton]

end Tally

end OrderedMap
