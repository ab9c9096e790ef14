import AggregatorBridge.Lib.Remote
import Mathlib.Data.List.Dedup

/-!
# Tables with a primary key

`INSERT … SELECT … ON CONFLICT DO NOTHING` adds rows one after the other and skips each whose key
is taken, be it by a row from before or by one it has just added. So it never changes a row, and
done again it finds every key taken (`insertRows_of_known`).

`SELECT DISTINCT ON … ORDER BY` keeps the first row of each key in the order asked for. Without an
order rows come in any: a `RowOrder` is one that a query happened to be answered in.
-/

namespace Table

open Remote

/-- Some order of the rows of any query. -/
structure RowOrder where
  visit : ∀ {R : Type}, List R → List R
  perm : ∀ {R : Type} (rows : List R), (visit rows).Perm rows

/-- The rows as they are stored. -/
def RowOrder.stored : RowOrder :=
  ⟨id, fun _ => List.Perm.refl _⟩

theorem RowOrder.mem_visit (order : RowOrder) {R : Type} {rows : List R} {r : R} :
    r ∈ order.visit rows ↔ r ∈ rows :=
  (order.perm rows).mem_iff

/-! ## Insertion without conflicts -/

section Insert

variable {K V : Type} [DecidableEq K]

/-- Adds rows whose key is not taken, and counts them. -/
def insertRows : List (K × V) → Hash K V → Nat × Hash K V
  | [], table => (0, table)
  | (k, v) :: rows, table =>
    match AList.lookup k table with
    | some _ => insertRows rows table
    | none =>
      let (added, table) := insertRows rows (AList.insert k v table)
      (added + 1, table)

theorem insertRows_taken {k : K} {v held : V} {rows : List (K × V)} {table : Hash K V}
    (taken : AList.lookup k table = some held) :
    insertRows ((k, v) :: rows) table = insertRows rows table := by
  rw [insertRows, taken]

theorem insertRows_free {k : K} {v : V} {rows : List (K × V)} {table : Hash K V}
    (free : AList.lookup k table = none) :
    insertRows ((k, v) :: rows) table =
      ((insertRows rows (AList.insert k v table)).1 + 1,
        (insertRows rows (AList.insert k v table)).2) := by
  rw [insertRows, free]

/-- A row from before is still there, and a key that was free has the first row offered. -/
theorem lookup_insertRows (rows : List (K × V)) (table : Hash K V) (k : K) :
    AList.lookup k (insertRows rows table).2 =
      (AList.lookup k table).or ((rows.find? fun row => row.1 = k).map Prod.snd) := by
  induction rows generalizing table with
  | nil => exact (Option.or_none).symm
  | cons row rows ih =>
    obtain ⟨l, v⟩ := row
    cases held : AList.lookup l table with
    | some w =>
      rw [insertRows_taken held, ih]
      by_cases here : l = k
      · subst here
        rw [held]
        rfl
      · rw [List.find?_cons_of_neg (by simpa using here)]
    | none =>
      rw [insertRows_free held, ih, Hash.lookup_set]
      by_cases here : k = l
      · subst here
        rw [if_pos rfl, held, List.find?_cons_of_pos (by simp)]
        rfl
      · rw [if_neg here, List.find?_cons_of_neg (by simpa using Ne.symm here)]

theorem lookup_insertRows_of_held {rows : List (K × V)} {table : Hash K V} {k : K} {v : V}
    (held : AList.lookup k table = some v) :
    AList.lookup k (insertRows rows table).2 = some v := by
  rw [lookup_insertRows, held]
  rfl

/-- Where a row is new it is one of those offered. -/
theorem mem_of_lookup_insertRows {rows : List (K × V)} {table : Hash K V} {k : K} {v : V}
    (free : AList.lookup k table = none)
    (found : AList.lookup k (insertRows rows table).2 = some v) : (k, v) ∈ rows := by
  rw [lookup_insertRows, free, Option.none_or, Option.map_eq_some_iff] at found
  obtain ⟨⟨l, w⟩, first, rfl⟩ := found
  have same := List.find?_some first
  rw [decide_eq_true_eq] at same
  subst same
  exact List.mem_of_find?_eq_some first

theorem mem_keys_insertRows {rows : List (K × V)} {table : Hash K V} {k : K} :
    k ∈ (insertRows rows table).2.keys ↔ k ∈ rows.map Prod.fst ∨ k ∈ table.keys := by
  rw [← AList.mem_keys, ← AList.mem_keys, ← AList.lookup_isSome, ← AList.lookup_isSome,
    lookup_insertRows, Option.isSome_or, Bool.or_eq_true, Option.isSome_map, List.find?_isSome,
    or_comm, List.mem_map]
  simp only [decide_eq_true_eq]

/-- Rows with distinct keys make a table of exactly these rows. -/
theorem lookup_insertRows_empty_iff {rows : List (K × V)} (distinct : (rows.map Prod.fst).Nodup)
    {k : K} {v : V} :
    AList.lookup k (insertRows rows (∅ : Hash K V)).2 = some v ↔ (k, v) ∈ rows := by
  constructor
  · exact mem_of_lookup_insertRows rfl
  · intro mem
    rw [lookup_insertRows, AList.lookup_empty, Option.none_or]
    have offered : (rows.find? fun row => row.1 = k).isSome :=
      List.find?_isSome.mpr ⟨(k, v), mem, decide_eq_true rfl⟩
    obtain ⟨row, first⟩ := Option.isSome_iff_exists.mp offered
    have here : row.1 = k := by simpa using List.find?_some first
    have same : row = (k, v) :=
      List.inj_on_of_nodup_map distinct (List.mem_of_find?_eq_some first) mem here
    rw [first, same]
    rfl

/-- Every key on offer has a row in the end. -/
theorem lookup_insertRows_of_offered {rows : List (K × V)} {table : Hash K V} {k : K}
    (offered : k ∈ rows.map Prod.fst) : AList.lookup k (insertRows rows table).2 ≠ none := by
  rw [ne_eq, AList.lookup_eq_none, not_not, AList.mem_keys]
  exact mem_keys_insertRows.mpr (.inl offered)

/-- The keys that rows offer to a table that has not got them. -/
def newKeys (offered : List K) (table : Hash K V) : List K :=
  (offered.filter (· ∉ table.keys)).dedup

theorem mem_newKeys {offered : List K} {table : Hash K V} {k : K} :
    k ∈ newKeys offered table ↔ k ∈ offered ∧ k ∉ table.keys := by
  rw [newKeys, List.mem_dedup, List.mem_filter, decide_eq_true_eq]

/-- Each new key is added once and nothing else is. -/
theorem keys_insertRows (rows : List (K × V)) (table : Hash K V) :
    (insertRows rows table).2.keys.Perm (newKeys (rows.map Prod.fst) table ++ table.keys) := by
  have distinct : (newKeys (rows.map Prod.fst) table ++ table.keys).Nodup := by
    refine List.nodup_append.mpr ⟨List.nodup_dedup _, table.keys_nodup, ?_⟩
    rintro k new l old rfl
    exact (mem_newKeys.mp new).2 old
  refine (List.perm_ext_iff_of_nodup (insertRows rows table).2.keys_nodup distinct).mpr ?_
  intro k
  rw [mem_keys_insertRows, List.mem_append, mem_newKeys]
  by_cases old : k ∈ table.keys
  · simp [old]
  · simp [old]

theorem length_keys_insertRows (rows : List (K × V)) (table : Hash K V) :
    (insertRows rows table).2.keys.length = (insertRows rows table).1 + table.keys.length := by
  induction rows generalizing table with
  | nil => exact (Nat.zero_add _).symm
  | cons row rows ih =>
    obtain ⟨k, v⟩ := row
    cases held : AList.lookup k table with
    | some w => rw [insertRows_taken held, ih]
    | none =>
      have free : k ∉ table.keys := by
        rw [← AList.mem_keys]
        exact AList.lookup_eq_none.mp held
      have one : (AList.insert k v table).keys.length = table.keys.length + 1 := by
        rw [AList.keys_insert, List.length_cons, List.erase_of_not_mem free]
      rw [insertRows_free held, ih, one]
      exact (Nat.succ_add_eq_add_succ _ _).symm

/-- The count is that of the new keys. -/
theorem insertRows_count (rows : List (K × V)) (table : Hash K V) :
    (insertRows rows table).1 = (newKeys (rows.map Prod.fst) table).length := by
  have length := (keys_insertRows rows table).length_eq
  rw [List.length_append, length_keys_insertRows] at length
  exact Nat.add_right_cancel length

/-- Rows whose keys are all taken are all skipped. -/
theorem insertRows_of_known {rows : List (K × V)} {table : Hash K V}
    (known : ∀ row ∈ rows, AList.lookup row.1 table ≠ none) :
    insertRows rows table = (0, table) := by
  induction rows with
  | nil => rfl
  | cons row rows ih =>
    obtain ⟨held, taken⟩ := Option.ne_none_iff_exists'.mp (known row List.mem_cons_self)
    rw [insertRows_taken taken]
    exact ih fun row mem => known row (List.mem_cons_of_mem _ mem)

end Insert

/-! ## The first row of each key -/

section Distinct

variable {K R : Type} [DecidableEq K] {key : R → K}

/-- `DISTINCT ON`: the first row of each key. -/
def distinctOn (key : R → K) : List R → List R
  | [] => []
  | r :: rows => r :: (distinctOn key rows).filter (key · ≠ key r)

theorem distinctOn_subset (rows : List R) : distinctOn key rows ⊆ rows := by
  induction rows with
  | nil => exact List.Subset.refl _
  | cons r rows ih =>
    exact List.cons_subset_cons _ (List.Subset.trans (List.filter_subset_self _) ih)

/-- Every key has a row left. -/
theorem exists_distinctOn {rows : List R} {r : R} (mem : r ∈ rows) :
    ∃ kept ∈ distinctOn key rows, key kept = key r := by
  induction rows with
  | nil => cases mem
  | cons s rows ih =>
    by_cases same : key s = key r
    · exact ⟨s, List.mem_cons_self, same⟩
    · rcases List.mem_cons.mp mem with rfl | later
      · exact absurd rfl same
      · obtain ⟨kept, left, its⟩ := ih later
        refine ⟨kept, List.mem_cons_of_mem _ (List.mem_filter.mpr ⟨left, ?_⟩), its⟩
        simpa [its] using Ne.symm same

/-- The row that is left of a key comes before the others. -/
theorem distinctOn_first {before : R → R → Prop} {rows : List R} (sorted : rows.Pairwise before)
    {kept r : R} (left : kept ∈ distinctOn key rows) (mem : r ∈ rows) (same : key kept = key r) :
    kept = r ∨ before kept r := by
  induction rows with
  | nil => cases mem
  | cons s rows ih =>
    obtain ⟨first, sorted⟩ := List.pairwise_cons.mp sorted
    rcases List.mem_cons.mp left with rfl | left
    · rcases List.mem_cons.mp mem with rfl | later
      · exact .inl rfl
      · exact .inr (first r later)
    · obtain ⟨left, other⟩ := List.mem_filter.mp left
      rcases List.mem_cons.mp mem with rfl | later
      · exact absurd same (of_decide_eq_true other)
      · exact ih sorted left later

end Distinct

end Table
