import AggregatorBridge.ExpandEnv
import AggregatorBridge.Lib.Nesting
import Mathlib.Data.List.DropRight

/-!
# When the configuration is expanded

The loop of `expand_env` rewrites in place, in the sense of `Lib.Nesting`. What a reference becomes
is decided by its name and by the `$` signs right before it, which a value that begins with `{`
turns into the beginning of another reference; what stands before them is never looked at again,
and what stands behind waits until the value holds no reference that is closed.

So the loop ends unless references are nested without end (`expansion_ends_iff`), and that takes a
variable that comes back while its own value is expanded.

The environment stays as it is meanwhile, and the law does not say what text comes out of a loop
that ends.
-/

namespace AggregatorBridge

open Remote Nesting

/-! ## The first reference -/

theorem findOpen_cons {c : Char} {rest : List Char} (plain : ∀ t, c :: rest ≠ '$' :: '{' :: t) :
    findOpen (c :: rest) = (findOpen rest).map (· + 1) := by
  rw [findOpen]
  intro t isDollar opens
  exact plain t (by rw [isDollar, opens])

theorem findOpen_append {pre : List Char} (clear : findOpen pre = none) (rest : List Char) :
    findOpen (pre ++ '$' :: '{' :: rest) = some pre.length := by
  induction pre with
  | nil => rfl
  | cons c pre ih =>
    have plain (t : List Char) : c :: pre ≠ '$' :: '{' :: t := by
      intro opens
      rw [opens] at clear
      cases clear
    have plain' (t : List Char) : c :: (pre ++ '$' :: '{' :: rest) ≠ '$' :: '{' :: t := by
      intro opens
      cases pre with
      | nil => simp at opens
      | cons d pre =>
        simp only [List.cons_append, List.cons.injEq] at opens
        exact plain pre (by rw [opens.1, opens.2.1])
    rw [findOpen_cons plain, Option.map_eq_none_iff] at clear
    rw [List.cons_append, findOpen_cons plain', ih clear]
    rfl

theorem exists_of_findOpen {s : List Char} {start : Nat} (found : findOpen s = some start) :
    ∃ pre rest, s = pre ++ '$' :: '{' :: rest ∧ findOpen pre = none ∧ pre.length = start := by
  induction s generalizing start with
  | nil => cases found
  | cons c s ih =>
    by_cases opens : ∃ t, c :: s = '$' :: '{' :: t
    · obtain ⟨t, opens⟩ := opens
      rw [opens] at found
      cases found
      exact ⟨[], t, opens, rfl, rfl⟩
    · push Not at opens
      rw [findOpen_cons opens] at found
      obtain ⟨start', found', rfl⟩ := Option.map_eq_some_iff.mp found
      obtain ⟨pre, rest, rfl, clear, rfl⟩ := ih found'
      refine ⟨c :: pre, rest, rfl, ?_, rfl⟩
      have plain (t : List Char) : c :: pre ≠ '$' :: '{' :: t := by
        intro same
        cases same
        exact opens _ rfl
      rw [findOpen_cons plain, clear]
      rfl

/-- What stands before the first reference, its name, and what stands behind. -/
def redex (s : List Char) : Option (List Char × List Char × List Char) := do
  let start ← findOpen s
  let endOffset ← (s.drop (start + 2)).findIdx? (· == '}')
  some (s.take start, (s.drop (start + 2)).take endOffset,
    (s.drop (start + 2)).drop (endOffset + 1))

/-- A round replaces the first reference that is closed. -/
theorem expandRound_eq (env : Environment) (s : List Char) :
    expandRound env s = (redex s).map fun (pre, name, post) => pre ++ envVar env name ++ post := by
  unfold expandRound redex
  cases findOpen s with
  | none => rfl
  | some start =>
    simp only [Option.bind_eq_bind, Option.bind_some]
    cases (s.drop (start + 2)).findIdx? (· == '}') with
    | none => rfl
    | some endOffset =>
      simp only [Option.bind_some, Option.map_some, List.drop_drop]
      rfl

/-- Where the first closed reference is, said without the search. -/
theorem redex_eq_some_iff {s pre name post : List Char} :
    redex s = some (pre, name, post) ↔
      s = pre ++ '$' :: '{' :: (name ++ '}' :: post) ∧ findOpen pre = none ∧ '}' ∉ name := by
  constructor
  · intro found
    obtain ⟨start, opened, found⟩ := Option.bind_eq_some_iff.mp found
    obtain ⟨endOffset, closed, found⟩ := Option.bind_eq_some_iff.mp found
    obtain ⟨front, rest, rfl, clear, rfl⟩ := exists_of_findOpen opened
    have behind : (front ++ '$' :: '{' :: rest).drop (front.length + 2) = rest := by
      rw [← List.drop_drop, List.drop_left]
      rfl
    rw [behind] at closed found
    rw [List.take_left] at found
    cases found
    rw [List.findIdx?_eq_some_iff_getElem] at closed
    obtain ⟨within, isClose, first⟩ := closed
    refine ⟨?_, clear, ?_⟩
    · have brace : rest[endOffset] = '}' := by simpa using isClose
      rw [← brace, ← List.drop_eq_getElem_cons within, List.take_append_drop]
    · intro mem
      obtain ⟨k, short, isBrace⟩ := List.getElem_of_mem mem
      rw [List.length_take] at short
      rw [List.getElem_take] at isBrace
      exact first k (by omega) (by simp [isBrace])
  · rintro ⟨rfl, clear, plain⟩
    have behind : (pre ++ '$' :: '{' :: (name ++ '}' :: post)).drop (pre.length + 2) =
        name ++ '}' :: post := by
      rw [← List.drop_drop, List.drop_left]
      rfl
    have closed : (name ++ '}' :: post).findIdx? (· == '}') = some name.length := by
      rw [List.findIdx?_append, List.findIdx?_eq_none_iff.mpr fun c mem => ?_]
      · simp [List.findIdx?_cons]
      · simp only [beq_eq_false_iff_ne, ne_eq]
        rintro rfl
        exact plain mem
    rw [redex, findOpen_append clear]
    simp only [Option.bind_eq_bind, Option.bind_some, behind, closed, List.take_left]
    rw [← List.drop_drop, List.drop_left]
    rfl

/-! ## What stands around it -/

/-- What stands behind is not looked at. -/
theorem redex_append {s pre name post : List Char} (found : redex s = some (pre, name, post))
    (rest : List Char) : redex (s ++ rest) = some (pre, name, post ++ rest) := by
  obtain ⟨rfl, clear, plain⟩ := redex_eq_some_iff.mp found
  refine redex_eq_some_iff.mpr ⟨?_, clear, plain⟩
  simp only [List.append_assoc, List.cons_append]

/-- A reference cannot begin in this text, whatever follows it. -/
structure Sealed (front : List Char) : Prop where
  clear : findOpen front = none
  not_dollar : front.getLast? ≠ some '$'

theorem Sealed.findOpen_append {front : List Char} (isSealed : Sealed front) (s : List Char) :
    findOpen (front ++ s) = (findOpen s).map (· + front.length) := by
  obtain ⟨clear, notDollar⟩ := isSealed
  induction front with
  | nil => simp
  | cons c front ih =>
    have plain (t : List Char) : c :: front ≠ '$' :: '{' :: t := by
      intro opens
      rw [opens] at clear
      cases clear
    have plain' (t : List Char) : c :: (front ++ s) ≠ '$' :: '{' :: t := by
      intro opens
      cases front with
      | nil =>
        cases opens
        exact notDollar rfl
      | cons d front =>
        simp only [List.cons_append, List.cons.injEq] at opens
        exact plain front (by rw [opens.1, opens.2.1])
    rw [findOpen_cons plain, Option.map_eq_none_iff] at clear
    have rest : front.getLast? ≠ some '$' := by
      cases front with
      | nil => exact nofun
      | cons d front => rwa [List.getLast?_cons_cons] at notDollar
    rw [List.cons_append, findOpen_cons plain', ih clear rest, Option.map_map]
    rfl

theorem Sealed.redex_append {front : List Char} (isSealed : Sealed front) (s : List Char) :
    redex (front ++ s) =
      (redex s).map fun (pre, name, post) => (front ++ pre, name, post) := by
  unfold redex
  rw [isSealed.findOpen_append]
  cases findOpen s with
  | none => rfl
  | some start =>
    have behind : (front ++ s).drop (start + front.length + 2) = s.drop (start + 2) := by
      rw [show start + front.length + 2 = front.length + (start + 2) by omega, ← List.drop_drop,
        List.drop_left]
    have before : (front ++ s).take (start + front.length) = front ++ s.take start := by
      rw [Nat.add_comm, List.take_length_add_append]
    simp only [Option.bind_eq_bind, Option.map_some, Option.bind_some, behind, before]
    cases (s.drop (start + 2)).findIdx? (· == '}') with
    | none => rfl
    | some endOffset => rfl

/-- The `$` signs at the end of a text. -/
def dollars (pre : List Char) : Nat :=
  (pre.rtakeWhile (· == '$')).length

theorem eq_append_dollars (pre : List Char) :
    pre = pre.rdropWhile (· == '$') ++ List.replicate (dollars pre) '$' := by
  have all : pre.rtakeWhile (· == '$') = List.replicate (dollars pre) '$' := by
    refine List.eq_replicate_iff.mpr ⟨rfl, fun c mem => ?_⟩
    simpa using List.mem_rtakeWhile_imp mem
  rw [← all, List.rdropWhile_append_rtakeWhile]

theorem sealed_rdropWhile {pre : List Char} (clear : findOpen pre = none) :
    Sealed (pre.rdropWhile (· == '$')) where
  clear := by
    by_contra opens
    obtain ⟨start, opened⟩ := Option.ne_none_iff_exists'.mp opens
    obtain ⟨front, rest, split, clear', _⟩ := exists_of_findOpen opened
    rw [eq_append_dollars pre, split, List.append_assoc, List.cons_append, List.cons_append,
      findOpen_append clear'] at clear
    cases clear
  not_dollar := by
    intro last
    have nonempty : pre.rdropWhile (· == '$') ≠ [] := by
      intro empty
      rw [empty] at last
      cases last
    have notDollar := List.rdropWhile_last_not (· == '$') pre nonempty
    rw [List.getLast?_eq_some_getLast nonempty, Option.some.injEq] at last
    rw [last] at notDollar
    exact notDollar rfl

theorem Sealed.dollars_append {front : List Char} (isSealed : Sealed front) (pre : List Char) :
    dollars (front ++ pre) = dollars pre := by
  unfold dollars
  induction pre using List.reverseRecOn with
  | nil =>
    have none : front.rtakeWhile (· == '$') = [] := by
      refine List.rtakeWhile_eq_nil_iff.mpr fun nonempty isDollar => isSealed.not_dollar ?_
      rw [List.getLast?_eq_some_getLast nonempty]
      simpa using isDollar
    rw [List.append_nil, none]
    rfl
  | append_singleton pre c ih =>
    rw [← List.append_assoc, List.rtakeWhile_concat, List.rtakeWhile_concat]
    split
    · rw [List.length_append, List.length_append, ih]
    · rfl

/-! ## The loop as a rewriting -/

/-- A reference, with the `$` signs right before it. -/
structure Reference where
  dollars : Nat
  name : List Char

/-- What becomes of it in one round. -/
def Reference.body (env : Environment) (ref : Reference) : List Char :=
  List.replicate ref.dollars '$' ++ envVar env ref.name

def Reference.IsSet (env : Environment) (ref : Reference) : Prop :=
  String.ofList ref.name ∈ env

/-- The same variable, behind no fewer `$` signs. -/
def Reference.ComesBackAs (ref again : Reference) : Prop :=
  again.name = ref.name ∧ ref.dollars ≤ again.dollars

/-- The loop as a rewriting of its first redex; what stands behind the redex is not touched by the
round that replaces it. -/
def expansion (env : Environment) : Rewriting (List Char) Reference where
  step := expandRound env
  focus s := (redex s).map fun (pre, name, _) => ⟨dollars pre, name⟩
  body := Reference.body env
  behind s := ((redex s).map fun (_, _, post) => post.length).getD 0

variable {env : Environment}

theorem expandRound_of_redex {s pre name post : List Char}
    (found : redex s = some (pre, name, post)) :
    expandRound env s = some (pre ++ envVar env name ++ post) := by
  rw [expandRound_eq, found]
  rfl

/-- Text that holds no closed reference has none that is closed in it, whatever follows. -/
theorem shorter_of_redex_none {s rest pre name post : List Char} (none : redex s = none)
    (found : redex (s ++ rest) = some (pre, name, post)) : post.length < rest.length := by
  obtain ⟨split, clear, plain⟩ := redex_eq_some_iff.mp found
  by_contra long
  have behind : post <:+ s ++ rest := by
    rw [split]
    exact ⟨pre ++ '$' :: '{' :: (name ++ ['}']), by simp⟩
  obtain ⟨middle, rfl⟩ :=
    List.suffix_of_suffix_length_le (List.suffix_append s rest) behind (not_lt.mp long)
  have closed : redex s = some (pre, name, middle) := by
    refine redex_eq_some_iff.mpr ⟨(List.append_left_inj rest).mp ?_, clear, plain⟩
    rw [split]
    simp only [List.append_assoc, List.cons_append]
  rw [none] at closed
  cases closed

theorem expansion_lawful : (expansion env).Lawful where
  focused {s t} moved := by
    change expandRound env s = some t at moved
    rw [expandRound_eq] at moved
    obtain ⟨⟨pre, name, post⟩, found, _⟩ := Option.map_eq_some_iff.mp moved
    exact ⟨⟨dollars pre, name⟩, by simp only [expansion, found, Option.map_some]⟩
  surrounded {s ref} focus := by
    obtain ⟨⟨pre, name, post⟩, found, rfl⟩ := Option.map_eq_some_iff.mp focus
    have isSealed := sealed_rdropWhile (redex_eq_some_iff.mp found).2.1
    refine ⟨fun t => pre.rdropWhile (· == '$') ++ (t ++ post), ?_, ?_, ?_, ?_⟩
    · change expandRound env s = _
      rw [expandRound_of_redex found]
      nth_rewrite 1 [eq_append_dollars pre]
      simp only [expansion, Reference.body, List.append_assoc]
    · intro t t' moved
      change expandRound env t = some t' at moved
      change expandRound env _ = _
      rw [expandRound_eq] at moved
      obtain ⟨⟨pre', name', post'⟩, found', rfl⟩ := Option.map_eq_some_iff.mp moved
      have inside := isSealed.redex_append (t ++ post)
      rw [redex_append found' post, Option.map_some] at inside
      rw [expandRound_of_redex inside]
      simp only [List.append_assoc]
    · intro t ref' focus'
      obtain ⟨⟨pre', name', post'⟩, found', rfl⟩ := Option.map_eq_some_iff.mp focus'
      have inside := isSealed.redex_append (t ++ post)
      rw [redex_append found' post, Option.map_some] at inside
      simp only [expansion, inside, Option.map_some, isSealed.dollars_append]
    · intro t stuck
      change expandRound env t = none at stuck
      change expandRound env _ = none ∨ _
      rw [expandRound_eq, Option.map_eq_none_iff] at stuck
      rw [expandRound_eq]
      simp only [expansion, found, isSealed.redex_append, Option.map_map, Option.map_some,
        Option.getD_some]
      cases further : redex (t ++ post) with
      | none => exact .inl rfl
      | some rest =>
        obtain ⟨pre', name', post'⟩ := rest
        exact .inr (shorter_of_redex_none stuck further)

/-- Enough fuel is what ends. -/
theorem ends_iff_fuel {s : List Char} :
    (expansion env).Ends s ↔ ∃ fuel, (expandLoop env fuel s).isSome := by
  constructor
  · rintro ⟨t, steps, ended⟩
    induction steps using Relation.ReflTransGen.head_induction_on with
    | refl =>
      change expandRound env t = none at ended
      exact ⟨1, by rw [expandLoop, ended]; rfl⟩
    | @head s u moved _ ih =>
      change expandRound env s = some u at moved
      obtain ⟨fuel, enough⟩ := ih
      exact ⟨fuel + 1, by rw [expandLoop, moved]; exact enough⟩
  · rintro ⟨fuel, enough⟩
    induction fuel generalizing s with
    | zero => cases enough
    | succ fuel ih =>
      cases moved : expandRound env s with
      | none => exact ⟨s, .refl, moved⟩
      | some t =>
        rw [expandLoop, moved] at enough
        obtain ⟨u, steps, ended⟩ := ih enough
        exact ⟨u, .head moved steps, ended⟩

theorem findOpen_of_no_brace {s : List Char} (plain : '{' ∉ s) : findOpen s = none := by
  by_contra opens
  obtain ⟨start, opened⟩ := Option.ne_none_iff_exists'.mp opens
  obtain ⟨pre, rest, rfl, _⟩ := exists_of_findOpen opened
  exact plain (by simp)

theorem expandRound_of_no_brace {s : List Char} (plain : '{' ∉ s) : expandRound env s = none := by
  rw [expandRound, findOpen_of_no_brace plain]
  rfl

/-- The value of a variable that is not set refers to nothing. -/
theorem isSet_of_not_ends {ref : Reference} (endless : ¬ (expansion env).Ends (ref.body env)) :
    ref.IsSet env := by
  by_contra unset
  refine endless ⟨_, .refl, expandRound_of_no_brace ?_⟩
  rw [Reference.body, envVar, AList.lookup_eq_none.mpr unset]
  simp

/-- There are finitely many variables, and the `$` signs before one cannot become fewer forever. -/
theorem wellQuasiOrdered_comesBackAs :
    WellQuasiOrdered fun ref again : { ref : Reference // ref.IsSet env } =>
      ref.1.ComesBackAs again.1 := by
  have finite : Finite { name // name ∈ env.keys } := (List.finite_toSet env.keys).to_subtype
  have names : WellQuasiOrdered fun a b : { name // name ∈ env.keys } => a = b :=
    Finite.wellQuasiOrdered _
  have counts : WellQuasiOrdered fun m n : Nat => m ≤ n := wellQuasiOrdered_le
  intro refs
  obtain ⟨i, j, before, name, count⟩ := names.prod counts fun i =>
    (⟨String.ofList (refs i).1.name, AList.mem_keys.mp (refs i).2⟩, (refs i).1.dollars)
  refine ⟨i, j, before, ?_, count⟩
  have same := congrArg (fun n : { name // name ∈ env.keys } => n.1.toList) name
  simpa using same.symm

variable (env) in
/-- References without end: the first is met when the string is expanded, and each other when
the one before it is expanded on its own. -/
def EndlesslyNested (s : String) : Prop :=
  (expansion env).Nested s.toList

variable (env) in
/-- The loop ends, unless references are nested without end. For them to be, a variable has to come
back while its own value is expanded; and they are, where a reference comes back just as it was. How
many rounds it takes is not said. -/
theorem expansion_ends_iff (s : String) :
    ((∃ fuel, (expandEnv env fuel s).isSome) ↔ ¬ EndlesslyNested env s) ∧
      (EndlesslyNested env s → ∃ ref again, (expansion env).Meets s.toList ref ∧ ref.IsSet env ∧
        (expansion env).Meets (ref.body env) again ∧ ref.ComesBackAs again) ∧
      ∀ ref, (expansion env).Meets s.toList ref → (expansion env).Meets (ref.body env) ref →
        EndlesslyNested env s := by
  refine ⟨?_, fun nested => ?_, fun ref met again => Rewriting.Nested.of_comeback met again⟩
  · rw [EndlesslyNested, ← expansion_lawful.ends_iff, ends_iff_fuel]
    simp only [expandEnv, Option.isSome_map]
  · exact expansion_lawful.exists_comeback wellQuasiOrdered_comesBackAs
      (fun ref endless => isSet_of_not_ends endless) nested

/-- Values without a brace refer to nothing. -/
theorem not_endlesslyNested_of_plain
    (plain : ∀ name value, AList.lookup name env = some value → '{' ∉ value.toList) (s : String) :
    ¬ EndlesslyNested env s := by
  rintro ⟨chain, _, inside⟩
  refine expansion_lawful.not_ends_body inside 0 ⟨_, .refl, expandRound_of_no_brace ?_⟩
  change '{' ∉ Reference.body env (chain 0)
  rw [Reference.body, envVar]
  cases found : AList.lookup (String.ofList (chain 0).name) env with
  | none => simp
  | some value => simpa using plain _ value found

private def hostEnv : Environment :=
  AList.insert "REDIS_HOST" "redis" ∅

theorem redis_url_is_expanded :
    ∃ fuel, (expandEnv hostEnv fuel "redis://$\x7bREDIS_HOST\x7d:6379").isSome := by
  refine (expansion_ends_iff hostEnv _).1.mpr (not_endlesslyNested_of_plain ?_ _)
  intro name value found
  rw [hostEnv, Hash.lookup_set] at found
  split at found
  · cases found
    decide
  · cases found

private def selfEnv : Environment :=
  AList.insert "A" "$\x7bA\x7d" ∅

/-- A variable that refers to itself is expanded forever. -/
theorem self_reference_never_ends :
    ¬ ∀ (env : Environment) (s : String), ∃ fuel, (expandEnv env fuel s).isSome := by
  intro ends
  obtain ⟨fuel, enough⟩ := ends selfEnv "$\x7bA\x7d"
  have again : expandRound selfEnv "$\x7bA\x7d".toList = some "$\x7bA\x7d".toList := by
    decide +kernel
  have never (fuel : Nat) : expandLoop selfEnv fuel "$\x7bA\x7d".toList = none := by
    induction fuel with
    | zero => rfl
    | succ fuel ih =>
      rw [expandLoop, again]
      exact ih
  rw [expandEnv, never] at enough
  cases enough

end AggregatorBridge
