import Mathlib.Data.List.Basic

/-!
# A register and a copy that is made of it late

A register holds a value or nothing. It is written by assignments, and by clears that only bite
on the value they name. A copy of it is made later and from another stream: each message of that
stream carries a snapshot, or none, and the copy is filled with the first of what it holds
already, the snapshot, and what the register holds now. From then on every write reaches both.

The two streams are not ordered against each other. `copy_of_settled` says when this does not
matter: an assignment wins over every snapshot unless the snapshots come last, so they must not
contradict what the writes end on, and without an assignment no clear may name the value that the
snapshots bring. That is exact, because it already follows from the two extreme orders
(`settled_iff`).
-/

namespace Register

variable {V : Type} [DecidableEq V]

/-- What can be done to a register that holds a value or none. -/
inductive Op (V : Type) where
  | assign (value : Option V)
  /-- Empties a register that holds this value. -/
  | clear (value : V)
  deriving DecidableEq

namespace Op

/-- What a register holds after an operation. -/
def apply : Op V → Option V → Option V
  | assign value, _ => value
  | clear value, held => if held = some value then none else held

/-- The operation leaves the same behind, whatever was there. -/
def isAssign : Op V → Bool
  | assign _ => true
  | clear _ => false

@[simp] theorem apply_clear_none (value : V) : (clear value).apply none = none := rfl

theorem apply_clear_some (value held : V) :
    (clear value).apply (some held) = if held = value then none else some held := by
  simp only [apply, Option.some.injEq]

/-- A clear leaves the register as it is or empties it. -/
theorem apply_clear_cases (value : V) (held : Option V) :
    (clear value).apply held = none ∨ (clear value).apply held = held := by
  simp only [apply]
  split
  · exact .inl rfl
  · exact .inr rfl

theorem apply_clear_ne (value : V) (held : Option V) : (clear value).apply held ≠ some value := by
  simp only [apply]
  split
  · exact nofun
  · next other => exact other

end Op

/-- The register after some writes. -/
def run (ops : List (Op V)) (held : Option V) : Option V :=
  ops.foldl (fun held op => op.apply held) held

@[simp] theorem run_nil (held : Option V) : run [] held = held := rfl

@[simp] theorem run_cons (op : Op V) (ops : List (Op V)) (held : Option V) :
    run (op :: ops) held = run ops (op.apply held) := rfl

theorem run_append (before after : List (Op V)) (held : Option V) :
    run (before ++ after) held = run after (run before held) :=
  List.foldl_append

/-- Some write is an assignment. -/
def Assigns (ops : List (Op V)) : Prop :=
  ops.any Op.isAssign = true

instance (ops : List (Op V)) : Decidable (Assigns ops) :=
  inferInstanceAs (Decidable (_ = true))

omit [DecidableEq V] in
@[simp] theorem assigns_cons (op : Op V) (ops : List (Op V)) :
    Assigns (op :: ops) ↔ op.isAssign = true ∨ Assigns ops := by
  simp only [Assigns, List.any_cons, Bool.or_eq_true]

omit [DecidableEq V] in
@[simp] theorem not_assigns_nil : ¬ Assigns ([] : List (Op V)) := by
  simp [Assigns]

/-- After an assignment it does not matter what the register held before. -/
theorem run_eq_of_assigns {ops : List (Op V)} (assigns : Assigns ops) (a b : Option V) :
    run ops a = run ops b := by
  induction ops generalizing a b with
  | nil => exact absurd assigns not_assigns_nil
  | cons op ops ih =>
    rw [run_cons, run_cons]
    cases op with
    | assign value => rfl
    | clear value =>
      have later : Assigns ops := by simpa [Op.isAssign] using assigns
      exact ih later _ _

/-- Without an assignment an empty register stays empty. -/
theorem run_none {ops : List (Op V)} (none_assigns : ¬ Assigns ops) : run ops none = none := by
  induction ops with
  | nil => rfl
  | cons op ops ih =>
    cases op with
    | assign value => exact absurd rfl (not_or.mp (mt (assigns_cons _ _).mpr none_assigns)).1
    | clear value =>
      rw [run_cons, Op.apply_clear_none]
      exact ih fun later => none_assigns ((assigns_cons _ _).mpr (.inr later))

/-- Without an assignment a register keeps its value until it is cleared. -/
theorem run_some {ops : List (Op V)} (none_assigns : ¬ Assigns ops) (value : V) :
    run ops (some value) = if .clear value ∈ ops then none else some value := by
  induction ops with
  | nil => rfl
  | cons op ops ih =>
    have rest : ¬ Assigns ops := fun later => none_assigns ((assigns_cons _ _).mpr (.inr later))
    cases op with
    | assign other => exact absurd rfl (not_or.mp (mt (assigns_cons _ _).mpr none_assigns)).1
    | clear other =>
      rw [run_cons, Op.apply_clear_some]
      by_cases same : value = other
      · subst same
        rw [if_pos rfl, run_none rest, if_pos List.mem_cons_self]
      · rw [if_neg same, ih rest]
        simp [same]

/-- What an empty register ends on, a full one ends on too, if it ends full. -/
theorem run_of_run_none {ops : List (Op V)} {value : V} (ends : run ops none = some value)
    (held : Option V) : run ops held = some value := by
  by_cases assigns : Assigns ops
  · rw [run_eq_of_assigns assigns held none, ends]
  · rw [run_none assigns] at ends
    cases ends

/-- A register that ends full ends the same when it starts on what it ends on. -/
theorem run_of_run_some {ops : List (Op V)} {held : Option V} {value : V}
    (ends : run ops held = some value) : run ops (some value) = some value := by
  by_cases assigns : Assigns ops
  · rw [run_eq_of_assigns assigns _ held, ends]
  · cases held with
    | none =>
      rw [run_none assigns] at ends
      cases ends
    | some start =>
      have same : start = value := by
        rw [run_some assigns] at ends
        split at ends
        · cases ends
        · exact Option.some.inj ends
      rw [← same] at ends ⊢
      exact ends

/-- No write but its assignment brings a value into a register. -/
theorem run_ne_of_no_assign {ops : List (Op V)} {held : Option V} {value : V}
    (absent : held ≠ some value) (none_assigns : .assign (some value) ∉ ops) :
    run ops held ≠ some value := by
  induction ops generalizing held with
  | nil => exact absent
  | cons op ops ih =>
    rw [run_cons]
    refine ih ?_ (fun mem => none_assigns (List.mem_cons_of_mem _ mem))
    cases op with
    | assign other =>
      rintro rfl
      exact none_assigns List.mem_cons_self
    | clear other =>
      rcases Op.apply_clear_cases other held with empty | same
      · rw [empty]
        exact nofun
      · rw [same]
        exact absent

/-! ## The copy -/

/-- A message of one of the two streams. -/
inductive Act (V : Type) where
  | op (op : Op V)
  | fill (snapshot : Option V)

/-- The operation of an act that is one. -/
def Act.op? : Act V → Option (Op V)
  | op o => some o
  | fill _ => none

/-- The snapshot of an act that fills the copy. -/
def Act.fill? : Act V → Option (Option V)
  | op _ => none
  | fill snapshot => some snapshot

omit [DecidableEq V] in
@[simp] theorem filterMap_op?_map (ops : List (Op V)) : (ops.map Act.op).filterMap Act.op? = ops := by
  rw [List.filterMap_map]
  exact List.filterMap_some

omit [DecidableEq V] in
@[simp] theorem filterMap_fill?_map (ops : List (Op V)) :
    (ops.map Act.op).filterMap Act.fill? = [] := by
  rw [List.filterMap_map, List.filterMap_eq_nil_iff]
  intro op _
  rfl

/-- The register and its copy, which need not be there yet. -/
structure Pair (V : Type) where
  source : Option V
  copy : Option (Option V)

namespace Pair

/-- Source and copy are both empty. -/
def init : Pair V :=
  ⟨none, none⟩

/-- An operation reaches the source, and the copy where there is one. A copy that holds nothing
takes the snapshot, or what the source holds where the snapshot has nothing. -/
def step (p : Pair V) : Act V → Pair V
  | .op o => ⟨o.apply p.source, p.copy.map o.apply⟩
  | .fill snapshot => ⟨p.source, some (p.copy.join.or (snapshot.or p.source))⟩

/-- One act after the other. -/
def run (acts : List (Act V)) (p : Pair V) : Pair V :=
  acts.foldl step p

theorem run_append (before after : List (Act V)) (p : Pair V) :
    p.run (before ++ after) = (p.run before).run after :=
  List.foldl_append

/-- Writes reach the register and the copy alike. -/
theorem run_ops (ops : List (Op V)) (p : Pair V) :
    p.run (ops.map .op) = ⟨Register.run ops p.source, p.copy.map (Register.run ops)⟩ := by
  induction ops generalizing p with
  | nil =>
    show p = ⟨p.source, p.copy.map id⟩
    rw [Option.map_id]
    rfl
  | cons op ops ih =>
    show (p.step (.op op)).run (ops.map .op) = _
    rw [ih]
    show Pair.mk _ ((p.copy.map op.apply).map _) = _
    rw [Option.map_map]
    rfl

end Pair

/-- What a new copy ends on when only the second stream moves. -/
def filled (snapshots : List (Option V)) (source : Option V) : Option V :=
  snapshots.findSome? fun snapshot => snapshot.or source

/-- The snapshots agree with the writes, whatever the order. -/
def Settled (snapshots : List (Option V)) (ops : List (Op V)) : Prop :=
  if Assigns ops then
    match run ops none with
    | some value => snapshots.head?.join = none ∨ snapshots.head?.join = some value
    | none => ∀ snapshot ∈ snapshots, snapshot = none
  else ∀ value, filled snapshots none = some value → .clear value ∉ ops

omit [DecidableEq V] in
theorem filled_cons (snapshot : Option V) (snapshots : List (Option V)) (source : Option V) :
    filled (snapshot :: snapshots) source = (snapshot.or source).or (filled snapshots source) := by
  unfold filled
  rw [List.findSome?_cons]
  cases snapshot.or source with
  | none => rfl
  | some value => rfl

omit [DecidableEq V] in
theorem filled_append (before after : List (Option V)) (source : Option V) :
    filled (before ++ after) source = (filled before source).or (filled after source) :=
  List.findSome?_append

omit [DecidableEq V] in
theorem filled_single (snapshot source : Option V) :
    filled [snapshot] source = snapshot.or source := by
  rw [filled_cons]
  exact Option.or_none

omit [DecidableEq V] in
/-- A full register fills every copy whose first snapshot is empty. -/
theorem filled_some {snapshots : List (Option V)} (some_fill : snapshots ≠ []) (value : V) :
    filled snapshots (some value) = snapshots.head?.join.or (some value) := by
  cases snapshots with
  | nil => exact absurd rfl some_fill
  | cons snapshot rest =>
    rw [filled_cons]
    cases snapshot with
    | none => rfl
    | some held => rfl

omit [DecidableEq V] in
theorem filled_none_eq_none {snapshots : List (Option V)} :
    filled snapshots none = none ↔ ∀ snapshot ∈ snapshots, snapshot = none := by
  simp only [filled, Option.or_none, List.findSome?_eq_none_iff]

omit [DecidableEq V] in
theorem filled_eq_none {snapshots : List (Option V)} (some_fill : snapshots ≠ [])
    (source : Option V) :
    filled snapshots source = none ↔ source = none ∧ ∀ snapshot ∈ snapshots, snapshot = none := by
  cases source with
  | none => rw [filled_none_eq_none, eq_self_iff_true, true_and]
  | some value =>
    rw [filled_some some_fill]
    simp

section Streams

variable {acts : List (Act V)} {p : Pair V}

/-- If the writes end on a value, and the first snapshot does not contradict it, the copy ends on
it: as long as the copy is empty an assignment is still to come. -/
theorem Pair.copy_of_value {value : V}
    (source : Register.run (acts.filterMap Act.op?) p.source = some value)
    (copy : ∀ held, p.copy = some held → Register.run (acts.filterMap Act.op?) held = some value)
    (first : p.copy = none → (acts.filterMap Act.fill?).head?.join = none ∨
      (acts.filterMap Act.fill?).head?.join = some value)
    {ends : Option V} (copied : (p.run acts).copy = some ends) : ends = some value := by
  induction acts generalizing p with
  | nil => exact copy ends copied
  | cons act acts ih =>
    cases act with
    | op o =>
      refine ih (p := p.step (.op o)) source ?_ ?_ copied
      · intro held found
        obtain ⟨before, was, rfl⟩ := Option.map_eq_some_iff.mp found
        exact copy before was
      · intro absent
        exact first (Option.map_eq_none_iff.mp absent)
    | fill snapshot =>
      refine ih (p := p.step (.fill snapshot)) source ?_ nofun copied
      intro held found
      have now : held = p.copy.join.or (snapshot.or p.source) := (Option.some.inj found).symm
      have rest : Register.run (acts.filterMap Act.op?) p.source = some value := source
      subst now
      cases made : p.copy with
      | none =>
        -- the copy is made now
        rcases first made with empty | same
        · have none_carried : snapshot = none := empty
          rw [none_carried]
          exact rest
        · have carried : snapshot = some value := same
          rw [carried]
          exact run_of_run_some rest
      | some held =>
        have reaches : Register.run (acts.filterMap Act.op?) held = some value := copy held made
        cases held with
        | none => exact run_of_run_none reaches _
        | some old => exact reaches

/-- Without a snapshot the copy is the register. -/
theorem Pair.copy_of_empty (copy : ∀ held, p.copy = some held → held = p.source)
    (empty : ∀ snapshot ∈ acts.filterMap Act.fill?, snapshot = none)
    {ends : Option V} (copied : (p.run acts).copy = some ends) :
    ends = Register.run (acts.filterMap Act.op?) p.source := by
  induction acts generalizing p with
  | nil => exact copy ends copied
  | cons act acts ih =>
    cases act with
    | op o =>
      refine ih (p := p.step (.op o)) ?_ empty copied
      intro held found
      obtain ⟨before, was, rfl⟩ := Option.map_eq_some_iff.mp found
      rw [copy before was]
      rfl
    | fill snapshot =>
      have carried : snapshot = none := empty snapshot List.mem_cons_self
      refine ih (p := p.step (.fill snapshot)) ?_ (fun s mem => empty s (List.mem_cons_of_mem _ mem))
        copied
      intro held found
      have now : held = p.copy.join.or (snapshot.or p.source) := (Option.some.inj found).symm
      rw [now, carried, Option.none_or]
      cases made : p.copy with
      | none => rfl
      | some old =>
        rw [copy old made]
        exact Option.or_self

/-- Without an assignment the copy ends on the first snapshot, if that is never cleared. -/
theorem Pair.copy_of_clears (none_assigns : ¬ Assigns (acts.filterMap Act.op?))
    (source : p.source = none)
    (uncleared : ∀ value, p.copy.join.or (filled (acts.filterMap Act.fill?) none) = some value →
      .clear value ∉ acts.filterMap Act.op?) :
    (p.run acts).copy.join = p.copy.join.or (filled (acts.filterMap Act.fill?) none) := by
  induction acts generalizing p with
  | nil => exact (Option.or_none).symm
  | cons act acts ih =>
    cases act with
    | op o =>
      have split := not_or.mp (mt (assigns_cons o (acts.filterMap Act.op?)).mpr none_assigns)
      cases o with
      | assign value => exact absurd rfl split.1
      | clear cleared =>
        have kept : (p.step (.op (.clear cleared))).copy.join = p.copy.join := by
          show (p.copy.map (Op.clear cleared).apply).join = p.copy.join
          cases made : p.copy with
          | none => rfl
          | some held =>
            cases held with
            | none => rfl
            | some value =>
              have live : value ≠ cleared := by
                rintro rfl
                exact uncleared value (by rw [made]; rfl) List.mem_cons_self
              show (Op.clear cleared).apply (some value) = some value
              rw [Op.apply_clear_some, if_neg live]
        have empty : (p.step (.op (.clear cleared))).source = none := by
          show (Op.clear cleared).apply p.source = none
          rw [source, Op.apply_clear_none]
        have moved := ih (p := p.step (.op (.clear cleared))) split.2 empty (by
          intro value first mem
          rw [kept] at first
          exact uncleared value first (List.mem_cons_of_mem _ mem))
        rw [kept] at moved
        exact moved
    | fill snapshot =>
      have first : (p.step (.fill snapshot)).copy.join.or (filled (acts.filterMap Act.fill?) none) =
          p.copy.join.or (filled (snapshot :: acts.filterMap Act.fill?) none) := by
        show (p.copy.join.or (snapshot.or p.source)).or _ = _
        rw [source, filled_cons, Option.or_none, Option.or_assoc]
      have moved := ih (p := p.step (.fill snapshot)) none_assigns source (by
        intro value found
        rw [first] at found
        exact uncleared value found)
      exact moved.trans first

end Streams

/-- Whatever the order of the two streams, a copy that agrees with the writes ends on what they
make of the first snapshot. -/
theorem copy_of_settled {acts : List (Act V)} {snapshots : List (Option V)} {ops : List (Op V)}
    (settled : Settled snapshots ops) (writes : acts.filterMap Act.op? = ops)
    (fills : acts.filterMap Act.fill? = snapshots) {ends : Option V}
    (copied : (Pair.init.run acts).copy = some ends) :
    ends = run ops (filled snapshots none) := by
  subst writes fills
  unfold Settled at settled
  split at settled
  · next assigns =>
    rw [run_eq_of_assigns assigns _ none]
    cases final : run (acts.filterMap Act.op?) none with
    | some value =>
      rw [final] at settled
      exact Pair.copy_of_value (p := Pair.init) final nofun (fun _ => settled) copied
    | none =>
      rw [final] at settled
      rw [← final]
      exact Pair.copy_of_empty (p := Pair.init) nofun settled copied
  · next none_assigns =>
    have ended := Pair.copy_of_clears (p := Pair.init) none_assigns rfl settled
    rw [copied] at ended
    have value : ends = filled (acts.filterMap Act.fill?) none := ended
    rw [value]
    cases first : filled (acts.filterMap Act.fill?) none with
    | none => exact (run_none none_assigns).symm
    | some snapshot => rw [run_some none_assigns, if_neg (settled snapshot first)]

/-- It is enough that the two extreme orders agree. -/
theorem settled_iff {snapshots : List (Option V)} (some_fill : snapshots ≠ []) (ops : List (Op V)) :
    Settled snapshots ops ↔ run ops (filled snapshots none) = filled snapshots (run ops none) := by
  unfold Settled
  split
  · next assigns =>
    rw [run_eq_of_assigns assigns (filled snapshots none) none]
    cases final : run ops none with
    | some value =>
      rw [filled_some some_fill]
      cases snapshots.head?.join with
      | none => simp
      | some first => simp [eq_comm]
    | none =>
      show (∀ snapshot ∈ snapshots, snapshot = none) ↔ none = filled snapshots none
      rw [← filled_none_eq_none, eq_comm]
  · next none_assigns =>
    rw [run_none none_assigns]
    cases first : filled snapshots none with
    | none => simp [run_none none_assigns]
    | some value =>
      rw [run_some none_assigns]
      by_cases cleared : .clear value ∈ ops
      · simp [cleared]
      · simp [cleared]

end Register
