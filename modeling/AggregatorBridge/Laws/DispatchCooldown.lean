import Mathlib.Data.List.Perm.Basic
import AggregatorBridge.DispatchEngine

/-!
# The cooldown of a dispatch

An adapter is asked for an action only when the last success that was recorded for the two of them
is at least the cooldown ago. The check is made when the targets are gathered, and the question
goes out later, from a task; what carries the law over is that no two tasks of a call are for one
adapter, so no other join can record a success in between.

The engine keeps one entry per action and adapter, and only a joined success of the two touches
it. A call fails if there were adapters to ask, and either no capacity or not one success.

The notes live in the process, so the law says nothing across a restart, and an adapter whose
success was not reported is not held back by it.
-/

namespace AggregatorBridge

open Expiring Transition

namespace DispatchEngine

variable {entries : List Dispatched} {now : Instant} {action other : DispatchType}
  {adapter name : String}

/-! ## The entries -/

theorem isOf_iff {d : Dispatched} : d.isOf action adapter = true ↔ d.pair = (action, adapter) := by
  simp [Dispatched.isOf, Dispatched.pair]

theorem lastDispatchOf_record_self :
    lastDispatchOf (recordDispatch now action adapter entries) action adapter = some now := by
  have removed :
      (entries.filter fun d => !d.isOf action adapter).find? (·.isOf action adapter) = none := by
    simp
  have new : (⟨action, adapter, now⟩ : Dispatched).isOf action adapter = true := isOf_iff.mpr rfl
  rw [lastDispatchOf, recordDispatch, List.find?_append, removed, List.find?_singleton, new]
  rfl

theorem lastDispatchOf_record_of_ne (differ : (action, adapter) ≠ (other, name)) :
    lastDispatchOf (recordDispatch now action adapter entries) other name =
      lastDispatchOf entries other name := by
  have kept : (fun d : Dispatched =>
      decide ((!d.isOf action adapter) = true ∧ d.isOf other name = true)) = (·.isOf other name) := by
    ext d
    by_cases named : d.isOf other name = true
    · have unlike : ¬ d.isOf action adapter = true := by
        rw [isOf_iff] at named ⊢
        rw [named]
        exact differ.symm
      simp [unlike]
    · simp [named]
  have new : (⟨action, adapter, now⟩ : Dispatched).isOf other name = false := by
    rw [Bool.eq_false_iff, Ne, isOf_iff]
    exact differ
  rw [lastDispatchOf, recordDispatch, List.find?_append, List.find?_filter, kept,
    List.find?_singleton, new, lastDispatchOf]
  simp

/-- The engine has at most one note for an action at an adapter. -/
theorem nodup_recordDispatch (distinct : (entries.map Dispatched.pair).Nodup) :
    ((recordDispatch now action adapter entries).map Dispatched.pair).Nodup := by
  rw [recordDispatch, List.map_append, List.map_singleton]
  refine List.nodup_append.mpr ⟨?_, List.nodup_singleton _, ?_⟩
  · exact distinct.sublist (List.filter_sublist.map _)
  · rintro pair old _ new rfl
    cases List.mem_singleton.mp new
    obtain ⟨d, mem, same⟩ := List.mem_map.mp old
    have kept := (List.mem_filter.mp mem).2
    rw [isOf_iff.mpr same] at kept
    cases kept

/-! ## The history -/

/-- The time of the last success that was recorded, the latest note being the first. -/
def lastRecorded (history : List Note) (action : DispatchType) (adapter : String) :
    Option Instant :=
  history.findSome? fun
    | .recorded a n time => if (a, n) = (action, adapter) then some time else none
    | .asked _ _ _ => none

/-- Whenever an adapter was asked, its last success with that action was a cooldown ago. -/
def Spaced (cooldown : Nat) (history : List Note) : Prop :=
  ∀ later action adapter time earlier, history = later ++ .asked action adapter time :: earlier →
    ∀ since, lastRecorded earlier action adapter = some since → since + cooldown ≤ time

variable {cooldown : Nat} {history : List Note}

theorem lastRecorded_self :
    lastRecorded (.recorded action adapter now :: history) action adapter = some now := by
  simp [lastRecorded]

theorem lastRecorded_of_ne (differ : (action, adapter) ≠ (other, name)) :
    lastRecorded (.recorded action adapter now :: history) other name =
      lastRecorded history other name := by
  simp only [lastRecorded, List.findSome?_cons, if_neg differ]

theorem Spaced.asked (spaced : Spaced cooldown history)
    (cool : ∀ since, lastRecorded history action adapter = some since → since + cooldown ≤ now) :
    Spaced cooldown (.asked action adapter now :: history) := by
  intro later a n time earlier split since last
  cases later with
  | nil =>
    cases split
    exact cool since last
  | cons note later =>
    cases split
    exact spaced later a n time earlier rfl since last

theorem Spaced.recorded (spaced : Spaced cooldown history) :
    Spaced cooldown (.recorded action adapter now :: history) := by
  intro later a n time earlier split since last
  cases later with
  | nil => cases split
  | cons note later =>
    cases split
    exact spaced later a n time earlier rfl since last

/-! ## The invariant -/

variable {F : Type} {cfg : DispatchConfig F} {s t : State}

/-- The cooldown of an action and an adapter is over. -/
def Cool (cfg : DispatchConfig F) (s : State) (action : DispatchType) (adapter : String) : Prop :=
  ∀ since, lastDispatchOf s.lastDispatch action adapter = some since →
    since + cfg.cooldown ≤ s.clock

def isSpawned (task : Task) : Bool :=
  decide (task.stage = .spawned)

def isSuccess (task : Task) : Bool :=
  decide (task.stage = .finished .ok)

/-- What is true of the tasks that are not joined yet. Of the adapters that did what they were
asked, those that are joined are counted in `fired`. -/
structure Pending (cfg : DispatchConfig F) (s : State) (action : DispatchType) (tasks : List Task)
    (fired failed : Nat) : Prop where
  some_eligible : s.facts.eligible ≠ []
  capacity : s.facts.capacity = some true
  distinct : (tasks.map Task.adapter).Nodup
  cool : ∀ task ∈ tasks, isSpawned task = true → Cool cfg s action task.adapter
  eligible : s.facts.eligible.length = tasks.length + fired + failed
  succeeded : s.facts.succeeded.length = tasks.countP isSuccess + fired

/-- What is true in the middle of a call. -/
def Within (cfg : DispatchConfig F) (s : State) : Call → Prop
  | .checking action targets eligible =>
    s.facts = noFacts ∧ (eligible ++ targets).Nodup ∧ ∀ name ∈ eligible, Cool cfg s action name
  | .measuring action eligible =>
    s.facts = ⟨eligible, none, []⟩ ∧ eligible ≠ [] ∧ eligible.Nodup ∧
      ∀ name ∈ eligible, Cool cfg s action name
  | .joining action tasks fired errors => Pending cfg s action tasks fired errors.length

/-- A call fails exactly when there was somebody to ask, and no capacity or no success. -/
def Answer.Deserved (answer : Answer) : Prop :=
  answer.result.isOk = false ↔ answer.facts.eligible ≠ [] ∧
    (answer.facts.capacity = some false ∨ answer.facts.succeeded = [])

/-- `latest` ties the table that the code looks at to the dispatches that really succeeded; the
spacing of those is what is wanted of the code. -/
structure Inv (cfg : DispatchConfig F) (s : State) : Prop where
  past : ∀ d ∈ s.lastDispatch, d.time ≤ s.clock
  single : (s.lastDispatch.map Dispatched.pair).Nodup
  latest : ∀ action adapter,
    lastDispatchOf s.lastDispatch action adapter = lastRecorded s.history action adapter
  spaced : Spaced cfg.cooldown s.history
  within : ∀ call, s.call = some call → Within cfg s call
  idle : s.call = none → s.facts = noFacts
  deserved : ∀ answer ∈ s.answers, answer.Deserved

theorem Cool.mono (cool : Cool cfg s action adapter) (entries : t.lastDispatch = s.lastDispatch)
    (later : s.clock ≤ t.clock) : Cool cfg t action adapter := by
  intro since last
  rw [entries] at last
  exact le_trans (cool since last) later

theorem cool_of_admits (past : ∀ d ∈ s.lastDispatch, d.time ≤ s.clock)
    (admitted : s.admits cfg action adapter = true) : Cool cfg s action adapter := by
  intro since last
  simp only [State.admits, last, cooldownAllows, Bool.and_eq_true, decide_eq_true_eq] at admitted
  obtain ⟨d, found, rfl⟩ := Option.map_eq_some_iff.mp last
  have earlier := past d (List.mem_of_find?_eq_some found)
  exact Nat.add_le_of_le_sub' earlier admitted.2

/-- Nothing here depends on the order of the tasks. -/
theorem Pending.perm {tasks others : List Task} {fired failed : Nat}
    (pending : Pending cfg s action tasks fired failed) (perm : tasks.Perm others) :
    Pending cfg s action others fired failed where
  some_eligible := pending.some_eligible
  capacity := pending.capacity
  distinct := (perm.map Task.adapter).nodup pending.distinct
  cool task mem := pending.cool task (perm.mem_iff.mpr mem)
  eligible := perm.length_eq ▸ pending.eligible
  succeeded := perm.countP_eq isSuccess ▸ pending.succeeded

theorem Pending.carry {tasks : List Task} {fired failed : Nat}
    (pending : Pending cfg s action tasks fired failed) (facts : t.facts = s.facts)
    (cool : ∀ task ∈ tasks, Cool cfg s action task.adapter → Cool cfg t action task.adapter) :
    Pending cfg t action tasks fired failed where
  some_eligible := facts ▸ pending.some_eligible
  capacity := facts ▸ pending.capacity
  distinct := pending.distinct
  cool task mem spawned := cool task mem (pending.cool task mem spawned)
  eligible := facts ▸ pending.eligible
  succeeded := facts ▸ pending.succeeded

/-- The task that a step is about comes first. -/
theorem Pending.head {tasks : List Task} {fired failed i : Nat} {task : Task}
    (pending : Pending cfg s action tasks fired failed) (here : tasks[i]? = some task) :
    Pending cfg s action (task :: tasks.eraseIdx i) fired failed := by
  obtain ⟨inside, rfl⟩ := List.getElem?_eq_some_iff.mp here
  exact pending.perm (List.getElem_cons_eraseIdx_perm inside).symm

theorem Pending.of_head {tasks : List Task} {fired failed i : Nat} {task new : Task}
    (here : tasks[i]? = some task)
    (pending : Pending cfg s action (new :: tasks.eraseIdx i) fired failed) :
    Pending cfg s action (tasks.set i new) fired failed := by
  obtain ⟨inside, _⟩ := List.getElem?_eq_some_iff.mp here
  exact pending.perm (List.set_perm_cons_eraseIdx inside new).symm

/-! ## Steps -/

namespace Inv

/-- A step that only moves the call on. -/
theorem moved (inv : Inv cfg s) (clock : t.clock = s.clock)
    (entries : t.lastDispatch = s.lastDispatch) (notes : t.history = s.history)
    (answers : t.answers = s.answers) {call : Call} (here : t.call = some call)
    (within : Within cfg t call) : Inv cfg t where
  past := clock ▸ entries ▸ inv.past
  single := entries ▸ inv.single
  latest := entries ▸ notes ▸ inv.latest
  spaced := notes ▸ inv.spaced
  within other there := by
    cases here.symm.trans there
    exact within
  idle absent := by
    cases here.symm.trans absent
  deserved := answers ▸ inv.deserved

theorem leave (inv : Inv cfg s) {facts : Facts} {result : Except String Unit}
    (deserved : Answer.Deserved ⟨facts, result⟩) :
    Inv cfg ({ s with facts := facts }.leave result) where
  past := inv.past
  single := inv.single
  latest := inv.latest
  spaced := inv.spaced
  within _ there := by cases there
  idle _ := rfl
  deserved answer mem := by
    rcases List.mem_cons.mp mem with rfl | old
    · exact deserved
    · exact inv.deserved answer old

theorem tick (inv : Inv cfg s) (duration : Nat) :
    Inv cfg { s with clock := s.clock + duration } where
  past d mem := le_trans (inv.past d mem) (Nat.le_add_right _ _)
  single := inv.single
  latest := inv.latest
  spaced := inv.spaced
  idle := inv.idle
  deserved := inv.deserved
  within call here := by
    have warm {action : DispatchType} {adapter : String} (cool : Cool cfg s action adapter) :
        Cool cfg { s with clock := s.clock + duration } action adapter :=
      cool.mono rfl (Nat.le_add_right _ _)
    have within := inv.within call here
    cases call with
    | checking action targets eligible =>
      exact ⟨within.1, within.2.1, fun name mem => warm (within.2.2 name mem)⟩
    | measuring action eligible =>
      obtain ⟨facts, some_eligible, distinct, cool⟩ := within
      exact ⟨facts, some_eligible, distinct, fun name mem => warm (cool name mem)⟩
    | joining action tasks fired errors =>
      exact Pending.carry within rfl fun _ _ => warm

theorem enter [LT F] [DecidableLT F] (inv : Inv cfg s) (idle : s.call = none) (frequency : F) :
    Inv cfg (s.enter cfg frequency) := by
  have fresh := inv.idle idle
  unfold State.enter
  split
  · exact inv.moved rfl rfl rfl rfl rfl ⟨fresh, cfg.distinct, List.forall_mem_nil _⟩
  · split
    · exact inv.moved rfl rfl rfl rfl rfl ⟨fresh, cfg.distinct, List.forall_mem_nil _⟩
    · refine inv.leave ?_
      simp [Answer.Deserved, fresh, noFacts, Except.isOk, Except.toBool]

theorem check (inv : Inv cfg s) {targets eligible : List String}
    (here : s.call = some (.checking action (name :: targets) eligible)) :
    Inv cfg (s.check cfg action name targets eligible) := by
  obtain ⟨fresh, distinct, cool⟩ := inv.within _ here
  unfold State.check
  split
  · next admitted =>
    refine inv.moved rfl rfl rfl rfl rfl ⟨fresh, by simpa using distinct, fun other mem => ?_⟩
    rcases List.mem_append.mp mem with old | new
    · exact cool other old
    · cases List.mem_singleton.mp new
      exact cool_of_admits (s := s) inv.past admitted
  · refine inv.moved rfl rfl rfl rfl rfl ⟨fresh, ?_, cool⟩
    exact distinct.sublist ((List.sublist_cons_self name targets).append_left eligible)

theorem checked (inv : Inv cfg s) {eligible : List String}
    (here : s.call = some (.checking action [] eligible)) :
    Inv cfg (s.checked action eligible) := by
  obtain ⟨fresh, distinct, cool⟩ := inv.within _ here
  unfold State.checked
  split
  · refine @leave _ _ _ inv s.facts _ ?_
    simp [Answer.Deserved, fresh, noFacts, Except.isOk, Except.toBool]
  · next some_eligible =>
    refine inv.moved rfl rfl rfl rfl rfl ⟨by rw [fresh]; rfl, ?_, by simpa using distinct, cool⟩
    simpa using some_eligible

theorem measured (inv : Inv cfg s) {eligible : List String} {capacity : Bool}
    (here : s.call = some (.measuring action eligible)) :
    Inv cfg (s.measured action eligible capacity) := by
  obtain ⟨fresh, some_eligible, distinct, cool⟩ := inv.within _ here
  cases capacity with
  | false =>
    refine inv.leave ?_
    simp [Answer.Deserved, fresh, some_eligible, Except.isOk, Except.toBool]
  | true =>
    have facts : (s.measured action eligible true).facts = ⟨eligible, some true, []⟩ := by
      simp [State.measured, fresh]
    refine inv.moved rfl rfl rfl rfl rfl ?_
    exact
      { some_eligible := by simpa [facts] using some_eligible
        capacity := rfl
        distinct := by simpa [Function.comp_def] using distinct
        cool := by
          intro task mem _
          obtain ⟨name, named, rfl⟩ := List.mem_map.mp mem
          exact cool name named
        eligible := by simp [facts]
        succeeded := by simp [facts, isSuccess, List.countP_map, Function.comp_def] }

theorem ask (inv : Inv cfg s) {tasks : List Task} {fired i : Nat} {errors : List String}
    (here : s.call = some (.joining action tasks fired errors))
    (task : tasks[i]? = some ⟨adapter, .spawned⟩) :
    Inv cfg (s.ask action tasks fired errors i adapter) := by
  have pending := (inv.within _ here).head task
  have cool : Cool cfg s action adapter := pending.cool _ List.mem_cons_self rfl
  have after : Pending cfg (s.ask action tasks fired errors i adapter) action
      (⟨adapter, .asked⟩ :: tasks.eraseIdx i) fired errors.length :=
    { some_eligible := pending.some_eligible
      capacity := pending.capacity
      distinct := pending.distinct
      cool := by
        intro other mem spawned
        rcases List.mem_cons.mp mem with rfl | old
        · cases spawned
        · exact pending.cool other (List.mem_cons_of_mem _ old) spawned
      eligible := pending.eligible
      succeeded := pending.succeeded }
  exact
    { past := inv.past
      single := inv.single
      latest := inv.latest
      spaced := inv.spaced.asked fun since last => cool since ((inv.latest _ _).trans last)
      within := by
        intro call there
        cases there
        exact after.of_head task
      idle := fun absent => nomatch absent
      deserved := inv.deserved }

theorem finish (inv : Inv cfg s) {tasks : List Task} {fired i : Nat} {errors : List String}
    {outcome : Outcome} (here : s.call = some (.joining action tasks fired errors))
    (task : tasks[i]? = some ⟨adapter, .asked⟩) :
    Inv cfg (s.finish action tasks fired errors i adapter outcome) := by
  have pending := (inv.within _ here).head task
  refine inv.moved rfl rfl rfl rfl rfl (Pending.of_head task ?_)
  have succeeded := pending.succeeded
  exact
    { some_eligible := pending.some_eligible
      capacity := pending.capacity
      distinct := pending.distinct
      cool := by
        intro other mem spawned
        rcases List.mem_cons.mp mem with rfl | old
        · cases spawned
        · exact pending.cool other (List.mem_cons_of_mem _ old) spawned
      eligible := pending.eligible
      succeeded := by
        by_cases ok : outcome = .ok
        · simp [State.finish, isSuccess, ok] at succeeded ⊢
          omega
        · simpa [State.finish, isSuccess, ok] using succeeded }

/-- Joining a task leaves the rest of them. -/
theorem pending_rest (inv : Inv cfg s) {tasks : List Task} {fired i : Nat} {errors : List String}
    {outcome : Outcome} (here : s.call = some (.joining action tasks fired errors))
    (task : tasks[i]? = some ⟨adapter, .finished outcome⟩) {joined failed : Nat}
    (counted : joined + failed = fired + errors.length + 1)
    (fires : joined = fired + if outcome = .ok then 1 else 0) :
    Pending cfg s action (tasks.eraseIdx i) joined failed := by
  have pending := (inv.within _ here).head task
  have eligible := pending.eligible
  have succeeded := pending.succeeded
  exact
    { some_eligible := pending.some_eligible
      capacity := pending.capacity
      distinct := (List.nodup_cons.mp pending.distinct).2
      cool := fun other mem => pending.cool other (List.mem_cons_of_mem _ mem)
      eligible := by
        simp only [List.length_cons] at eligible
        omega
      succeeded := by
        by_cases ok : outcome = .ok
        · simp [isSuccess, ok] at succeeded fires
          omega
        · simp [isSuccess, ok] at succeeded fires
          omega }

theorem join (inv : Inv cfg s) {tasks : List Task} {fired i : Nat} {errors : List String}
    {outcome : Outcome} (here : s.call = some (.joining action tasks fired errors))
    (task : tasks[i]? = some ⟨adapter, .finished outcome⟩) :
    Inv cfg (s.join action tasks fired errors i adapter outcome) := by
  -- a task that failed is one more text in `errors`
  have failed (text : String) (error : outcome ≠ .ok) : Pending cfg s action (tasks.eraseIdx i) fired
      (errors ++ [text]).length := by
    refine inv.pending_rest here task ?_ (by simp [error])
    rw [List.length_append, List.length_singleton]
    omega
  cases outcome with
  | ok =>
    have rest : Pending cfg s action (tasks.eraseIdx i) (fired + 1) errors.length :=
      inv.pending_rest here task (by omega) (by simp)
    have others := (List.nodup_cons.mp ((inv.within _ here).head task).distinct).1
    exact
      { past := by
          intro d mem
          rcases List.mem_append.mp mem with old | new
          · exact inv.past d (List.mem_filter.mp old).1
          · cases List.mem_singleton.mp new
            exact le_rfl
        single := nodup_recordDispatch inv.single
        latest := by
          intro a n
          by_cases same : (action, adapter) = (a, n)
          · cases same
            exact lastDispatchOf_record_self.trans lastRecorded_self.symm
          · calc
              lastDispatchOf (recordDispatch s.clock action adapter s.lastDispatch) a n =
                  lastDispatchOf s.lastDispatch a n := lastDispatchOf_record_of_ne same
              _ = lastRecorded s.history a n := inv.latest a n
              _ = _ := (lastRecorded_of_ne same).symm
        spaced := inv.spaced.recorded
        within := by
          intro call there
          cases there
          refine rest.carry rfl fun other mem cool since last => ?_
          refine cool since ((lastDispatchOf_record_of_ne fun same => others ?_).symm.trans last)
          exact List.mem_map.mpr ⟨other, mem, (Prod.mk.inj same).2.symm⟩
        idle := fun absent => nomatch absent
        deserved := inv.deserved }
  | error e =>
    refine inv.moved rfl rfl rfl rfl rfl ?_
    exact (failed _ (nomatch ·)).carry rfl fun _ _ cool => cool
  | panicked joinErr =>
    refine inv.moved rfl rfl rfl rfl rfl ?_
    exact (failed _ (nomatch ·)).carry rfl fun _ _ cool => cool

theorem joined (inv : Inv cfg s) {fired : Nat} {errors : List String}
    (here : s.call = some (.joining action [] fired errors)) :
    Inv cfg (s.joined fired errors) := by
  have pending : Pending cfg s action [] fired errors.length := inv.within _ here
  have eligible := pending.eligible
  have succeeded := pending.succeeded
  have asked := List.length_pos_iff.mpr pending.some_eligible
  simp only [List.length_nil, List.countP_nil, Nat.zero_add] at eligible succeeded
  unfold State.joined
  split
  · next none =>
    refine @leave _ _ _ inv s.facts _ ?_
    have nobody : s.facts.succeeded = [] := by
      rw [← List.length_eq_zero_iff]
      omega
    simp [Answer.Deserved, pending.some_eligible, nobody, Except.isOk, Except.toBool]
  · next some =>
    refine @leave _ _ _ inv s.facts _ ?_
    have somebody : s.facts.succeeded ≠ [] := by
      rw [← List.length_pos_iff, succeeded]
      by_contra zero
      have fired_zero : fired = 0 := by omega
      refine some ⟨fun empty => ?_, fired_zero⟩
      have := List.isEmpty_iff_length_eq_zero.mp empty
      omega
    simp [Answer.Deserved, somebody, pending.capacity, Except.isOk, Except.toBool]

theorem step [LT F] [DecidableLT F] {e : Event F} (inv : Inv cfg s)
    (moved : DispatchEngine.step cfg s e = some t) : Inv cfg t := by
  cases moves_of_step moved with
  | tick => exact inv.tick _
  | call idle => exact inv.enter idle _
  | check here => exact inv.check here
  | checked here => exact inv.checked here
  | capacity here => exact inv.measured here
  | ask here task => exact inv.ask here task
  | finish here task => exact inv.finish here task
  | join here task => exact inv.join here task
  | joined here => exact inv.joined here

end Inv

/-! ## The law -/

variable [LT F] [DecidableLT F] {e : Event F}

/-- A success of the adapter with the action is joined. -/
def JoinsSuccess (s : State) (action : DispatchType) (adapter : String) (e : Event F) : Prop :=
  ∃ i tasks fired errors, e = .join i ∧ s.call = some (.joining action tasks fired errors) ∧
    tasks[i]? = some ⟨adapter, .finished .ok⟩

/-- What a step leaves alone, it leaves as it was. -/
theorem lastDispatchOf_of_step (moved : step cfg s e = some t) :
    lastDispatchOf t.lastDispatch action adapter = lastDispatchOf s.lastDispatch action adapter ∨
      JoinsSuccess s action adapter e := by
  cases moves_of_step moved with
  | tick => exact .inl rfl
  | call _ =>
    unfold State.enter
    split
    · exact .inl rfl
    · split <;> exact .inl rfl
  | check _ =>
    unfold State.check
    split <;> exact .inl rfl
  | checked _ =>
    unfold State.checked
    split <;> exact .inl rfl
  | @capacity _ _ agg now _ =>
    unfold State.measured
    cases hasDispatchCapacity agg now <;> exact .inl rfl
  | ask _ _ => exact .inl rfl
  | finish _ _ => exact .inl rfl
  | @join other tasks fired errors i name outcome here task =>
    cases outcome with
    | ok =>
      by_cases same : (other, name) = (action, adapter)
      · cases same
        exact .inr ⟨i, tasks, fired, errors, rfl, here, task⟩
      · exact .inl (lastDispatchOf_record_of_ne same)
    | error _ => exact .inl rfl
    | panicked _ => exact .inl rfl
  | joined _ =>
    unfold State.joined
    split <;> exact .inl rfl

/-- What the cooldown promises of a state. -/
structure Respected (cfg : DispatchConfig F) (s : State) : Prop where
  spaced : Spaced cfg.cooldown s.history
  latest : ∀ action adapter,
    lastDispatchOf s.lastDispatch action adapter = lastRecorded s.history action adapter
  single : (s.lastDispatch.map Dispatched.pair).Nodup
  undisturbed : ∀ (e : Event F) t action adapter, step cfg s e = some t →
    ¬ JoinsSuccess s action adapter e →
    lastDispatchOf t.lastDispatch action adapter = lastDispatchOf s.lastDispatch action adapter
  deserved : ∀ answer ∈ s.answers, answer.Deserved

/-- Whatever the frequencies, the times, the capacities and the adapters do. An adapter is asked for
an action only when its last success with it is at least the cooldown ago, nothing but a success
starts the cooldown, and every answer is deserved by what happened during its call. -/
theorem cooldown_respected (run : Steps (step cfg) Always init s) : Respected cfg s := by
  have start : Inv cfg init :=
    { past := fun _ mem => absurd mem List.not_mem_nil
      single := List.nodup_nil
      latest := fun _ _ => rfl
      spaced := by
        intro later action adapter time earlier split
        cases later <;> cases split
      within := fun _ there => nomatch there
      idle := fun _ => rfl
      deserved := fun _ mem => absurd mem List.not_mem_nil }
  have inv : Inv cfg s := by
    refine Steps.invariant ?_ run start
    intro s e t inv _ moved
    exact inv.step moved
  refine ⟨inv.spaced, inv.latest, inv.single, ?_, inv.deserved⟩
  intro e t action adapter moved not_joined
  exact (lastDispatchOf_of_step moved).resolve_right not_joined

private def sunny : Aggregator :=
  Aggregator.new.restoreBins
    [⟨1, 2, "m", DateTime.ofSecs 0, DateTime.ofSecs 900, 3, 1, 1, 0, 0, 0, 0, 0, none⟩]

private def twoAdapters : DispatchConfig ℚ :=
  .new ["grpc", "ieee"] (some " grpc,ieee,grpc") none 49 51 10

/-- The frequency is low, and the adapters are there. -/
private def gather : List (Event ℚ) :=
  [.call 48, .check, .check, .check, .capacity sunny (DateTime.ofSecs 1000)]

/-- The frequency is low three times. At first only the second adapter succeeds, then the first one
is asked again, and it is the turn of the second when its cooldown is over. -/
private def threeExcursions : List (Event ℚ) :=
  [gather,
    [.ask 1, .ask 0, .finish 1 .ok, .finish 0 (.error "down"), .join 1, .join 0, .joined, .tick 5],
    gather, [.ask 0, .tick 1, .finish 0 .ok, .join 0, .joined, .tick 4],
    gather, [.ask 0, .finish 0 (.panicked "x"), .join 0, .joined]].flatten

private theorem threeExcursions_run :
    (Transition.run (step twoAdapters) Always threeExcursions init).isSome := by
  decide +kernel

private def afterThree : State :=
  (Transition.run (step twoAdapters) Always threeExcursions init).get threeExcursions_run

/-- The last call failed, the first two did not, and all questions were due. -/
theorem three_excursions_respected :
    afterThree.answers.map (fun answer => answer.result.isOk) = [false, true, true] ∧
      Respected twoAdapters afterThree :=
  ⟨by decide +kernel, cooldown_respected (Steps.of_run_get threeExcursions_run)⟩

end DispatchEngine

end AggregatorBridge
