import AggregatorBridge.Aggregator
import AggregatorBridge.OpenLeadrVen
import AggregatorBridge.Lib.Expiring
import AggregatorBridge.Lib.Run
import AggregatorBridge.Lib.Text

/-!
# Dispatch of flexibility

When the grid frequency leaves its band, `evaluate_and_dispatch` asks every configured adapter
for more or for less. An adapter that took the same action less than a cooldown ago is left out.
The others are asked by tasks of their own, which finish in any order, and fail or panic one by
one; a success is written down, with its time, when its task is joined.

The engine is called by one loop, so a call is over before the next begins. Within a call, the
check of each target, the look at the capacity, each question, each answer and each join is a step
of its own, and the clock may move between any two of them.
-/

namespace AggregatorBridge

open Expiring

/-- An entry of `last_dispatch`. -/
structure Dispatched where
  action : DispatchType
  adapter : String
  time : Instant
  deriving DecidableEq

namespace Dispatched

/-- What the cooldown is about: one kind of action at one adapter. -/
def pair (d : Dispatched) : DispatchType × String :=
  (d.action, d.adapter)

/-- A note is about this pair. -/
def isOf (d : Dispatched) (action : DispatchType) (adapter : String) : Bool :=
  decide (d.action = action) && decide (d.adapter = adapter)

end Dispatched

namespace DispatchEngine

/-! ## Configuration -/

/-- The choice when nothing is configured, or nothing that is configured is there. -/
def defaultAdapterName (adapters : List String) : String :=
  if "openleadr" ∈ adapters then "openleadr" else "ieee"

/-- One name of the list, after those that are selected already. -/
def selectAdapter (adapters selected : List String) (name : String) : List String :=
  if name ∉ adapters then selected
  else if name ∈ selected then selected
  else selected ++ [name]

/-- `select_adapters_from`: the names of a comma-separated list that are registered, each once. -/
def selectAdaptersFrom (raw : String) (adapters : List String) : List String :=
  let names := ((raw.toList.splitOn ',').map (Text.trim ∘ String.ofList)).filter (· ≠ "")
  match names.foldl (selectAdapter adapters) [] with
  | [] => [defaultAdapterName adapters]
  | selected => selected

/-- `select_adapters`, with the values of `DISPATCH_ADAPTERS` and `DISPATCH_ADAPTER`. -/
def selectAdapters (several single : Option String) (adapters : List String) : List String :=
  match several with
  | some csv =>
    if Text.trim csv ≠ "" then selectAdaptersFrom csv adapters
    else selectAdaptersFrom (single.getD "") adapters
  | none => selectAdaptersFrom (single.getD "") adapters

theorem nodup_selectAdapter {adapters selected : List String} {name : String}
    (distinct : selected.Nodup) : (selectAdapter adapters selected name).Nodup := by
  unfold selectAdapter
  split
  · exact distinct
  · split
    · exact distinct
    · next fresh =>
      refine List.nodup_append.mpr ⟨distinct, List.nodup_singleton _, ?_⟩
      rintro a old b new rfl
      cases List.mem_singleton.mp new
      exact fresh old

theorem nodup_selectAdaptersFrom (raw : String) (adapters : List String) :
    (selectAdaptersFrom raw adapters).Nodup := by
  have folded (names selected : List String) (distinct : selected.Nodup) :
      (names.foldl (selectAdapter adapters) selected).Nodup := by
    induction names generalizing selected with
    | nil => exact distinct
    | cons name names ih => exact ih _ (nodup_selectAdapter distinct)
  simp only [selectAdaptersFrom]
  split
  · exact List.nodup_singleton _
  · exact folded _ _ List.nodup_nil

/-- However the adapters are configured, none is selected twice. -/
theorem nodup_selectAdapters (several single : Option String) (adapters : List String) :
    (selectAdapters several single adapters).Nodup := by
  unfold selectAdapters
  split
  · split <;> exact nodup_selectAdaptersFrom _ _
  · exact nodup_selectAdaptersFrom _ _

end DispatchEngine

/-- What the engine is built with. Frequencies are compared and nothing else. -/
structure DispatchConfig (F : Type) where
  /-- The names under which adapters are registered. -/
  adapters : List String
  activeAdapters : List String
  distinct : activeAdapters.Nodup
  freqLowHz : F
  freqHighHz : F
  cooldown : Nat

/-- The engine as it is built: the adapters in use are chosen once, and are distinct by the way they
are chosen. -/
def DispatchConfig.new {F : Type} (adapters : List String) (several single : Option String)
    (freqLowHz freqHighHz : F) (cooldown : Nat) : DispatchConfig F where
  adapters := adapters
  activeAdapters := DispatchEngine.selectAdapters several single adapters
  distinct := DispatchEngine.nodup_selectAdapters several single adapters
  freqLowHz := freqLowHz
  freqHighHz := freqHighHz
  cooldown := cooldown

namespace DispatchEngine

/-! ## Cooldown -/

/-- The time of the note about a pair; there is at most one. -/
def lastDispatchOf (entries : List Dispatched) (action : DispatchType) (adapter : String) :
    Option Instant :=
  (entries.find? (·.isOf action adapter)).map Dispatched.time

/-- A note replaces the one about its pair. -/
def recordDispatch (now : Instant) (action : DispatchType) (adapter : String)
    (entries : List Dispatched) : List Dispatched :=
  entries.filter (fun d => !d.isOf action adapter) ++ [⟨action, adapter, now⟩]

/-- A pair that was never dispatched is not held back; of one that was, only the time since counts.
-/
def cooldownAllows (now : Instant) (lastSameAction : Option Instant) (cooldown : Nat) : Bool :=
  match lastSameAction with
  | some since => decide (cooldown ≤ now - since)
  | none => true

/-- `has_dispatch_capacity`: the completed windows have generated something. -/
def hasDispatchCapacity (agg : Aggregator) (now : DateTime) : Bool :=
  decide (0 < ((agg.peekCompletedBinsAt now 0).map BillingBin.energyGenerated).sum)

/-! ## A call -/

/-- How the question to an adapter ends. -/
inductive Outcome where
  | ok
  | error (e : String)
  | panicked (joinErr : String)
  deriving DecidableEq

/-- Where the task of one adapter is: spawned, waiting for its adapter, or done and not joined yet.
-/
inductive TaskStage where
  | spawned
  | asked
  | finished (outcome : Outcome)
  deriving DecidableEq

/-- One adapter of the call, with how far its task has come. -/
structure Task where
  adapter : String
  stage : TaskStage
  deriving DecidableEq

/-- Where a call of `evaluate_and_dispatch` is. -/
inductive Call where
  /-- The targets still to be checked, and those found eligible. -/
  | checking (action : DispatchType) (targets eligible : List String)
  /-- Waiting for the aggregator. -/
  | measuring (action : DispatchType) (eligible : List String)
  /-- The tasks that are not joined yet. -/
  | joining (action : DispatchType) (tasks : List Task) (fired : Nat) (errors : List String)

/-- What happened during a call, for comparison with its result. The source has no such thing. -/
structure Facts where
  eligible : List String
  capacity : Option Bool
  /-- The adapters that did what they were asked. -/
  succeeded : List String

/-- An adapter was asked, or a success of it was written down, at a time. A ghost, too. -/
inductive Note where
  | asked (action : DispatchType) (adapter : String) (time : Instant)
  | recorded (action : DispatchType) (adapter : String) (time : Instant)

/-- What a call returned, with what was true when it did. -/
structure Answer where
  facts : Facts
  result : Except String Unit

/-- The engine between and during calls. Of these `lastDispatch` alone outlives a call in the
source; the history and the answers are a record that nothing looks at. -/
structure State where
  lastDispatch : List Dispatched
  clock : Instant
  call : Option Call
  facts : Facts
  /-- The latest comes first. -/
  history : List Note
  answers : List Answer

/-- What is known before the first target of a call. -/
def noFacts : Facts :=
  ⟨[], none, []⟩

/-- A process that has dispatched nothing. -/
def init : State :=
  ⟨[], 0, none, noFacts, [], []⟩

namespace State

/-- The call returns. -/
def leave (s : State) (result : Except String Unit) : State :=
  { s with call := none, facts := noFacts, answers := ⟨s.facts, result⟩ :: s.answers }

variable {F : Type}

/-- The decision on the frequency. -/
def enter [LT F] [DecidableLT F] (s : State) (cfg : DispatchConfig F) (frequency : F) : State :=
  if frequency < cfg.freqLowHz then
    { s with call := some (.checking .flexUp cfg.activeAdapters []) }
  else if cfg.freqHighHz < frequency then
    { s with call := some (.checking .flexDown cfg.activeAdapters []) }
  else s.leave (.ok ())

/-- A target is eligible: it is registered, and its cooldown is over. -/
def admits (s : State) (cfg : DispatchConfig F) (action : DispatchType) (name : String) : Bool :=
  decide (name ∈ cfg.adapters) &&
    cooldownAllows s.clock (lastDispatchOf s.lastDispatch action name) cfg.cooldown

/-- One target is looked at: it goes out in this call if nothing forbids it at this moment. -/
def check (s : State) (cfg : DispatchConfig F) (action : DispatchType) (name : String)
    (targets eligible : List String) : State :=
  if s.admits cfg action name then
    { s with call := some (.checking action targets (eligible ++ [name])) }
  else { s with call := some (.checking action targets eligible) }

/-- All targets are checked. -/
def checked (s : State) (action : DispatchType) (eligible : List String) : State :=
  if eligible.isEmpty then s.leave (.ok ())
  else { s with
    call := some (.measuring action eligible)
    facts := { s.facts with eligible := eligible } }

/-- Without capacity the call fails, else a task is spawned for every eligible target. -/
def measured (s : State) (action : DispatchType) (eligible : List String) (capacity : Bool) :
    State :=
  let s := { s with facts := { s.facts with capacity := some capacity } }
  if capacity then
    { s with call := some (.joining action (eligible.map (⟨·, .spawned⟩)) 0 []) }
  else s.leave (.error "No available capacity for dispatch")

/-- The task of an adapter asks it. -/
def ask (s : State) (action : DispatchType) (tasks : List Task) (fired : Nat)
    (errors : List String) (i : Nat) (adapter : String) : State :=
  { s with
    call := some (.joining action (tasks.set i ⟨adapter, .asked⟩) fired errors)
    history := .asked action adapter s.clock :: s.history }

/-- The adapter is done, and with it the task. -/
def finish (s : State) (action : DispatchType) (tasks : List Task) (fired : Nat)
    (errors : List String) (i : Nat) (adapter : String) (outcome : Outcome) : State :=
  { s with
    call := some (.joining action (tasks.set i ⟨adapter, .finished outcome⟩) fired errors)
    facts := { s.facts with
      succeeded := if outcome = .ok then adapter :: s.facts.succeeded else s.facts.succeeded } }

/-- `join_next` returned the task of an adapter. -/
def join (s : State) (action : DispatchType) (tasks : List Task) (fired : Nat)
    (errors : List String) (i : Nat) (adapter : String) : Outcome → State
  | .ok =>
    { s with
      lastDispatch := recordDispatch s.clock action adapter s.lastDispatch
      call := some (.joining action (tasks.eraseIdx i) (fired + 1) errors)
      history := .recorded action adapter s.clock :: s.history }
  | .error e =>
    { s with
      call := some (.joining action (tasks.eraseIdx i) fired (errors ++ [adapter ++ ": " ++ e])) }
  | .panicked joinErr =>
    { s with
      call := some (.joining action (tasks.eraseIdx i) fired
        (errors ++ ["task panicked: " ++ joinErr])) }

/-- All tasks are joined. -/
def joined (s : State) (fired : Nat) (errors : List String) : State :=
  if ¬ errors.isEmpty ∧ fired = 0 then
    s.leave (.error ("all dispatch adapters failed: " ++ "; ".intercalate errors))
  else s.leave (.ok ())

end State

/-- A step of the call in progress, of one of its tasks, or of the clock. -/
inductive Event (F : Type) where
  | tick (duration : Nat)
  | call (frequency : F)
  /-- The next target is checked, or there is none left. -/
  | check
  | capacity (agg : Aggregator) (now : DateTime)
  | ask (task : Nat)
  | finish (task : Nat) (outcome : Outcome)
  | join (task : Nat)
  /-- `join_next` returned nothing. -/
  | joined

variable {F : Type} [LT F] [DecidableLT F]

/-- A call goes through its targets, the capacity and its tasks in this order; the tasks themselves
move in any. -/
def step (cfg : DispatchConfig F) (s : State) : Event F → Option State
  | .tick duration => some { s with clock := s.clock + duration }
  | .call frequency => if s.call.isNone then some (s.enter cfg frequency) else none
  | .check =>
    match s.call with
    | some (.checking action (name :: targets) eligible) =>
      some (s.check cfg action name targets eligible)
    | some (.checking action [] eligible) => some (s.checked action eligible)
    | _ => none
  | .capacity agg now =>
    match s.call with
    | some (.measuring action eligible) =>
      some (s.measured action eligible (hasDispatchCapacity agg now))
    | _ => none
  | .ask i =>
    match s.call with
    | some (.joining action tasks fired errors) =>
      match tasks[i]? with
      | some ⟨adapter, .spawned⟩ => some (s.ask action tasks fired errors i adapter)
      | _ => none
    | _ => none
  | .finish i outcome =>
    match s.call with
    | some (.joining action tasks fired errors) =>
      match tasks[i]? with
      | some ⟨adapter, .asked⟩ => some (s.finish action tasks fired errors i adapter outcome)
      | _ => none
    | _ => none
  | .join i =>
    match s.call with
    | some (.joining action tasks fired errors) =>
      match tasks[i]? with
      | some ⟨adapter, .finished outcome⟩ =>
        some (s.join action tasks fired errors i adapter outcome)
      | _ => none
    | _ => none
  | .joined =>
    match s.call with
    | some (.joining _ [] fired errors) => some (s.joined fired errors)
    | _ => none

/-- What a step can be. -/
inductive Moves (cfg : DispatchConfig F) (s : State) : Event F → State → Prop
  | tick {duration : Nat} : Moves cfg s (.tick duration) { s with clock := s.clock + duration }
  | call {frequency : F} (idle : s.call = none) :
      Moves cfg s (.call frequency) (s.enter cfg frequency)
  | check {action : DispatchType} {name : String} {targets eligible : List String}
      (here : s.call = some (.checking action (name :: targets) eligible)) :
      Moves cfg s .check (s.check cfg action name targets eligible)
  | checked {action : DispatchType} {eligible : List String}
      (here : s.call = some (.checking action [] eligible)) :
      Moves cfg s .check (s.checked action eligible)
  | capacity {action : DispatchType} {eligible : List String} {agg : Aggregator} {now : DateTime}
      (here : s.call = some (.measuring action eligible)) :
      Moves cfg s (.capacity agg now) (s.measured action eligible (hasDispatchCapacity agg now))
  | ask {action : DispatchType} {tasks : List Task} {fired : Nat} {errors : List String} {i : Nat}
      {adapter : String} (here : s.call = some (.joining action tasks fired errors))
      (task : tasks[i]? = some ⟨adapter, .spawned⟩) :
      Moves cfg s (.ask i) (s.ask action tasks fired errors i adapter)
  | finish {action : DispatchType} {tasks : List Task} {fired : Nat} {errors : List String} {i : Nat}
      {adapter : String} {outcome : Outcome}
      (here : s.call = some (.joining action tasks fired errors))
      (task : tasks[i]? = some ⟨adapter, .asked⟩) :
      Moves cfg s (.finish i outcome) (s.finish action tasks fired errors i adapter outcome)
  | join {action : DispatchType} {tasks : List Task} {fired : Nat} {errors : List String} {i : Nat}
      {adapter : String} {outcome : Outcome}
      (here : s.call = some (.joining action tasks fired errors))
      (task : tasks[i]? = some ⟨adapter, .finished outcome⟩) :
      Moves cfg s (.join i) (s.join action tasks fired errors i adapter outcome)
  | joined {action : DispatchType} {fired : Nat} {errors : List String}
      (here : s.call = some (.joining action [] fired errors)) :
      Moves cfg s .joined (s.joined fired errors)

/-- Every step of a call is one of these, with the guards under which it is taken. -/
theorem moves_of_step {cfg : DispatchConfig F} {s t : State} {e : Event F}
    (moved : step cfg s e = some t) : Moves cfg s e t := by
  cases e with
  | tick duration =>
    cases moved
    exact .tick
  | call frequency =>
    simp only [step] at moved
    split at moved
    · next idle =>
      cases moved
      exact .call (Option.isNone_iff_eq_none.mp idle)
    · cases moved
  | check =>
    simp only [step] at moved
    split at moved
    · next here =>
      cases moved
      exact .check here
    · next here =>
      cases moved
      exact .checked here
    · cases moved
  | capacity agg now =>
    simp only [step] at moved
    split at moved
    · next here =>
      cases moved
      exact .capacity here
    · cases moved
  | ask i =>
    simp only [step] at moved
    split at moved
    · next here =>
      split at moved
      · next task =>
        cases moved
        exact .ask here task
      · cases moved
    · cases moved
  | finish i outcome =>
    simp only [step] at moved
    split at moved
    · next here =>
      split at moved
      · next task =>
        cases moved
        exact .finish here task
      · cases moved
    · cases moved
  | join i =>
    simp only [step] at moved
    split at moved
    · next here =>
      split at moved
      · next task =>
        cases moved
        exact .join here task
      · cases moved
    · cases moved
  | joined =>
    simp only [step] at moved
    split at moved
    · next here =>
      cases moved
      exact .joined here
    · cases moved

end DispatchEngine

end AggregatorBridge
