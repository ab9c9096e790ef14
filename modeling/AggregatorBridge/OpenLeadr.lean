import AggregatorBridge.Lib.Run
import AggregatorBridge.OpenLeadrVen

/-!
# Dispatch through a VTN

`OpenLeadrAdapter` carries out a dispatch by creating an event at a VTN, under a program that it
looks up by its id, or by its name, or creates. It keeps the program that it found until the creation
of an event fails. The lock of that cache is held during a dispatch, so an adapter does one at a time.

`FlexRelay` is an adapter, the VTN, and a listener that polls the VTN for what others are to carry
out. A request of the adapter can fail, or be executed with nobody told. Others create, change and
delete events and programs, those of the adapter included. The VTN never gives an id twice, and its
ids have no `#`; whoever changes an event, its modification time moves on; a listing has all its
events that pass the filters of the listener, and times that RFC 3339 can write.

`created` is what became of the dispatches, `changed` which events others have changed, and
`latestPoll` the latest time of a poll; nobody looks at them. Retries of a request and the
authentication at the VTN, which are the wire library's, are left out.
-/

namespace AggregatorBridge

open Remote

variable {F D : Type}

/-! ## The adapter -/

/-- How an `OpenLeadrAdapter` is built. -/
structure OpenLeadrAdapter (D : Type) where
  configuredProgramId : Option String
  programName : String
  target : Option String
  eventDuration : D

/-- What the adapter is to do. -/
structure FlexDispatch (F : Type) where
  action : DispatchType
  capacityKw : F
  deriving DecidableEq

/-- Up is a positive setpoint, and down a negative one. -/
def FlexDispatch.setpointKw (ops : VenOps F D) (dispatch : FlexDispatch F) : F :=
  match dispatch.action with
  | .flexUp => dispatch.capacityKw
  | .flexDown => ops.neg dispatch.capacityKw

/-- Zero is an `i32`. -/
theorem EventInterval.zero_low : (-2 ^ 31 : Int) ≤ 0 := by decide

theorem EventInterval.zero_high : (0 : Int) < 2 ^ 31 := by decide

/-- The event of a dispatch: one interval from now on. -/
def OpenLeadrAdapter.event (adapter : OpenLeadrAdapter D) (ops : VenOps F D) (now : DateTime)
    (dispatch : FlexDispatch F) : EventRequest F D where
  intervals := some [{
    id := 0
    id_low := EventInterval.zero_low
    id_high := EventInterval.zero_high
    intervalPeriod := some ⟨now, some adapter.eventDuration⟩
    payloads := [⟨.dispatchSetpoint, [.number (dispatch.setpointKw ops)]⟩] }]
  intervalPeriod := none
  duration := some adapter.eventDuration

/-- Where `dispatch_event` is, with the lock of the cache. -/
inductive DispatchEventStage where
  /-- There is no program in the cache: look it up. -/
  | resolving
  | creatingProgram
  | creatingEvent (programId : String)

/-! ## The VTN -/

/-- An event at the VTN, with what it can be filtered by. -/
structure ListedEvent (F D : Type) where
  programId : String
  targets : List String
  event : VtnEvent F D

/-- The filters of the listener's polls. -/
structure VenFilter where
  programId : Option String
  target : Option String

/-- A filter that is not set lets everything pass. -/
def VenFilter.passes (filter : VenFilter) (listed : ListedEvent F D) : Bool :=
  filter.programId.all (· = listed.programId) && filter.target.all (· ∈ listed.targets)

/-- An event that a dispatch created. -/
structure CreatedEvent (F : Type) where
  id : String
  modified : DateTime
  start : DateTime
  dispatch : FlexDispatch F

/-! ## The relay -/

/-- The VTN, the adapter with its cache and the dispatch it is at, and the listener, with a record
of what became of the dispatches. -/
structure FlexRelay (F D : Type) where
  /-- The programs, with their names. -/
  programs : List (String × String)
  events : List (ListedEvent F D)
  /-- The ids of all events that there ever were. -/
  usedIds : List String
  cache : Option String
  call : Option (FlexDispatch F × DispatchEventStage)
  ven : Ven F
  created : List (CreatedEvent F)
  changed : List String
  latestPoll : Option DateTime

namespace FlexRelay

/-- How the adapter and the listener are set up; nothing says that they agree. -/
structure Config (F D : Type) where
  ops : VenOps F D
  adapter : OpenLeadrAdapter D
  filter : VenFilter

/-- A request of the adapter or of others at the VTN, a poll of the listener, or the end of a
process. -/
inductive Event (F D : Type) where
  /-- `execute_dispatch` takes the lock. -/
  | dispatch (dispatch : FlexDispatch F)
  /-- The first request of `resolve_program`, which only reads. -/
  | lookUp (answered : Bool)
  | createProgram (id : String) (reply : Reply)
  | createEvent (now : DateTime) (id : String) (modified : DateTime) (reply : Reply)
  /-- The dispatch is dropped where it is. -/
  | drop
  | restartAdapter
  /-- Others create or change an event. -/
  | putEvent (listed : ListedEvent F D)
  | deleteEvent (id : String)
  | putProgram (id name : String)
  | deleteProgram (id : String)
  /-- A poll, with the answer of the listener's adapter for each event, or one that failed. -/
  | poll (now : DateTime) (answers : Option (String → Bool))
  | restartVen

/-- An empty VTN, and two processes that have done nothing. -/
def init : FlexRelay F D :=
  ⟨[], [], [], none, none, Ven.init, [], [], none⟩

variable (cfg : Config F D)

/-- A dispatch takes the lock of the cache, and skips the lookup if there is a program in it. -/
def dispatch (s : FlexRelay F D) (dispatch : FlexDispatch F) : Option (FlexRelay F D) :=
  match s.call with
  | some _ => none
  | none =>
    let stage := match s.cache with
      | some programId => .creatingEvent programId
      | none => .resolving
    some { s with call := some (dispatch, stage) }

/-- The program that is looked up: by its id, or by its name. -/
def found (s : FlexRelay F D) : Option String :=
  match cfg.adapter.configuredProgramId with
  | some id => (s.programs.find? (·.1 = id)).map Prod.fst
  | none => (s.programs.find? (·.2 = cfg.adapter.programName)).map Prod.fst

/-- The answer to the lookup of the program, which need not come. -/
def lookUp (s : FlexRelay F D) (answered : Bool) : Option (FlexRelay F D) :=
  match s.call with
  | some (dispatch, .resolving) =>
    match if answered then found cfg s else none with
    | some programId =>
      some { s with cache := some programId, call := some (dispatch, .creatingEvent programId) }
    | none =>
      -- a program that has no id is created, if the list came without it
      if answered ∧ cfg.adapter.configuredProgramId = none then
        some { s with call := some (dispatch, .creatingProgram) }
      else some { s with call := none }
  | _ => none

/-- The VTN has no two programs of one name. -/
def createProgram (s : FlexRelay F D) (id : String) (reply : Reply) : Option (FlexRelay F D) :=
  match s.call with
  | some (dispatch, .creatingProgram) =>
    if (s.programs.any fun p => p.1 = id || p.2 = cfg.adapter.programName) ∨ ¬ reply.took then
      some { s with call := none }
    else
      let s := { s with programs := s.programs ++ [(id, cfg.adapter.programName)] }
      if reply = .ok then
        some { s with cache := some id, call := some (dispatch, .creatingEvent id) }
      else some { s with call := none }
  | _ => none

/-- An id that the VTN may give to an event. -/
def newId (s : FlexRelay F D) (id : String) : Bool :=
  decide ('#' ∉ id.toList) && decide (id ∉ s.usedIds)

/-- The VTN creates the event of the dispatch, unless the program is gone. The adapter forgets the
program whenever it is not told that all went well. -/
def createEvent (s : FlexRelay F D) (now : DateTime) (id : String) (modified : DateTime)
    (reply : Reply) : Option (FlexRelay F D) :=
  match s.call with
  | some (dispatch, .creatingEvent programId) =>
    let failed := { s with cache := none, call := none }
    if ¬ reply.took ∨ ¬ s.programs.any (·.1 = programId) then some failed
    else if s.newId id ∧ modified.FourDigitYear then
      let content := cfg.adapter.event cfg.ops now dispatch
      let listed : ListedEvent F D :=
        ⟨programId, cfg.adapter.target.toList, ⟨id, modified, content⟩⟩
      let s := if reply = .ok then { s with call := none } else failed
      some { s with
        events := s.events ++ [listed]
        usedIds := id :: s.usedIds
        created := ⟨id, modified, now, dispatch⟩ :: s.created }
    else none
  | _ => none

/-- Others create an event, or change one, whoever created it. The change is a new version. -/
def putEvent (s : FlexRelay F D) (listed : ListedEvent F D) : Option (FlexRelay F D) :=
  let id := listed.event.id
  let newer := s.events.all fun e =>
    e.event.id ≠ id || decide (¬ listed.event.modificationDateTime ≤ e.event.modificationDateTime)
  if ¬ listed.event.modificationDateTime.FourDigitYear then none
  else if s.newId id then
    some { s with events := s.events ++ [listed], usedIds := id :: s.usedIds }
  else if s.events.any (·.event.id = id) ∧ newer then
    some { s with
      events := s.events.map fun e => if e.event.id = id then listed else e
      changed := id :: s.changed }
  else none

/-- What a poll lists. -/
def listing (s : FlexRelay F D) (answer : String → Bool) : List (VtnEvent F D × Bool) :=
  (s.events.filter cfg.filter.passes).map fun listed => (listed.event, answer listed.event.id)

/-- The later of two times. -/
def latest (now : DateTime) : Option DateTime → DateTime
  | none => now
  | some last => if last ≤ now then now else last

/-- The steps of all parties. Those of others are not hindered by the lock. -/
def step (s : FlexRelay F D) : Event F D → Option (FlexRelay F D)
  | .dispatch d => s.dispatch d
  | .lookUp answered => s.lookUp cfg answered
  | .createProgram id reply => s.createProgram cfg id reply
  | .createEvent now id modified reply => s.createEvent cfg now id modified reply
  | .drop => some { s with call := none }
  | .restartAdapter => some { s with cache := none, call := none }
  | .putEvent listed => s.putEvent listed
  | .deleteEvent id => some { s with events := s.events.filter (·.event.id ≠ id) }
  | .putProgram id name =>
    if s.programs.any fun p => p.1 = id || p.2 = name then none
    else some { s with programs := s.programs ++ [(id, name)] }
  -- a program goes with its events
  | .deleteProgram id => some { s with
      programs := s.programs.filter (·.1 ≠ id)
      events := s.events.filter (·.programId ≠ id) }
  | .poll now answers => some { s with
      ven := s.ven.pollOnce cfg.ops now (answers.map (s.listing cfg))
      latestPoll := some (latest now s.latestPoll) }
  | .restartVen => some { s with ven := s.ven.restart }

end FlexRelay

end AggregatorBridge
