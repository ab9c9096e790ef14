import AggregatorBridge.Chrono
import AggregatorBridge.Lib.Checked
import AggregatorBridge.Lib.Remote
import AggregatorBridge.Lib.Text

/-!
# The OpenADR listener

`OpenLeadrVenListener` polls a VTN for demand-response events and dispatches their setpoints.
An event has a schedule of intervals, each with its own setpoint, and every poll dispatches at
most one interval of each event, the first that is open and was not dispatched before.

What was dispatched is in one map, `seen`, under two kinds of keys: the event's id once the
event is done with, and `{event_id}#{interval_id}` for an interval of an event that is not. The
value is the modification time of the event, so that an updated event starts over. The map is
kept in Redis and loaded by the first poll of a process, and each poll prunes it.

Values are generic in the type of doubles, and durations in theirs: `ending` is where an
interval of that duration ends, which is up to the wire library. It has no value where the end is
outside of chrono's calendar: the addition panics there, and a panic aborts the process. So a poll
may end in the middle, with what it did until then in Redis and at the adapter, and the next poll
is that of a fresh process. The clock itself is taken to be in the calendar with a week to spare.

Redis executes every command. An instant is stored as it is printed, in full; it is read back if
its year has four digits, because that is all that RFC 3339 has. Reports to the VTN, logs and
metrics are left out: nothing depends on them.
-/

namespace AggregatorBridge

open Remote

/-! ## Events -/

/-- A payload type, as far as the listener tells them apart. -/
inductive EventType where
  | dispatchSetpoint
  | dispatchSetpointRelative
  | other
  deriving DecidableEq, Repr

/-- A payload value; only numbers are setpoints. -/
inductive EventValue (F : Type) where
  | number (x : F)
  | other

/-- One payload of an interval. -/
structure EventValuesMap (F : Type) where
  valueType : EventType
  values : List (EventValue F)

/-- When something begins and how long it takes, if that is said. -/
structure IntervalPeriod (D : Type) where
  start : DateTime
  duration : Option D

/-- An interval of an event. Nothing says that the ids of an event are distinct. -/
structure EventInterval (F D : Type) where
  id : Int
  /-- The id is an `i32`. -/
  id_low : -2 ^ 31 ≤ id
  id_high : id < 2 ^ 31
  intervalPeriod : Option (IntervalPeriod D)
  payloads : List (EventValuesMap F)

/-- What an event asks for, with defaults for the intervals that have no period or no duration. -/
structure EventRequest (F D : Type) where
  intervals : Option (List (EventInterval F D))
  intervalPeriod : Option (IntervalPeriod D)
  duration : Option D

/-- An event as the VTN lists it. -/
structure VtnEvent (F D : Type) where
  id : String
  modificationDateTime : DateTime
  content : EventRequest F D

/-- The operations of the wire library and of doubles that the listener uses. -/
structure VenOps (F D : Type) where
  /-- `start + d.to_chrono_at_datetime(start)`, which panics outside of chrono's calendar. -/
  ending : D → DateTime → Option DateTime
  /-- `x >= 0.0`. -/
  isNonneg : F → Bool
  neg : F → F

/-- For concrete runs: durations in seconds, setpoints as rationals. -/
def secondsOps : VenOps ℚ Int where
  ending d start := if (start.addSecs d).InCalendar then some (start.addSecs d) else none
  isNonneg x := decide (0 ≤ x)
  neg x := -x

/-! ## Decisions -/

variable {F D : Type}

/-- One numeric dispatch setpoint drawn from an event interval. -/
structure Setpoint (F D : Type) where
  intervalId : Int
  valueKw : F
  relative : Bool
  period : Option (IntervalPeriod D)

/-- Whether a payload is a setpoint, and then whether it is a relative one. -/
def setpointKind : EventType → Option Bool
  | .dispatchSetpoint => some false
  | .dispatchSetpointRelative => some true
  | .other => none

/-- The first numeric setpoint of an interval. -/
def EventInterval.setpoint (interval : EventInterval F D) : Option (Setpoint F D) :=
  interval.payloads.findSome? fun payload =>
    (setpointKind payload.valueType).bind fun relative =>
      payload.values.findSome? fun
        | .number x => some ⟨interval.id, x, relative, interval.intervalPeriod⟩
        | .other => none

/-- The setpoints of an event in the order of its intervals; an interval without one is not there.
-/
def findSetpoints (event : EventRequest F D) : List (Setpoint F D) :=
  (event.intervals.getD []).filterMap EventInterval.setpoint

/-- Where an interval stands at some time. -/
inductive Phase where
  | future
  | active
  | ended
  deriving DecidableEq, Repr

/-- The interval's own period wins over that of the event; without any it is always active. The
end is computed of an interval that has started, and there is no phase if that panics. -/
def Setpoint.phase (ops : VenOps F D) (event : EventRequest F D) (now : DateTime)
    (sp : Setpoint F D) : Option Phase :=
  match sp.period.or event.intervalPeriod with
  | none => some .active
  | some period =>
    if period.start ≤ now then
      match period.duration.or event.duration with
      | some d =>
        (ops.ending d period.start).map fun ending => if ending ≤ now then .ended else .active
      | none => some .active
    else some .future

/-- When a setpoint interval starts and how long it takes, if it has both, the event's defaults
included. -/
def Setpoint.span (event : EventRequest F D) (sp : Setpoint F D) : Option (DateTime × D) :=
  (sp.period.or event.intervalPeriod).bind fun period =>
    (period.duration.or event.duration).map fun d => (period.start, d)

/-- Every setpoint interval that has a duration ends within chrono's calendar. -/
def EventRequest.EndsFit (ops : VenOps F D) (event : EventRequest F D) : Prop :=
  ∀ sp ∈ findSetpoints event, ∀ span ∈ sp.span event, (ops.ending span.2 span.1).isSome = true

instance (ops : VenOps F D) (event : EventRequest F D) : Decidable (event.EndsFit ops) :=
  inferInstanceAs (Decidable (∀ sp ∈ _, _))

/-- What to do with one polled event. -/
inductive EventDecision (F : Type) where
  | execute (setpointKw : F) (intervalId : Int) (morePending relative : Bool)
  | notYetActive
  | expired
  | notDispatch
  deriving DecidableEq, Repr

/-- The setpoints that are active and not executed yet. -/
def activeUnexecuted (ops : VenOps F D) (event : EventRequest F D) (now : DateTime)
    (executed : List Int) : List (Setpoint F D) :=
  (findSetpoints event).filter fun sp =>
    sp.phase ops event now = some .active ∧ sp.intervalId ∉ executed

/-- `decide`: the first active setpoint that was not executed, and whether others remain. The loop
looks at every setpoint before one is chosen, so the end of any of them may panic. -/
def EventRequest.decide (ops : VenOps F D) (event : EventRequest F D) (now : DateTime)
    (executed : List Int) : Option (EventDecision F) :=
  let anyFuture := (findSetpoints event).any fun sp => sp.phase ops event now = some .future
  if (findSetpoints event).isEmpty then some .notDispatch
  else if (findSetpoints event).any fun sp => sp.phase ops event now = none then none
  else
    match activeUnexecuted ops event now executed with
    | sp :: rest =>
      some (.execute sp.valueKw sp.intervalId (anyFuture || !rest.isEmpty) sp.relative)
    | [] => some (if anyFuture then .notYetActive else .expired)

/-- Where a setpoint interval ends that is dispatched at `now`, or a day later if it does not. -/
def Setpoint.watchEnd (ops : VenOps F D) (event : EventRequest F D) (now : DateTime)
    (sp : Setpoint F D) : Option DateTime :=
  let fallback := now.addSecs (24 * 3600)
  match sp.period.or event.intervalPeriod with
  | some p =>
    match p.duration.or event.duration with
    | some d => ops.ending d p.start
    | none => some fallback
  | none => some fallback

/-- The latest of some instants. -/
def DateTime.latest (fallback : DateTime) : List DateTime → DateTime
  | [] => fallback
  | e :: es => es.foldl (fun latest e => if latest ≤ e then e else latest) e

/-- The end of the event's active window: the latest end of its setpoint intervals, those that are
still to start included. -/
def activeWindowEnd (ops : VenOps F D) (event : EventRequest F D) (now : DateTime) :
    Option DateTime :=
  ((findSetpoints event).mapM (Setpoint.watchEnd ops event now)).map
    (DateTime.latest (now.addSecs (24 * 3600)))

/-- More power to the grid, or less. -/
inductive DispatchType where
  | flexUp
  | flexDown
  deriving DecidableEq, Repr

/-- Signed setpoint to dispatch action and magnitude. -/
def setpointToDispatch (ops : VenOps F D) (setpointKw : F) : DispatchType × F :=
  if ops.isNonneg setpointKw then (.flexUp, setpointKw) else (.flexDown, ops.neg setpointKw)

/-! ## The listener -/

/-- A dispatch that the adapter carried out. -/
structure Dispatch (F : Type) where
  eventId : String
  modified : DateTime
  intervalId : Int
  action : DispatchType
  capacityKw : F
  deriving DecidableEq

/-- What a dispatch is a dispatch of. -/
def Dispatch.target (d : Dispatch F) : String × DateTime × Int :=
  (d.eventId, d.modified, d.intervalId)

/-- The listener and its hash in Redis, with a record of what happened. -/
structure Ven (F : Type) where
  seen : Hash String DateTime
  seenLoaded : Bool
  /-- Executed events with the end of their active window. -/
  executedActive : Hash String DateTime
  /-- The hash `gridtokenx:openleadr:ven:executed`. -/
  redis : Hash String DateTime
  dispatched : List (Dispatch F)
  /-- The events whose cancellation was noticed. -/
  cancelled : List String
  /-- The entries of `seen` that were pruned. -/
  forgotten : List (String × DateTime)

/-- The instants that RFC 3339 can write: those of the years 0 to 9999. -/
def DateTime.FourDigitYear (t : DateTime) : Prop :=
  -62167219200 ≤ t.secs ∧ t.secs ≤ 253402300799

instance (t : DateTime) : Decidable t.FourDigitYear :=
  inferInstanceAs (Decidable (_ ∧ _))

/-- The key of one interval of an event. -/
def intervalKey (id : String) (intervalId : Int) : String :=
  id ++ "#" ++ toString intervalId

/-- The interval ids executed for a version of an event. -/
def executedIntervals (seen : Hash String DateTime) (id : String) (modified : DateTime) :
    List Int :=
  seen.entries.filterMap fun entry =>
    (Text.stripPrefixOpt (id ++ "#") entry.1).bind fun suffix =>
      if modified ≤ entry.2 then Text.parseI32 suffix else none

namespace Ven

/-- A fresh process and an empty Redis. -/
def init : Ven F :=
  ⟨∅, false, ∅, ∅, [], [], []⟩

/-- `RedisSeenStore::load`, once in a process. -/
def load (v : Ven F) : Ven F :=
  if v.seenLoaded then v
  else
    let persisted := Hash.filter (fun _ modified => decide modified.FourDigitYear) v.redis
    { v with seen := persisted ∪ v.seen, seenLoaded := true }

/-- `mark_seen`: first in Redis, then in memory. -/
def markSeen (v : Ven F) (key : String) (modified : DateTime) : Ven F :=
  { v with redis := v.redis.insert key modified, seen := v.seen.insert key modified }

/-- The adapter carried out a dispatch. -/
def dispatch (v : Ven F) (d : Dispatch F) : Ven F :=
  { v with dispatched := d :: v.dispatched }

/-- `executed_active.insert`. -/
def track (v : Ven F) (id : String) (ending : DateTime) : Ven F :=
  { v with executedActive := v.executedActive.insert id ending }

/-- One event of a listing. The adapter's answer, in case it is asked, comes with the event. An
error is a panic, in the decision or, with the dispatch made and not noted, after it. -/
def pollEvent (ops : VenOps F D) (now : DateTime) (v : Ven F) (listed : VtnEvent F D × Bool) :
    Except (Ven F) (Ven F) :=
  let event := listed.1
  let modified := event.modificationDateTime
  if (v.seen.lookup event.id).any fun prev => modified ≤ prev then .ok v
  else
    match event.content.decide ops now (executedIntervals v.seen event.id modified) with
    | none => .error v
    | some .notDispatch => .ok (v.markSeen event.id modified)
    | some .expired => .ok (v.markSeen event.id modified)
    | some .notYetActive => .ok v
    | some (.execute setpointKw intervalId morePending _) =>
      let (action, capacityKw) := setpointToDispatch ops setpointKw
      if listed.2 then
        let v := v.dispatch ⟨event.id, modified, intervalId, action, capacityKw⟩
        match activeWindowEnd ops event.content now with
        | none => .error v
        | some ending =>
          .ok ((v.track event.id ending).markSeen
            (if morePending then intervalKey event.id intervalId else event.id) modified)
      else .ok v

/-- Executed events that are no longer listed were cancelled, if their window is not over. -/
def watch (v : Ven F) (now : DateTime) (present : List String) : Ven F :=
  let gone := Hash.filter (fun id ending => decide (id ∉ present ∧ ¬ ending ≤ now))
    v.executedActive
  { v with
    cancelled := gone.keys ++ v.cancelled
    executedActive := Hash.filter (fun id ending => decide (id ∈ present ∧ ¬ ending ≤ now))
      v.executedActive }

/-- The entries of events that are not listed and were modified more than a week ago. -/
def stale (v : Ven F) (now : DateTime) (present : List String) : Hash String DateTime :=
  let pruneCutoff := now.addSecs (-(7 * 86400))
  Hash.filter (fun key modified =>
    decide (Text.splitFirst '#' key ∉ present ∧ ¬ pruneCutoff ≤ modified)) v.seen

/-- What is stale goes, in memory and in Redis; `forgotten` keeps a record of it. -/
def prune (v : Ven F) (now : DateTime) (present : List String) : Ven F :=
  let stale := v.stale now present
  { v with
    seen := Hash.delAll stale.keys v.seen
    redis := Hash.delAll stale.keys v.redis
    forgotten := (stale.entries.map fun entry => (entry.1, entry.2)) ++ v.forgotten }

/-- The process starts anew, and what it had in memory is gone. -/
def restart (v : Ven F) : Ven F :=
  { v with seen := ∅, seenLoaded := false, executedActive := ∅ }

/-- The end of a poll, behind the loop over the events. -/
def cleanUp (v : Ven F) (now : DateTime) (present : List String) : Ven F :=
  (v.watch now present).prune now present

/-- `poll_once`. Without a listing the poll has failed. A panic aborts the process. -/
def pollOnce (ops : VenOps F D) (v : Ven F) (now : DateTime)
    (listing : Option (List (VtnEvent F D × Bool))) : Ven F :=
  match listing with
  | none => v.load
  | some events =>
    match events.foldlM (pollEvent ops now) v.load with
    | .ok v => v.cleanUp now (events.map fun listed => listed.1.id)
    | .error v => v.restart

/-- A poll with what the VTN listed and the adapter answered, or the end of the process. A listing
is whatever the VTN says, nothing is assumed of it. -/
inductive Event (F D : Type) where
  | poll (now : DateTime) (listing : Option (List (VtnEvent F D × Bool)))
  /-- The process starts anew. -/
  | restart

/-- The clock of a poll is its own; that it goes forward is said where it matters. -/
def step (ops : VenOps F D) (v : Ven F) : Event F D → Option (Ven F)
  | .poll now listing => some (v.pollOnce ops now listing)
  | .restart => some v.restart

end Ven

/-! ## What the pieces do -/

theorem mem_executedIntervals {seen : Hash String DateTime} {id : String} {k : Int}
    {modified ts : DateTime} (low : -2 ^ 31 ≤ k) (high : k < 2 ^ 31)
    (found : seen.lookup (intervalKey id k) = some ts) (recent : modified ≤ ts) :
    k ∈ executedIntervals seen id modified := by
  refine List.mem_filterMap.mpr ⟨⟨intervalKey id k, ts⟩, AList.mem_lookup_iff.mp found, ?_⟩
  simp only [intervalKey, Text.stripPrefixOpt_append, Option.bind_some, if_pos recent,
    Text.parseI32_toString low high]

/-- An event's setpoints carry 32-bit interval ids. -/
theorem intervalId_bounds {event : EventRequest F D} {sp : Setpoint F D}
    (mem : sp ∈ findSetpoints event) : -2 ^ 31 ≤ sp.intervalId ∧ sp.intervalId < 2 ^ 31 := by
  obtain ⟨interval, _, drawn⟩ := List.mem_filterMap.mp mem
  obtain ⟨payload, _, drawn⟩ := List.exists_of_findSome?_eq_some drawn
  obtain ⟨relative, _, drawn⟩ := Option.bind_eq_some_iff.mp drawn
  obtain ⟨value, _, drawn⟩ := List.exists_of_findSome?_eq_some drawn
  cases value with
  | number x =>
    cases drawn
    exact ⟨interval.id_low, interval.id_high⟩
  | other => cases drawn

/-- Where ends fit, every setpoint has a phase. -/
theorem EventRequest.EndsFit.phase_ne_none {ops : VenOps F D} {event : EventRequest F D}
    (fits : event.EndsFit ops) (now : DateTime) {sp : Setpoint F D}
    (mem : sp ∈ findSetpoints event) : sp.phase ops event now ≠ none := by
  have span := fits sp mem
  unfold Setpoint.span at span
  unfold Setpoint.phase
  generalize sp.period.or event.intervalPeriod = period at span ⊢
  cases period with
  | none => exact Option.some_ne_none _
  | some p =>
    rw [Option.bind_some] at span
    simp only
    split
    · generalize p.duration.or event.duration = duration at span ⊢
      cases duration with
      | none => exact Option.some_ne_none _
      | some d =>
        obtain ⟨e, ending⟩ := Option.isSome_iff_exists.mp (span _ rfl)
        simp only [ending, Option.map_some]
        exact Option.some_ne_none _
    · exact Option.some_ne_none _

/-- Where ends fit, every setpoint has an end to watch for. -/
theorem EventRequest.EndsFit.watchEnd_isSome {ops : VenOps F D} {event : EventRequest F D}
    (fits : event.EndsFit ops) (now : DateTime) {sp : Setpoint F D}
    (mem : sp ∈ findSetpoints event) : (sp.watchEnd ops event now).isSome = true := by
  have span := fits sp mem
  unfold Setpoint.span at span
  unfold Setpoint.watchEnd
  generalize sp.period.or event.intervalPeriod = period at span ⊢
  cases period with
  | none => rfl
  | some p =>
    rw [Option.bind_some] at span
    simp only
    generalize p.duration.or event.duration = duration at span ⊢
    cases duration with
    | none => rfl
    | some d => exact span _ rfl

/-- Where ends fit, so does the window. -/
theorem EventRequest.EndsFit.activeWindowEnd_isSome {ops : VenOps F D} {event : EventRequest F D}
    (fits : event.EndsFit ops) (now : DateTime) :
    (activeWindowEnd ops event now).isSome = true := by
  have ends : ((findSetpoints event).mapM (Setpoint.watchEnd ops event now)).isSome = true := by
    have each : ∀ sp ∈ findSetpoints event, (sp.watchEnd ops event now).isSome = true :=
      fun sp mem => fits.watchEnd_isSome now mem
    generalize findSetpoints event = setpoints at each
    induction setpoints with
    | nil => rfl
    | cons sp setpoints ih =>
      obtain ⟨e, first⟩ := Option.isSome_iff_exists.mp (each sp List.mem_cons_self)
      obtain ⟨es, rest⟩ := Option.isSome_iff_exists.mp
        (ih fun sp mem => each sp (List.mem_cons_of_mem _ mem))
      simp [List.mapM_cons, first, rest]
  simpa only [activeWindowEnd, Option.isSome_map] using ends

/-- Where ends fit, there is a decision. -/
theorem EventRequest.EndsFit.decide_isSome {ops : VenOps F D} {event : EventRequest F D}
    (fits : event.EndsFit ops) (now : DateTime) (executed : List Int) :
    (event.decide ops now executed).isSome = true := by
  have through : ((findSetpoints event).any fun sp => sp.phase ops event now = none) = false := by
    refine List.any_eq_false.mpr fun sp mem panics => ?_
    exact fits.phase_ne_none now mem (of_decide_eq_true panics)
  unfold EventRequest.decide
  simp only [through, Bool.false_eq_true, if_false]
  split
  · rfl
  · split
    · rfl
    · rfl

/-- What is executed is an interval of the event that was not executed before. -/
theorem mem_of_decide_execute {ops : VenOps F D} {event : EventRequest F D} {now : DateTime}
    {executed : List Int} {x : F} {k : Int} {morePending relative : Bool}
    (decided : event.decide ops now executed = some (.execute x k morePending relative)) :
    ∃ sp ∈ findSetpoints event, sp.intervalId = k ∧ k ∉ executed := by
  unfold EventRequest.decide at decided
  simp only at decided
  split at decided
  · cases decided
  · split at decided
    · cases decided
    · split at decided
      · next sp rest active =>
        cases decided
        have mem : sp ∈ activeUnexecuted ops event now executed := by
          rw [active]
          exact List.mem_cons_self
        obtain ⟨found, open_⟩ := List.mem_filter.mp mem
        simp only [decide_eq_true_eq] at open_
        exact ⟨sp, found, rfl, open_.2⟩
      · split at decided
        · cases decided
        · cases decided

end AggregatorBridge
