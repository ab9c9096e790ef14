import AggregatorBridge.Laws.VenOnce
import Mathlib.Data.List.Induction

/-!
# A schedule is followed

An event that stays listed is looked at by every poll. `Follows` is what the listener knows about
it then: the notes under the event's keys say which of its intervals were dispatched, neither
more nor less, and the note for the event as a whole is only there when every interval was
dispatched or is over. So a poll goes for the first interval that is open and was not dispatched,
and what is still to open is waited for.

The notes of other events do not matter: an event's keys begin with its id, up to the first `#`,
and identifiers have no `#` (the wire library admits letters, digits, `_` and `-`).

All of this is for listings in which ends are in chrono's calendar. An interval that has started and
would end later than that is never attempted, since the decision panics on its end, and an event with
such an interval takes the rest of its listing with it. Nor is there anything here about restarts,
which `VenOnce` is about, or about the time between two polls.
-/

namespace AggregatorBridge

open Remote

variable {F D : Type}

/-- The interval has started, if it has a period, and not ended, if it has an end. -/
def Setpoint.Open (ops : VenOps F D) (event : EventRequest F D) (now : DateTime)
    (sp : Setpoint F D) : Prop :=
  (∀ period ∈ sp.period.or event.intervalPeriod, period.start ≤ now) ∧
    ∀ span ∈ sp.span event, ∀ ending ∈ ops.ending span.2 span.1, ¬ ending ≤ now

instance (ops : VenOps F D) (event : EventRequest F D) (now : DateTime) (sp : Setpoint F D) :
    Decidable (sp.Open ops event now) :=
  inferInstanceAs (Decidable (_ ∧ _))

/-- Where there is a phase, the open intervals are the active ones. -/
theorem phase_active_iff {ops : VenOps F D} {event : EventRequest F D} {now : DateTime}
    {sp : Setpoint F D} (phase : sp.phase ops event now ≠ none) :
    sp.phase ops event now = some .active ↔ sp.Open ops event now := by
  unfold Setpoint.Open Setpoint.span
  unfold Setpoint.phase at phase ⊢
  generalize sp.period.or event.intervalPeriod = period at phase ⊢
  cases period with
  | none => simp
  | some p =>
    simp only [Option.bind_some] at phase ⊢
    by_cases started : p.start ≤ now
    · simp only [if_pos started] at phase ⊢
      generalize p.duration.or event.duration = duration at phase ⊢
      cases duration with
      | none => simp [started]
      | some d =>
        simp only at phase ⊢
        cases ending : ops.ending d p.start with
        | none =>
          rw [ending] at phase
          exact absurd rfl phase
        | some e =>
          by_cases past : e ≤ now
          · simp [started, ending, past]
          · simp [started, ending, past]
    · simp [started]

namespace Ven

/-! ## Attempts -/

/-- The note for an event as a whole that keeps this version from being looked at. -/
def Done (v : Ven F) (event : VtnEvent F D) : Prop :=
  ∃ ts, v.seen.lookup event.id = some ts ∧ event.modificationDateTime ≤ ts

/-- An interval of this version was dispatched. -/
def DispatchedOf (v : Ven F) (event : VtnEvent F D) (k : Int) : Prop :=
  (event.id, event.modificationDateTime, k) ∈ v.dispatched.map Dispatch.target

instance (v : Ven F) (event : VtnEvent F D) (k : Int) : Decidable (v.DispatchedOf event k) :=
  inferInstanceAs (Decidable (_ ∈ _))

/-- The dispatch that is attempted when the event is looked at: what `execute_dispatch` is called
with, as the dispatch of an interval. -/
def attempt (ops : VenOps F D) (now : DateTime) (v : Ven F) (event : VtnEvent F D) :
    Option (Dispatch F) :=
  if (v.seen.lookup event.id).any fun prev => event.modificationDateTime ≤ prev then none
  else
    match event.content.decide ops now
      (executedIntervals v.seen event.id event.modificationDateTime) with
    | some (.execute setpointKw intervalId _ _) =>
      some ⟨event.id, event.modificationDateTime, intervalId,
        (setpointToDispatch ops setpointKw).1, (setpointToDispatch ops setpointKw).2⟩
    | _ => none

/-- The dispatch of an interval: its own setpoint, as action and magnitude. -/
def dispatchOf (ops : VenOps F D) (event : VtnEvent F D) (sp : Setpoint F D) : Dispatch F :=
  ⟨event.id, event.modificationDateTime, sp.intervalId, (setpointToDispatch ops sp.valueKw).1,
    (setpointToDispatch ops sp.valueKw).2⟩

/-- The first interval that is open and was not dispatched. -/
def firstOpen (ops : VenOps F D) (now : DateTime) (v : Ven F) (event : VtnEvent F D) :
    Option (Setpoint F D) :=
  (findSetpoints event.content).find? fun sp =>
    sp.Open ops event.content now ∧ ¬ v.DispatchedOf event sp.intervalId

variable {ops : VenOps F D} {now : DateTime} {v : Ven F} {event : VtnEvent F D}

/-- An event is done with exactly if `poll_once` passes over it. -/
theorem done_iff :
    v.Done event ↔
      (v.seen.lookup event.id).any (fun prev => event.modificationDateTime ≤ prev) = true := by
  unfold Done
  cases v.seen.lookup event.id with
  | none => simp
  | some ts => simp

/-! ## What a decision says -/

/-- A decision is only made if every setpoint has a phase. -/
theorem phases_of_decide {content : EventRequest F D} {executed : List Int}
    (decided : content.decide ops now executed ≠ none) {sp : Setpoint F D}
    (mem : sp ∈ findSetpoints content) : sp.phase ops content now ≠ none := by
  intro panics
  refine decided ?_
  have some_ : (findSetpoints content).isEmpty = false := by
    cases none_ : findSetpoints content with
    | nil =>
      rw [none_] at mem
      exact absurd mem List.not_mem_nil
    | cons sp sps => rfl
  have stops : ((findSetpoints content).any fun sp => sp.phase ops content now = none) = true :=
    List.any_eq_true.mpr ⟨sp, mem, decide_eq_true panics⟩
  simp only [EventRequest.decide, some_, stops, if_true, Bool.false_eq_true, if_false]

/-- The first interval that is active and was not executed is executed. -/
theorem decide_execute {content : EventRequest F D} {executed : List Int} {sp : Setpoint F D}
    {rest : List (Setpoint F D)} (decided : content.decide ops now executed ≠ none)
    (active : activeUnexecuted ops content now executed = sp :: rest) :
    content.decide ops now executed = some (.execute sp.valueKw sp.intervalId
      ((findSetpoints content).any (fun sp => sp.phase ops content now = some .future) ||
        !rest.isEmpty) sp.relative) := by
  have some_ : (findSetpoints content).isEmpty = false := by
    cases none_ : findSetpoints content with
    | nil => simp [activeUnexecuted, none_] at active
    | cons sp sps => rfl
  have through : ((findSetpoints content).any fun sp => sp.phase ops content now = none) = false :=
    List.any_eq_false.mpr fun sp mem panics =>
      phases_of_decide decided mem (of_decide_eq_true panics)
  simp only [EventRequest.decide, some_, through, active]
  rfl

/-- Without such an interval, nothing is executed; the event is done with if nothing is to come. -/
theorem decide_idle {content : EventRequest F D} {executed : List Int}
    (decided : content.decide ops now executed ≠ none)
    (idle : activeUnexecuted ops content now executed = []) :
    content.decide ops now executed = some
      (if (findSetpoints content).isEmpty then .notDispatch
      else if (findSetpoints content).any (fun sp => sp.phase ops content now = some .future) then
        .notYetActive
      else .expired) := by
  have through : ((findSetpoints content).any fun sp => sp.phase ops content now = none) = false :=
    List.any_eq_false.mpr fun sp mem panics =>
      phases_of_decide decided mem (of_decide_eq_true panics)
  simp only [EventRequest.decide, idle, through, Bool.false_eq_true, if_false]
  cases (findSetpoints content).isEmpty with
  | true => rfl
  | false => rfl

/-! ## What a look can do -/

/-- The intervals executed for the event's version, as far as the notes say. -/
def executed (v : Ven F) (event : VtnEvent F D) : List Int :=
  executedIntervals v.seen event.id event.modificationDateTime

/-- The state after a dispatch with its watch, before its note. -/
def afterDispatch (ops : VenOps F D) (v : Ven F) (event : VtnEvent F D) (sp : Setpoint F D)
    (ending : DateTime) : Ven F :=
  (v.dispatch (dispatchOf ops event sp)).track event.id ending

/-- What happens when an event is looked at: what is attempted, and what becomes of the state. The
last two cases are the panics, of the decision and of the window's end. -/
inductive Look (ops : VenOps F D) (now : DateTime) (v : Ven F) (event : VtnEvent F D) :
    Bool → Option (Dispatch F) → Except (Ven F) (Ven F) → Prop
  | done (answer : Bool) (done : v.Done event) : Look ops now v event answer none (.ok v)
  | finished (answer : Bool) (open_ : ¬ v.Done event)
      (idle : activeUnexecuted ops event.content now (v.executed event) = [])
      (past : ∀ sp ∈ findSetpoints event.content, sp.phase ops event.content now ≠ some .future) :
      Look ops now v event answer none (.ok (v.markSeen event.id event.modificationDateTime))
  | waiting (answer : Bool) (open_ : ¬ v.Done event)
      (idle : activeUnexecuted ops event.content now (v.executed event) = []) :
      Look ops now v event answer none (.ok v)
  | failed (open_ : ¬ v.Done event) (sp : Setpoint F D) (rest : List (Setpoint F D))
      (active : activeUnexecuted ops event.content now (v.executed event) = sp :: rest) :
      Look ops now v event false (some (dispatchOf ops event sp)) (.ok v)
  | interval (open_ : ¬ v.Done event) (sp : Setpoint F D) (rest : List (Setpoint F D))
      (active : activeUnexecuted ops event.content now (v.executed event) = sp :: rest)
      (ending : DateTime) (window : activeWindowEnd ops event.content now = some ending) :
      Look ops now v event true (some (dispatchOf ops event sp))
        (.ok ((v.afterDispatch ops event sp ending).markSeen (intervalKey event.id sp.intervalId)
          event.modificationDateTime))
  | last (open_ : ¬ v.Done event) (sp : Setpoint F D)
      (active : activeUnexecuted ops event.content now (v.executed event) = [sp])
      (past : ∀ sp ∈ findSetpoints event.content, sp.phase ops event.content now ≠ some .future)
      (ending : DateTime) (window : activeWindowEnd ops event.content now = some ending) :
      Look ops now v event true (some (dispatchOf ops event sp))
        (.ok ((v.afterDispatch ops event sp ending).markSeen event.id event.modificationDateTime))
  | undecided (answer : Bool) (open_ : ¬ v.Done event)
      (panics : event.content.decide ops now (v.executed event) = none) :
      Look ops now v event answer none (.error v)
  | unnoted (open_ : ¬ v.Done event) (sp : Setpoint F D) (rest : List (Setpoint F D))
      (active : activeUnexecuted ops event.content now (v.executed event) = sp :: rest)
      (panics : activeWindowEnd ops event.content now = none) :
      Look ops now v event true (some (dispatchOf ops event sp))
        (.error (v.dispatch (dispatchOf ops event sp)))

theorem not_any_future {content : EventRequest F D}
    (none_ : ((findSetpoints content).any fun sp => sp.phase ops content now = some .future) =
      false) :
    ∀ sp ∈ findSetpoints content, sp.phase ops content now ≠ some .future := by
  intro sp mem future
  rw [List.any_eq_false] at none_
  exact none_ sp mem (decide_eq_true future)

theorem look_pollEvent (ops : VenOps F D) (now : DateTime) (v : Ven F) (event : VtnEvent F D)
    (answer : Bool) :
    Look ops now v event answer (v.attempt ops now event)
      (v.pollEvent ops now (event, answer)) := by
  by_cases done : v.Done event
  · have noted := done_iff.mp done
    rw [attempt, if_pos noted]
    simp only [pollEvent, if_pos noted]
    exact .done answer done
  have unnoted := fun noted => done (done_iff.mpr noted)
  simp only [attempt, pollEvent, if_neg unnoted]
  by_cases panics : event.content.decide ops now (v.executed event) = none
  · have decided := panics
    rw [executed] at decided
    rw [decided]
    exact .undecided answer done panics
  cases active : activeUnexecuted ops event.content now (v.executed event) with
  | nil =>
    have decided := decide_idle panics active
    rw [executed] at decided
    rw [decided]
    cases empty : (findSetpoints event.content).isEmpty with
    | true =>
      refine .finished answer done active fun sp mem => ?_
      rw [List.isEmpty_iff.mp empty] at mem
      exact absurd mem List.not_mem_nil
    | false =>
      cases future : (findSetpoints event.content).any
          fun sp => sp.phase ops event.content now = some .future with
      | true => exact .waiting answer done active
      | false => exact .finished answer done active (not_any_future future)
  | cons sp rest =>
    have decided := decide_execute panics active
    rw [executed] at decided
    rw [decided]
    simp only
    cases answer with
    | false => exact .failed done sp rest active
    | true =>
      cases window : activeWindowEnd ops event.content now with
      | none => exact .unnoted done sp rest active window
      | some ending =>
        cases future : (findSetpoints event.content).any
            fun sp => sp.phase ops event.content now = some .future with
        | true => exact .interval done sp rest active ending window
        | false =>
          cases rest with
          | nil => exact .last done sp active (not_any_future future) ending window
          | cons sp' rest => exact .interval done sp (sp' :: rest) active ending window

/-- Where ends fit, a look does not panic. -/
theorem exists_look (ops : VenOps F D) (now : DateTime) (v : Ven F) {event : VtnEvent F D}
    (fits : event.content.EndsFit ops) (answer : Bool) :
    ∃ w, v.pollEvent ops now (event, answer) = .ok w ∧
      Look ops now v event answer (v.attempt ops now event) (.ok w) := by
  have look := look_pollEvent ops now v event answer
  generalize v.attempt ops now event = attempted, v.pollEvent ops now (event, answer) = after
    at look ⊢
  cases look with
  | undecided _ _ panics =>
    have decided := fits.decide_isSome now (v.executed event)
    rw [panics] at decided
    cases decided
  | unnoted _ _ _ _ panics =>
    have window := fits.activeWindowEnd_isSome now
    rw [panics] at window
    cases window
  | done answer done => exact ⟨_, rfl, .done answer done⟩
  | finished answer open_ idle past => exact ⟨_, rfl, .finished answer open_ idle past⟩
  | waiting answer open_ idle => exact ⟨_, rfl, .waiting answer open_ idle⟩
  | failed open_ sp rest active => exact ⟨_, rfl, .failed open_ sp rest active⟩
  | interval open_ sp rest active ending window =>
    exact ⟨_, rfl, .interval open_ sp rest active ending window⟩
  | last open_ sp active past ending window =>
    exact ⟨_, rfl, .last open_ sp active past ending window⟩

/-! ## What the listener knows about an event -/

/-- The dispatches of this version of an event. -/
def targets (v : Ven F) (event : VtnEvent F D) : List (String × DateTime × Int) :=
  (v.dispatched.map Dispatch.target).filter fun t =>
    t.1 = event.id ∧ t.2.1 = event.modificationDateTime

theorem mem_targets {k : Int} :
    (event.id, event.modificationDateTime, k) ∈ v.targets event ↔ v.DispatchedOf event k := by
  rw [targets, List.mem_filter, DispatchedOf]
  simp

/-- The notes under the event's keys are those of its dispatches, and that of the event as a
whole is there only when no interval is left, at a time that has passed. -/
structure Follows (ops : VenOps F D) (event : VtnEvent F D) (passed : DateTime) (v : Ven F) :
    Prop where
  loaded : v.seenLoaded = true
  backed : ∀ key ts, v.seen.lookup key = some ts → Text.splitFirst '#' key = event.id →
    event.modificationDateTime ≤ ts →
      key = event.id ∨ ∃ k, v.DispatchedOf event k ∧ key = intervalKey event.id k
  noted : ∀ k, v.DispatchedOf event k → v.Done event ∨
    ∃ ts, v.seen.lookup (intervalKey event.id k) = some ts ∧ event.modificationDateTime ≤ ts
  whole : v.Done event → ∀ sp ∈ findSetpoints event.content,
    v.DispatchedOf event sp.intervalId ∨ sp.phase ops event.content passed = some .ended
  once : (v.targets event).Nodup

/-- The state looks the same from the event's keys. -/
structure Agree (event : VtnEvent F D) (v w : Ven F) : Prop where
  loaded : w.seenLoaded = v.seenLoaded
  seen : ∀ key, Text.splitFirst '#' key = event.id → w.seen.lookup key = v.seen.lookup key
  targets : w.targets event = v.targets event

variable {passed : DateTime} {w : Ven F}

theorem Agree.trans {u : Ven F} (first : Agree event v w) (second : Agree event w u) :
    Agree event v u where
  loaded := second.loaded.trans first.loaded
  seen := fun key base => (second.seen key base).trans (first.seen key base)
  targets := second.targets.trans first.targets

theorem Agree.dispatchedOf (agree : Agree event v w) (k : Int) :
    w.DispatchedOf event k ↔ v.DispatchedOf event k := by
  rw [← mem_targets, ← mem_targets, agree.targets]

theorem Agree.done (agree : Agree event v w) (plain : '#' ∉ event.id.toList) :
    w.Done event ↔ v.Done event := by
  unfold Done
  rw [agree.seen event.id (Text.splitFirst_of_not_mem plain)]

theorem Follows.of_agree (plain : '#' ∉ event.id.toList) (follows : Follows ops event passed v)
    (agree : Agree event v w) : Follows ops event passed w where
  loaded := agree.loaded.trans follows.loaded
  backed := by
    intro key ts found base recent
    rw [agree.seen key base] at found
    obtain own | ⟨k, dispatched, same⟩ := follows.backed key ts found base recent
    · exact .inl own
    · exact .inr ⟨k, (agree.dispatchedOf k).mpr dispatched, same⟩
  noted := by
    intro k dispatched
    rw [agree.done plain, agree.seen _ (splitFirst_key (k := k) plain (.inr rfl))]
    exact follows.noted k ((agree.dispatchedOf k).mp dispatched)
  whole := by
    intro done sp mem
    rw [agree.dispatchedOf]
    exact follows.whole ((agree.done plain).mp done) sp mem
  once := by
    rw [agree.targets]
    exact follows.once

/-- What has ended stays so. -/
theorem phase_ended_mono {content : EventRequest F D} {sp : Setpoint F D} {later : DateTime}
    (forward : now ≤ later) (ended : sp.phase ops content now = some .ended) :
    sp.phase ops content later = some .ended := by
  unfold Setpoint.phase at ended ⊢
  cases period : sp.period.or content.intervalPeriod with
  | none => rw [period] at ended; cases ended
  | some p =>
    rw [period] at ended
    simp only at ended ⊢
    split at ended
    · next started =>
      rw [if_pos (DateTime.le_trans' started forward)]
      cases duration : p.duration.or content.duration with
      | none => rw [duration] at ended; cases ended
      | some d =>
        rw [duration] at ended
        obtain ⟨ending, here, past⟩ := Option.map_eq_some_iff.mp ended
        simp only [here, Option.map_some]
        split at past
        · next before => rw [if_pos (DateTime.le_trans' before forward)]
        · cases past
    · cases ended

theorem Follows.later (follows : Follows ops event passed v) {later : DateTime}
    (forward : passed ≤ later) : Follows ops event later v :=
  { follows with
    whole := fun done sp mem =>
      (follows.whole done sp mem).imp_right (phase_ended_mono forward) }

/-- The notes say exactly which intervals were dispatched, as long as the event is not done. -/
theorem Follows.mem_executed (plain : '#' ∉ event.id.toList) (follows : Follows ops event passed v)
    (open_ : ¬ v.Done event) {sp : Setpoint F D} (mem : sp ∈ findSetpoints event.content) :
    sp.intervalId ∈ v.executed event ↔ v.DispatchedOf event sp.intervalId := by
  obtain ⟨low, high⟩ := intervalId_bounds mem
  constructor
  · intro listed
    obtain ⟨⟨key, ts⟩, entry, parsed⟩ := List.mem_filterMap.mp listed
    obtain ⟨suffix, stripped, parsed⟩ := Option.bind_eq_some_iff.mp parsed
    split at parsed
    · next recent =>
      have whole : key = event.id ++ "#" ++ suffix := Text.eq_of_stripPrefixOpt stripped
      have base : Text.splitFirst '#' key = event.id := by
        rw [whole]
        exact Text.splitFirst_append plain suffix
      have found : v.seen.lookup key = some ts := AList.mem_lookup_iff.mpr entry
      obtain own | ⟨k, dispatched, same⟩ := follows.backed key ts found base recent
      · rw [own] at found
        exact absurd ⟨ts, found, recent⟩ open_
      · rw [whole, intervalKey] at same
        have suffix_ := String.append_right_inj _ |>.mp same
        rw [suffix_] at parsed
        rw [Text.eq_of_parseI32_toString parsed]
        exact dispatched
    · cases parsed
  · intro dispatched
    obtain done | ⟨ts, found, recent⟩ := follows.noted sp.intervalId dispatched
    · exact absurd done open_
    · exact mem_executedIntervals low high found recent

/-! ## A look at the event -/

section Own

variable (plain : '#' ∉ event.id.toList)

include plain

/-- What the listener takes for open and not dispatched is what is. -/
theorem Follows.activeUnexecuted_eq (follows : Follows ops event now v) (open_ : ¬ v.Done event) :
    activeUnexecuted ops event.content now (v.executed event) =
      (findSetpoints event.content).filter fun sp =>
        sp.phase ops event.content now = some .active ∧ ¬ v.DispatchedOf event sp.intervalId := by
  refine List.filter_congr fun sp mem => ?_
  simp only [follows.mem_executed plain open_ mem]

/-- The attempt goes for the first interval that is open and was not dispatched. -/
theorem Follows.attempt_eq (follows : Follows ops event now v) (fits : event.content.EndsFit ops) :
    v.attempt ops now event = (v.firstOpen ops now event).map (dispatchOf ops event) := by
  obtain ⟨after, -, look⟩ := exists_look ops now v fits false
  have first (open_ : ¬ v.Done event) : v.firstOpen ops now event =
      (activeUnexecuted ops event.content now (v.executed event)).head? := by
    rw [follows.activeUnexecuted_eq plain open_, firstOpen, ← List.head?_filter]
    congr 1
    refine List.filter_congr fun sp mem => ?_
    simp only [phase_active_iff (fits.phase_ne_none now mem)]
  generalize v.attempt ops now event = attempted at look ⊢
  cases look with
  | done _ done =>
    have none_ : v.firstOpen ops now event = none := by
      refine List.find?_eq_none.mpr fun sp mem found => ?_
      simp only [decide_eq_true_eq] at found
      obtain dispatched | ended := follows.whole done sp mem
      · exact found.2 dispatched
      · have active := (phase_active_iff (fits.phase_ne_none now mem)).mpr found.1
        rw [ended] at active
        cases active
    rw [none_]
    rfl
  | finished _ open_ idle => rw [first open_, idle]; rfl
  | waiting _ open_ idle => rw [first open_, idle]; rfl
  | failed open_ sp rest active => rw [first open_, active]; rfl

/-- Where nothing is active that was not dispatched and nothing is to come, all is done. -/
theorem Follows.all_done (follows : Follows ops event now v) (fits : event.content.EndsFit ops)
    (open_ : ¬ v.Done event)
    (idle : activeUnexecuted ops event.content now (v.executed event) = [])
    (past : ∀ sp ∈ findSetpoints event.content, sp.phase ops event.content now ≠ some .future)
    {sp : Setpoint F D} (mem : sp ∈ findSetpoints event.content) :
    v.DispatchedOf event sp.intervalId ∨ sp.phase ops event.content now = some .ended := by
  obtain ⟨phase, is⟩ := Option.ne_none_iff_exists'.mp (fits.phase_ne_none now mem)
  cases phase with
  | future => exact absurd is (past sp mem)
  | ended => exact .inr is
  | active =>
    left
    by_contra undispatched
    rw [follows.activeUnexecuted_eq plain open_, List.filter_eq_nil_iff] at idle
    exact idle sp mem (decide_eq_true ⟨is, undispatched⟩)

omit plain in
theorem dispatchedOf_afterDispatch (ops : VenOps F D) (ending : DateTime) {sp : Setpoint F D}
    {k : Int} :
    (v.afterDispatch ops event sp ending).DispatchedOf event k ↔
      k = sp.intervalId ∨ v.DispatchedOf event k := by
  simp [DispatchedOf, afterDispatch, track, dispatch, dispatchOf, Dispatch.target]

omit plain in
theorem targets_afterDispatch (ops : VenOps F D) (ending : DateTime) (sp : Setpoint F D) :
    (v.afterDispatch ops event sp ending).targets event =
      (event.id, event.modificationDateTime, sp.intervalId) :: v.targets event := by
  simp [targets, afterDispatch, track, dispatch, dispatchOf, Dispatch.target]

/-- The first of the active intervals was not dispatched before. -/
theorem Follows.first_new (follows : Follows ops event now v) (open_ : ¬ v.Done event)
    {sp : Setpoint F D} {rest : List (Setpoint F D)}
    (active : activeUnexecuted ops event.content now (v.executed event) = sp :: rest) :
    ¬ v.DispatchedOf event sp.intervalId := by
  rw [follows.activeUnexecuted_eq plain open_] at active
  have mem : sp ∈ (findSetpoints event.content).filter fun sp =>
      sp.phase ops event.content now = some .active ∧ ¬ v.DispatchedOf event sp.intervalId := by
    rw [active]
    exact List.mem_cons_self
  have found := (List.mem_filter.mp mem).2
  simp only [decide_eq_true_eq] at found
  exact found.2

theorem Follows.finished (follows : Follows ops event now v) (fits : event.content.EndsFit ops)
    (open_ : ¬ v.Done event)
    (idle : activeUnexecuted ops event.content now (v.executed event) = [])
    (past : ∀ sp ∈ findSetpoints event.content, sp.phase ops event.content now ≠ some .future) :
    Follows ops event now (v.markSeen event.id event.modificationDateTime) where
  loaded := follows.loaded
  backed := by
    intro key ts found base recent
    simp only [markSeen, Hash.lookup_set] at found
    split at found
    · next own => exact .inl own
    · exact follows.backed key ts found base recent
  noted := fun k _ => .inl ⟨_, AList.lookup_insert _, .inr ⟨rfl, Nat.le_refl _⟩⟩
  whole := fun _ sp mem => follows.all_done plain fits open_ idle past mem
  once := follows.once

/-- A dispatch with its note, under the interval's key or, when nothing is left, the event's. -/
theorem Follows.dispatched (follows : Follows ops event now v) (open_ : ¬ v.Done event)
    {sp : Setpoint F D} {rest : List (Setpoint F D)}
    (active : activeUnexecuted ops event.content now (v.executed event) = sp :: rest)
    (ending : DateTime) : Follows ops event now ((v.afterDispatch ops event sp ending).markSeen
      (intervalKey event.id sp.intervalId) event.modificationDateTime) where
  loaded := follows.loaded
  backed := by
    intro key ts found base recent
    simp only [markSeen, Hash.lookup_set] at found
    split at found
    · next note => exact .inr ⟨sp.intervalId, (dispatchedOf_afterDispatch ops ending).mpr (.inl rfl), note⟩
    · obtain own | ⟨k, dispatched, same⟩ := follows.backed key ts found base recent
      · exact .inl own
      · exact .inr ⟨k, (dispatchedOf_afterDispatch ops ending).mpr (.inr dispatched), same⟩
  noted := by
    intro k dispatched
    right
    simp only [markSeen, Hash.lookup_set]
    split
    · exact ⟨_, rfl, .inr ⟨rfl, Nat.le_refl _⟩⟩
    · next other =>
      obtain rfl | before := (dispatchedOf_afterDispatch ops ending).mp dispatched
      · exact absurd rfl other
      · exact (follows.noted k before).resolve_left open_
  whole := by
    rintro ⟨ts, found, recent⟩
    have other : event.id ≠ intervalKey event.id sp.intervalId := by
      intro same
      have marked : '#' ∈ (intervalKey event.id sp.intervalId).toList := by
        simp [intervalKey]
      rw [← same] at marked
      exact plain marked
    simp only [markSeen, Hash.lookup_set, if_neg other] at found
    exact absurd ⟨ts, found, recent⟩ open_
  once := by
    change ((v.afterDispatch ops event sp ending).targets event).Nodup
    rw [targets_afterDispatch, List.nodup_cons, mem_targets]
    exact ⟨follows.first_new plain open_ active, follows.once⟩

theorem Follows.last (follows : Follows ops event now v) (fits : event.content.EndsFit ops)
    (open_ : ¬ v.Done event) {sp : Setpoint F D}
    (active : activeUnexecuted ops event.content now (v.executed event) = [sp])
    (past : ∀ sp ∈ findSetpoints event.content, sp.phase ops event.content now ≠ some .future)
    (ending : DateTime) : Follows ops event now ((v.afterDispatch ops event sp ending).markSeen event.id
      event.modificationDateTime) where
  loaded := follows.loaded
  backed := by
    intro key ts found base recent
    simp only [markSeen, Hash.lookup_set] at found
    split at found
    · next own => exact .inl own
    · obtain own | ⟨k, dispatched, same⟩ := follows.backed key ts found base recent
      · exact .inl own
      · exact .inr ⟨k, (dispatchedOf_afterDispatch ops ending).mpr (.inr dispatched), same⟩
  noted := fun k _ => .inl ⟨_, AList.lookup_insert _, .inr ⟨rfl, Nat.le_refl _⟩⟩
  whole := by
    intro _ sp' mem
    change (v.afterDispatch ops event sp ending).DispatchedOf event sp'.intervalId ∨ _
    rw [dispatchedOf_afterDispatch]
    obtain ⟨phase, is⟩ := Option.ne_none_iff_exists'.mp (fits.phase_ne_none now mem)
    cases phase with
    | future => exact absurd is (past sp' mem)
    | ended => exact .inr is
    | active =>
      left
      by_cases before : v.DispatchedOf event sp'.intervalId
      · exact .inr before
      · have left_ : sp' ∈ activeUnexecuted ops event.content now (v.executed event) := by
          rw [follows.activeUnexecuted_eq plain open_]
          exact List.mem_filter.mpr ⟨mem, decide_eq_true ⟨is, before⟩⟩
        rw [active, List.mem_singleton] at left_
        exact .inl (congrArg Setpoint.intervalId left_)
  once := by
    change ((v.afterDispatch ops event sp ending).targets event).Nodup
    rw [targets_afterDispatch, List.nodup_cons, mem_targets]
    exact ⟨follows.first_new plain open_ active, follows.once⟩

/-- A look at the event keeps track of it. -/
theorem Follows.look {answer : Bool} {attempted : Option (Dispatch F)}
    (follows : Follows ops event now v) (fits : event.content.EndsFit ops)
    (look : Look ops now v event answer attempted (.ok w)) : Follows ops event now w := by
  cases look with
  | done => exact follows
  | finished _ open_ idle past => exact follows.finished plain fits open_ idle past
  | waiting => exact follows
  | failed => exact follows
  | interval open_ sp rest active ending => exact follows.dispatched plain open_ active ending
  | last open_ sp active past ending => exact follows.last plain fits open_ active past ending

end Own

/-! ## The rest of a poll -/

/-- A look at another event leaves the event's keys alone. -/
theorem agree_other {other : VtnEvent F D} (plain : '#' ∉ other.id.toList)
    (differs : other.id ≠ event.id) {answer : Bool} {attempted : Option (Dispatch F)}
    (look : Look ops now v other answer attempted (.ok w)) : Agree event v w := by
  have kept (u : Ven F) {key : String} (modified : DateTime)
      (base : Text.splitFirst '#' key = other.id) : Agree event u (u.markSeen key modified) := by
    refine ⟨rfl, fun key' base' => ?_, rfl⟩
    simp only [markSeen, Hash.lookup_set]
    rw [if_neg]
    rintro rfl
    exact differs (base.symm.trans base')
  have recorded (sp : Setpoint F D) (ending : DateTime) :
      Agree event v (v.afterDispatch ops other sp ending) := by
    refine ⟨rfl, fun _ _ => rfl, ?_⟩
    simp [targets, afterDispatch, track, dispatch, dispatchOf, Dispatch.target, differs]
  cases look with
  | done => exact ⟨rfl, fun _ _ => rfl, rfl⟩
  | finished => exact kept v _ (splitFirst_key (k := 0) plain (.inl rfl))
  | waiting => exact ⟨rfl, fun _ _ => rfl, rfl⟩
  | failed => exact ⟨rfl, fun _ _ => rfl, rfl⟩
  | interval _ sp _ _ ending =>
    exact (recorded sp ending).trans (kept _ _ (splitFirst_key plain (.inr rfl)))
  | last _ sp _ _ ending =>
    exact (recorded sp ending).trans (kept _ _ (splitFirst_key (k := 0) plain (.inl rfl)))

variable (now v) in
/-- Looks at others go through where their ends fit, and leave the event's keys alone. -/
theorem agree_others {others : List (VtnEvent F D × Bool)}
    (plain : ∀ listed ∈ others, '#' ∉ listed.1.id.toList)
    (differ : ∀ listed ∈ others, listed.1.id ≠ event.id)
    (fits : ∀ listed ∈ others, listed.1.content.EndsFit ops) :
    ∃ w, others.foldlM (pollEvent ops now) v = .ok w ∧ Agree event v w := by
  refine Stopping.exists_foldlM_ok (P := Agree event v) ?_ ⟨rfl, fun _ _ => rfl, rfl⟩
  intro u listed mem agree
  obtain ⟨w, looked, look⟩ := exists_look ops now u (fits listed mem) listed.2
  exact ⟨w, looked, agree.trans (agree_other (plain listed mem) (differ listed mem) look)⟩

/-- Watching for cancellations does not touch the notes, and pruning spares what is listed. -/
theorem agree_cleanup {present : List String} (listed : event.id ∈ present) :
    Agree event v (v.cleanUp now present) := by
  refine ⟨rfl, fun key base => ?_, rfl⟩
  simp only [cleanUp, prune, Hash.lookup_delAll]
  rw [if_neg]
  · rfl
  · intro stale
    obtain ⟨ts, found⟩ := Option.isSome_iff_exists.mp
      (AList.lookup_isSome.mpr (AList.mem_keys.mpr stale))
    have gone := (Hash.lookup_filter.mp found).2
    simp only [decide_eq_true_eq] at gone
    rw [base] at gone
    exact gone.1 listed

/-! ## Polls that list the event -/

/-- A poll that fails, or one that lists the event, once, between others. The adapter's answer is
for the event, should it be asked. -/
inductive Watched (F D : Type) where
  | missed (now : DateTime)
  | listed (now : DateTime) (before : List (VtnEvent F D × Bool)) (answer : Bool)
      (after : List (VtnEvent F D × Bool))

namespace Watched

def time : Watched F D → DateTime
  | missed now => now
  | listed now _ _ _ => now

def others : Watched F D → List (VtnEvent F D × Bool)
  | missed _ => []
  | listed _ before _ after => before ++ after

def listing (event : VtnEvent F D) : Watched F D → Option (List (VtnEvent F D × Bool))
  | missed _ => none
  | listed _ before answer after => some (before ++ (event, answer) :: after)

/-- The other events have other ids, identifiers have no `#`, and ends are in the calendar. -/
structure Fits (ops : VenOps F D) (event : VtnEvent F D) (poll : Watched F D) : Prop where
  plain : ∀ other ∈ poll.others, '#' ∉ other.1.id.toList
  differ : ∀ other ∈ poll.others, other.1.id ≠ event.id
  ends : ∀ other ∈ poll.others, other.1.content.EndsFit ops

end Watched

/-- The state after some polls. -/
def follow (ops : VenOps F D) (event : VtnEvent F D) (v : Ven F) (polls : List (Watched F D)) :
    Ven F :=
  polls.foldl (fun v poll => v.pollOnce ops poll.time (poll.listing event)) v

/-- In this state a poll looks at the event, behind these others. -/
def LooksIn (ops : VenOps F D) (v : Ven F) (now : DateTime) (before : List (VtnEvent F D × Bool))
    (w : Ven F) : Prop :=
  before.foldlM (pollEvent ops now) v.load = .ok w

/-- The loop over a listing, by what it does before, at and behind an event. -/
theorem foldlM_around {before after : List (VtnEvent F D × Bool)} {listed : VtnEvent F D × Bool}
    {u t : Ven F} (reached : v.LooksIn ops now before w)
    (polled : w.pollEvent ops now listed = .ok u)
    (through : after.foldlM (pollEvent ops now) u = .ok t) :
    (before ++ listed :: after).foldlM (pollEvent ops now) v.load = .ok t := by
  rw [List.foldlM_append, reached]
  change (listed :: after).foldlM (pollEvent ops now) w = .ok t
  rw [List.foldlM_cons, polled]
  exact through

/-- Nothing is known of this version yet, in memory or, before it was loaded, in Redis. -/
structure NewVersion (v : Ven F) (event : VtnEvent F D) : Prop where
  unnoted : ∀ key ts, v.seen.lookup key = some ts ∨
      v.seenLoaded = false ∧ v.redis.lookup key = some ts →
    Text.splitFirst '#' key = event.id → ¬ event.modificationDateTime ≤ ts
  undispatched : v.targets event = []

/-- Every setpoint interval was dispatched or has ended, if the event is marked as a whole. -/
def WholeMarked (ops : VenOps F D) (v : Ven F) (event : VtnEvent F D) (now : DateTime) : Prop :=
  v.Done event → ∀ sp ∈ findSetpoints event.content,
    v.DispatchedOf event sp.intervalId ∨ sp.phase ops event.content now = some .ended

/-- What a poll does about the event. -/
inductive Faithful (ops : VenOps F D) (event : VtnEvent F D) (v : Ven F) : Watched F D → Prop
  /-- Without a listing, nothing. -/
  | missed (now : DateTime)
      (nothing : (v.pollOnce ops now none).targets event = v.targets event)
      (whole : WholeMarked ops (v.pollOnce ops now none) event now) :
      Faithful ops event v (.missed now)
  /-- It attempts to dispatch the first interval that is open and was not dispatched, if there is
  one, and nothing else of this event; a dispatch that fails changes nothing. -/
  | listed (now : DateTime) (before : List (VtnEvent F D × Bool)) (answer : Bool)
      (after : List (VtnEvent F D × Bool)) (w t : Ven F) (look : v.LooksIn ops now before w)
      (polled : t = v.pollOnce ops now (some (before ++ (event, answer) :: after)))
      (undispatched : w.targets event = v.targets event)
      (first : w.attempt ops now event = (w.firstOpen ops now event).map (dispatchOf ops event))
      (failed : (w.attempt ops now event).isSome → answer = false →
        w.pollEvent ops now (event, answer) = .ok w)
      (succeeded : t.targets event =
        (if answer then (w.attempt ops now event).toList.map Dispatch.target else []) ++
          v.targets event)
      (whole : WholeMarked ops t event now) :
      Faithful ops event v (.listed now before answer after)

theorem load_of_loaded (loaded : v.seenLoaded = true) : v.load = v := by
  rw [load, if_pos loaded]

theorem targets_load (v : Ven F) (event : VtnEvent F D) :
    v.load.targets event = v.targets event := by
  unfold load
  split
  · rfl
  · rfl

theorem NewVersion.follows (new : v.NewVersion event) (plain : '#' ∉ event.id.toList)
    (ops : VenOps F D) (t : DateTime) : Follows ops event t v.load := by
  have unnoted (key : String) (ts : DateTime) (found : v.load.seen.lookup key = some ts)
      (base : Text.splitFirst '#' key = event.id) : ¬ event.modificationDateTime ≤ ts := by
    unfold load at found
    split at found
    · exact new.unnoted key ts (.inl found) base
    · next unloaded =>
      have unloaded := Bool.eq_false_of_not_eq_true unloaded
      obtain stored | ⟨_, held⟩ := AList.lookup_union_eq_some.mp found
      · exact new.unnoted key ts (.inr ⟨unloaded, (Hash.lookup_filter.mp stored).1⟩) base
      · exact new.unnoted key ts (.inl held) base
  have open_ : ¬ v.load.Done event := fun ⟨ts, found, recent⟩ =>
    unnoted event.id ts found (Text.splitFirst_of_not_mem plain) recent
  have undispatched (k : Int) : ¬ v.load.DispatchedOf event k := by
    rw [← mem_targets, targets_load, new.undispatched]
    exact List.not_mem_nil
  exact
    { loaded := by
        unfold load
        split
        · next loaded => exact loaded
        · rfl
      backed := fun key ts found base recent => absurd recent (unnoted key ts found base)
      noted := fun k dispatched => absurd dispatched (undispatched k)
      whole := fun done => absurd done open_
      once := by
        rw [targets_load, new.undispatched]
        exact .nil }

/-- What a look adds to the dispatches of the event. -/
theorem targets_look {answer : Bool} {attempted : Option (Dispatch F)}
    (look : Look ops now v event answer attempted (.ok w)) :
    w.targets event = (if answer then attempted.toList.map Dispatch.target else []) ++
      v.targets event := by
  cases look with
  | done => simp
  | finished => simp only [Option.toList_none, List.map_nil, ite_self, List.nil_append]; rfl
  | waiting => simp
  | failed => simp
  | interval _ sp _ _ ending => exact targets_afterDispatch ops ending sp
  | last _ sp _ _ ending => exact targets_afterDispatch ops ending sp

/-- One poll: what it does about the event, and that the listener keeps track of it. -/
theorem Follows.poll (plain : '#' ∉ event.id.toList) (ends : event.content.EndsFit ops)
    {poll : Watched F D} (follows : Follows ops event poll.time v.load)
    (fits : poll.Fits ops event) :
    Faithful ops event v poll ∧
      Follows ops event poll.time (v.pollOnce ops poll.time (poll.listing event)).load := by
  cases poll with
  | missed now =>
    have same : (v.pollOnce ops now none).load = v.load := load_of_loaded follows.loaded
    refine ⟨.missed now (targets_load v event) follows.whole, ?_⟩
    change Follows ops event now (v.pollOnce ops now none).load
    rw [same]
    exact follows
  | listed now before answer after =>
    have plainOf := fits.plain
    have differOf := fits.differ
    have endsOf := fits.ends
    simp only [Watched.others, List.mem_append] at plainOf differOf endsOf
    obtain ⟨w, reached, first⟩ := agree_others now v.load
      (fun l mem => plainOf l (.inl mem)) (fun l mem => differOf l (.inl mem))
      fun l mem => endsOf l (.inl mem)
    have here : Follows ops event now w := follows.of_agree plain first
    obtain ⟨u, polled, look⟩ := exists_look ops now w ends answer
    have looked := here.look plain ends look
    obtain ⟨t, through, behind⟩ := agree_others now u
      (fun l mem => plainOf l (.inr mem)) (fun l mem => differOf l (.inr mem))
      fun l mem => endsOf l (.inr mem)
    -- the poll as a whole: the events before, the event, and the events behind it
    have whole : v.pollOnce ops now (some (before ++ (event, answer) :: after)) =
        t.cleanUp now ((before ++ (event, answer) :: after).map fun l => l.1.id) := by
      have loop : (before ++ (event, answer) :: after).foldlM (pollEvent ops now) v.load =
          .ok t := foldlM_around reached polled through
      simp only [pollOnce, loop]
    have rest : Agree event u (v.pollOnce ops now (some (before ++ (event, answer) :: after))) := by
      rw [whole]
      exact behind.trans (agree_cleanup (by simp))
    have after_ := looked.of_agree plain rest
    have undispatched : w.targets event = v.targets event :=
      first.targets.trans (targets_load v event)
    refine ⟨.listed now before answer after w _ reached rfl undispatched
      (here.attempt_eq plain ends) ?_ ?_ after_.whole, ?_⟩
    · intro attempted failed
      subst failed
      rw [polled]
      generalize w.attempt ops now event = attempt at look attempted
      cases look with
      | failed => rfl
      | done => cases attempted
      | finished => cases attempted
      | waiting => cases attempted
    · rw [rest.targets, targets_look look, undispatched]
    · change Follows ops event now
        (v.pollOnce ops now (some (before ++ (event, answer) :: after))).load
      rw [load_of_loaded after_.loaded]
      exact after_

/-- Whatever polls there were, the listener has kept track of the event when the next one
comes. -/
theorem NewVersion.before (new : v.NewVersion event) (plain : '#' ∉ event.id.toList)
    (ends : event.content.EndsFit ops) {front back : List (Watched F D)} {poll : Watched F D}
    (fit : ∀ p ∈ front ++ poll :: back, p.Fits ops event)
    (ordered : ((front ++ poll :: back).map Watched.time).Pairwise (· ≤ ·)) :
    Follows ops event poll.time (v.follow ops event front).load := by
  induction front using List.reverseRecOn generalizing poll back with
  | nil => exact new.follows plain ops poll.time
  | append_singleton front last ih =>
    rw [List.append_assoc, List.singleton_append] at fit ordered
    have step := ((ih fit ordered).poll plain ends (fit last (by simp))).2
    have forward : last.time ≤ poll.time := by
      rw [List.map_append, List.pairwise_append, List.map_cons, List.map_cons,
        List.pairwise_cons] at ordered
      exact ordered.2.1.1 poll.time List.mem_cons_self
    rw [Ven.follow, List.foldl_append, List.foldl_cons, List.foldl_nil]
    exact step.later forward

/-- A schedule that stays listed is followed, as long as the ends of what is listed are in the
calendar. From a state in which this version of the event is new, at polls with nondecreasing times,
some of which may fail, each poll that lists it attempts exactly the dispatch of the first interval
that is open and was not dispatched yet, with its own setpoint and direction; a dispatch that fails
changes nothing; no interval is dispatched twice; and the event as a whole is marked only when every
interval was dispatched or has ended. -/
theorem schedule_followed_faithfully (ops : VenOps F D) {event : VtnEvent F D} {start : Ven F}
    (plain : '#' ∉ event.id.toList) (ends : event.content.EndsFit ops)
    (new : start.NewVersion event) {polls : List (Watched F D)}
    (fit : ∀ poll ∈ polls, poll.Fits ops event)
    (ordered : (polls.map Watched.time).Pairwise (· ≤ ·)) :
    (∀ front poll back, polls = front ++ poll :: back →
      Faithful ops event (start.follow ops event front) poll) ∧
    ((start.follow ops event polls).targets event).Nodup := by
  constructor
  · rintro front poll back rfl
    exact ((new.before plain ends fit ordered).poll plain ends (fit poll (by simp))).1
  · obtain rfl | ⟨front, last, rfl⟩ := List.eq_nil_or_concat polls
    · change (start.targets event).Nodup
      rw [new.undispatched]
      exact .nil
    · rw [List.concat_eq_append] at fit ordered ⊢
      have step := ((new.before plain ends fit ordered).poll plain ends (fit last (by simp))).2.once
      rw [targets_load] at step
      rw [Ven.follow, List.foldl_append]
      exact step

/-! ## A day -/

/-- From second zero on for an hour up, and from the second hour on down. -/
private def upThenDown : VtnEvent ℚ Int :=
  ⟨"ev-2", DateTime.ofSecs 0,
    ⟨some
      [smallInterval 0 (some ⟨DateTime.ofSecs 0, some 3600⟩) [⟨.dispatchSetpoint, [.number 42]⟩],
        smallInterval 1 (some ⟨DateTime.ofSecs 7200, none⟩)
          [⟨.dispatchSetpointRelative, [.other, .number (-20)]⟩]],
      none, none⟩⟩

/-- A poll fails, one dispatches, one finds nothing to do, one is refused, one dispatches. -/
private def fivePolls : List (Watched ℚ Int) :=
  [.missed (DateTime.ofSecs 30), .listed (DateTime.ofSecs 60) [] true [],
    .listed (DateTime.ofSecs 3600) [] true [], .listed (DateTime.ofSecs 7200) [] false [],
    .listed (DateTime.ofSecs 7230) [] true []]

theorem five_polls_faithful :
    (init.follow secondsOps upThenDown fivePolls).dispatched =
        [⟨"ev-2", DateTime.ofSecs 0, 1, .flexDown, 20⟩, ⟨"ev-2", DateTime.ofSecs 0, 0, .flexUp, 42⟩] ∧
      ((init.follow secondsOps upThenDown fivePolls).targets upThenDown).Nodup ∧
      Faithful secondsOps upThenDown (init.follow secondsOps upThenDown (fivePolls.take 3))
        (.listed (DateTime.ofSecs 7200) [] false []) := by
  have new : (init : Ven ℚ).NewVersion upThenDown := by
    refine ⟨fun key ts found => ?_, rfl⟩
    obtain found | ⟨_, found⟩ := found
    · cases found
    · cases found
  have fit : ∀ poll ∈ fivePolls, poll.Fits secondsOps upThenDown := by
    intro poll mem
    have alone : poll.others = [] := by
      simp only [fivePolls, List.mem_cons, List.not_mem_nil, or_false] at mem
      rcases mem with rfl | rfl | rfl | rfl | rfl <;> rfl
    refine ⟨?_, ?_, ?_⟩ <;> rw [alone] <;> exact fun _ mem => absurd mem List.not_mem_nil
  obtain ⟨each, once⟩ := schedule_followed_faithfully secondsOps (by decide) (by decide +kernel) new
    fit (by decide)
  exact ⟨by decide +kernel, once, each _ _ [.listed (DateTime.ofSecs 7230) [] true []] rfl⟩

/-- From second zero on for a hundred million days. -/
private def boundless : VtnEvent ℚ Int :=
  ⟨"ev-2", DateTime.ofSecs 0,
    ⟨some [smallInterval 0 (some ⟨DateTime.ofSecs 0, some 8640000000000⟩)
      [⟨.dispatchSetpoint, [.number 42]⟩]], none, none⟩⟩

/-- An open interval that ends outside of the calendar is not attempted. -/
theorem boundless_interval_not_attempted :
    ¬ ∀ (event : VtnEvent ℚ Int) (start : Ven ℚ) (polls : List (Watched ℚ Int)),
      '#' ∉ event.id.toList → start.NewVersion event → (∀ poll ∈ polls, poll.others = []) →
      (polls.map Watched.time).Pairwise (· ≤ ·) →
      ∀ front poll back, polls = front ++ poll :: back →
        Faithful secondsOps event (start.follow secondsOps event front) poll := by
  intro law
  have new : (init : Ven ℚ).NewVersion boundless := by
    refine ⟨fun key ts found => ?_, rfl⟩
    obtain found | ⟨_, found⟩ := found
    · cases found
    · cases found
  have faithful := law boundless init [.listed (DateTime.ofSecs 60) [] true []] (by decide) new
    (List.forall_mem_singleton.mpr rfl) (List.pairwise_singleton _ _) [] _ [] rfl
  cases faithful with
  | listed _ _ _ _ w t look _ _ first =>
    cases look
    revert first
    decide +kernel

end Ven

end AggregatorBridge
