import AggregatorBridge.Laws.VenSchedule

/-!
# A cancelled event is noticed

When an interval is dispatched, the end of the event's active window is put into
`executed_active`, and a poll that no longer lists the event before that end warns of the
cancellation. The window is computed from the same schedule as the decision, but by another
function, so `decide_within_window` compares the two: the window is not over and reaches to the
end of the interval that is executed.

An interval that never ends is watched for a day. `Setpoint.watchEnd` is the end in that sense,
and `vanished_raises_once` is that an event which vanishes before it raises one warning, at the
poll that does not list it, and none at any later poll until it is dispatched again. The clock must
not go back: a poll that lists the event after its window is over stops the watch.

All of this is for ends in chrono's calendar: a window whose end is not aborts the process, and the
watch of every event with it.
-/

namespace AggregatorBridge

open Remote

variable {F D : Type}

/-! ## The active window -/

namespace DateTime

theorem le_refl' (t : DateTime) : t ≤ t :=
  .inr ⟨rfl, Nat.le_refl _⟩

theorem not_addSecs_le (t : DateTime) {n : Int} (positive : 0 < n) : ¬ t.addSecs n ≤ t := by
  have later : (t.addSecs n).secs = t.secs + n := by
    unfold addSecs
    simp only [if_pos positive]
    split
    · rfl
    · rfl
  rintro (before | ⟨same, _⟩)
  · omega
  · omega

/-- Outside of leap seconds, adding keeps the order. -/
theorem addSecs_mono {s t : DateTime} (n : Int) (before : s ≤ t) (clockS : s.nanos < 1000000000)
    (clockT : t.nanos < 1000000000) : s.addSecs n ≤ t.addSecs n := by
  rw [addSecs, dif_neg (by omega), addSecs, dif_neg (by omega)]
  obtain earlier | ⟨same, within⟩ := before
  · exact .inl (by simp only; omega)
  · exact .inr ⟨by simp only; omega, within⟩

theorem le_foldl_latest (first : DateTime) (rest : List DateTime) :
    ∀ t ∈ first :: rest,
      t ≤ rest.foldl (fun latest e => if latest ≤ e then e else latest) first := by
  induction rest generalizing first with
  | nil =>
    intro t mem
    rw [List.mem_singleton] at mem
    rw [mem]
    exact le_refl' _
  | cons e rest ih =>
    have next : first ≤ (if first ≤ e then e else first) ∧
        e ≤ (if first ≤ e then e else first) := by
      split
      · next later => exact ⟨later, le_refl' e⟩
      · next earlier => exact ⟨le_refl' first, le_of_not_le earlier⟩
    intro t mem
    rw [List.foldl_cons]
    obtain rfl | mem := List.mem_cons.mp mem
    · exact le_trans' next.1 (ih _ _ List.mem_cons_self)
    · obtain rfl | mem := List.mem_cons.mp mem
      · exact le_trans' next.2 (ih _ _ List.mem_cons_self)
      · exact ih _ t (List.mem_cons_of_mem _ mem)

theorem le_latest {fallback t : DateTime} {ts : List DateTime} (mem : t ∈ ts) :
    t ≤ latest fallback ts := by
  cases ts with
  | nil => exact absurd mem List.not_mem_nil
  | cons e es => exact le_foldl_latest e es t mem

end DateTime

variable {ops : VenOps F D} {now : DateTime} {content : EventRequest F D} {sp : Setpoint F D}
  {ending window : DateTime}

/-- An interval without an end is watched for a day. -/
theorem watchEnd_of_endless (endless : sp.span content = none) :
    sp.watchEnd ops content now = some (now.addSecs (24 * 3600)) := by
  unfold Setpoint.span at endless
  unfold Setpoint.watchEnd
  generalize sp.period.or content.intervalPeriod = period at endless ⊢
  cases period with
  | none => rfl
  | some p =>
    simp only [Option.bind_some, Option.map_eq_none_iff] at endless
    simp only [endless]

/-- One with an end is watched until then, whenever it was dispatched. -/
theorem watchEnd_of_span {span : DateTime × D} (has : sp.span content = some span) :
    sp.watchEnd ops content now = ops.ending span.2 span.1 := by
  unfold Setpoint.span at has
  unfold Setpoint.watchEnd
  generalize sp.period.or content.intervalPeriod = period at has ⊢
  cases period with
  | none => cases has
  | some p =>
    obtain ⟨d, duration, rfl⟩ := Option.map_eq_some_iff.mp has
    simp only [duration]

/-- The window reaches to the end of every setpoint interval. -/
theorem watchEnd_le_activeWindowEnd (mem : sp ∈ findSetpoints content)
    (watch : sp.watchEnd ops content now = some ending)
    (is : activeWindowEnd ops content now = some window) : ending ≤ window := by
  obtain ⟨ends, all, rfl⟩ := Option.map_eq_some_iff.mp is
  refine DateTime.le_latest ?_
  clear is
  generalize findSetpoints content = setpoints at mem all
  induction setpoints generalizing ends with
  | nil => exact absurd mem List.not_mem_nil
  | cons sp' setpoints ih =>
    rw [List.mapM_cons] at all
    obtain ⟨e, first, all⟩ := Option.bind_eq_some_iff.mp all
    obtain ⟨es, rest, all⟩ := Option.bind_eq_some_iff.mp all
    cases all
    rcases List.mem_cons.mp mem with rfl | mem
    · cases watch.symm.trans first
      exact List.mem_cons_self
    · exact List.mem_cons_of_mem _ (ih es mem rest)

/-- What is active is not over. -/
theorem not_watchEnd_le (active : sp.phase ops content now = some .active)
    (watch : sp.watchEnd ops content now = some ending) : ¬ ending ≤ now := by
  have open_ : sp.Open ops content now :=
    (phase_active_iff (by rw [active]; exact Option.some_ne_none _)).mp active
  cases span : sp.span content with
  | none =>
    rw [watchEnd_of_endless span] at watch
    cases watch
    exact now.not_addSecs_le (by decide)
  | some span_ =>
    rw [watchEnd_of_span span] at watch
    exact open_.2 span_ span ending watch

/-- When an interval is executed and ends fit, the event's window is not over, and not before the
interval is. -/
theorem decide_within_window (fits : content.EndsFit ops) {executed : List Int} {x : F} {k : Int}
    {morePending relative : Bool}
    (decided : content.decide ops now executed = some (.execute x k morePending relative)) :
    ∃ sp ∈ findSetpoints content, sp.intervalId = k ∧ sp.valueKw = x ∧
      sp.phase ops content now = some .active ∧
      ∃ ending window, sp.watchEnd ops content now = some ending ∧
        activeWindowEnd ops content now = some window ∧ ¬ window ≤ now ∧ ending ≤ window := by
  have decides : content.decide ops now executed ≠ none := by
    rw [decided]
    exact Option.some_ne_none _
  cases active : activeUnexecuted ops content now executed with
  | nil =>
    rw [Ven.decide_idle decides active] at decided
    split at decided
    · cases decided
    · split at decided
      · cases decided
      · cases decided
  | cons sp rest =>
    rw [Ven.decide_execute decides active] at decided
    cases decided
    have listed : sp ∈ activeUnexecuted ops content now executed := by
      rw [active]
      exact List.mem_cons_self
    obtain ⟨mem, isOpen⟩ := List.mem_filter.mp listed
    simp only [decide_eq_true_eq] at isOpen
    obtain ⟨ending, watch⟩ := Option.isSome_iff_exists.mp (fits.watchEnd_isSome now mem)
    obtain ⟨window, is⟩ := Option.isSome_iff_exists.mp (fits.activeWindowEnd_isSome now)
    have within := watchEnd_le_activeWindowEnd mem watch is
    refine ⟨sp, mem, rfl, rfl, isOpen.1, ending, window, watch, is, fun past => ?_, within⟩
    exact not_watchEnd_le isOpen.1 watch (DateTime.le_trans' within past)

/-! ## The watch -/

namespace Ven

variable {event : VtnEvent F D} {v w : Ven F}

/-- The event is watched at least until then. -/
def WatchedUntil (v : Ven F) (event : VtnEvent F D) (ending : DateTime) : Prop :=
  ∃ e, v.executedActive.lookup event.id = some e ∧ ending ≤ e

/-- A successful dispatch sets the end of the watch, and nothing else does; looking at events raises
no warning. -/
theorem executedActive_look {answer : Bool} {attempted : Option (Dispatch F)}
    (look : Look ops now v event answer attempted (.ok w)) :
    w.cancelled = v.cancelled ∧
      ((∃ window, activeWindowEnd ops event.content now = some window ∧
          w.executedActive = v.executedActive.insert event.id window) ∨
        ¬ (answer = true ∧ attempted.isSome) ∧ w.executedActive = v.executedActive) := by
  cases look with
  | done => exact ⟨rfl, .inr ⟨by simp, rfl⟩⟩
  | finished => exact ⟨rfl, .inr ⟨by simp, rfl⟩⟩
  | waiting => exact ⟨rfl, .inr ⟨by simp, rfl⟩⟩
  | failed => exact ⟨rfl, .inr ⟨by simp, rfl⟩⟩
  | interval _ _ _ _ window is => exact ⟨rfl, .inl ⟨window, is, rfl⟩⟩
  | last _ _ _ _ window is => exact ⟨rfl, .inl ⟨window, is, rfl⟩⟩

/-- Other events have watches of their own. -/
theorem watch_others (now : DateTime) (v : Ven F) {others : List (VtnEvent F D × Bool)}
    (differ : ∀ listed ∈ others, listed.1.id ≠ event.id)
    (fits : ∀ listed ∈ others, listed.1.content.EndsFit ops) :
    ∃ w, others.foldlM (pollEvent ops now) v = .ok w ∧
      w.executedActive.lookup event.id = v.executedActive.lookup event.id ∧
      w.cancelled = v.cancelled := by
  refine Stopping.exists_foldlM_ok (P := fun w : Ven F =>
    w.executedActive.lookup event.id = v.executedActive.lookup event.id ∧
      w.cancelled = v.cancelled) ?_ ⟨rfl, rfl⟩
  rintro u listed mem ⟨watched, cancelled⟩
  obtain ⟨w, looked, look⟩ := exists_look ops now u (fits listed mem) listed.2
  obtain ⟨same, ⟨window, -, set⟩ | ⟨-, kept⟩⟩ := executedActive_look look
  · refine ⟨w, looked, ?_, same.trans cancelled⟩
    rw [set, Hash.lookup_set, if_neg (Ne.symm (differ listed mem)), watched]
  · exact ⟨w, looked, kept ▸ watched, same.trans cancelled⟩

/-- An event that is listed before the end of its watch stays watched, and is not taken for
cancelled. -/
theorem watch_listed {present : List String} (listed : event.id ∈ present) {ending : DateTime}
    (watched : v.WatchedUntil event ending) (before : ¬ ending ≤ now) :
    (v.cleanUp now present).WatchedUntil event ending ∧
      (v.cleanUp now present).cancelled.count event.id = v.cancelled.count event.id := by
  obtain ⟨e, found, reaches⟩ := watched
  have live : ¬ e ≤ now := fun past => before (DateTime.le_trans' reaches past)
  refine ⟨⟨e, Hash.lookup_filter.mpr ⟨found, decide_eq_true ⟨listed, live⟩⟩, reaches⟩, ?_⟩
  simp only [cleanUp, prune, watch, List.count_append]
  rw [List.count_eq_zero_of_not_mem, Nat.zero_add]
  intro mem
  obtain ⟨e', gone⟩ := Option.isSome_iff_exists.mp
    (AList.lookup_isSome.mpr (AList.mem_keys.mpr mem))
  have absent := of_decide_eq_true (Hash.lookup_filter.mp gone).2
  exact absent.1 listed

/-- One that is not listed before the end of its watch is taken for cancelled, once, and not watched
any more. -/
theorem watch_vanished {present : List String} (absent : event.id ∉ present) {ending : DateTime}
    (watched : v.WatchedUntil event ending) (before : ¬ ending ≤ now) :
    (v.cleanUp now present).cancelled.count event.id = v.cancelled.count event.id + 1 ∧
      (v.cleanUp now present).executedActive.lookup event.id = none := by
  obtain ⟨e, found, reaches⟩ := watched
  have live : ¬ e ≤ now := fun past => before (DateTime.le_trans' reaches past)
  have gone : (Hash.filter (fun id ending => decide (id ∉ present ∧ ¬ ending ≤ now))
      v.executedActive).lookup event.id = some e :=
    Hash.lookup_filter.mpr ⟨found, decide_eq_true ⟨absent, live⟩⟩
  have mem := AList.mem_keys.mp (AList.lookup_isSome.mp (by rw [gone]; rfl))
  simp only [cleanUp, prune, watch, List.count_append]
  refine ⟨by rw [List.count_eq_one_of_mem (AList.keys_nodup _) mem, Nat.add_comm], ?_⟩
  refine Option.eq_none_iff_forall_ne_some.mpr fun e found => ?_
  exact absent (of_decide_eq_true (Hash.lookup_filter.mp found).2).1

theorem watch_load (v : Ven F) :
    v.load.executedActive = v.executedActive ∧ v.load.cancelled = v.cancelled := by
  unfold load
  split
  · exact ⟨rfl, rfl⟩
  · exact ⟨rfl, rfl⟩

section Polls

variable (scheduled : sp ∈ findSetpoints event.content) (ends : event.content.EndsFit ops)

include scheduled ends

/-- A poll that lists the event keeps the watch it has, or begins one with a dispatch. -/
theorem watch_poll {before after : List (VtnEvent F D × Bool)} {answer : Bool} {looked : Ven F}
    (reached : v.LooksIn ops now before looked)
    (differ : ∀ other ∈ before ++ after, other.1.id ≠ event.id)
    (fits : ∀ other ∈ before ++ after, other.1.content.EndsFit ops)
    (watched : v.WatchedUntil event ending ∨
      answer = true ∧ (looked.attempt ops now event).isSome)
    (early : ¬ ending ≤ now)
    (reaches : ∀ e ∈ sp.watchEnd ops event.content now, ending ≤ e) :
    (v.pollOnce ops now (some (before ++ (event, answer) :: after))).WatchedUntil event ending ∧
      (v.pollOnce ops now (some (before ++ (event, answer) :: after))).cancelled.count event.id =
        v.cancelled.count event.id := by
  obtain ⟨loadedWatch, loadedWarnings⟩ := watch_load v
  obtain ⟨w, reached', firstWatch, firstWarnings⟩ := watch_others now v.load
    (fun l mem => differ l (List.mem_append_left _ mem)) fun l mem =>
      fits l (List.mem_append_left _ mem)
  cases reached.symm.trans reached'
  obtain ⟨u, polled, look⟩ := exists_look ops now looked ends answer
  obtain ⟨lookWarnings, setOrKept⟩ := executedActive_look look
  have here : u.WatchedUntil event ending := by
    obtain ⟨window, is, set⟩ | ⟨quiet, kept⟩ := setOrKept
    · obtain ⟨e, watch⟩ := Option.isSome_iff_exists.mp (ends.watchEnd_isSome now scheduled)
      refine ⟨window, by rw [set, Hash.lookup_set, if_pos rfl], ?_⟩
      exact DateTime.le_trans' (reaches e watch) (watchEnd_le_activeWindowEnd scheduled watch is)
    · obtain ⟨e, found, until_⟩ := watched.resolve_right quiet
      refine ⟨e, ?_, until_⟩
      rw [kept, firstWatch, loadedWatch]
      exact found
  obtain ⟨t, through, lastWatch, lastWarnings⟩ := watch_others now u
    (fun l mem => differ l (List.mem_append_right _ mem)) fun l mem =>
      fits l (List.mem_append_right _ mem)
  have there : t.WatchedUntil event ending := by
    unfold WatchedUntil
    rw [lastWatch]
    exact here
  have loop : (before ++ (event, answer) :: after).foldlM (pollEvent ops now) v.load = .ok t :=
    foldlM_around reached polled through
  have listed : event.id ∈ (before ++ (event, answer) :: after).map fun listed => listed.1.id := by
    simp
  obtain ⟨still, quiet⟩ := watch_listed listed there early
  simp only [pollOnce, loop]
  refine ⟨still, quiet.trans ?_⟩
  rw [lastWarnings, lookWarnings, firstWarnings, loadedWarnings]

/-- Over polls before the end of the watch, the event stays watched. -/
theorem watch_follow {polls : List (Watched F D)}
    (differ : ∀ poll ∈ polls, ∀ other ∈ poll.others, other.1.id ≠ event.id)
    (fits : ∀ poll ∈ polls, ∀ other ∈ poll.others, other.1.content.EndsFit ops)
    (early : ∀ poll ∈ polls, ¬ ending ≤ poll.time)
    (reaches : ∀ poll ∈ polls, ∀ e ∈ sp.watchEnd ops event.content poll.time, ending ≤ e)
    (watched : v.WatchedUntil event ending) :
    (v.follow ops event polls).WatchedUntil event ending ∧
      (v.follow ops event polls).cancelled.count event.id = v.cancelled.count event.id := by
  induction polls generalizing v with
  | nil => exact ⟨watched, rfl⟩
  | cons poll polls ih =>
    have step : (v.pollOnce ops poll.time (poll.listing event)).WatchedUntil event ending ∧
        (v.pollOnce ops poll.time (poll.listing event)).cancelled.count event.id =
          v.cancelled.count event.id := by
      cases poll with
      | missed now =>
        obtain ⟨sameWatch, sameWarnings⟩ := watch_load v
        change v.load.WatchedUntil event ending ∧ v.load.cancelled.count event.id = _
        rw [WatchedUntil, sameWatch, sameWarnings]
        exact ⟨watched, rfl⟩
      | listed now before answer after =>
        obtain ⟨looked, reached, -⟩ := watch_others now v.load
          (fun l mem => differ _ List.mem_cons_self l (List.mem_append_left _ mem)) fun l mem =>
            fits _ List.mem_cons_self l (List.mem_append_left _ mem)
        exact watch_poll scheduled ends reached (differ _ List.mem_cons_self)
          (fits _ List.mem_cons_self) (.inl watched) (early _ List.mem_cons_self)
          (reaches _ List.mem_cons_self)
    obtain ⟨watched', warnings⟩ := ih (fun p mem => differ p (List.mem_cons_of_mem _ mem))
      (fun p mem => fits p (List.mem_cons_of_mem _ mem))
      (fun p mem => early p (List.mem_cons_of_mem _ mem))
      (fun p mem => reaches p (List.mem_cons_of_mem _ mem)) step.1
    exact ⟨watched', warnings.trans step.2⟩

end Polls

/-! ## After a watch -/

/-- Some polls, each with its time and what it lists, if it does. -/
def polls (ops : VenOps F D) (v : Ven F)
    (later : List (DateTime × Option (List (VtnEvent F D × Bool)))) : Ven F :=
  later.foldl (fun v poll => v.pollOnce ops poll.1 poll.2) v

/-- How often an event was dispatched, in whatever version. -/
def dispatches (v : Ven F) (id : String) : Nat :=
  v.dispatched.countP fun d => d.eventId = id

/-- A look at an event dispatches it or sets no watch, panics included. -/
theorem dispatches_pollEvent (ops : VenOps F D) (now : DateTime) (v : Ven F)
    (listed : VtnEvent F D × Bool) (id : String) :
    (∀ w, v.pollEvent ops now listed = .ok w → w.cancelled = v.cancelled ∧
      (v.dispatches id < w.dispatches id ∨ w.dispatches id = v.dispatches id ∧
        w.executedActive.lookup id = v.executedActive.lookup id)) ∧
    ∀ w, v.pollEvent ops now listed = .error w → w.cancelled = v.cancelled ∧
      v.dispatches id ≤ w.dispatches id := by
  have recorded (d : Dispatch F) : v.dispatches id ≤ (v.dispatch d).dispatches id := by
    simp only [dispatches, dispatch, List.countP_cons]
    omega
  have set {sp : Setpoint F D} {window : DateTime} :
      v.dispatches id < (v.afterDispatch ops listed.1 sp window).dispatches id ∨
        (v.afterDispatch ops listed.1 sp window).dispatches id = v.dispatches id ∧
          (v.afterDispatch ops listed.1 sp window).executedActive.lookup id =
            v.executedActive.lookup id := by
    simp only [dispatches, afterDispatch, track, dispatch, dispatchOf, List.countP_cons]
    by_cases same : listed.1.id = id
    · left
      simp [same]
    · right
      simp only [same, decide_false, Bool.false_eq_true, if_false, Nat.add_zero, true_and]
      rw [Hash.lookup_set, if_neg (Ne.symm same)]
  obtain ⟨event, answer⟩ := listed
  have look := look_pollEvent ops now v event answer
  generalize v.attempt ops now event = attempted, v.pollEvent ops now (event, answer) = after
    at look ⊢
  constructor
  · rintro w rfl
    cases look with
    | done => exact ⟨rfl, .inr ⟨rfl, rfl⟩⟩
    | finished => exact ⟨rfl, .inr ⟨rfl, rfl⟩⟩
    | waiting => exact ⟨rfl, .inr ⟨rfl, rfl⟩⟩
    | failed => exact ⟨rfl, .inr ⟨rfl, rfl⟩⟩
    | interval => exact ⟨rfl, set⟩
    | last => exact ⟨rfl, set⟩
  · rintro w rfl
    cases look with
    | undecided => exact ⟨rfl, Nat.le_refl _⟩
    | unnoted => exact ⟨rfl, recorded _⟩

/-- What is not watched is neither kept nor taken for cancelled. -/
theorem unwatched_cleanUp (now : DateTime) (present : List String) {w : Ven F} {id : String}
    (unset : w.executedActive.lookup id = none) :
    (w.cleanUp now present).executedActive.lookup id = none ∧
      (w.cleanUp now present).cancelled.count id = w.cancelled.count id := by
  have none_ {keep : String → DateTime → Bool} :
      (Hash.filter keep w.executedActive).lookup id = none := by
    refine Option.eq_none_iff_forall_ne_some.mpr fun e found => ?_
    cases unset.symm.trans (Hash.lookup_filter.mp found).1
  refine ⟨none_, ?_⟩
  simp only [cleanUp, prune, watch, List.count_append]
  rw [List.count_eq_zero_of_not_mem, Nat.zero_add]
  intro mem
  obtain ⟨e, found⟩ := Option.isSome_iff_exists.mp
    (AList.lookup_isSome.mpr (AList.mem_keys.mpr mem))
  cases none_.symm.trans found

/-- A poll that does not dispatch an event that is not watched raises no warning of it and does not
begin a watch, whatever it lists and however it ends. -/
theorem unwatched_pollOnce (ops : VenOps F D) (v : Ven F) (now : DateTime)
    (listing : Option (List (VtnEvent F D × Bool))) (id : String) :
    v.dispatches id ≤ (v.pollOnce ops now listing).dispatches id ∧
      (v.executedActive.lookup id = none →
        (v.pollOnce ops now listing).dispatches id = v.dispatches id →
          (v.pollOnce ops now listing).executedActive.lookup id = none ∧
            (v.pollOnce ops now listing).cancelled.count id = v.cancelled.count id) := by
  obtain ⟨loadedWatch, loadedWarnings⟩ := watch_load v
  have loadedDispatches : v.load.dispatches id = v.dispatches id := by
    unfold load
    split <;> rfl
  cases listing with
  | none =>
    refine ⟨loadedDispatches.ge, fun unwatched _ => ⟨?_, congrArg (List.count id) loadedWarnings⟩⟩
    change v.load.executedActive.lookup id = none
    rw [loadedWatch, unwatched]
  | some events =>
    obtain ⟨through, stopped⟩ := Stopping.foldlM_ends (f := pollEvent ops now) (l := events)
      (P := fun w : Ven F => w.cancelled = v.cancelled ∧ v.dispatches id ≤ w.dispatches id ∧
        (w.dispatches id = v.dispatches id →
          w.executedActive.lookup id = v.executedActive.lookup id))
      (Q := fun w : Ven F => w.cancelled = v.cancelled ∧ v.dispatches id ≤ w.dispatches id)
      (s := v.load) (by
        rintro u listed - ⟨quiet, grows, kept⟩
        obtain ⟨goesOn, stops⟩ := dispatches_pollEvent ops now u listed id
        constructor
        · intro w looked
          obtain ⟨same, more | ⟨equal, watch⟩⟩ := goesOn w looked
          · exact ⟨same.trans quiet, by omega, fun again => by omega⟩
          · exact ⟨same.trans quiet, by omega, fun again => watch.trans (kept (by omega))⟩
        · intro w looked
          obtain ⟨same, more⟩ := stops w looked
          exact ⟨same.trans quiet, by omega⟩)
      ⟨loadedWarnings, loadedDispatches.ge, fun _ => congrArg (AList.lookup id) loadedWatch⟩
    simp only [pollOnce]
    cases polled : events.foldlM (pollEvent ops now) v.load with
    | ok w =>
      obtain ⟨quiet, grows, kept⟩ := through w polled
      refine ⟨grows, fun unwatched same => ?_⟩
      obtain ⟨unset, noWarning⟩ := unwatched_cleanUp now (events.map fun listed => listed.1.id)
        ((kept same).trans unwatched)
      exact ⟨unset, noWarning.trans (congrArg (List.count id) quiet)⟩
    | error w =>
      obtain ⟨quiet, grows⟩ := stopped w polled
      exact ⟨grows, fun _ _ => ⟨rfl, congrArg (List.count id) quiet⟩⟩

/-- An event that is not watched raises no warning until it is dispatched again. -/
theorem unwatched_polls (ops : VenOps F D) {id : String}
    (later : List (DateTime × Option (List (VtnEvent F D × Bool)))) {v : Ven F}
    (unwatched : v.executedActive.lookup id = none) :
    v.dispatches id ≤ (v.polls ops later).dispatches id ∧
      ((v.polls ops later).dispatches id = v.dispatches id →
        (v.polls ops later).executedActive.lookup id = none ∧
          (v.polls ops later).cancelled.count id = v.cancelled.count id) := by
  induction later using List.reverseRecOn with
  | nil => exact ⟨Nat.le_refl _, fun _ => ⟨unwatched, rfl⟩⟩
  | append_singleton front last ih =>
    obtain ⟨grown, before⟩ := ih
    obtain ⟨grows, after⟩ :=
      unwatched_pollOnce ops (v.polls ops front) last.1 last.2 id
    have is : v.polls ops (front ++ [last]) = (v.polls ops front).pollOnce ops last.1 last.2 := by
      rw [polls, List.foldl_append]
      rfl
    rw [is]
    refine ⟨grown.trans grows, fun same => ?_⟩
    obtain ⟨unwatched, quiet⟩ := before (by omega)
    obtain ⟨unwatched, still⟩ := after unwatched (by omega)
    exact ⟨unwatched, still.trans quiet⟩

/-! ## Events that vanish -/

/-- An event is dispatched by a poll, listed by some others, and vanishes. -/
structure Vanishing (ops : VenOps F D) (event : VtnEvent F D) (sp : Setpoint F D) (v : Ven F) where
  /-- The poll that dispatches, and what it lists beside the event. -/
  since : DateTime
  before : List (VtnEvent F D × Bool)
  after : List (VtnEvent F D × Bool)
  scheduled : sp ∈ findSetpoints event.content
  /-- The state in which it looks at the event. -/
  looked : Ven F
  reached : v.LooksIn ops since before looked
  dispatched : looked.attempt ops since event = some (dispatchOf ops event sp)
  polls : List (Watched F D)
  /-- The event is listed once, and unchanged. -/
  unchanged : ∀ poll ∈ .listed since before true after :: polls,
    ∀ other ∈ poll.others, other.1.id ≠ event.id
  /-- The poll that does not list it. -/
  gone : DateTime
  listing : List (VtnEvent F D × Bool)
  absent : event.id ∉ listing.map fun listed => listed.1.id

namespace Vanishing

variable (s : Vanishing ops event sp v)

/-- The polls up to the one that does not list the event. -/
def listed : List (Watched F D) :=
  .listed s.since s.before true s.after :: s.polls

/-- The state before that poll. -/
def atEnd : Ven F :=
  v.follow ops event s.listed

/-- The state after it. -/
def atGone : Ven F :=
  s.atEnd.pollOnce ops s.gone (some s.listing)

/-- There is one warning, it is raised by that poll, and no poll thereafter raises another, until
the event is dispatched again. -/
def RaisesOnce : Prop :=
  s.atEnd.cancelled.count event.id = v.cancelled.count event.id ∧
    s.atGone.cancelled.count event.id = v.cancelled.count event.id + 1 ∧
    ∀ later, (s.atGone.polls ops later).dispatches event.id = s.atGone.dispatches event.id →
      (s.atGone.polls ops later).cancelled.count event.id = v.cancelled.count event.id + 1

/-- The clock does not go back. -/
def Ordered : Prop :=
  (s.listed.map Watched.time ++ [s.gone]).Pairwise (· ≤ ·)

instance : Decidable s.Ordered :=
  inferInstanceAs (Decidable (List.Pairwise _ _))

/-- The clock shows no leap second: that of the system has none. -/
def OnClock : Prop :=
  ∀ poll ∈ s.listed, poll.time.nanos < 1000000000

/-- Whatever is listed, ends are in the calendar. -/
structure EndsFit : Prop where
  own : event.content.EndsFit ops
  others : ∀ poll ∈ s.listed, ∀ other ∈ poll.others, other.1.content.EndsFit ops
  last : ∀ other ∈ s.listing, other.1.content.EndsFit ops

end Vanishing

/-- The end of a watch only moves on with the clock. -/
theorem watchEnd_mono {t later : DateTime} (forward : now ≤ t)
    (clock : sp.span content = none → now.nanos < 1000000000 ∧ t.nanos < 1000000000)
    (first : sp.watchEnd ops content now = some ending)
    (second : sp.watchEnd ops content t = some later) : ending ≤ later := by
  cases span : sp.span content with
  | none =>
    rw [watchEnd_of_endless span] at first second
    cases first
    cases second
    exact DateTime.addSecs_mono _ forward (clock span).1 (clock span).2
  | some span_ =>
    rw [watchEnd_of_span span] at first second
    cases first.symm.trans second
    exact DateTime.le_refl' _

/-- The poll that does not list the event any more raises its warning and ends the watch. -/
theorem Vanishing.raised_at_gone (s : Vanishing ops event sp v)
    (fits : ∀ other ∈ s.listing, other.1.content.EndsFit ops)
    (watched : s.atEnd.WatchedUntil event ending) (early : ¬ ending ≤ s.gone) :
    s.atGone.cancelled.count event.id = s.atEnd.cancelled.count event.id + 1 ∧
      s.atGone.executedActive.lookup event.id = none := by
  have differ : ∀ other ∈ s.listing, other.1.id ≠ event.id := by
    intro other mem same
    exact s.absent (List.mem_map.mpr ⟨other, mem, same⟩)
  obtain ⟨loadedWatch, loadedWarnings⟩ := watch_load s.atEnd
  obtain ⟨w, polled, othersWatch, othersWarnings⟩ :=
    watch_others s.gone s.atEnd.load differ fits
  have still : w.WatchedUntil event ending := by
    unfold WatchedUntil
    rw [othersWatch, loadedWatch]
    exact watched
  obtain ⟨raised, unwatched⟩ := watch_vanished s.absent still early
  have gone : s.atGone = w.cleanUp s.gone (s.listing.map fun listed => listed.1.id) := by
    simp only [Vanishing.atGone, pollOnce, polled]
  rw [gone, raised, othersWarnings, loadedWarnings]
  exact ⟨rfl, unwatched⟩

/-- An event that is dispatched, stays listed and vanishes before the end of the dispatched
interval, or a day after its dispatch if that has none, raises one warning, at the poll that
does not list it. -/
theorem vanished_raises_once (s : Vanishing ops event sp v) (ordered : s.Ordered)
    (fits : s.EndsFit) (onClock : sp.span event.content = none → s.OnClock)
    (early : ∀ e ∈ sp.watchEnd ops event.content s.since, ¬ e ≤ s.gone) :
    s.RaisesOnce := by
  obtain ⟨ending, watch⟩ :=
    Option.isSome_iff_exists.mp (fits.own.watchEnd_isSome s.since s.scheduled)
  have early := early ending watch
  rw [Vanishing.Ordered, List.pairwise_append] at ordered
  obtain ⟨inOrder, -, last⟩ := ordered
  rw [Vanishing.listed, List.map_cons, List.pairwise_cons] at inOrder
  have before (poll : Watched F D) (mem : poll ∈ s.listed) : ¬ ending ≤ poll.time := by
    intro past
    have forward := last poll.time (List.mem_map_of_mem mem) s.gone (List.mem_singleton_self _)
    exact early (DateTime.le_trans' past forward)
  have reaches (poll : Watched F D) (mem : poll ∈ s.polls) :
      ∀ e ∈ sp.watchEnd ops event.content poll.time, ending ≤ e := by
    intro e later
    refine watchEnd_mono (inOrder.1 poll.time (List.mem_map_of_mem mem)) (fun endless => ?_) watch
      later
    exact ⟨onClock endless (.listed s.since s.before true s.after) List.mem_cons_self,
      onClock endless poll (List.mem_cons_of_mem _ mem)⟩
  have attempted : (s.looked.attempt ops s.since event).isSome := by
    rw [s.dispatched]
    rfl
  obtain ⟨begun, noWarning⟩ := watch_poll s.scheduled fits.own s.reached
    (s.unchanged (.listed s.since s.before true s.after) List.mem_cons_self)
    (fits.others (.listed s.since s.before true s.after) List.mem_cons_self)
    (.inr ⟨rfl, attempted⟩)
    (before (.listed s.since s.before true s.after) List.mem_cons_self) fun e found => by
      cases watch.symm.trans found
      exact DateTime.le_refl' _
  obtain ⟨watched, quiet⟩ := watch_follow s.scheduled fits.own
    (fun poll mem => s.unchanged poll (List.mem_cons_of_mem _ mem))
    (fun poll mem => fits.others poll (List.mem_cons_of_mem _ mem))
    (fun poll mem => before poll (List.mem_cons_of_mem _ mem)) reaches begun
  have warnings : s.atEnd.cancelled.count event.id = v.cancelled.count event.id :=
    quiet.trans noWarning
  obtain ⟨raised, unwatched⟩ := s.raised_at_gone fits.last watched early
  have once : s.atGone.cancelled.count event.id = v.cancelled.count event.id + 1 := by
    rw [raised, warnings]
  exact ⟨warnings, once, fun later same => ((unwatched_polls ops later unwatched).2 same).2.trans once⟩

/-- An executed event stays watched, where the ends of what is listed are in the calendar. Whenever
an interval is executed, the event's window is not over and reaches to the end of the interval, or
for a day if that has none; and an event that vanishes before then raises one warning, at the poll
that does not list it, and no other until it is dispatched again, if the clock does not go back. -/
theorem executed_event_stays_watched (ops : VenOps F D) :
    (∀ (content : EventRequest F D) (now : DateTime) (executed : List Int) (x : F) (k : Int)
      (morePending relative : Bool), content.EndsFit ops →
      content.decide ops now executed = some (.execute x k morePending relative) →
        ∃ sp ∈ findSetpoints content, sp.intervalId = k ∧ sp.valueKw = x ∧
          sp.phase ops content now = some .active ∧
          ∃ ending window, sp.watchEnd ops content now = some ending ∧
            activeWindowEnd ops content now = some window ∧ ¬ window ≤ now ∧ ending ≤ window) ∧
    ∀ (event : VtnEvent F D) (sp : Setpoint F D) (v : Ven F) (s : Vanishing ops event sp v),
      s.Ordered → s.EndsFit → (sp.span event.content = none → s.OnClock) →
        (∀ e ∈ sp.watchEnd ops event.content s.since, ¬ e ≤ s.gone) → s.RaisesOnce :=
  ⟨fun _ _ _ _ _ _ _ fits decided => decide_within_window fits decided,
    fun _ _ _ s ordered fits onClock early => vanished_raises_once s ordered fits onClock early⟩

/-! ## Two days -/

/-- To be done as soon as possible, without an end. -/
private def endless : VtnEvent ℚ Int :=
  ⟨"ev-3", DateTime.ofSecs 0,
    ⟨some [smallInterval 0 none [⟨.dispatchSetpoint, [.number 42]⟩]], none, none⟩⟩

private def endlessSetpoint : Setpoint ℚ Int :=
  ⟨0, 42, false, none⟩

/-- From second zero on, for an hour. -/
private def firstHour : VtnEvent ℚ Int :=
  ⟨"ev-4", DateTime.ofSecs 0,
    ⟨some [smallInterval 0 (some ⟨DateTime.ofSecs 0, some 3600⟩)
      [⟨.dispatchSetpoint, [.number 42]⟩]], none, none⟩⟩

private def firstHourSetpoint : Setpoint ℚ Int :=
  ⟨0, 42, false, some ⟨DateTime.ofSecs 0, some 3600⟩⟩

/-- The endless event vanishes a day later. -/
private def nextDay : Vanishing secondsOps endless endlessSetpoint init where
  since := DateTime.ofSecs 60
  before := []
  after := []
  scheduled := by exact List.mem_singleton_self _
  looked := load init
  reached := rfl
  dispatched := by decide +kernel
  polls := []
  unchanged := by
    intro poll mem
    rw [List.mem_singleton] at mem
    rw [mem]
    exact fun other mem => absurd mem List.not_mem_nil
  gone := DateTime.ofSecs 86460
  listing := []
  absent := List.not_mem_nil

/-- The event of one hour is listed when that is over, and has vanished when the clock is back
within. -/
private def setBack : Vanishing secondsOps firstHour firstHourSetpoint init where
  since := DateTime.ofSecs 60
  before := []
  after := []
  scheduled := by exact List.mem_singleton_self _
  looked := load init
  reached := rfl
  dispatched := by decide +kernel
  polls := [.listed (DateTime.ofSecs 3600) [] true []]
  unchanged := by
    intro poll mem
    simp only [List.mem_cons, List.not_mem_nil, or_false] at mem
    obtain rfl | rfl := mem
    · exact fun other mem => absurd mem List.not_mem_nil
    · exact fun other mem => absurd mem List.not_mem_nil
  gone := DateTime.ofSecs 100
  listing := []
  absent := List.not_mem_nil

private theorem nextDay_fits : nextDay.EndsFit where
  own := by decide +kernel
  others := by
    intro poll mem
    rw [List.mem_singleton.mp mem]
    exact List.forall_mem_nil _
  last := List.forall_mem_nil _

private theorem setBack_fits : setBack.EndsFit where
  own := by decide +kernel
  others := by
    intro poll mem
    obtain rfl | mem := List.mem_cons.mp mem
    · exact List.forall_mem_nil _
    · rw [List.mem_singleton.mp mem]
      exact List.forall_mem_nil _
  last := List.forall_mem_nil _

/-- An interval without an end is not watched for ever, and a watch that is over does not come
back with the clock. -/
theorem watch_is_bounded :
    (¬ ∀ (ops : VenOps ℚ Int) (event : VtnEvent ℚ Int) (sp : Setpoint ℚ Int) (v : Ven ℚ)
      (s : Vanishing ops event sp v), s.Ordered → s.EndsFit →
        (∀ span ∈ sp.span event.content, ∀ e ∈ ops.ending span.2 span.1, ¬ e ≤ s.gone) →
          s.RaisesOnce) ∧
    ¬ ∀ (ops : VenOps ℚ Int) (event : VtnEvent ℚ Int) (sp : Setpoint ℚ Int) (v : Ven ℚ)
      (s : Vanishing ops event sp v), s.EndsFit →
        (∃ span ∈ sp.span event.content, ∃ e ∈ ops.ending span.2 span.1, ¬ e ≤ s.gone) →
          s.RaisesOnce := by
  constructor
  · intro law
    have raised := (law _ _ _ _ nextDay (by decide) nextDay_fits fun span has => by cases has).2.1
    revert raised
    decide +kernel
  · intro law
    have open_ : ∃ span ∈ firstHourSetpoint.span firstHour.content,
        ∃ e ∈ secondsOps.ending span.2 span.1, ¬ e ≤ setBack.gone :=
      ⟨(DateTime.ofSecs 0, 3600), rfl, DateTime.ofSecs 3600, by decide +kernel, by decide +kernel⟩
    have raised := (law _ _ _ _ setBack setBack_fits open_).2.1
    revert raised
    decide +kernel

/-- The event of one hour vanishes within. -/
private def withinTheHour : Vanishing secondsOps firstHour firstHourSetpoint init :=
  { setBack with
    polls := [.missed (DateTime.ofSecs 90), .listed (DateTime.ofSecs 3599) [] false []]
    unchanged := by
      intro poll mem
      simp only [List.mem_cons, List.not_mem_nil, or_false] at mem
      obtain rfl | rfl | rfl := mem
      · exact fun other mem => absurd mem List.not_mem_nil
      · exact fun other mem => absurd mem List.not_mem_nil
      · exact fun other mem => absurd mem List.not_mem_nil
    gone := DateTime.ofSecs 3599 }

private theorem withinTheHour_fits : withinTheHour.EndsFit where
  own := by decide +kernel
  others := by
    intro poll mem
    obtain rfl | mem := List.mem_cons.mp mem
    · exact List.forall_mem_nil _
    · obtain rfl | mem := List.mem_cons.mp mem
      · exact List.forall_mem_nil _
      · rw [List.mem_singleton.mp mem]
        exact List.forall_mem_nil _
  last := List.forall_mem_nil _

theorem vanished_within_the_hour :
    withinTheHour.atGone.cancelled.count "ev-4" = 1 ∧
      (withinTheHour.atGone.polls secondsOps
        [(DateTime.ofSecs 3599, some [])]).cancelled.count "ev-4" = 1 ∧
      ∃ window, activeWindowEnd secondsOps firstHour.content (DateTime.ofSecs 60) = some window ∧
        ¬ window ≤ DateTime.ofSecs 60 := by
  obtain ⟨within, raises⟩ := executed_event_stays_watched secondsOps
  have ends : firstHourSetpoint.span firstHour.content ≠ none := by decide
  have early : ∀ e ∈ firstHourSetpoint.watchEnd secondsOps firstHour.content withinTheHour.since,
      ¬ e ≤ withinTheHour.gone := by decide +kernel
  obtain ⟨-, once, later⟩ := raises _ _ _ withinTheHour (by decide) withinTheHour_fits
    (fun endless => absurd endless ends) early
  refine ⟨once, later _ (by decide +kernel), ?_⟩
  obtain ⟨sp, _, _, _, _, _, window, _, is, open_, _⟩ := within firstHour.content
    (DateTime.ofSecs 60) [] 42 0 false false (by decide +kernel) (by decide +kernel)
  exact ⟨window, is, open_⟩

end Ven

end AggregatorBridge
