import AggregatorBridge.OpenLeadrVen
import AggregatorBridge.Lib.Run

/-!
# An interval is dispatched once

A dispatch is noted in `seen`, under the event's id or under the interval's own key, with the
modification time of the event. A note is only ever overwritten by a later time: before an event
is looked at its own note is, and before an interval is executed its note is. So the note of a
dispatch stays at or above the dispatched version, in memory, in Redis and across restarts, and
the version is not dispatched again.

Except that notes are pruned. `The age guard protects against a paginated/filtered listing that
hides an event the VTN still has`, says the source, but the age is that of the modification, not
of the note: an event that was last modified a week ago loses its note at the first poll that
does not list it. `remembered` is that no such event comes back. It also asks of a restart that
every note can be read back: one with a year beyond 9999 cannot.

And except that the process can panic between a dispatch and its note, if the end of one of the
event's intervals is outside of chrono's calendar: then the interval is dispatched again after every
restart. So `remembered` asks of a listing that ends fit. It asks more than it has to there: a poll
that panics before it dispatches anything repeats nothing.

The law does not say that an interval is dispatched at all, and nothing of a dispatch that the
adapter has carried out and reported as failed.
-/

namespace AggregatorBridge

open Remote Transition

variable {F D : Type}

namespace Ven

/-- Event ids contain no `#`. -/
def plainIds : Event F D → Bool
  | .poll _ (some events) => events.all fun listed => decide ('#' ∉ listed.1.id.toList)
  | _ => true

/-- No note of this version of the event was pruned. -/
def Remembers (forgotten : List (String × DateTime)) (event : VtnEvent F D) : Prop :=
  ∀ entry ∈ forgotten, Text.splitFirst '#' entry.1 = event.id →
    ¬ event.modificationDateTime ≤ entry.2

instance (forgotten : List (String × DateTime)) (event : VtnEvent F D) :
    Decidable (Remembers forgotten event) :=
  inferInstanceAs (Decidable (∀ entry ∈ forgotten, _))

/-- A poll lists no version whose note was pruned, and no interval whose end does not fit, and a
restart finds no note it cannot read. -/
def remembered (ops : VenOps F D) (v : Ven F) : Event F D → Bool
  | .poll _ (some events) => events.all fun listed =>
    decide (Remembers v.forgotten listed.1 ∧ listed.1.content.EndsFit ops)
  | .poll _ none => true
  | .restart => (Hash.values v.redis).all fun modified => decide modified.FourDigitYear

/-! ## Notes -/

/-- A dispatch left a note, and the note is there or was pruned. -/
def Noted (v : Ven F) (d : Dispatch F) : Prop :=
  ∃ key ts, (key = d.eventId ∨ key = intervalKey d.eventId d.intervalId) ∧ d.modified ≤ ts ∧
    (v.redis.lookup key = some ts ∨ (key, ts) ∈ v.forgotten)

structure Sound (v : Ven F) : Prop where
  synced : v.seenLoaded = true → ∀ key, v.seen.lookup key = v.redis.lookup key
  fresh : v.seenLoaded = false → v.seen = ∅
  dated : v.seenLoaded = false → ∀ key ts, v.redis.lookup key = some ts → ts.FourDigitYear
  plain : ∀ d ∈ v.dispatched, '#' ∉ d.eventId.toList
  noted : ∀ d ∈ v.dispatched, v.Noted d
  once : (v.dispatched.map Dispatch.target).Nodup

/-- Both kinds of keys begin with the event's id. -/
theorem splitFirst_key {id key : String} {k : Int} (plain : '#' ∉ id.toList)
    (either : key = id ∨ key = intervalKey id k) : Text.splitFirst '#' key = id := by
  rcases either with rfl | rfl
  · exact Text.splitFirst_of_not_mem plain
  · exact Text.splitFirst_append plain (toString k)

variable {ops : VenOps F D} {v t : Ven F} {now : DateTime}

/-- A fresh process has dispatched nothing. -/
theorem sound_init : (init : Ven F).Sound where
  synced := fun loaded => absurd loaded Bool.false_ne_true
  fresh := fun _ => rfl
  dated := fun _ key ts found => by cases found
  plain := fun d mem => absurd mem List.not_mem_nil
  noted := fun d mem => absurd mem List.not_mem_nil
  once := .nil

/-- What is loaded is what was noted, as every note can be read back. -/
theorem sound_load (sound : v.Sound) : v.load.Sound ∧ v.load.seenLoaded = true := by
  unfold load
  split
  · next loaded => exact ⟨sound, loaded⟩
  · next unloaded =>
    have unloaded := Bool.eq_false_of_not_eq_true unloaded
    have empty : v.seen = ∅ := sound.fresh unloaded
    refine ⟨{ sound with synced := fun _ key => ?_, fresh := nofun, dated := nofun }, rfl⟩
    ext ts
    simp only [empty, AList.lookup_union_eq_some, Hash.lookup_filter, decide_eq_true_eq,
      AList.lookup_empty, reduceCtorEq, and_false, or_false]
    exact ⟨And.left, fun found => ⟨found, sound.dated unloaded key ts found⟩⟩

/-- A note that is overwritten by a later one is still a note. -/
theorem sound_markSeen (sound : v.Sound) (loaded : v.seenLoaded = true) {key : String}
    {modified : DateTime}
    (newer : ∀ prev, v.seen.lookup key = some prev → ¬ modified ≤ prev) :
    (v.markSeen key modified).Sound where
  synced := by
    intro _ other
    simp only [markSeen, Hash.lookup_set, sound.synced loaded]
  fresh := fun unloaded => absurd (loaded.symm.trans unloaded) Bool.false_ne_true.symm
  dated := fun unloaded => absurd (loaded.symm.trans unloaded) Bool.false_ne_true.symm
  plain := sound.plain
  once := sound.once
  noted := by
    intro d mem
    obtain ⟨noted, ts, either, recent, place⟩ := sound.noted d mem
    rcases place with stored | pruned
    · by_cases here : noted = key
      · subst here
        rw [← sound.synced loaded] at stored
        have later : ts ≤ modified := DateTime.le_of_not_le (newer ts stored)
        refine ⟨noted, modified, either, DateTime.le_trans' recent later, .inl ?_⟩
        simp only [markSeen, Hash.lookup_set, if_pos]
      · refine ⟨noted, ts, either, recent, .inl ?_⟩
        simp only [markSeen, Hash.lookup_set, if_neg here]
        exact stored
    · exact ⟨noted, ts, either, recent, .inr pruned⟩

/-- A new dispatch that has left its note. -/
theorem sound_dispatched (sound : v.Sound) {d : Dispatch F} (plain : '#' ∉ d.eventId.toList)
    (noted : v.Noted d) (new : d.target ∉ v.dispatched.map Dispatch.target)
    (executedActive : Hash String DateTime) :
    Sound { v with executedActive := executedActive, dispatched := d :: v.dispatched } where
  synced := sound.synced
  fresh := sound.fresh
  dated := sound.dated
  plain := List.forall_mem_cons.mpr ⟨plain, sound.plain⟩
  noted := List.forall_mem_cons.mpr ⟨noted, sound.noted⟩
  once := List.nodup_cons.mpr ⟨new, sound.once⟩

/-- What neither the event's note nor that of the interval speaks against is new. -/
theorem target_new (sound : v.Sound) (loaded : v.seenLoaded = true) {event : VtnEvent F D}
    {k : Int} (remembers : Remembers v.forgotten event)
    (own : ∀ prev, v.seen.lookup event.id = some prev → ¬ event.modificationDateTime ≤ prev)
    (interval : ∀ prev, v.seen.lookup (intervalKey event.id k) = some prev →
      ¬ event.modificationDateTime ≤ prev) :
    (event.id, event.modificationDateTime, k) ∉ v.dispatched.map Dispatch.target := by
  intro again
  obtain ⟨d, mem, same⟩ := List.mem_map.mp again
  obtain ⟨id_, rest⟩ := Prod.mk.inj same
  obtain ⟨modified_, k_⟩ := Prod.mk.inj rest
  have plain := sound.plain d mem
  obtain ⟨key, ts, either, recent, place⟩ := sound.noted d mem
  have base := splitFirst_key plain either
  rw [id_, k_] at either
  rw [modified_] at recent
  rcases place with stored | pruned
  · rw [← sound.synced loaded] at stored
    rcases either with rfl | rfl
    · exact own ts stored recent
    · exact interval ts stored recent
  · exact remembers (key, ts) pruned (base.trans id_) recent

/-- A look at one event dispatches nothing that was dispatched, and notes what it dispatches unless
it panics. -/
theorem sound_pollEvent (now : DateTime) (sound : v.Sound) (loaded : v.seenLoaded = true)
    {listed : VtnEvent F D × Bool} (plain : '#' ∉ listed.1.id.toList)
    (remembers : Remembers v.forgotten listed.1) (fits : listed.1.content.EndsFit ops) :
    ∃ w, v.pollEvent ops now listed = .ok w ∧ w.Sound ∧ w.seenLoaded = true ∧
      w.forgotten = v.forgotten := by
  obtain ⟨event, answer⟩ := listed
  unfold pollEvent
  simp only
  split
  · exact ⟨v, rfl, sound, loaded, rfl⟩
  next unseen =>
  have own : ∀ prev, v.seen.lookup event.id = some prev →
      ¬ event.modificationDateTime ≤ prev := by
    intro prev found recent
    rw [found] at unseen
    exact unseen (decide_eq_true recent)
  have marked : (v.markSeen event.id event.modificationDateTime).Sound :=
    sound_markSeen sound loaded own
  obtain ⟨decision, decided⟩ := Option.isSome_iff_exists.mp
    (fits.decide_isSome now (executedIntervals v.seen event.id event.modificationDateTime))
  rw [decided]
  cases decision with
  | notDispatch => exact ⟨_, rfl, marked, loaded, rfl⟩
  | expired => exact ⟨_, rfl, marked, loaded, rfl⟩
  | notYetActive => exact ⟨v, rfl, sound, loaded, rfl⟩
  | execute x k morePending relative =>
    cases answer with
    | false => exact ⟨v, rfl, sound, loaded, rfl⟩
    | true =>
      -- the interval is executed and left its note, under its own key or the event's
      obtain ⟨sp, mem, rfl, unexecuted⟩ := mem_of_decide_execute decided
      obtain ⟨low, high⟩ := intervalId_bounds mem
      obtain ⟨ending, window⟩ := Option.isSome_iff_exists.mp (fits.activeWindowEnd_isSome now)
      have interval : ∀ prev, v.seen.lookup (intervalKey event.id sp.intervalId) = some prev →
          ¬ event.modificationDateTime ≤ prev := by
        intro prev found recent
        exact unexecuted (mem_executedIntervals low high found recent)
      have new := target_new sound loaded remembers own interval
      have noted : ∀ key, key = event.id ∨ key = intervalKey event.id sp.intervalId →
          (v.markSeen key event.modificationDateTime).Sound := by
        rintro key (rfl | rfl)
        · exact marked
        · exact sound_markSeen sound loaded interval
      simp only [window, if_true]
      generalize note : (if morePending then intervalKey event.id sp.intervalId else event.id) = key
      have either : key = event.id ∨ key = intervalKey event.id sp.intervalId := by
        rw [← note]
        split
        · exact .inr rfl
        · exact .inl rfl
      refine ⟨_, rfl, sound_dispatched
        (d := ⟨event.id, event.modificationDateTime, sp.intervalId, _, _⟩)
        (noted key either) plain ⟨key, event.modificationDateTime, either, ?_, .inl ?_⟩ new _,
        loaded, rfl⟩
      · exact .inr ⟨rfl, Nat.le_refl _⟩
      · exact AList.lookup_insert _

/-- The same of a whole listing, in whatever order it is. -/
theorem sound_events (now : DateTime) {events : List (VtnEvent F D × Bool)}
    (sound : v.Sound) (loaded : v.seenLoaded = true)
    (plain : ∀ listed ∈ events, '#' ∉ listed.1.id.toList)
    (remembers : ∀ listed ∈ events, Remembers v.forgotten listed.1)
    (fits : ∀ listed ∈ events, listed.1.content.EndsFit ops) :
    ∃ w, events.foldlM (pollEvent ops now) v = .ok w ∧ w.Sound ∧ w.seenLoaded = true ∧
      w.forgotten = v.forgotten := by
  refine Stopping.exists_foldlM_ok
    (P := fun w : Ven F => w.Sound ∧ w.seenLoaded = true ∧ w.forgotten = v.forgotten) ?_
    ⟨sound, loaded, rfl⟩
  rintro u listed mem ⟨sound, loaded, same⟩
  obtain ⟨w, looked, sound, loaded, kept⟩ := sound_pollEvent now sound loaded (plain listed mem)
    (same ▸ remembers listed mem) (fits listed mem)
  exact ⟨w, looked, sound, loaded, kept.trans same⟩

/-- What is pruned is remembered as forgotten. -/
theorem sound_prune (sound : v.Sound) (loaded : v.seenLoaded = true) (present : List String) :
    (v.prune now present).Sound where
  synced := by
    intro _ key
    simp only [prune, Hash.lookup_delAll, sound.synced loaded]
  fresh := fun unloaded => absurd (loaded.symm.trans unloaded) Bool.false_ne_true.symm
  dated := fun unloaded => absurd (loaded.symm.trans unloaded) Bool.false_ne_true.symm
  plain := sound.plain
  once := sound.once
  noted := by
    intro d mem
    obtain ⟨key, ts, either, recent, place⟩ := sound.noted d mem
    refine ⟨key, ts, either, recent, ?_⟩
    rcases place with stored | pruned
    · by_cases stale : key ∈ (v.stale now present).keys
      · right
        obtain ⟨ts', found⟩ := Option.isSome_iff_exists.mp
          (AList.lookup_isSome.mpr (AList.mem_keys.mpr stale))
        have seen := (Hash.lookup_filter.mp found).1
        rw [sound.synced loaded, stored] at seen
        cases seen
        exact List.mem_append_left _
          (List.mem_map.mpr ⟨⟨key, ts⟩, AList.mem_lookup_iff.mp found, rfl⟩)
      · left
        simp only [prune, Hash.lookup_delAll, if_neg stale]
        exact stored
    · exact .inr (List.mem_append_right _ pruned)

/-- A poll or a restart keeps every dispatch noted, as long as no pruned version is listed again. -/
theorem sound_step {e : Event F D} (sound : v.Sound) (plain : plainIds e = true)
    (meets : remembered ops v e = true) (moved : v.step ops e = some t) : t.Sound := by
  cases e with
  | poll now listing =>
    cases moved
    obtain ⟨sound', loaded⟩ := sound_load sound
    cases listing with
    | none => exact sound'
    | some events =>
      have forgotten : v.load.forgotten = v.forgotten := by
        unfold load
        split <;> rfl
      simp only [plainIds, List.all_eq_true, decide_eq_true_eq] at plain
      simp only [remembered, List.all_eq_true, decide_eq_true_eq] at meets
      obtain ⟨w, polled, sound, loaded, -⟩ := sound_events now sound' loaded plain
        (fun listed mem => forgotten ▸ (meets listed mem).1) fun listed mem => (meets listed mem).2
      simp only [pollOnce, polled]
      have watched : (w.watch now (events.map fun listed => listed.1.id)).Sound := { sound with }
      exact sound_prune watched loaded _
  | restart =>
    cases moved
    exact { sound with
      synced := fun loaded => absurd loaded Bool.false_ne_true
      fresh := fun _ => rfl
      dated := by
        intro _ key ts found
        simp only [remembered, List.all_eq_true, decide_eq_true_eq] at meets
        exact meets ts (Hash.mem_values.mpr ⟨key, found⟩) }

/-- In every run in which no pruned version is listed again, the ends of what is listed fit and
every restart reads all notes, each version of each interval is dispatched at most once. A dispatch
that failed is not counted, and the clock may be anything. -/
theorem interval_dispatched_once (ops : VenOps F D) {v : Ven F}
    (chain : Steps (step ops) (fun v e => plainIds e = true ∧ remembered ops v e = true) init v) :
    (v.dispatched.map Dispatch.target).Nodup := by
  have sound : v.Sound := by
    refine chain.invariant (P := Sound) ?_ sound_init
    intro v e t sound meets moved
    exact sound_step sound meets.1 meets.2 moved
  exact sound.once

/-! ## An event that is listed again -/

/-- An interval with a small id. -/
def smallInterval (id : UInt8) (period : Option (IntervalPeriod Int))
    (payloads : List (EventValuesMap ℚ)) : EventInterval ℚ Int :=
  have bound := id.toNat_lt
  ⟨id.toNat, by omega, by omega, period, payloads⟩

/-- To be done as soon as possible, modified at second zero. -/
private def openEvent : VtnEvent ℚ Int :=
  ⟨"ev-1", DateTime.ofSecs 0,
    ⟨some [smallInterval 0 none [⟨.dispatchSetpoint, [.number 42]⟩]], none, none⟩⟩

/-- Ten days later it is listed, then not listed, then listed. -/
private def hiddenOnce : List (Event ℚ Int) :=
  [.poll (DateTime.ofSecs 864000) (some [(openEvent, true)]),
    .poll (DateTime.ofSecs 864030) (some []),
    .poll (DateTime.ofSecs 864060) (some [(openEvent, true)])]

private theorem hiddenOnce_runs :
    (run (step secondsOps) (fun _ e => plainIds e = true) hiddenOnce init).isSome := by
  decide +kernel

/-- One interval to be done as soon as possible, another from second 10⁹ on for a hundred million
days. -/
private def boundlessEvent : VtnEvent ℚ Int :=
  ⟨"ev-1", DateTime.ofSecs 0,
    ⟨some
      [smallInterval 0 none [⟨.dispatchSetpoint, [.number 42]⟩],
        smallInterval 1 (some ⟨DateTime.ofSecs 1000000000, some 8640000000000⟩)
          [⟨.dispatchSetpoint, [.number 42]⟩]],
      none, none⟩⟩

/-- The first poll panics behind the dispatch of the first interval, and the second is that of a
fresh process. -/
private def abortedOnce : List (Event ℚ Int) :=
  [.poll (DateTime.ofSecs 60) (some [(boundlessEvent, true)]),
    .poll (DateTime.ofSecs 90) (some [(boundlessEvent, true)])]

private theorem abortedOnce_runs :
    (run (step secondsOps) (fun _ e => plainIds e = true) abortedOnce init).isSome := by
  decide +kernel

/-- The clock at a poll. -/
def Event.time : Event F D → Option DateTime
  | .poll now _ => some now
  | .restart => none

/-- An event that one listing hides is dispatched again. So is one with an interval that ends
outside of the calendar, though nothing is pruned. -/
theorem hidden_event_dispatched_twice :
    (¬ ∀ (es : List (Event ℚ Int)) (v : Ven ℚ), (es.filterMap Event.time).Pairwise (· ≤ ·) →
      run (step secondsOps) (fun _ e => plainIds e = true) es init = some v →
      (v.dispatched.map Dispatch.target).Nodup) ∧
    ¬ ∀ (es : List (Event ℚ Int)) (v : Ven ℚ), (es.filterMap Event.time).Pairwise (· ≤ ·) →
      run (step secondsOps) (fun _ e => plainIds e = true) es init = some v →
      v.forgotten = [] → (v.dispatched.map Dispatch.target).Nodup := by
  constructor
  · intro law
    have once := law hiddenOnce _ (by decide) (Option.some_get hiddenOnce_runs).symm
    exact absurd once (by decide +kernel)
  · intro law
    have once := law abortedOnce _ (by decide) (Option.some_get abortedOnce_runs).symm
      (by decide +kernel)
    exact absurd once (by decide +kernel)

/-- One interval from second zero on for an hour, another from the second hour on. -/
private def schedule : VtnEvent ℚ Int :=
  ⟨"ev-1", DateTime.ofSecs 0,
    ⟨some
      [smallInterval 0 (some ⟨DateTime.ofSecs 0, some 3600⟩) [⟨.dispatchSetpoint, [.number 42]⟩],
        smallInterval 1 (some ⟨DateTime.ofSecs 7200, none⟩) [⟨.dispatchSetpoint, [.number (-20)]⟩]],
      none, none⟩⟩

/-- The first interval is dispatched, the process restarts, the dispatch of the second fails
once, works, and is not repeated after another restart. -/
private def followed : List (Event ℚ Int) :=
  [.poll (DateTime.ofSecs 60) (some [(schedule, true)]), .restart,
    .poll (DateTime.ofSecs 90) (some [(schedule, true)]),
    .poll (DateTime.ofSecs 7200) (some [(schedule, false)]),
    .poll (DateTime.ofSecs 7230) (some [(schedule, true)]), .restart,
    .poll (DateTime.ofSecs 7260) none, .poll (DateTime.ofSecs 7290) (some [(schedule, true)])]

private theorem followed_runs :
    (run (step secondsOps) (fun v e => plainIds e = true ∧ remembered secondsOps v e = true) followed
      init).isSome := by
  decide +kernel

/-- A schedule that stays listed is followed, each interval once. -/
theorem schedule_followed :
    let v := (run (step secondsOps) (fun v e => plainIds e = true ∧ remembered secondsOps v e = true) followed
      init).get followed_runs
    v.dispatched.map Dispatch.target =
        [("ev-1", DateTime.ofSecs 0, 1), ("ev-1", DateTime.ofSecs 0, 0)] ∧
      (v.dispatched.map Dispatch.target).Nodup :=
  ⟨by decide +kernel, interval_dispatched_once secondsOps (Steps.of_run_get followed_runs)⟩

end Ven

end AggregatorBridge
