import AggregatorBridge.Laws.DispatchEvent

/-!
# A dispatch through a VTN

The VTN lists an event of the adapter until it is changed or deleted, and then the version that was
created is gone for good, so its note is pruned only when nobody asks for it any more. So whatever
fails, panics or restarts, and whatever others do at the VTN, the version that was created is carried
out at most once, and as it was asked for exactly if the sign of the capacity is right.

A version that others make of the event is another matter: its modification time is new, so it is
carried out again, with whatever they asked for. Nor do these laws say that a poll ever comes in time,
or goes through: one that lists an interval whose end does not fit panics, and `poll_delivers` is about
polls that do not.
-/

namespace AggregatorBridge

open Remote Transition

variable {F D : Type}

namespace FlexRelay

open Ven

variable {cfg : Config F D} {s t : FlexRelay F D} {id : String}

/-- A poll was made when the interval was over. -/
def Late (cfg : Config F D) (latestPoll : Option DateTime) (c : CreatedEvent F) : Prop :=
  ∃ last ∈ latestPoll, c.Ended cfg.adapter cfg.ops last

/-- How an event of the adapter stands with the listener and at the VTN: as it was created, with its
note if it is listed, or in a later version. -/
structure Own (cfg : Config F D) (s : FlexRelay F D) (c : CreatedEvent F) : Prop where
  done : s.ven.carriedOut c.id c.modified = [] ∨
    s.ven.carriedOut c.id c.modified = [c.carried cfg.ops]
  standing : ∀ e ∈ s.events, e.event.id = c.id →
    e.event = c.listed cfg.adapter cfg.ops ∧ s.ven.Whole c.id ∧
        (cfg.filter.passes e = true → s.ven.Stands cfg.ops c (Late cfg s.latestPoll c)) ∨
      ¬ e.event.modificationDateTime ≤ c.modified
  unchanged : c.id ∉ s.changed →
    (∀ d ∈ s.ven.dispatched, d.eventId = c.id → d.modified = c.modified) ∧
      ∀ e ∈ s.events, e.event.id = c.id → e.event = c.listed cfg.adapter cfg.ops

/-- What every poll and every call of the VTN keeps. Identifiers are never used twice, so the VEN
takes no new event for one that it has handled. -/
structure Kept (cfg : Config F D) (s : FlexRelay F D) : Prop where
  plain : ∀ id ∈ s.usedIds, '#' ∉ id.toList
  there : ∀ e ∈ s.events, e.event.id ∈ s.usedIds
  distinct : (s.events.map fun e => e.event.id).Nodup
  dated : ∀ e ∈ s.events, e.event.modificationDateTime.FourDigitYear
  known : s.ven.Known s.usedIds
  used : ∀ c ∈ s.created, c.id ∈ s.usedIds
  once : (s.created.map CreatedEvent.id).Nodup
  own : ∀ c ∈ s.created, Own cfg s c

/-- An empty VTN owes nobody anything. -/
theorem kept_init : Kept cfg (init : FlexRelay F D) where
  plain id mem := absurd mem List.not_mem_nil
  there e mem := absurd mem List.not_mem_nil
  distinct := .nil
  dated e mem := absurd mem List.not_mem_nil
  known := {
    synced := fun loaded => absurd loaded Bool.false_ne_true
    fresh := fun _ => rfl
    notes := fun key ts found => by cases found
    carried := fun d mem => absurd mem List.not_mem_nil }
  used c mem := absurd mem List.not_mem_nil
  once := .nil
  own c mem := absurd mem List.not_mem_nil

/-- What the adapter has and the programs are make no difference. -/
structure Alike (s t : FlexRelay F D) : Prop where
  events : t.events = s.events
  usedIds : t.usedIds = s.usedIds
  created : t.created = s.created
  changed : t.changed = s.changed
  ven : t.ven = s.ven
  latestPoll : t.latestPoll = s.latestPoll

/-- What is kept does not depend on the programs, the cache or the dispatch in progress. -/
theorem Kept.alike (kept : Kept cfg s) (alike : Alike s t) : Kept cfg t := by
  obtain ⟨programs, events', usedIds', cache, call, ven', created', changed', latestPoll'⟩ := t
  obtain ⟨events, usedIds, created, changed, ven, latestPoll⟩ := alike
  cases events
  cases usedIds
  cases created
  cases changed
  cases ven
  cases latestPoll
  exact { kept with own := fun c mem => { kept.own c mem with } }

/-- Events that are deleted. -/
theorem Kept.filter (kept : Kept cfg s) (p : ListedEvent F D → Bool) :
    Kept cfg { s with events := s.events.filter p } where
  plain := kept.plain
  there e mem := kept.there e (List.mem_of_mem_filter mem)
  distinct := kept.distinct.sublist (List.filter_sublist.map _)
  dated e mem := kept.dated e (List.mem_of_mem_filter mem)
  known := kept.known
  used := kept.used
  once := kept.once
  own c mem :=
    { done := (kept.own c mem).done
      standing := fun e there => (kept.own c mem).standing e (List.mem_of_mem_filter there)
      unchanged := fun same => ((kept.own c mem).unchanged same).imp_right
        fun created e there => created e (List.mem_of_mem_filter there) }

/-- An event under a new id. -/
theorem Kept.append (kept : Kept cfg s) (listed : ListedEvent F D)
    (plain : '#' ∉ listed.event.id.toList) (new : listed.event.id ∉ s.usedIds)
    (dated : listed.event.modificationDateTime.FourDigitYear) :
    Kept cfg { s with
      events := s.events ++ [listed]
      usedIds := listed.event.id :: s.usedIds } where
  plain := List.forall_mem_cons.mpr ⟨plain, kept.plain⟩
  there := by
    refine List.forall_mem_append.mpr ⟨fun e mem => List.mem_cons_of_mem _ (kept.there e mem), ?_⟩
    exact List.forall_mem_singleton.mpr List.mem_cons_self
  distinct := by
    rw [List.map_append]
    refine kept.distinct.append (List.nodup_singleton _) (List.disjoint_singleton.mpr ?_)
    intro again
    obtain ⟨e, mem, same⟩ := List.mem_map.mp again
    have same : e.event.id = listed.event.id := same
    exact new (same ▸ kept.there e mem)
  dated := List.forall_mem_append.mpr ⟨kept.dated, List.forall_mem_singleton.mpr dated⟩
  known := kept.known.mono (List.subset_cons_self _ _)
  used c mem := List.mem_cons_of_mem _ (kept.used c mem)
  once := kept.once
  own c mem := by
    have apart : listed.event.id ≠ c.id := fun same => new (same ▸ kept.used c mem)
    refine ⟨(kept.own c mem).done, ?_, fun same => ((kept.own c mem).unchanged same).imp_right ?_⟩
    · refine List.forall_mem_append.mpr ⟨(kept.own c mem).standing, ?_⟩
      exact List.forall_mem_singleton.mpr fun same => absurd same apart
    · intro created
      refine List.forall_mem_append.mpr ⟨created, ?_⟩
      exact List.forall_mem_singleton.mpr fun same => absurd same apart

/-- After a change there is the new version, if the event was there, and beside it what was there
before. -/
theorem forall_changed {events : List (ListedEvent F D)} {listed : ListedEvent F D}
    {P : ListedEvent F D → Prop} (new : ∀ e ∈ events, e.event.id = listed.event.id → P listed)
    (others : ∀ e ∈ events, e.event.id ≠ listed.event.id → P e) :
    ∀ e ∈ events.map fun e => if e.event.id = listed.event.id then listed else e, P e := by
  refine List.forall_mem_map.mpr fun e mem => ?_
  split
  · next same => exact new e mem same
  · next other => exact others e mem other

theorem ids_changed (events : List (ListedEvent F D)) (listed : ListedEvent F D) :
    (events.map fun e => if e.event.id = listed.event.id then listed else e).map
      (fun e => e.event.id) = events.map fun e => e.event.id := by
  rw [List.map_map]
  refine List.map_congr_left fun e _ => ?_
  simp only [Function.comp_apply]
  split
  · next same => exact same.symm
  · rfl

/-- Others change an event, and make a later version of it. -/
theorem Kept.change (kept : Kept cfg s) {listed : ListedEvent F D}
    (newer : ∀ e ∈ s.events, e.event.id = listed.event.id →
      ¬ listed.event.modificationDateTime ≤ e.event.modificationDateTime)
    (dated : listed.event.modificationDateTime.FourDigitYear) :
    Kept cfg { s with
      events := s.events.map fun e => if e.event.id = listed.event.id then listed else e
      changed := listed.event.id :: s.changed } where
  plain := kept.plain
  there := forall_changed (fun e mem same => same ▸ kept.there e mem) fun e mem _ => kept.there e mem
  distinct := by
    rw [ids_changed]
    exact kept.distinct
  dated := forall_changed (fun _ _ _ => dated) fun e mem _ => kept.dated e mem
  known := kept.known
  used := kept.used
  once := kept.once
  own c mem := by
    have own := kept.own c mem
    refine ⟨own.done, ?_, fun same => ?_⟩
    · refine forall_changed ?_ fun e there _ => own.standing e there
      -- what was at the VTN was the version that was created, or later
      intro e there same isOwn
      right
      have later := newer e there same
      rcases own.standing e there (same.trans isOwn) with ⟨is, -, -⟩ | earlier
      · rw [is] at later
        exact later
      · intro before
        exact earlier (DateTime.le_trans' (DateTime.le_of_not_le later) before)
    · obtain ⟨other, before⟩ := not_or.mp (List.mem_cons.not.mp same)
      refine (own.unchanged before).imp_right fun created => ?_
      exact forall_changed (fun _ _ _ isOwn => absurd isOwn.symm other)
        fun e there _ => created e there

/-- An event of the adapter, as it is created. -/
theorem Kept.create (kept : Kept cfg s) {c : CreatedEvent F} (plain : '#' ∉ c.id.toList)
    (new : c.id ∉ s.usedIds) (dated : c.modified.FourDigitYear) (programId : String)
    (targets : List String) :
    Kept cfg { s with
      events := s.events ++ [⟨programId, targets, c.listed cfg.adapter cfg.ops⟩]
      usedIds := c.id :: s.usedIds
      created := c :: s.created } := by
  obtain ⟨unnoted, whole, none_⟩ := kept.known.unknown plain new
  have nothing : s.ven.carriedOut c.id c.modified = [] :=
    List.filter_eq_nil_iff.mpr fun d mem same => none_ d mem (of_decide_eq_true same).1
  have appended := kept.append ⟨programId, targets, c.listed cfg.adapter cfg.ops⟩ plain new
    dated
  have fresh : ∀ e ∈ s.events, e.event.id ≠ c.id := fun e mem same => new (same ▸ kept.there e mem)
  refine { appended with used := ?_, once := ?_, own := ?_ }
  · exact List.forall_mem_cons.mpr ⟨List.mem_cons_self, appended.used⟩
  · refine List.nodup_cons.mpr ⟨fun again => ?_, kept.once⟩
    obtain ⟨d, mem, same⟩ := List.mem_map.mp again
    exact new (same ▸ kept.used d mem)
  · refine List.forall_mem_cons.mpr ⟨⟨.inl nothing, ?_, fun _ => ⟨?_, ?_⟩⟩, fun d mem => ?_⟩
    · refine List.forall_mem_append.mpr ⟨fun e mem same => absurd same (fresh e mem), ?_⟩
      exact List.forall_mem_singleton.mpr fun _ =>
        .inl ⟨rfl, whole, fun _ => .inl ⟨unnoted, nothing⟩⟩
    · exact fun d mem same => absurd same (none_ d mem)
    · refine List.forall_mem_append.mpr ⟨fun e mem same => absurd same (fresh e mem), ?_⟩
      exact List.forall_mem_singleton.mpr fun _ => rfl
    · exact { appended.own d mem with }

/-- A restart takes from the listener nothing but what it can load again. -/
theorem Kept.restartVen (kept : Kept cfg s) : Kept cfg { s with ven := s.ven.restart } :=
  { kept with
    known := kept.known.restart
    own := fun c mem => { kept.own c mem with } }

theorem le_latest (now : DateTime) (last : Option DateTime) :
    now ≤ latest now last ∧ ∀ l ∈ last, l ≤ latest now last := by
  have refl (t : DateTime) : t ≤ t := .inr ⟨rfl, Nat.le_refl _⟩
  cases last with
  | none => exact ⟨refl now, fun l mem => by cases mem⟩
  | some last =>
    by_cases earlier : last ≤ now
    · have is : latest now (some last) = now := if_pos earlier
      rw [is]
      exact ⟨refl now, fun l mem => Option.mem_some.mp mem ▸ earlier⟩
    · have is : latest now (some last) = last := if_neg earlier
      rw [is]
      exact ⟨DateTime.le_of_not_le earlier, fun l mem => Option.mem_some.mp mem ▸ refl last⟩

end FlexRelay

end AggregatorBridge
