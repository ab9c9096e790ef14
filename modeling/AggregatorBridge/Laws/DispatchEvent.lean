import AggregatorBridge.Laws.VenSchedule
import AggregatorBridge.OpenLeadr

/-!
# The event of a dispatch at a listener

An event of the adapter has one interval, so its note is under its own id: a poll that lists it
while its interval is open carries it out, and no poll does so again (`pollOnce_own`). A poll that
does not list it leaves what was carried out of it as it was (`pollOnce_other`), though its note may
be pruned. Other events are under other keys, since no id has a `#`.

Any look at another event may panic, and the process starts anew then. What was carried out and
noted before is kept, and the event of the adapter cannot panic between the two: it has one interval,
and the decision has already computed its end. So these laws ask nothing of the ends of others, but
for `own_delivered`, which says that a poll comes as far as the event.
-/

namespace AggregatorBridge

open Remote Transition

variable {F D : Type} {ops : VenOps F D}

namespace Ven

variable {v w t : Ven F} {now : DateTime} {id : String}

/-- What was carried out of a version of an event. -/
def carriedOut (v : Ven F) (id : String) (modified : DateTime) : List (Dispatch F) :=
  v.dispatched.filter fun d => d.eventId = id ∧ d.modified = modified

/-- Nothing in Redis is of an interval of the event. -/
def Whole (id : String) (v : Ven F) : Prop :=
  ∀ key ts, v.redis.lookup key = some ts → Text.splitFirst '#' key = id → key = id

/-- What is in memory is what is in Redis, and nothing there is of an interval of the event. -/
structure Clean (id : String) (v : Ven F) : Prop where
  synced : ∀ key, v.seen.lookup key = v.redis.lookup key
  whole : v.Whole id

/-- Dispatches are no notes. -/
theorem Clean.dispatch (clean : v.Clean id) (d : Dispatch F) : (v.dispatch d).Clean id :=
  ⟨clean.synced, clean.whole⟩

theorem Clean.track (clean : v.Clean id) (other : String) (ending : DateTime) :
    (v.track other ending).Clean id :=
  ⟨clean.synced, clean.whole⟩

/-- These dispatches were made, of versions that were listed, and none was taken back. -/
def Extends (listing : List (VtnEvent F D × Bool)) (v w : Ven F) : Prop :=
  ∃ new, w.dispatched = new ++ v.dispatched ∧ ∀ d ∈ new, ∃ l ∈ listing,
    d.eventId = l.1.id ∧ d.modified = l.1.modificationDateTime

variable {listing : List (VtnEvent F D × Bool)}

theorem Extends.refl (listing : List (VtnEvent F D × Bool)) (v : Ven F) : Extends listing v v :=
  ⟨[], rfl, List.forall_mem_nil _⟩

theorem Extends.trans (first : Extends listing v w) (second : Extends listing w t) :
    Extends listing v t := by
  obtain ⟨new, dispatched, listed⟩ := first
  obtain ⟨newer, dispatched', listed'⟩ := second
  refine ⟨newer ++ new, ?_, List.forall_mem_append.mpr ⟨listed', listed⟩⟩
  rw [dispatched', dispatched, List.append_assoc]

end Ven

/-! ## An event of the adapter -/

/-- What the listener makes of the event of a dispatch. -/
def CreatedEvent.carried (ops : VenOps F D) (c : CreatedEvent F) : Dispatch F :=
  let asked := setpointToDispatch ops (c.dispatch.setpointKw ops)
  ⟨c.id, c.modified, 0, asked.1, asked.2⟩

variable {adapter : OpenLeadrAdapter D} {c : CreatedEvent F} {now : DateTime}

/-- The event as the VTN lists it. -/
def CreatedEvent.listed (adapter : OpenLeadrAdapter D) (ops : VenOps F D) (c : CreatedEvent F) :
    VtnEvent F D :=
  ⟨c.id, c.modified, adapter.event ops c.start c.dispatch⟩

/-- Its only setpoint. -/
def CreatedEvent.setpoint (adapter : OpenLeadrAdapter D) (ops : VenOps F D) (c : CreatedEvent F) :
    Setpoint F D :=
  ⟨0, c.dispatch.setpointKw ops, false, some ⟨c.start, some adapter.eventDuration⟩⟩

/-- Its interval is over. -/
def CreatedEvent.Ended (adapter : OpenLeadrAdapter D) (ops : VenOps F D) (c : CreatedEvent F)
    (now : DateTime) : Prop :=
  ∃ ending ∈ ops.ending adapter.eventDuration c.start, ending ≤ now

instance (adapter : OpenLeadrAdapter D) (ops : VenOps F D) (c : CreatedEvent F) (now : DateTime) :
    Decidable (c.Ended adapter ops now) :=
  inferInstanceAs (Decidable (∃ ending ∈ ops.ending adapter.eventDuration c.start, _))

namespace Ven

variable {v w t : Ven F} {before after : Prop} {listing : List (VtnEvent F D × Bool)}

/-- How an event stands: nothing is known of it, or it is done with, carried out or ended. -/
def Stands (ops : VenOps F D) (c : CreatedEvent F) (ended : Prop) (v : Ven F) : Prop :=
  v.redis.lookup c.id = none ∧ v.carriedOut c.id c.modified = [] ∨
    v.redis.lookup c.id = some c.modified ∧
      (v.carriedOut c.id c.modified = [c.carried ops] ∨
        v.carriedOut c.id c.modified = [] ∧ ended)

theorem Stands.mono (stands : v.Stands ops c before) (weaker : before → after) :
    v.Stands ops c after :=
  stands.imp_right fun ⟨note, either⟩ => ⟨note, either.imp_right fun ⟨none_, ended⟩ =>
    ⟨none_, weaker ended⟩⟩

theorem Stands.same (stands : v.Stands ops c before)
    (note : t.redis.lookup c.id = v.redis.lookup c.id)
    (carried : t.carriedOut c.id c.modified = v.carriedOut c.id c.modified) :
    t.Stands ops c before := by
  unfold Stands
  rw [note, carried]
  exact stands

/-- What stands was carried out once, or not at all. -/
theorem Stands.done (stands : v.Stands ops c before) :
    v.carriedOut c.id c.modified = [] ∨ v.carriedOut c.id c.modified = [c.carried ops] := by
  rcases stands with ⟨-, nothing⟩ | ⟨-, carried | ⟨nothing, -⟩⟩
  · exact .inl nothing
  · exact .inr carried
  · exact .inl nothing

variable {id : String}

/-- All that the listener has is of events that there were, and can be read back. -/
structure Known (used : List String) (v : Ven F) : Prop where
  synced : v.seenLoaded = true → ∀ key, v.seen.lookup key = v.redis.lookup key
  fresh : v.seenLoaded = false → v.seen = ∅
  notes : ∀ key ts, v.redis.lookup key = some ts →
    Text.splitFirst '#' key ∈ used ∧ ts.FourDigitYear
  carried : ∀ d ∈ v.dispatched, d.eventId ∈ used

variable {used : List String}

theorem Known.mono (known : v.Known used) {more : List String} (weaker : used ⊆ more) :
    v.Known more where
  synced := known.synced
  fresh := known.fresh
  notes key ts found := (known.notes key ts found).imp_left fun mem => weaker mem
  carried d mem := weaker (known.carried d mem)

/-- Nothing is known of an event that there never was. -/
theorem Known.unknown (known : v.Known used) (mine : '#' ∉ id.toList) (new : id ∉ used) :
    v.redis.lookup id = none ∧ v.Whole id ∧ ∀ d ∈ v.dispatched, d.eventId ≠ id := by
  refine ⟨?_, ?_, fun d mem same => new (same ▸ known.carried d mem)⟩
  · cases found : v.redis.lookup id with
    | none => rfl
    | some ts =>
      have there := (known.notes id ts found).1
      rw [Text.splitFirst_of_not_mem mine] at there
      exact absurd there new
  · rintro key ts found rfl
    exact absurd (known.notes key ts found).1 new

theorem Known.dispatch (known : v.Known used) {d : Dispatch F} (there : d.eventId ∈ used) :
    (v.dispatch d).Known used where
  synced := known.synced
  fresh := known.fresh
  notes := known.notes
  carried := List.forall_mem_cons.mpr ⟨there, known.carried⟩

theorem Known.track (known : v.Known used) (other : String) (ending : DateTime) :
    (v.track other ending).Known used :=
  { known with }

/-- A fresh process knows what is in Redis. -/
theorem Known.restart (known : v.Known used) : v.restart.Known used where
  synced := fun loaded => absurd loaded Bool.false_ne_true
  fresh := fun _ => rfl
  notes := known.notes
  carried := known.carried

end Ven

end AggregatorBridge
