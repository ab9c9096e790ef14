import AggregatorBridge.Lib.Pool

/-!
# The Kafka producer and its rebuild

A producer whose socket is dead times out on every message, and does not recover by itself. So the
producer is behind a lock, each call sends over a copy of what is in it, and after ten failed
deliveries in a row a call puts a new one there. The failures are counted in one atomic number,
which every delivery and every rebuild sets back to zero.

A call is a process, and every access to the lock and to the number is a move, one after the other.
Nobody waits for the lock to rebuild, and a reader may be what is in the way. A future is dropped only
where it waits. The number has 32 bits. `marks` is what was done to it, the latest first, and
producers are numbered; nobody looks at either.
-/

namespace AggregatorBridge

/-- `REBUILD_AFTER_FAILURES`. -/
def rebuildAfterFailures : Nat := 10

/-- What is done to the number of failures. -/
inductive DeliveryMark where
  | delivered
  | failed
  | rebuilt
  deriving DecidableEq

/-- What the calls share. -/
structure AggregatorKafkaProducer where
  /-- How often the producer in the lock was replaced. -/
  producer : Nat
  /-- Somebody has the lock to write. -/
  locked : Bool
  consecutiveFailures : Nat
  marks : List DeliveryMark

/-- A call of `publish_meter_reading` or `publish_grid_status`. -/
inductive PublishCall where
  /-- It is to copy what is in the lock. -/
  | cloning
  | sending (producer : Nat)
  /-- The message was delivered, or not; the call is to mark it. -/
  | delivered
  | undelivered
  /-- There were enough failures: it is to try the lock. -/
  | crossing
  /-- With the lock. -/
  | checking
  | building
  | storing
  | releasing
  | ended (ok : Bool)
  deriving DecidableEq

namespace AggregatorKafkaProducer

/-- The awaits of a publish and the attempts at the lock, each with what came of it. -/
inductive Move where
  | clone
  | send (ok : Bool)
  | mark
  /-- `try_write`, with no reader in the way, or with one. -/
  | tryWrite (unread : Bool)
  | load
  | build (ok : Bool)
  | store
  | release
  | drop

/-- The producer as it is built first, with no failure counted. -/
def init : AggregatorKafkaProducer :=
  ⟨0, false, 0, []⟩

/-- `mark_success`. -/
def markSuccess (s : AggregatorKafkaProducer) : AggregatorKafkaProducer :=
  { s with consecutiveFailures := 0, marks := .delivered :: s.marks }

/-- The `fetch_add` of `mark_failure_and_maybe_rebuild`. -/
def markFailure (s : AggregatorKafkaProducer) : AggregatorKafkaProducer :=
  { s with
    consecutiveFailures := (s.consecutiveFailures + 1) % 2 ^ 32
    marks := .failed :: s.marks }

/-- A publish, move by move. The counter is shared, so the failure that makes a call rebuild may be
another call's. -/
def act (s : AggregatorKafkaProducer) :
    PublishCall → Move → Option (AggregatorKafkaProducer × PublishCall)
  | .cloning, .clone => if s.locked then none else some (s, .sending s.producer)
  | .sending _, .send ok => some (s, if ok then .delivered else .undelivered)
  | .delivered, .mark => some (s.markSuccess, .ended true)
  | .undelivered, .mark =>
    let s := s.markFailure
    some (s, if s.consecutiveFailures < rebuildAfterFailures then .ended false else .crossing)
  | .crossing, .tryWrite unread =>
    if unread ∧ ¬ s.locked then some ({ s with locked := true }, .checking)
    else some (s, .ended false)
  | .checking, .load =>
    some (s, if s.consecutiveFailures < rebuildAfterFailures then .releasing else .building)
  | .building, .build ok =>
    if ok then some ({ s with producer := s.producer + 1 }, .storing) else some (s, .releasing)
  | .storing, .store =>
    some ({ s with consecutiveFailures := 0, marks := .rebuilt :: s.marks }, .releasing)
  | .releasing, .release => some ({ s with locked := false }, .ended false)
  | .cloning, .drop => some (s, .ended false)
  | .sending _, .drop => some (s, .ended false)
  | _, _ => none

/-- Any number of calls. -/
def system : Pool.System AggregatorKafkaProducer PublishCall Move Empty where
  admits call := call = .cloning
  act := act
  world _ e := e.elim

/-- What a move of a call can be. -/
inductive Acts (s : AggregatorKafkaProducer) :
    PublishCall → Move → AggregatorKafkaProducer → PublishCall → Prop
  | cloned (unlocked : s.locked = false) : Acts s .cloning .clone s (.sending s.producer)
  | sent (producer : Nat) (ok : Bool) :
      Acts s (.sending producer) (.send ok) s (if ok then .delivered else .undelivered)
  | succeeded : Acts s .delivered .mark s.markSuccess (.ended true)
  | counted (few : s.markFailure.consecutiveFailures < rebuildAfterFailures) :
      Acts s .undelivered .mark s.markFailure (.ended false)
  | crossed (many : ¬ s.markFailure.consecutiveFailures < rebuildAfterFailures) :
      Acts s .undelivered .mark s.markFailure .crossing
  | locked (unlocked : s.locked = false) :
      Acts s .crossing (.tryWrite true) { s with locked := true } .checking
  | skipped (unread : Bool) : Acts s .crossing (.tryWrite unread) s (.ended false)
  | reset (few : s.consecutiveFailures < rebuildAfterFailures) :
      Acts s .checking .load s .releasing
  | decided (many : ¬ s.consecutiveFailures < rebuildAfterFailures) :
      Acts s .checking .load s .building
  | built : Acts s .building (.build true) { s with producer := s.producer + 1 } .storing
  | unbuilt : Acts s .building (.build false) s .releasing
  | stored : Acts s .storing .store
      { s with consecutiveFailures := 0, marks := .rebuilt :: s.marks } .releasing
  | released : Acts s .releasing .release { s with locked := false } (.ended false)
  | dropped (call : PublishCall) (waits : call = .cloning ∨ ∃ producer, call = .sending producer) :
      Acts s call .drop s (.ended false)

variable {s t : AggregatorKafkaProducer} {call after : PublishCall} {move : Move}

/-- Every move of a publish is one of these. -/
theorem acts_of_act (acted : act s call move = some (t, after)) : Acts s call move t after := by
  unfold act at acted
  split at acted
  · split at acted
    · cases acted
    · next unlocked =>
      cases acted
      exact .cloned (Bool.eq_false_iff.mpr unlocked)
  · cases acted
    exact .sent _ _
  · cases acted
    exact .succeeded
  · dsimp only at acted
    cases acted
    split
    · next few => exact .counted few
    · next many => exact .crossed many
  · split at acted
    · next free =>
      cases acted
      obtain ⟨rfl, unlocked⟩ := free
      exact .locked (Bool.eq_false_iff.mpr unlocked)
    · cases acted
      exact .skipped _
  · cases acted
    split
    · next few => exact .reset few
    · next many => exact .decided many
  · split at acted
    · next ok =>
      cases acted
      cases ok
      exact .built
    · next notOk =>
      cases acted
      rw [Bool.eq_false_iff.mpr notOk]
      exact .unbuilt
  · cases acted
    exact .stored
  · cases acted
    exact .released
  · cases acted
    exact .dropped _ (.inl rfl)
  · cases acted
    exact .dropped _ (.inr ⟨_, rfl⟩)
  · cases acted

end AggregatorKafkaProducer

end AggregatorBridge
