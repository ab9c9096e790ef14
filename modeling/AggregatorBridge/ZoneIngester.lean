import AggregatorBridge.Settlement
import AggregatorBridge.Lib.Text

/-!
# The zone ingester

A reading reaches billing over a Redis stream. The zone loop reads entries with `XREADGROUP`
and spawns a task for each; the task adds the reading to its bin and then acknowledges the
entry. What was delivered and not acknowledged is pending, and a redelivery loop claims entries
that have been pending for half a minute and handles them as if they were new.

`BillingReading.ofDevice` is the first half of `handle_iot_reading`, from the device's doubles
to the arguments of `handle_reading`. `Zone` is one stream with its consumer group, its tasks
and everything behind them, with the single commands as steps: a command can fail before or
after it took effect, and the process can die between any two.

`XADD` is given a maximum length, so it may trim the oldest entries; how many is up to Redis. An
entry that is gone is not delivered any more. It stays on the pending list if it is there, is listed
by `XPENDING`, and an `XCLAIM` takes it off the list instead of handing it out, as Redis does since
version 7. A task that has an entry keeps it. Here it may trim as much as it likes: the router says
what its maximum is.
-/

namespace AggregatorBridge

open Remote

/-! ## From a device reading to a billing reading -/

/-- The conversions from doubles to decimals that billing uses. -/
structure DecimalCodec (F : Type) where
  /-- `Decimal::from_f64_retain`; nothing for what is not finite. -/
  fromF64Retain : F → Option ℚ
  abs : F → F
  /-- `x > 0.0`. -/
  isPositive : F → Bool

variable {F : Type} [Float64 F]

/-- `to_positive_decimal(val).unwrap_or(Decimal::ZERO)`. -/
def DecimalCodec.positiveOrZero (codec : DecimalCodec F) (val : F) : ℚ :=
  match codec.fromF64Retain val with
  | some dec => if dec < 0 then 0 else dec
  | none => 0

/-- The generated and the consumed energy that a reading is billed with. -/
def billedEnergies (codec : DecimalCodec F) : DeviceMetrics F → ℚ × ℚ
  | .energy generatedKwh consumedKwh _ =>
    (codec.positiveOrZero generatedKwh, codec.positiveOrZero consumedKwh)
  | .evSession energyDeliveredKwh _ _ _ => (0, codec.positiveOrZero energyDeliveredKwh)
  | .batteryState _ powerKw _ .charging => (0, codec.positiveOrZero (codec.abs powerKw))
  | .batteryState _ powerKw _ .discharging => (codec.positiveOrZero (codec.abs powerKw), 0)
  | .batteryState _ _ _ .idle => (0, 0)

/-- `extract_tariff_demand`: the tariff as a byte, and the power if it is imported. -/
def extractTariffDemand (codec : DecimalCodec F) (metadata : List (String × Json F)) :
    Option Nat × Option ℚ :=
  (((metadata.lookup "active_tariff").bind Json.asU64).map (· % 256),
    (((metadata.lookup "sum_active_power_kw").bind Json.asF64).filter codec.isPositive).bind
      codec.fromF64Retain)

/-- What `handle_iot_reading` passes to `handle_reading`, with the user it resolved. -/
def BillingReading.ofDevice (codec : DecimalCodec F) (newV5 : String → Uuid) (userId : Uuid)
    (reading : DeviceReading F) : BillingReading where
  meterId := newV5 reading.serialNumber
  userId := userId
  meterSerial := reading.serialNumber
  generated := (billedEnergies codec reading.metrics).1
  consumed := (billedEnergies codec reading.metrics).2
  timestamp := reading.timestamp
  tariffPeriod := (extractTariffDemand codec reading.metadata).1
  demandKw := (extractTariffDemand codec reading.metadata).2
  zoneCode := reading.zoneCode.bind fun zone => Text.parseUnsigned 65536 (Text.trim zone)

/-- The bin of a reading, whoever its user is. -/
def DeviceReading.binKey (newV5 : String → Uuid) (reading : DeviceReading F) : BinKey :=
  (newV5 reading.serialNumber, windowStart reading.timestamp)

/-! ## The stream -/

/-- What a stream entry turns out to be. -/
inductive EntryPayload (F : Type) where
  | reading (reading : DeviceReading F)
  | otherEvent
  /-- Decoded, but no event. -/
  | unparsable
  /-- Malformed, sealed without a cipher, or sealed under another key. -/
  | undecodable
  /-- There is no `event` field. -/
  | noEvent

/-- A delivered entry on its way through `handle_iot_reading` and `ack_entry`. -/
inductive TaskStage where
  | handle
  | ack
  deriving DecidableEq

/-- The task of one entry; an entry can have several. -/
structure ZoneTask where
  entry : Nat
  stage : TaskStage
  deriving DecidableEq

/-- What a task of the zone loop does with an entry. An entry without an event is left
alone, and so is one that does not parse. -/
def EntryPayload.spawned : EntryPayload F → Option TaskStage
  | reading _ => some .handle
  | otherEvent => some .ack
  | unparsable => none
  | undecodable => some .ack
  | noEvent => none

/-- What the redelivery loop does with an entry. Here an entry without an event is
acknowledged. -/
def EntryPayload.reclaimed : EntryPayload F → Option TaskStage
  | reading _ => some .handle
  | otherEvent => some .ack
  | unparsable => none
  | undecodable => some .ack
  | noEvent => some .ack

/-- `XREADGROUP … COUNT`. -/
def readCount : Nat := 25

/-- `XPENDING … COUNT`. -/
def pendingCount : Nat := 50

/-- The idle time from which on an entry is claimed, in milliseconds. -/
def minIdleMs : Int := 30000

/-- One stream, its consumer group, and billing behind it. -/
structure Zone (F : Type) where
  /-- The entries in the order of their ids. -/
  entries : List (EntryPayload F)
  /-- How many of them, the oldest first, were trimmed. -/
  gone : Nat
  /-- What is before it was read by the group, or was gone when the group came there. -/
  cursor : Nat
  /-- The pending entries with the time they were delivered last, oldest entry first. -/
  pending : List (Nat × Int)
  clock : Int
  tasks : List ZoneTask
  /-- What the passes of the redelivery loop are about to claim. -/
  claims : List (List Nat)
  world : World Nat

namespace Zone

/-- An empty stream and a fresh process. -/
def init : Zone F :=
  ⟨[], 0, 0, [], 0, [], [], World.init⟩

/-- A step of the router, of Redis, of the two loops, of a task, or of the settlement behind them.
-/
inductive Event (F : Type) where
  /-- `Router::disseminate` appends an entry, and up to `trim` of the oldest ones are gone. -/
  | xadd (payload : EntryPayload F) (trim : Nat)
  | tick (ms : Nat)
  | xreadgroup (reply : Reply)
  /-- A pass of the redelivery loop looks for stale entries. -/
  | xpending
  | xclaim (pass : Nat) (reply : Reply)
  /-- A task runs the locked section of `handle_iot_reading`. -/
  | handle (task : Nat) (now : DateTime) (userId : Uuid)
  | xack (task : Nat) (reply : Reply)
  /-- The parties behind the ingester move, or the process restarts. -/
  | settle (e : World.Event Nat)

/-- The tasks that are spawned for some entries. -/
def tasksFor (z : Zone F) (stageOf : EntryPayload F → Option TaskStage) (ids : List Nat) :
    List ZoneTask :=
  ids.filterMap fun id => (z.entries[id]?.bind stageOf).map fun stage => ⟨id, stage⟩

/-- Marks an entry as delivered now. -/
def deliver (now : Int) (pending : List (Nat × Int)) (id : Nat) : List (Nat × Int) :=
  if pending.any (·.1 = id) then pending.map fun p => if p.1 = id then (id, now) else p
  else pending ++ [(id, now)]

/-- A delivery moves nothing that is listed already. -/
theorem ids_deliver (now : Int) (pending : List (Nat × Int)) (id : Nat) :
    (deliver now pending id).map Prod.fst =
      if pending.any (·.1 = id) then pending.map Prod.fst else pending.map Prod.fst ++ [id] := by
  unfold deliver
  split
  · rw [List.map_map]
    refine List.map_congr_left fun p _ => ?_
    simp only [Function.comp_apply]
    split
    · next here => exact here.symm
    · rfl
  · rw [List.map_append]
    rfl

theorem ids_deliverAll (now : Int) (pending : List (Nat × Int)) (ids : List Nat) :
    pending.map Prod.fst <+: (ids.foldl (deliver now) pending).map Prod.fst := by
  induction ids generalizing pending with
  | nil => exact List.prefix_rfl
  | cons id ids ih =>
    have one : pending.map Prod.fst <+: (deliver now pending id).map Prod.fst := by
      rw [ids_deliver]
      split
      · exact List.prefix_rfl
      · exact List.prefix_append _ _
    exact one.trans (ih _)

theorem mem_deliver {now : Int} {pending : List (Nat × Int)} {id : Nat} {p : Nat × Int}
    (mem : p ∈ deliver now pending id) : (∃ q ∈ pending, q.1 = p.1) ∨ p.1 = id := by
  unfold deliver at mem
  split at mem
  · obtain ⟨q, listed, rfl⟩ := List.mem_map.mp mem
    split
    · exact .inr rfl
    · exact .inl ⟨q, listed, rfl⟩
  · rcases List.mem_append.mp mem with before | new
    · exact .inl ⟨p, before, rfl⟩
    · rw [List.mem_singleton.mp new]
      exact .inr rfl

theorem mem_deliverAll {now : Int} {pending : List (Nat × Int)} {ids : List Nat} {p : Nat × Int}
    (mem : p ∈ ids.foldl (deliver now) pending) : (∃ q ∈ pending, q.1 = p.1) ∨ p.1 ∈ ids := by
  induction ids generalizing pending with
  | nil => exact .inl ⟨p, mem, rfl⟩
  | cons id ids ih =>
    rcases ih mem with ⟨q, listed, same⟩ | later
    · rcases mem_deliver listed with ⟨q', listed', same'⟩ | here
      · exact .inl ⟨q', listed', same'.trans same⟩
      · right
        rw [← same, here]
        exact List.mem_cons_self
    · exact .inr (List.mem_cons_of_mem _ later)

/-- An entry is appended, and others may be trimmed. -/
def xadd (z : Zone F) (payload : EntryPayload F) (trim : Nat) : Zone F :=
  { z with
    entries := z.entries ++ [payload]
    gone := max z.gone (min trim (z.entries.length + 1)) }

/-- Where the group goes on reading. -/
def next (z : Zone F) : Nat :=
  max z.cursor z.gone

/-- The next entries the group has not read. -/
def unread (z : Zone F) : List Nat :=
  List.range' z.next (min readCount (z.entries.length - z.next))

/-- `XREADGROUP … >`. Where only the answer is lost, the entries are pending and nobody has
them. -/
def xreadgroup (z : Zone F) (reply : Reply) : Zone F :=
  if reply.took then
    { z with
      cursor := z.next + z.unread.length
      pending := z.unread.foldl (deliver z.clock) z.pending
      tasks := z.tasks ++ if reply = .ok then z.tasksFor EntryPayload.spawned z.unread else [] }
  else z

/-- The pending entries among the first fifty that have been idle long enough. -/
def stale (z : Zone F) : List Nat :=
  ((z.pending.take pendingCount).filter fun p => minIdleMs ≤ z.clock - p.2).map Prod.fst

/-- What an `XCLAIM` gets: it checks again that an entry is there, pending and idle. -/
def claimable (z : Zone F) (ids : List Nat) : List Nat :=
  ids.filter fun id =>
    z.gone ≤ id && z.pending.any fun p => p.1 = id ∧ minIdleMs ≤ z.clock - p.2

/-- What an `XCLAIM` leaves pending: of the entries it was asked for, those that are gone go. -/
def cleared (z : Zone F) (ids : List Nat) : List (Nat × Int) :=
  z.pending.filter fun p => p.1 ∉ ids ∨ z.gone ≤ p.1

/-- `XCLAIM` of what a pass has found stale. What was trimmed meanwhile goes off the pending list,
and a reply that is lost has claimed all the same. -/
def xclaim (z : Zone F) (pass : Nat) (reply : Reply) : Option (Zone F) := do
  let ids ← z.claims[pass]?
  let z := { z with claims := z.claims.eraseIdx pass }
  if reply.took then
    some { z with
      pending := (z.claimable ids).foldl (deliver z.clock) (z.cleared ids)
      tasks := z.tasks ++
        if reply = .ok then z.tasksFor EntryPayload.reclaimed (z.claimable ids) else [] }
  else some z

/-- The locked section of `handle_iot_reading`. -/
def handle (codec : DecimalCodec F) (cfg : SettlementConfig) (z : Zone F) (i : Nat)
    (now : DateTime) (userId : Uuid) : Option (Zone F) := do
  let task ← z.tasks[i]?
  match task.stage, z.entries[task.entry]? with
  | .handle, some (.reading reading) =>
    let r := BillingReading.ofDevice codec cfg.newV5 userId reading
    let world ← z.world.handle cfg now task.entry r
    some { z with world := world, tasks := z.tasks.set i ⟨task.entry, .ack⟩ }
  | _, _ => none

/-- `XACK`, its error only logged: the task is over either way. -/
def xack (z : Zone F) (i : Nat) (reply : Reply) : Option (Zone F) := do
  let task ← z.tasks[i]?
  if task.stage = .ack then
    some { z with
      tasks := z.tasks.eraseIdx i
      pending := reply.effect (·.filter fun p => p.1 ≠ task.entry) z.pending }
  else none

/-- The parties behind the ingester. A restart takes the tasks and the passes with it. -/
def settle (cfg : SettlementConfig) (z : Zone F) (e : World.Event Nat) : Option (Zone F) :=
  match e with
  | .handle _ _ _ => none
  | .restart _ => (z.world.step cfg e).map fun world =>
      { z with world := world, tasks := [], claims := [] }
  | _ => (z.world.step cfg e).map fun world => { z with world := world }

/-- The loops and the tasks move in any order. -/
def step (codec : DecimalCodec F) (cfg : SettlementConfig) (z : Zone F) :
    Event F → Option (Zone F)
  | .xadd payload trim => some (z.xadd payload trim)
  | .tick ms => some { z with clock := z.clock + ms }
  | .xreadgroup reply => some (z.xreadgroup reply)
  | .xpending => some { z with claims := z.claims ++ [z.stale] }
  | .xclaim pass reply => z.xclaim pass reply
  | .handle task now userId => handle codec cfg z task now userId
  | .xack task reply => z.xack task reply
  | .settle e => settle cfg z e

/-! ## The steps as cases -/

/-- What a step can be, with what it found and what it left. -/
inductive Moves (codec : DecimalCodec F) (cfg : SettlementConfig) (z : Zone F) :
    Event F → Zone F → Prop
  | added {payload : EntryPayload F} {trim : Nat} :
      Moves codec cfg z (.xadd payload trim)
        { z with
          entries := z.entries ++ [payload]
          gone := max z.gone (min trim (z.entries.length + 1)) }
  | ticked {ms : Nat} : Moves codec cfg z (.tick ms) { z with clock := z.clock + ms }
  | read :
      Moves codec cfg z (.xreadgroup .ok)
        { z with
          cursor := z.next + z.unread.length
          pending := z.unread.foldl (deliver z.clock) z.pending
          tasks := z.tasks ++ z.tasksFor EntryPayload.spawned z.unread }
  | readLost :
      Moves codec cfg z (.xreadgroup .lost)
        { z with
          cursor := z.next + z.unread.length
          pending := z.unread.foldl (deliver z.clock) z.pending }
  | unread : Moves codec cfg z (.xreadgroup .failed) z
  | looked : Moves codec cfg z .xpending { z with claims := z.claims ++ [z.stale] }
  | claimed {pass : Nat} {ids : List Nat} (found : z.claims[pass]? = some ids) :
      Moves codec cfg z (.xclaim pass .ok)
        { z with
          claims := z.claims.eraseIdx pass
          pending := (z.claimable ids).foldl (deliver z.clock) (z.cleared ids)
          tasks := z.tasks ++ z.tasksFor EntryPayload.reclaimed (z.claimable ids) }
  | claimLost {pass : Nat} {ids : List Nat} (found : z.claims[pass]? = some ids) :
      Moves codec cfg z (.xclaim pass .lost)
        { z with
          claims := z.claims.eraseIdx pass
          pending := (z.claimable ids).foldl (deliver z.clock) (z.cleared ids) }
  | unclaimed {pass : Nat} :
      Moves codec cfg z (.xclaim pass .failed) { z with claims := z.claims.eraseIdx pass }
  | handled {i id : Nat} {now : DateTime} {userId : Uuid} {reading : DeviceReading F}
      {world : World Nat} (at_ : z.tasks[i]? = some ⟨id, .handle⟩)
      (here : z.entries[id]? = some (.reading reading))
      (moved : z.world.step cfg (.handle now id (.ofDevice codec cfg.newV5 userId reading)) =
        some world) :
      Moves codec cfg z (.handle i now userId)
        { z with world := world, tasks := z.tasks.set i ⟨id, .ack⟩ }
  | acked {i : Nat} {reply : Reply} {task : ZoneTask} (at_ : z.tasks[i]? = some task) :
      Moves codec cfg z (.xack i reply)
        { z with
          tasks := z.tasks.eraseIdx i
          pending := reply.effect (·.filter fun p => p.1 ≠ task.entry) z.pending }
  | restarted {loaded : Bool} {world : World Nat}
      (moved : z.world.step cfg (.restart loaded) = some world) :
      Moves codec cfg z (.settle (.restart loaded))
        { z with world := world, tasks := [], claims := [] }
  | settled {e : World.Event Nat} {world : World Nat}
      (moved : z.world.step cfg e = some world) (reads : ∀ now id r, e ≠ .handle now id r)
      (runs : ∀ loaded, e ≠ .restart loaded) :
      Moves codec cfg z (.settle e) { z with world := world }

variable {codec : DecimalCodec F} {cfg : SettlementConfig} {z t : Zone F} {e : Event F}

theorem moves_of_xclaim {pass : Nat} {reply : Reply} (moved : z.xclaim pass reply = some t) :
    Moves codec cfg z (.xclaim pass reply) t := by
  obtain ⟨ids, found, moved⟩ := Option.bind_eq_some_iff.mp moved
  cases reply with
  | ok =>
    cases moved
    exact .claimed found
  | lost =>
    have same : { z with
        claims := z.claims.eraseIdx pass
        pending := (z.claimable ids).foldl (deliver z.clock) (z.cleared ids)
        tasks := z.tasks ++ [] } = t := Option.some.inj moved
    rw [List.append_nil] at same
    exact same ▸ .claimLost found
  | failed =>
    cases moved
    exact .unclaimed

theorem moves_of_handle {i : Nat} {now : DateTime} {userId : Uuid}
    (moved : handle codec cfg z i now userId = some t) :
    Moves codec cfg z (.handle i now userId) t := by
  obtain ⟨task, at_, moved⟩ := Option.bind_eq_some_iff.mp moved
  split at moved
  · next reading stage here =>
    obtain ⟨world, handled, moved⟩ := Option.bind_eq_some_iff.mp moved
    cases moved
    obtain ⟨id, _⟩ := task
    cases stage
    exact .handled at_ here handled
  · cases moved

theorem moves_of_settle {e : World.Event Nat} (moved : settle cfg z e = some t) :
    Moves codec cfg z (.settle e) t := by
  unfold settle at moved
  split at moved
  · cases moved
  · obtain ⟨world, settled, rfl⟩ := Option.map_eq_some_iff.mp moved
    exact .restarted settled
  · next reads runs =>
    obtain ⟨world, settled, rfl⟩ := Option.map_eq_some_iff.mp moved
    exact .settled settled reads runs

/-- Every step of the worker is one of these, with what it found in the stream and on the pending
list. -/
theorem moves_of_step (moved : step codec cfg z e = some t) : Moves codec cfg z e t := by
  cases e with
  | xadd payload trim =>
    cases moved
    exact .added
  | tick ms =>
    cases moved
    exact .ticked
  | xreadgroup reply =>
    cases reply with
    | ok =>
      cases moved
      exact .read
    | lost =>
      have same : { z with
          cursor := z.next + z.unread.length
          pending := z.unread.foldl (deliver z.clock) z.pending
          tasks := z.tasks ++ [] } = t := Option.some.inj moved
      rw [List.append_nil] at same
      exact same ▸ .readLost
    | failed =>
      cases moved
      exact .unread
  | xpending =>
    cases moved
    exact .looked
  | xclaim pass reply => exact moves_of_xclaim moved
  | handle i now userId => exact moves_of_handle moved
  | xack i reply =>
    obtain ⟨task, at_, moved⟩ := Option.bind_eq_some_iff.mp moved
    split at moved
    · cases moved
      exact .acked at_
    · cases moved
  | settle e => exact moves_of_settle moved

end Zone

/-! ## Readings to run with -/

/-- Doubles that are decimals already. -/
def exactCodec : DecimalCodec ℚ where
  fromF64Retain x := some x
  abs x := if x < 0 then -x else x
  isPositive x := decide (0 < x)

/-- The meter `MTR-1` has generated energy. -/
def generatedAt (secs : Int) (kwh : ℚ) : DeviceReading ℚ where
  readingId := 1
  deviceId := "d-1"
  deviceType := .smartMeter
  serialNumber := "MTR-1"
  zoneCode := some "1"
  timestamp := DateTime.ofSecs secs
  metrics := .energy kwh 0 kwh
  metadata := []

end AggregatorBridge
