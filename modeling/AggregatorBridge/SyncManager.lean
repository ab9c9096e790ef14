import AggregatorBridge.Chrono
import AggregatorBridge.Json
import AggregatorBridge.Lib.Pool

/-!
# The offline buffer and its replay

`CircularBuffer` is a table of readings in SQLite: a push appends a row, every hundredth push
deletes what is old and synced, and `SyncManager` reads the first fifty rows that are not synced,
sends them to the gateway one after the other until one fails, and marks those that went through.
The lock on the buffer is held by each of these operations, not between them.

SQLite keeps a table in the order of its row ids, and `AUTOINCREMENT` never gives an id twice, so
the table is a list to which rows are appended. How two timestamps compare in SQL, as texts, is a
parameter, and so are the texts of payloads. An `INSERT` that fails does not happen; any other
statement may fail, which ends the manager that issued it. The task of a manager may also be
dropped at any point, and the process may be started again, with the same file.

`pushed` and `delivered` are ghosts: what was pushed, and what the gateway confirmed.
-/

namespace AggregatorBridge

/-- A row of the table `telemetry`. -/
structure TelemetryRow where
  id : Nat
  meterId : String
  timestamp : DateTime
  payload : String
  synced : Bool
  deriving DecidableEq

/-- What the buffer takes from other crates. -/
structure BufferOps (F : Type) where
  /-- `timestamp < ?1`, of the two as they are stored. -/
  isBefore : DateTime → DateTime → Bool
  /-- `serde_json::to_string` and `serde_json::from_str`. -/
  payloadText : Json F → String
  readPayload : String → Option (Json F)

/-- The table of the buffer, with the state of its sequence and a count of what was pushed since the
process began. -/
structure CircularBuffer where
  rows : List TelemetryRow
  /-- The next id of the sequence. -/
  nextId : Nat
  pushCount : Nat
  deriving DecidableEq

namespace CircularBuffer

/-- A buffer over a new file. -/
def new : CircularBuffer :=
  ⟨[], 1, 0⟩

/-- How old the readings of the rows are that a cleanup removes; one that was not sent is never
removed. -/
def retentionHours : Nat := 24

/-- `DELETE FROM telemetry WHERE timestamp < ?1 AND synced = 1`. -/
def cleanup {F : Type} (ops : BufferOps F) (b : CircularBuffer) (now : DateTime) :
    CircularBuffer :=
  let cutoff := now.addSecs (-(retentionHours * 3600))
  { b with rows := b.rows.filter fun r => !(ops.isBefore r.timestamp cutoff && r.synced) }

/-- `push`. The cleanup may fail; the row is there then, too. -/
def push {F : Type} (ops : BufferOps F) (b : CircularBuffer) (meterId : String)
    (timestamp : DateTime) (payload : Json F) (now : DateTime) (cleaned : Bool) :
    CircularBuffer :=
  let b :=
    { rows := b.rows ++ [⟨b.nextId, meterId, timestamp, ops.payloadText payload, false⟩]
      nextId := b.nextId + 1
      pushCount := b.pushCount + 1 }
  if b.pushCount % 100 = 0 ∧ cleaned = true then b.cleanup ops now else b

/-- `UPDATE telemetry SET synced = 1 WHERE id IN (..)`. -/
def markAsSynced (b : CircularBuffer) (ids : List Nat) : CircularBuffer :=
  { b with rows := b.rows.map fun r => if r.id ∈ ids then { r with synced := true } else r }

/-- `SELECT .. WHERE synced = 0 ORDER BY id LIMIT ?`. -/
def getUnsynced (b : CircularBuffer) (limit : Nat) : List TelemetryRow :=
  (b.rows.filter fun r => !r.synced).take limit

end CircularBuffer

/-- A reading as it is pushed, and as `replay_body` sends it. -/
structure Replay (F : Type) where
  meterId : String
  timestamp : DateTime
  payload : Json F

/-- A row that the gateway confirmed. -/
structure Delivery (F : Type) where
  id : Nat
  body : Replay F

/-- The buffer, with a record of what was ever pushed and of what was ever delivered. -/
structure OfflineState (F : Type) where
  buffer : CircularBuffer
  pushed : List (Replay F)
  delivered : List (Delivery F)

/-- A task of `SyncManager::run`. -/
inductive SyncManager where
  /-- At the top of the loop. -/
  | idle
  /-- In the loop over a batch: the ids that were sent, and the rows that were not. -/
  | sending (batch : List TelemetryRow) (syncedIds : List Nat) (rest : List TelemetryRow)
  /-- Behind that loop, which was left at `failed` if a send failed. -/
  | marking (batch : List TelemetryRow) (syncedIds : List Nat) (failed : Option TelemetryRow)
  | ended

namespace Offline

variable {F : Type}

/-- The moves of one round of the manager. -/
inductive Move where
  | getUnsynced (ok : Bool)
  | send (ok : Bool)
  /-- The loop over the batch is over. -/
  | finish
  | markAsSynced (ok : Bool)
  | drop

/-- What others do: a reading is pushed, or the process starts over the same file. -/
inductive Outside (F : Type) where
  | push (meterId : String) (timestamp : DateTime) (payload : Json F) (now : DateTime)
      (cleaned : Bool)
  /-- The process opens the file anew. -/
  | reopen

/-- The body of a replayed row. A payload that does not parse is `null`. -/
def replayBody (ops : BufferOps F) (r : TelemetryRow) : Replay F :=
  ⟨r.meterId, r.timestamp, (ops.readPayload r.payload).getD .null⟩

/-- A round reads a batch, sends its rows one by one, and marks those that were confirmed; a drop in
between loses the marks. -/
def act (ops : BufferOps F) (s : OfflineState F) :
    SyncManager → Move → Option (OfflineState F × SyncManager)
  | .idle, .getUnsynced true =>
    match s.buffer.getUnsynced 50 with
    | [] => some (s, .idle)
    | batch => some (s, .sending batch [] batch)
  | .idle, .getUnsynced false => some (s, .ended)
  | .sending batch ids (r :: rest), .send true =>
    some ({ s with delivered := s.delivered ++ [⟨r.id, replayBody ops r⟩] },
      .sending batch (ids ++ [r.id]) rest)
  | .sending batch ids (r :: _), .send false => some (s, .marking batch ids (some r))
  | .sending batch ids [], .finish => some (s, .marking batch ids none)
  | .marking _ ids _, .markAsSynced true =>
    some ({ s with buffer := if ids.isEmpty then s.buffer else s.buffer.markAsSynced ids }, .idle)
  | .marking _ (_ :: _) _, .markAsSynced false => some (s, .ended)
  | _, .drop => some (s, .ended)
  | _, _ => none

/-- Pushes go on while a round is under way. -/
def world (ops : BufferOps F) (s : OfflineState F) : Outside F → Option (OfflineState F)
  | .push meterId timestamp payload now cleaned =>
    some { s with
      buffer := s.buffer.push ops meterId timestamp payload now cleaned
      pushed := s.pushed ++ [⟨meterId, timestamp, payload⟩] }
  | .reopen => some { s with buffer := { s.buffer with pushCount := 0 } }

/-- Any number of managers on one buffer. -/
def system (ops : BufferOps F) : Pool.System (OfflineState F) SyncManager Move (Outside F) where
  admits
    | .idle => true
    | _ => false
  act := act ops
  world := world ops

/-- An empty table, and nobody at work. -/
def start : Pool.State (OfflineState F) SyncManager :=
  ⟨⟨.new, [], []⟩, []⟩

/-- What a move of a manager can be. -/
inductive Acts (ops : BufferOps F) (s : OfflineState F) :
    SyncManager → Move → OfflineState F → SyncManager → Prop
  | slept (none_ : s.buffer.getUnsynced 50 = []) : Acts ops s .idle (.getUnsynced true) s .idle
  | fetched (some_ : s.buffer.getUnsynced 50 ≠ []) :
      Acts ops s .idle (.getUnsynced true) s
        (.sending (s.buffer.getUnsynced 50) [] (s.buffer.getUnsynced 50))
  | sent (batch : List TelemetryRow) (ids : List Nat) (r : TelemetryRow)
      (rest : List TelemetryRow) :
      Acts ops s (.sending batch ids (r :: rest)) (.send true)
        { s with delivered := s.delivered ++ [⟨r.id, replayBody ops r⟩] }
        (.sending batch (ids ++ [r.id]) rest)
  | failed (batch : List TelemetryRow) (ids : List Nat) (r : TelemetryRow)
      (rest : List TelemetryRow) :
      Acts ops s (.sending batch ids (r :: rest)) (.send false) s (.marking batch ids (some r))
  | finished (batch : List TelemetryRow) (ids : List Nat) :
      Acts ops s (.sending batch ids []) .finish s (.marking batch ids none)
  | marked (batch : List TelemetryRow) (ids : List Nat) (failed : Option TelemetryRow) :
      Acts ops s (.marking batch ids failed) (.markAsSynced true)
        { s with buffer := s.buffer.markAsSynced ids } .idle
  | stopped (p : SyncManager) (m : Move) (unsent : m ≠ .send true)
      (unmarked : m ≠ .markAsSynced true) : Acts ops s p m s .ended

theorem markAsSynced_nil (b : CircularBuffer) : b.markAsSynced [] = b := by
  simp [CircularBuffer.markAsSynced]

/-- Every move of a manager is one of these. -/
theorem acts_of_act {ops : BufferOps F} {s t : OfflineState F} {p q : SyncManager} {m : Move}
    (acted : act ops s p m = some (t, q)) : Acts ops s p m t q := by
  unfold act at acted
  split at acted
  · split at acted
    · next none_ =>
      cases acted
      exact .slept none_
    · next some_ =>
      cases acted
      exact .fetched fun none_ => some_ none_
  · cases acted
    exact .stopped _ _ nofun nofun
  · cases acted
    exact .sent _ _ _ _
  · cases acted
    exact .failed _ _ _ _
  · cases acted
    exact .finished _ _
  · next batch ids failed =>
    cases acted
    cases ids with
    | nil =>
      have same : Acts ops s (.marking batch [] failed) (.markAsSynced true)
          { s with buffer := s.buffer.markAsSynced [] } .idle :=
        .marked batch [] failed
      rw [markAsSynced_nil] at same
      exact same
    | cons id ids => exact .marked batch (id :: ids) failed
  · cases acted
    exact .stopped _ _ nofun nofun
  · cases acted
    exact .stopped _ _ nofun nofun
  · cases acted

end Offline

end AggregatorBridge
