import AggregatorBridge.SyncManager

/-!
# The offline buffer loses nothing

The `n`-th reading that is pushed has the id `n`. Three facts are kept by every operation:
a row that is marked was delivered, a reading that was not delivered has a row that is not
marked, and a batch holds, below each of its rows, every reading that was not delivered when it
was read. The last one is what makes the lock superfluous between reading a batch and marking it:
deliveries are only added, so a batch that is old sends again what was sent, but skips nothing.

`deliveredIds.eraseDups` are the first deliveries, in their order. They are `1, 2, ..`.

The law does not say that a reading is delivered in the end, and nothing keeps the gateway from
being sent a reading twice: a drop between sending and marking sends it again.
-/

namespace AggregatorBridge

open Transition

variable {F : Type}

def OfflineState.deliveredIds (s : OfflineState F) : List Nat :=
  s.delivered.map (·.id)

/-- The ids that occur, in the order of their first occurrence, are the numbers from one. -/
def FirstsInOrder (ids : List Nat) : Prop :=
  ∃ k, ids.eraseDups = List.range' 1 k

theorem firstsInOrder_nil : FirstsInOrder [] :=
  ⟨0, rfl⟩

/-- A number is added once all that are below it are there. -/
theorem FirstsInOrder.append {ids : List Nat} {id : Nat} (ordered : FirstsInOrder ids)
    (positive : 0 < id) (below : ∀ j, 0 < j → j < id → j ∈ ids) :
    FirstsInOrder (ids ++ [id]) := by
  obtain ⟨k, firsts⟩ := ordered
  have mem_iff : ∀ j, j ∈ ids ↔ 1 ≤ j ∧ j < 1 + k := fun j => by
    rw [← List.mem_eraseDups, firsts, List.mem_range'_1]
  rw [FirstsInOrder, List.eraseDups_append, firsts]
  by_cases old : id ∈ ids
  · refine ⟨k, ?_⟩
    simp [List.removeAll, old]
  · have next : id = 1 + k := by
      have above : ¬ (1 ≤ id ∧ id < 1 + k) := fun inside => old ((mem_iff id).mpr inside)
      by_cases one : id = 1
      · omega
      · have before := (mem_iff (id - 1)).mp (below (id - 1) (by omega) (by omega))
        omega
    have new : ([id].removeAll ids).eraseDups = [id] := by
      simp [List.removeAll, old, List.eraseDups_cons]
    exact ⟨k + 1, by rw [new, List.range'_concat, next, Nat.one_mul]⟩

/-- `l` goes up, and `r` is among its first `n`. So is what is below `r`. -/
theorem mem_take_of_lt {l : List TelemetryRow} {n : Nat} {x r : TelemetryRow}
    (sorted : l.Pairwise (·.id < ·.id)) (first : r ∈ l.take n) (mem : x ∈ l) (less : x.id < r.id) :
    x ∈ l.take n := by
  rw [← List.take_append_drop n l] at sorted mem
  obtain early | late := List.mem_append.mp mem
  · exact early
  · have after := (List.pairwise_append.mp sorted).2.2 r first x late
    omega

/-- A row is known by its id. -/
theorem eq_of_id_eq {l : List TelemetryRow} (sorted : l.Pairwise (·.id < ·.id))
    {r r' : TelemetryRow} (mem : r ∈ l) (mem' : r' ∈ l) (same : r.id = r'.id) : r = r' := by
  induction l with
  | nil => exact absurd mem List.not_mem_nil
  | cons x l ih =>
    obtain ⟨first, sorted⟩ := List.pairwise_cons.mp sorted
    obtain rfl | later := List.mem_cons.mp mem
    · obtain rfl | later' := List.mem_cons.mp mem'
      · rfl
      · have less := first r' later'
        omega
    · obtain rfl | later' := List.mem_cons.mp mem'
      · have less := first r later
        omega
      · exact ih sorted later later'

namespace Offline

variable {ops : BufferOps F} {s t : OfflineState F}

/-! ## What is true of the table -/

/-- The row is that of a reading which was pushed. -/
def Stored (ops : BufferOps F) (pushed : List (Replay F)) (r : TelemetryRow) : Prop :=
  ∃ n reading, pushed[n]? = some reading ∧ r.id = n + 1 ∧ r.meterId = reading.meterId ∧
    r.timestamp = reading.timestamp ∧ r.payload = ops.payloadText reading.payload

/-- The reading that `d` delivers, as it was pushed and read back. -/
def Faithful (ops : BufferOps F) (pushed : List (Replay F)) (d : Delivery F) : Prop :=
  ∃ n reading, pushed[n]? = some reading ∧ d.id = n + 1 ∧
    d.body = ⟨reading.meterId, reading.timestamp,
      (ops.readPayload (ops.payloadText reading.payload)).getD .null⟩

theorem getElem?_of_prefix {α : Type} {l l' : List α} {n : Nat} {a : α} (longer : l <+: l')
    (there : l[n]? = some a) : l'[n]? = some a := by
  obtain ⟨more, rfl⟩ := longer
  have inside := (List.getElem?_eq_some_iff.mp there).1
  rw [List.getElem?_append_left inside, there]

theorem Stored.mono {pushed pushed' : List (Replay F)} {r : TelemetryRow}
    (longer : pushed <+: pushed') (stored : Stored ops pushed r) : Stored ops pushed' r := by
  obtain ⟨n, reading, there, rest⟩ := stored
  exact ⟨n, reading, getElem?_of_prefix longer there, rest⟩

theorem Faithful.mono {pushed pushed' : List (Replay F)} {d : Delivery F}
    (longer : pushed <+: pushed') (faithful : Faithful ops pushed d) :
    Faithful ops pushed' d := by
  obtain ⟨n, reading, there, rest⟩ := faithful
  exact ⟨n, reading, getElem?_of_prefix longer there, rest⟩

theorem Stored.faithful {pushed : List (Replay F)} {r : TelemetryRow}
    (stored : Stored ops pushed r) : Faithful ops pushed ⟨r.id, replayBody ops r⟩ := by
  obtain ⟨n, reading, there, id, meterId, timestamp, payload⟩ := stored
  refine ⟨n, reading, there, id, ?_⟩
  simp only [replayBody, meterId, timestamp, payload]

/-- The reading at `n` is in the table, and not marked. -/
def Waits (s : OfflineState F) (n : Nat) : Prop :=
  ∃ r ∈ s.buffer.rows, r.id = n + 1 ∧ r.synced = false

/-- `waiting` says that nothing is lost: what was pushed and not delivered has a row which is not
marked. -/
structure Intact (ops : BufferOps F) (s : OfflineState F) : Prop where
  sorted : s.buffer.rows.Pairwise (·.id < ·.id)
  counted : s.buffer.nextId = s.pushed.length + 1
  stored : ∀ r ∈ s.buffer.rows, Stored ops s.pushed r
  marked : ∀ r ∈ s.buffer.rows, r.synced = true → r.id ∈ s.deliveredIds
  waiting : ∀ n < s.pushed.length, n + 1 ∉ s.deliveredIds → Waits s n
  faithful : ∀ d ∈ s.delivered, Faithful ops s.pushed d
  ordered : FirstsInOrder s.deliveredIds

theorem intact_new : Intact ops (⟨.new, [], []⟩ : OfflineState F) where
  sorted := List.Pairwise.nil
  counted := rfl
  stored := fun _ mem => absurd mem List.not_mem_nil
  marked := fun _ mem => absurd mem List.not_mem_nil
  waiting := fun _ inside => absurd inside (Nat.not_lt_zero _)
  faithful := fun _ mem => absurd mem List.not_mem_nil
  ordered := firstsInOrder_nil

theorem Stored.id_le {pushed : List (Replay F)} {r : TelemetryRow}
    (stored : Stored ops pushed r) : 0 < r.id ∧ r.id ≤ pushed.length := by
  obtain ⟨n, reading, there, id, _⟩ := stored
  have inside := (List.getElem?_eq_some_iff.mp there).1
  omega

/-- The table with a row of its own for one more reading. -/
theorem Intact.insert (intact : Intact ops s) (reading : Replay F) (pushCount : Nat) :
    Intact ops { s with
      buffer :=
        { rows := s.buffer.rows ++ [⟨s.buffer.nextId, reading.meterId, reading.timestamp,
            ops.payloadText reading.payload, false⟩]
          nextId := s.buffer.nextId + 1
          pushCount := pushCount }
      pushed := s.pushed ++ [reading] } := by
  have longer : s.pushed <+: s.pushed ++ [reading] := List.prefix_append _ _
  have length : (s.pushed ++ [reading]).length = s.pushed.length + 1 := by
    rw [List.length_append, List.length_singleton]
  refine ⟨?_, ?_, ?_, ?_, ?_, ?_, intact.ordered⟩
  · refine List.pairwise_append.mpr ⟨intact.sorted, List.pairwise_singleton _ _, ?_⟩
    intro r mem r' new
    cases List.mem_singleton.mp new
    have inside := (intact.stored r mem).id_le
    simp only [intact.counted]
    omega
  · simp only [intact.counted, length]
  · intro r mem
    obtain old | new := List.mem_append.mp mem
    · exact (intact.stored r old).mono longer
    · cases List.mem_singleton.mp new
      refine ⟨s.pushed.length, reading, ?_, intact.counted, rfl, rfl, rfl⟩
      exact List.getElem?_concat_length
  · intro r mem synced
    obtain old | new := List.mem_append.mp mem
    · exact intact.marked r old synced
    · cases List.mem_singleton.mp new
      cases synced
  · intro n inside undelivered
    simp only [length] at inside
    by_cases old : n < s.pushed.length
    · obtain ⟨r, mem, here⟩ := intact.waiting n old undelivered
      exact ⟨r, List.mem_append_left _ mem, here⟩
    · refine ⟨_, List.mem_append_right _ List.mem_cons_self, ?_, rfl⟩
      simp only [intact.counted]
      omega
  · exact fun d mem => (intact.faithful d mem).mono longer

/-- A cleanup deletes what is marked, if anything. -/
theorem Intact.cleanup (intact : Intact ops s) (now : DateTime) :
    Intact ops { s with buffer := s.buffer.cleanup ops now } where
  sorted := intact.sorted.sublist List.filter_sublist
  counted := intact.counted
  stored := fun r mem => intact.stored r (List.mem_filter.mp mem).1
  marked := fun r mem => intact.marked r (List.mem_filter.mp mem).1
  waiting := fun n inside undelivered => by
    obtain ⟨r, mem, id, unsynced⟩ := intact.waiting n inside undelivered
    refine ⟨r, List.mem_filter.mpr ⟨mem, ?_⟩, id, unsynced⟩
    simp only [unsynced, Bool.and_false, Bool.not_false]
  faithful := intact.faithful
  ordered := intact.ordered

theorem Intact.push (intact : Intact ops s) (meterId : String) (timestamp : DateTime)
    (payload : Json F) (now : DateTime) (cleaned : Bool) :
    Intact ops { s with
      buffer := s.buffer.push ops meterId timestamp payload now cleaned
      pushed := s.pushed ++ [⟨meterId, timestamp, payload⟩] } := by
  have inserted := intact.insert ⟨meterId, timestamp, payload⟩ (s.buffer.pushCount + 1)
  unfold CircularBuffer.push
  simp only
  split
  · exact inserted.cleanup now
  · exact inserted

theorem rows_markAsSynced (b : CircularBuffer) (ids : List Nat) :
    (b.markAsSynced ids).rows =
      b.rows.map fun r => { r with synced := r.synced || decide (r.id ∈ ids) } := by
  refine List.map_congr_left fun r _ => ?_
  by_cases marked : r.id ∈ ids
  · simp [marked]
  · simp [marked]

/-- What is marked was delivered. -/
theorem Intact.markAsSynced (intact : Intact ops s) {ids : List Nat}
    (sent : ∀ id ∈ ids, id ∈ s.deliveredIds) :
    Intact ops { s with buffer := s.buffer.markAsSynced ids } := by
  refine ⟨?_, intact.counted, ?_, ?_, ?_, intact.faithful, intact.ordered⟩
  · rw [rows_markAsSynced]
    exact List.pairwise_map.mpr intact.sorted
  · intro r mem
    rw [rows_markAsSynced] at mem
    obtain ⟨old, there, rfl⟩ := List.mem_map.mp mem
    exact intact.stored old there
  · intro r mem synced
    rw [rows_markAsSynced] at mem
    obtain ⟨old, there, rfl⟩ := List.mem_map.mp mem
    obtain before | now := Bool.or_eq_true_iff.mp synced
    · exact intact.marked old there before
    · exact sent old.id (of_decide_eq_true now)
  · intro n inside undelivered
    obtain ⟨r, mem, id, unsynced⟩ := intact.waiting n inside undelivered
    have unmarked : r.id ∉ ids := fun marked => undelivered (id ▸ sent r.id marked)
    have same : r = { r with synced := r.synced || decide (r.id ∈ ids) } := by
      simp only [unmarked, decide_false, Bool.or_false]
    refine ⟨r, ?_, id, unsynced⟩
    rw [rows_markAsSynced]
    exact List.mem_map.mpr ⟨r, mem, same.symm⟩

theorem deliveredIds_deliver (s : OfflineState F) (d : Delivery F) :
    OfflineState.deliveredIds { s with delivered := s.delivered ++ [d] } =
      s.deliveredIds ++ [d.id] := by
  simp [OfflineState.deliveredIds]

theorem Intact.deliver (intact : Intact ops s) {r : TelemetryRow}
    (stored : Stored ops s.pushed r)
    (below : ∀ j, 0 < j → j < r.id → j ∈ s.deliveredIds) :
    Intact ops { s with delivered := s.delivered ++ [⟨r.id, replayBody ops r⟩] } := by
  refine ⟨intact.sorted, intact.counted, intact.stored, ?_, ?_, ?_, ?_⟩
  · intro r' mem synced
    rw [deliveredIds_deliver]
    exact List.mem_append_left _ (intact.marked r' mem synced)
  · intro n inside undelivered
    rw [deliveredIds_deliver] at undelivered
    exact intact.waiting n inside fun old => undelivered (List.mem_append_left _ old)
  · intro d mem
    obtain old | new := List.mem_append.mp mem
    · exact intact.faithful d old
    · cases List.mem_singleton.mp new
      exact stored.faithful
  · rw [deliveredIds_deliver]
    exact intact.ordered.append stored.id_le.1 below

/-! ## What is true of a manager -/

/-- A batch goes up, what was sent is where it begins, and what is marked is all of it or what
comes before the row that failed. -/
def InOrder : SyncManager → Prop
  | .sending batch ids rest =>
    (batch.map (·.id)).Pairwise (· < ·) ∧ batch.map (·.id) = ids ++ rest.map (·.id)
  | .marking batch ids none => (batch.map (·.id)).Pairwise (· < ·) ∧ batch.map (·.id) = ids
  | .marking batch ids (some r) =>
    (batch.map (·.id)).Pairwise (· < ·) ∧ ∃ later, batch.map (·.id) = ids ++ r.id :: later
  | _ => True

/-- The ids that a manager has sent and not marked. -/
def sentIds : SyncManager → List Nat
  | .sending _ ids _ => ids
  | .marking _ ids _ => ids
  | _ => []

/-- The rows that a manager has left to send, and below them nothing else that is to be sent. -/
def Complete (ops : BufferOps F) (s : OfflineState F) : SyncManager → Prop
  | .sending _ _ rest =>
    ∀ r ∈ rest, Stored ops s.pushed r ∧
      ∀ j, 0 < j → j < r.id → j ∈ s.deliveredIds ∨ j ∈ rest.map (·.id)
  | _ => True

/-- What a manager in the middle of a round may rely on, whatever other managers do meanwhile. -/
structure Knows (ops : BufferOps F) (s : OfflineState F) (p : SyncManager) : Prop where
  inOrder : InOrder p
  sent : ∀ id ∈ sentIds p, id ∈ s.deliveredIds
  complete : Complete ops s p

/-- Nothing that was pushed or delivered is taken back. -/
structure Grows (s t : OfflineState F) : Prop where
  pushed : s.pushed <+: t.pushed
  delivered : ∀ id ∈ s.deliveredIds, id ∈ t.deliveredIds

theorem Knows.mono (grows : Grows s t) {p : SyncManager} (knows : Knows ops s p) :
    Knows ops t p where
  inOrder := knows.inOrder
  sent := fun id mem => grows.delivered id (knows.sent id mem)
  complete := by
    cases p with
    | idle => trivial
    | marking batch ids failed => trivial
    | ended => trivial
    | sending batch ids rest =>
      intro r mem
      obtain ⟨stored, below⟩ := knows.complete r mem
      refine ⟨stored.mono grows.pushed, fun j positive less => ?_⟩
      exact (below j positive less).imp_left (grows.delivered j)

theorem Grows.of_eq (pushed : t.pushed = s.pushed) (delivered : t.delivered = s.delivered) :
    Grows s t where
  pushed := pushed ▸ List.prefix_refl _
  delivered := fun id mem => by
    unfold OfflineState.deliveredIds
    rw [delivered]
    exact mem

/-- Pushes and deliveries are never taken back by a manager. -/
theorem grows_of_act {p q : SyncManager} {m : Move} (acted : act ops s p m = some (t, q)) :
    Grows s t := by
  cases acts_of_act acted with
  | sent batch ids r rest =>
    refine ⟨List.prefix_refl _, fun id mem => ?_⟩
    rw [deliveredIds_deliver]
    exact List.mem_append_left _ mem
  | _ => exact .of_eq rfl rfl

/-- Nor are they by anybody else. -/
theorem grows_of_world {e : Outside F} (changed : world ops s e = some t) : Grows s t := by
  cases e with
  | push meterId timestamp payload now cleaned =>
    cases changed
    exact ⟨List.prefix_append _ _, fun _ mem => mem⟩
  | reopen =>
    cases changed
    exact .of_eq rfl rfl

/-! ## The moves -/

/-- The rows that are not marked, in the order of their ids. -/
theorem unsynced_sorted (intact : Intact ops s) :
    (s.buffer.rows.filter fun r => !r.synced).Pairwise (·.id < ·.id) :=
  intact.sorted.sublist List.filter_sublist

theorem knows_fetched (intact : Intact ops s) (limit : Nat) :
    Knows ops s (.sending (s.buffer.getUnsynced limit) [] (s.buffer.getUnsynced limit)) where
  inOrder := by
    refine ⟨List.pairwise_map.mpr ?_, rfl⟩
    exact (unsynced_sorted intact).sublist (List.take_sublist _ _)
  sent := fun _ mem => absurd mem List.not_mem_nil
  complete := by
    intro r mem
    have stored : Stored ops s.pushed r :=
      intact.stored r (List.mem_filter.mp (List.mem_of_mem_take mem)).1
    refine ⟨stored, fun j positive less => ?_⟩
    obtain ⟨n, rfl⟩ : ∃ n, j = n + 1 := ⟨j - 1, by omega⟩
    by_cases delivered : n + 1 ∈ s.deliveredIds
    · exact .inl delivered
    · have inside : n < s.pushed.length := by
        have := stored.id_le
        omega
      obtain ⟨x, there, id, unsynced⟩ := intact.waiting n inside delivered
      have open_ : x ∈ s.buffer.rows.filter fun r => !r.synced :=
        List.mem_filter.mpr ⟨there, by rw [unsynced, Bool.not_false]⟩
      refine .inr (List.mem_map.mpr ⟨x, ?_, id⟩)
      exact mem_take_of_lt (unsynced_sorted intact) mem open_ (id ▸ less)

theorem rest_sorted {batch : List TelemetryRow} {ids : List Nat} {rest : List TelemetryRow}
    (inOrder : InOrder (.sending batch ids rest)) : (rest.map (·.id)).Pairwise (· < ·) := by
  obtain ⟨sorted, split⟩ := inOrder
  rw [split] at sorted
  exact (List.pairwise_append.mp sorted).2.1

/-- What is below the next row to send was delivered. -/
theorem delivered_below {batch : List TelemetryRow} {ids : List Nat} {r : TelemetryRow}
    {rest : List TelemetryRow} (knows : Knows ops s (.sending batch ids (r :: rest))) :
    ∀ j, 0 < j → j < r.id → j ∈ s.deliveredIds := by
  intro j positive less
  obtain delivered | later := (knows.complete r List.mem_cons_self).2 j positive less
  · exact delivered
  · have sorted := rest_sorted knows.inOrder
    rw [List.map_cons, List.pairwise_cons] at sorted
    obtain rfl | later := List.mem_cons.mp later
    · exact absurd less (Nat.lt_irrefl _)
    · have above := sorted.1 j later
      omega

theorem knows_sent {batch : List TelemetryRow} {ids : List Nat} {r : TelemetryRow}
    {rest : List TelemetryRow} (knows : Knows ops s (.sending batch ids (r :: rest))) :
    Knows ops { s with delivered := s.delivered ++ [⟨r.id, replayBody ops r⟩] }
      (.sending batch (ids ++ [r.id]) rest) where
  inOrder := by
    obtain ⟨sorted, split⟩ := knows.inOrder
    refine ⟨sorted, ?_⟩
    rw [split, List.map_cons, List.append_assoc, List.singleton_append]
  sent := by
    intro id mem
    rw [deliveredIds_deliver]
    obtain old | new := List.mem_append.mp mem
    · exact List.mem_append_left _ (knows.sent id old)
    · exact List.mem_append_right _ new
  complete := by
    intro r' mem
    obtain ⟨stored, below⟩ := knows.complete r' (List.mem_cons_of_mem _ mem)
    refine ⟨stored, fun j positive less => ?_⟩
    rw [deliveredIds_deliver]
    obtain delivered | later := below j positive less
    · exact .inl (List.mem_append_left _ delivered)
    · obtain rfl | later := List.mem_cons.mp later
      · exact .inl (List.mem_append_right _ List.mem_cons_self)
      · exact .inr later

/-- A move of a manager keeps the buffer intact, and the manager knows what it needs to for its next
one. -/
theorem kept_of_act {p q : SyncManager} {m : Move} (intact : Intact ops s)
    (knows : Knows ops s p) (acted : act ops s p m = some (t, q)) :
    Intact ops t ∧ Knows ops t q := by
  cases acts_of_act acted with
  | slept _ => exact ⟨intact, knows⟩
  | fetched _ => exact ⟨intact, knows_fetched intact 50⟩
  | sent batch ids r rest =>
    have stored := (knows.complete r List.mem_cons_self).1
    exact ⟨intact.deliver stored (delivered_below knows), knows_sent knows⟩
  | failed batch ids r rest =>
    obtain ⟨sorted, split⟩ := knows.inOrder
    exact ⟨intact, ⟨sorted, rest.map TelemetryRow.id, split⟩, knows.sent, trivial⟩
  | finished batch ids =>
    obtain ⟨sorted, split⟩ := knows.inOrder
    exact ⟨intact, ⟨sorted, split.trans (List.append_nil _)⟩, knows.sent, trivial⟩
  | marked batch ids failed =>
    refine ⟨intact.markAsSynced knows.sent, trivial, ?_, trivial⟩
    exact fun _ mem => absurd mem List.not_mem_nil
  | stopped _ _ _ _ =>
    exact ⟨intact, trivial, fun _ mem => absurd mem List.not_mem_nil, trivial⟩

/-- A push appends a row, and a cleanup removes only what was marked. -/
theorem intact_of_world {e : Outside F} (intact : Intact ops s)
    (changed : world ops s e = some t) : Intact ops t := by
  cases e with
  | push meterId timestamp payload now cleaned =>
    cases changed
    exact intact.push meterId timestamp payload now cleaned
  | reopen =>
    cases changed
    exact ⟨intact.sorted, intact.counted, intact.stored, intact.marked, intact.waiting,
      intact.faithful, intact.ordered⟩

/-- Both hold after every run. -/
theorem holds_of_run {s : Pool.State (OfflineState F) SyncManager}
    (run : Steps (system ops).step Always start s) :
    Pool.System.Holds (Intact ops) (Knows ops) s := by
  refine Pool.System.invariant ?_ ?_ ?_ ?_ run (Pool.System.holds_nil intact_new)
  · intro s p admitted _
    cases p with
    | idle => exact ⟨trivial, fun _ mem => absurd mem List.not_mem_nil, trivial⟩
    | sending batch ids rest => cases admitted
    | marking batch ids failed => cases admitted
    | ended => cases admitted
  · intro s i e p shared q here _ holds acted
    exact kept_of_act holds.1 (holds.2 p (List.mem_of_getElem? here)) acted
  · intro s p e shared q r _ _ knows acted
    exact knows.mono (grows_of_act acted)
  · intro s e shared intact changed
    exact ⟨intact_of_world intact changed, fun r knows => knows.mono (grows_of_world changed)⟩

/-! ## What a step sends, marks and deletes -/

abbrev Managers (F : Type) := Pool.State (OfflineState F) SyncManager

abbrev Happening (F : Type) := Pool.Event SyncManager Move (Outside F)

/-- The ids that are confirmed at a step. -/
def sends (s : Managers F) : Happening F → List Nat
  | .move i (.send true) =>
    match s.procs[i]? with
    | some (.sending _ _ (r :: _)) => [r.id]
    | _ => []
  | _ => []

/-- The ids that a step marks. -/
def marks (s : Managers F) : Happening F → List Nat
  | .move i (.markAsSynced true) =>
    match s.procs[i]? with
    | some (.marking _ ids _) => ids
    | _ => []
  | _ => []

/-- Of the rows that are there after a step, those are marked that were, and those that it
marks; and what is no longer there was marked. -/
structure Follows (rows rows' : List TelemetryRow) (ids : List Nat) : Prop where
  deleted : ∀ r ∈ rows, r.id ∉ rows'.map (·.id) → r.synced = true
  marked : ∀ r ∈ rows', r.synced = true ↔
    (∃ old ∈ rows, old.id = r.id ∧ old.synced = true) ∨ r.id ∈ ids

theorem Follows.refl {rows : List TelemetryRow} (sorted : rows.Pairwise (·.id < ·.id)) :
    Follows rows rows [] where
  deleted := fun _ mem missing => absurd (List.mem_map_of_mem mem) missing
  marked := by
    intro r mem
    constructor
    · exact fun synced => .inl ⟨r, mem, rfl, synced⟩
    · rintro (⟨old, there, same, synced⟩ | none_)
      · exact eq_of_id_eq sorted there mem same ▸ synced
      · exact absurd none_ List.not_mem_nil

theorem follows_markAsSynced {b : CircularBuffer} (sorted : b.rows.Pairwise (·.id < ·.id))
    (ids : List Nat) : Follows b.rows (b.markAsSynced ids).rows ids where
  deleted := by
    intro r mem missing
    refine absurd ?_ missing
    rw [rows_markAsSynced, List.map_map]
    exact List.mem_map.mpr ⟨r, mem, rfl⟩
  marked := by
    intro r mem
    rw [rows_markAsSynced] at mem
    obtain ⟨row, there, rfl⟩ := List.mem_map.mp mem
    simp only [Bool.or_eq_true, decide_eq_true_eq]
    constructor
    · exact fun synced => synced.imp_left fun before => ⟨row, there, rfl, before⟩
    · rintro (⟨old, there', same, synced⟩ | now)
      · exact .inl (eq_of_id_eq sorted there' there same ▸ synced)
      · exact .inr now

/-- Of a table with one more row, a part that has every row which is not marked. -/
theorem follows_push {rows rows' : List TelemetryRow} {new : TelemetryRow}
    (sorted : (rows ++ [new]).Pairwise (·.id < ·.id)) (unsynced : new.synced = false)
    (part : ∀ r ∈ rows', r ∈ rows ++ [new])
    (kept : ∀ r ∈ rows ++ [new], r.synced = false → r ∈ rows') : Follows rows rows' [] where
  deleted := by
    intro r mem missing
    cases synced : r.synced with
    | true => rfl
    | false =>
      have there := kept r (List.mem_append_left _ mem) synced
      exact absurd (List.mem_map_of_mem there) missing
  marked := by
    intro r mem
    constructor
    · intro synced
      obtain old | fresh := List.mem_append.mp (part r mem)
      · exact .inl ⟨r, old, rfl, synced⟩
      · cases List.mem_singleton.mp fresh
        rw [unsynced] at synced
        cases synced
    · rintro (⟨old, there, same, synced⟩ | none_)
      · exact eq_of_id_eq sorted (List.mem_append_left _ there) (part r mem) same ▸ synced
      · exact absurd none_ List.not_mem_nil

/-- What others do to the rows: they append, and remove marked ones. -/
theorem follows_of_world {e : Outside F} (intact : Intact ops s)
    (changed : world ops s e = some t) : Follows s.buffer.rows t.buffer.rows [] := by
  cases e with
  | reopen =>
    cases changed
    exact .refl intact.sorted
  | push meterId timestamp payload now cleaned =>
    cases changed
    have sorted := (intact.insert ⟨meterId, timestamp, payload⟩ 0).sorted
    refine follows_push sorted rfl ?_ ?_
    · intro r mem
      simp only [CircularBuffer.push] at mem
      split at mem
      · exact (List.mem_filter.mp mem).1
      · exact mem
    · intro r mem unsynced
      simp only [CircularBuffer.push]
      split
      · exact List.mem_filter.mpr ⟨mem, by rw [unsynced, Bool.and_false, Bool.not_false]⟩
      · exact mem

theorem sends_move {s : Managers F} {i : Nat} {m : Move} (other : m ≠ .send true) :
    sends s (.move i m) = [] := by
  unfold sends
  split
  · next same =>
    cases same
    exact absurd rfl other
  · rfl

theorem marks_move {s : Managers F} {i : Nat} {m : Move} (other : m ≠ .markAsSynced true) :
    marks s (.move i m) = [] := by
  unfold marks
  split
  · next same =>
    cases same
    exact absurd rfl other
  · rfl

/-- What any step does to the rows, with the ids it marks. -/
theorem follows_of_step {s t : Managers F} {e : Happening F} (intact : Intact ops s.shared)
    (moved : (system ops).step s e = some t) :
    Follows s.shared.buffer.rows t.shared.buffer.rows (marks s e) := by
  cases Pool.System.moves_of_step moved with
  | start _ => exact .refl intact.sorted
  | outside changed => exact follows_of_world intact changed
  | move here acted =>
    cases acts_of_act acted with
    | marked batch ids failed =>
      have marked := follows_markAsSynced intact.sorted ids
      simpa only [marks, here] using marked
    | stopped _ _ _ unmarked =>
      rw [marks_move unmarked]
      exact .refl intact.sorted
    | _ => exact .refl intact.sorted

/-- A step delivers what is sent and confirmed in it, and nothing else. -/
theorem deliveredIds_of_step {s t : Managers F} {e : Happening F}
    (moved : (system ops).step s e = some t) :
    t.shared.deliveredIds = s.shared.deliveredIds ++ sends s e := by
  cases Pool.System.moves_of_step moved with
  | start _ => exact (List.append_nil _).symm
  | @outside e _ changed =>
    cases e with
    | push meterId timestamp payload now cleaned =>
      cases changed
      exact (List.append_nil _).symm
    | reopen =>
      cases changed
      exact (List.append_nil _).symm
  | move here acted =>
    cases acts_of_act acted with
    | sent batch ids r rest =>
      simp only [sends, here]
      exact deliveredIds_deliver _ _
    | stopped _ _ unsent _ => rw [sends_move unsent, List.append_nil]
    | _ => exact (List.append_nil _).symm

/-! ## The offline buffer -/

/-- After every run: a step deletes only rows that are marked, what is marked was delivered, and
nothing is marked but what a manager sent, which is its batch up to the row that failed. A reading
that was not delivered is in the table and not marked, what is delivered is what was pushed, and
the first deliveries are in the order of the pushes. -/
theorem offline_buffer_loses_nothing {s : Managers F}
    (run : Steps (system ops).step Always start s) :
    (∀ e t, (system ops).step s e = some t →
      Follows s.shared.buffer.rows t.shared.buffer.rows (marks s e) ∧
      t.shared.deliveredIds = s.shared.deliveredIds ++ sends s e) ∧
    (∀ r ∈ s.shared.buffer.rows, r.synced = true → r.id ∈ s.shared.deliveredIds) ∧
    (∀ p ∈ s.procs, InOrder p ∧ ∀ id ∈ sentIds p, id ∈ s.shared.deliveredIds) ∧
    (∀ n reading, s.shared.pushed[n]? = some reading → n + 1 ∉ s.shared.deliveredIds →
      (⟨n + 1, reading.meterId, reading.timestamp, ops.payloadText reading.payload, false⟩ :
        TelemetryRow) ∈ s.shared.buffer.rows) ∧
    (∀ d ∈ s.shared.delivered, Faithful ops s.shared.pushed d) ∧
    FirstsInOrder s.shared.deliveredIds := by
  obtain ⟨intact, knows⟩ := holds_of_run run
  refine ⟨fun e t moved => ⟨follows_of_step intact moved, deliveredIds_of_step moved⟩,
    intact.marked, fun p mem => ⟨(knows p mem).inOrder, (knows p mem).sent⟩, ?_,
    intact.faithful, intact.ordered⟩
  intro n reading there undelivered
  have inside := (List.getElem?_eq_some_iff.mp there).1
  obtain ⟨r, mem, id, unsynced⟩ := intact.waiting n inside undelivered
  obtain ⟨n', reading', there', id', meterId, timestamp, payload⟩ := intact.stored r mem
  obtain rfl : n = n' := by omega
  rw [there] at there'
  cases there'
  obtain ⟨rid, rmeter, rtime, rpayload, rsynced⟩ := r
  simp only at id meterId timestamp payload unsynced
  subst id meterId timestamp payload unsynced
  exact mem

/-- The payloads `true`, `false` and `null`. -/
private def flagOps : BufferOps Nat where
  isBefore := fun t cutoff => decide (t.secs < cutoff.secs)
  payloadText := fun payload =>
    match payload with
    | .bool b => if b then "true" else "false"
    | _ => "null"
  readPayload := fun text =>
    if text = "true" then some (.bool true)
    else if text = "false" then some (.bool false)
    else if text = "null" then some .null
    else none

private def pushTime : DateTime :=
  DateTime.ofSecs 1750000000

private def pushing (flag : Bool) : Happening Nat :=
  .outside (.push "meter" pushTime (.bool flag) pushTime true)

/-- The third row fails while a fourth one is pushed, and the manager of the next iteration is
dropped when it has sent that third row but not marked it. -/
private def cutBatch : List (Happening Nat) :=
  [pushing true, pushing false, pushing true, .start .idle, .move 0 (.getUnsynced true),
    .move 0 (.send true), .move 0 (.send true), pushing false, .move 0 (.send false),
    .move 0 (.markAsSynced true), .move 0 (.getUnsynced true), .move 0 (.send true),
    .move 0 .drop, .start .idle, .move 1 (.getUnsynced true), .move 1 (.send true)]

private theorem cutBatch_run :
    (Transition.run (system flagOps).step Always cutBatch start).isSome := by
  decide +kernel

/-- The third reading is delivered twice, and the fourth waits. -/
theorem cut_batch_replayed :
    ∃ s, Steps (system flagOps).step Always start s ∧ s.shared.deliveredIds = [1, 2, 3, 3] ∧
      s.shared.buffer.rows.map (·.synced) = [true, true, false, false] ∧
      (∀ p ∈ s.procs, InOrder p ∧ ∀ id ∈ sentIds p, id ∈ s.shared.deliveredIds) ∧
      FirstsInOrder s.shared.deliveredIds := by
  obtain ⟨_, _, managers, _, _, ordered⟩ :=
    offline_buffer_loses_nothing (Steps.of_run_get cutBatch_run)
  exact ⟨_, Steps.of_run_get cutBatch_run, by decide +kernel, by decide +kernel, managers, ordered⟩

end Offline

end AggregatorBridge
