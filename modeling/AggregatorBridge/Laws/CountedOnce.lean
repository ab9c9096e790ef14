import AggregatorBridge.ZoneIngester
import AggregatorBridge.Laws.SettlementRuns

/-!
# A stream entry is counted at most once

A task adds a reading to its bin before it acknowledges the entry, and the redelivery loop
looks only at the pending list. So an entry whose `XACK` failed, or whose task is slow, is
delivered a second time and added a second time: nothing in the bin says which entries are in
it.

The law is about every interleaving of the zone loop, its tasks, the redelivery passes, failed
commands and restarts. If an entry is claimed only while no task has yet to add it and the bin
in memory does not hold it (`claimsFresh`), then every bin a sweep takes holds each entry at
most once, and its totals are the sums over the entries it holds. A restart needs no condition
of its own: it takes the tasks with it, and what it restores is the bin in memory from then on.

The law does not say that an entry is counted at all: a late reading is not, nor is an entry that
`MAXLEN` trims before it is read or claimed, and a restart can lose one whose snapshot was not
written.
-/

namespace AggregatorBridge

open Remote Transition

variable {F : Type} {cfg : SettlementConfig}

/-- The entries in the bin that memory holds under a key. -/
def World.entriesAt (w : World Nat) (k : BinKey) : List Nat :=
  (w.core.contentsAt k).map fun c => c.label.2

/-- What memory holds under a key is a copy, or nothing. -/
theorem World.entriesAt_cases (w : World Nat) (k : BinKey) :
    w.entriesAt k = [] ∨ ∃ y, w.core.Copy y ∧ entriesOf y = w.entriesAt k := by
  unfold World.entriesAt Core.contentsAt
  cases found : w.core.agg.activeBins.lookup k with
  | none => exact .inl rfl
  | some bin => exact .inr ⟨_, .memory found, rfl⟩

namespace Zone

variable {z t : Zone F} {e : Event F}

/-- The entries that a task has yet to add. -/
def handling (z : Zone F) : List Nat :=
  (z.tasks.filter fun task => task.stage = .handle).map ZoneTask.entry

/-- No task has yet to add the entry, and the bin in memory does not hold it. -/
def isFresh (cfg : SettlementConfig) (z : Zone F) (id : Nat) : Bool :=
  decide (id ∉ z.handling) &&
    match z.entries[id]? with
    | some (.reading reading) => decide (id ∉ z.world.entriesAt (reading.binKey cfg.newV5))
    | _ => true

/-- An `XCLAIM` gets only entries that are fresh. -/
def claimsFresh (cfg : SettlementConfig) (z : Zone F) : Event F → Bool
  | .xclaim pass .ok =>
    match z.claims[pass]? with
    | some ids => (z.claimable ids).all (isFresh cfg z)
    | none => true
  | _ => true

/-! ## The pending list and the tasks -/

/-- What was delivered was read, once per place it can be in. -/
structure Booked (z : Zone F) : Prop where
  read : z.cursor ≤ z.entries.length
  trimmed : z.gone ≤ z.entries.length
  pendingOnce : (z.pending.map Prod.fst).Nodup
  pendingRead : ∀ p ∈ z.pending, p.1 < z.cursor
  claimsOnce : ∀ ids ∈ z.claims, ids.Nodup
  tasksRead : ∀ task ∈ z.tasks, task.entry < z.cursor

/-- Delivering an entry again does not list it twice. -/
theorem deliver_once {now : Int} {pending : List (Nat × Int)} {id : Nat}
    (once : (pending.map Prod.fst).Nodup) : ((deliver now pending id).map Prod.fst).Nodup := by
  rw [ids_deliver]
  split
  · exact once
  · next absent =>
    rw [List.nodup_append]
    refine ⟨once, by simp, ?_⟩
    intro a mem b new
    obtain ⟨p, listed, rfl⟩ := List.mem_map.mp mem
    cases List.mem_singleton.mp new
    intro same
    exact absent (List.any_eq_true.mpr ⟨p, listed, decide_eq_true same⟩)

/-- Delivering a list of entries keeps the pending list free of repetitions. -/
theorem deliverAll_once {now : Int} {pending : List (Nat × Int)} (ids : List Nat)
    (once : (pending.map Prod.fst).Nodup) :
    ((ids.foldl (deliver now) pending).map Prod.fst).Nodup := by
  induction ids generalizing pending with
  | nil => exact once
  | cons id ids ih => exact ih (deliver_once once)

/-- Tasks are for the entries they were spawned for. -/
theorem mem_tasksFor {stageOf : EntryPayload F → Option TaskStage} {ids : List Nat}
    {task : ZoneTask} (mem : task ∈ z.tasksFor stageOf ids) : task.entry ∈ ids := by
  obtain ⟨id, listed, spawned⟩ := List.mem_filterMap.mp mem
  obtain ⟨stage, _, rfl⟩ := Option.map_eq_some_iff.mp spawned
  exact listed

/-- A pass claims no entry twice. -/
theorem claimable_once {ids : List Nat} (once : ids.Nodup) : (z.claimable ids).Nodup :=
  once.filter _

theorem claimable_read (booked : z.Booked) {ids : List Nat} {id : Nat}
    (mem : id ∈ z.claimable ids) : id < z.cursor := by
  obtain ⟨_, found⟩ := List.mem_filter.mp mem
  obtain ⟨p, listed, here⟩ := List.any_eq_true.mp (Bool.and_eq_true_iff.mp found).2
  have same : p.1 = id := (of_decide_eq_true here).1
  exact same ▸ booked.pendingRead p listed

theorem cleared_sublist (ids : List Nat) : (z.cleared ids).Sublist z.pending :=
  List.filter_sublist

theorem cursor_le_next : z.cursor ≤ z.next :=
  Nat.le_max_left _ _

/-- What was read before a read is read after it. -/
theorem lt_of_lt_cursor {id : Nat} (read : id < z.cursor) : id < z.next + z.unread.length :=
  read.trans_le (Nat.le_add_right_of_le cursor_le_next)

theorem mem_unread {id : Nat} (mem : id ∈ z.unread) :
    z.cursor ≤ id ∧ id < z.next + z.unread.length := by
  unfold unread at mem ⊢
  rw [List.mem_range'_1] at mem
  rw [List.length_range']
  exact ⟨cursor_le_next.trans mem.1, mem.2⟩

/-! ## Entries in bins and in tasks -/

/-- No copy holds an entry twice, no two tasks are for one entry, and what a task has yet to
add is not in the bin in memory. -/
structure Once (cfg : SettlementConfig) (z : Zone F) : Prop where
  read : ∀ y, z.world.Holds y → ∀ id ∈ entriesOf y, id < z.cursor
  once : ∀ y, z.world.Holds y → (entriesOf y).Nodup
  handlingOnce : z.handling.Nodup
  fresh : ∀ id ∈ z.handling, ∀ reading, z.entries[id]? = some (.reading reading) →
    id ∉ z.world.entriesAt (reading.binKey cfg.newV5)

theorem mem_handling {id : Nat} :
    id ∈ z.handling ↔ ∃ task ∈ z.tasks, task.stage = .handle ∧ task.entry = id := by
  simp only [handling, List.mem_map, List.mem_filter, decide_eq_true_eq, and_assoc]

theorem Once.entriesAt_read (once : z.Once cfg) {k : BinKey} {id : Nat}
    (mem : id ∈ z.world.entriesAt k) : id < z.cursor := by
  rcases z.world.entriesAt_cases k with empty | ⟨y, copy, same⟩
  · rw [empty] at mem
    cases mem
  · exact once.read y (.copy copy) id (same ▸ mem)

/-- The bin in memory holds no entry twice. -/
theorem Once.entriesAt_once (once : z.Once cfg) (k : BinKey) : (z.world.entriesAt k).Nodup := by
  rcases z.world.entriesAt_cases k with empty | ⟨y, copy, same⟩
  · rw [empty]
    exact List.nodup_nil
  · exact same ▸ once.once y (.copy copy)

/-- Tasks for entries that have none, and that are not in memory, can be added. -/
theorem Once.spawn (once : z.Once cfg) (stageOf : EntryPayload F → Option TaskStage)
    {ids : List Nat} (distinct : ids.Nodup) (idle : ∀ id ∈ ids, id ∉ z.handling)
    (absent : ∀ id ∈ ids, ∀ reading, z.entries[id]? = some (.reading reading) →
      id ∉ z.world.entriesAt (reading.binKey cfg.newV5))
    {tasks : List ZoneTask} (all : tasks = z.tasks ++ z.tasksFor stageOf ids) :
    Once cfg { z with tasks := tasks } := by
  have spawned : (((z.tasksFor stageOf ids).filter fun task => task.stage = .handle).map
      ZoneTask.entry).Sublist ids := by
    clear distinct idle absent all
    induction ids with
    | nil => exact .slnil
    | cons id ids ih =>
      rw [tasksFor, List.filterMap_cons]
      split
      · exact ih.cons id
      · next task found =>
        obtain ⟨stage, _, rfl⟩ := Option.map_eq_some_iff.mp found
        rw [List.filter_cons]
        split
        · exact ih.cons_cons id
        · exact ih.cons id
  have split : handling { z with tasks := tasks } =
      z.handling ++ ((z.tasksFor stageOf ids).filter fun task => task.stage = .handle).map
        ZoneTask.entry := by
    simp only [handling, all, List.filter_append, List.map_append]
  refine ⟨once.read, once.once, ?_, ?_⟩
  · rw [split, List.nodup_append]
    refine ⟨once.handlingOnce, spawned.nodup distinct, ?_⟩
    intro a mem b new same
    exact idle b (spawned.subset new) (same ▸ mem)
  · intro id mem reading here
    rw [split] at mem
    rcases List.mem_append.mp mem with before | new
    · exact once.fresh id before reading here
    · exact absent id (spawned.subset new) reading here

theorem Once.of_sublist (once : z.Once cfg) {tasks : List ZoneTask}
    {pending : List (Nat × Int)} (fewer : tasks.Sublist z.tasks) :
    Once cfg { z with tasks := tasks, pending := pending } := by
  have sub : (handling { z with tasks := tasks, pending := pending }).Sublist z.handling :=
    (fewer.filter _).map _
  exact ⟨once.read, once.once, sub.nodup once.handlingOnce,
    fun id mem => once.fresh id (sub.subset mem)⟩

/-- A task that has added its entry leaves the others to do. -/
theorem handling_set {i id : Nat} (at_ : z.tasks[i]? = some ⟨id, .handle⟩)
    (distinct : z.handling.Nodup) (world : World Nat) :
    (handling { z with world := world, tasks := z.tasks.set i ⟨id, .ack⟩ }).Sublist z.handling ∧
      id ∉ handling { z with world := world, tasks := z.tasks.set i ⟨id, .ack⟩ } := by
  obtain ⟨bound, here⟩ := List.getElem?_eq_some_iff.mp at_
  obtain ⟨before, after, all, _, set⟩ : ∃ before after, z.tasks = before ++ z.tasks[i] :: after ∧
      before.length = i ∧ z.tasks.set i ⟨id, .ack⟩ = before ++ ⟨id, .ack⟩ :: after :=
    List.exists_of_set bound
  rw [here] at all
  have old : z.handling = (before.filter fun task => task.stage = .handle).map ZoneTask.entry ++
      id :: (after.filter fun task => task.stage = .handle).map ZoneTask.entry := by
    simp [handling, all]
  have new : handling { z with world := world, tasks := z.tasks.set i ⟨id, .ack⟩ } =
      (before.filter fun task => task.stage = .handle).map ZoneTask.entry ++
        (after.filter fun task => task.stage = .handle).map ZoneTask.entry := by
    simp [handling, set]
  rw [old] at distinct ⊢
  rw [new]
  exact ⟨List.Sublist.append_left (List.sublist_cons_self _ _) _,
    (List.nodup_middle.mp distinct).notMem⟩

/-! ## The steps -/

/-- With no bins and no tasks, nothing is held. -/
theorem once_init : (init : Zone F).Once cfg :=
  ⟨fun y held => absurd held (World.not_holds_init y),
    fun y held => absurd held (World.not_holds_init y), List.nodup_nil, nofun⟩

theorem booked_init : (init : Zone F).Booked :=
  ⟨Nat.le_refl 0, Nat.le_refl 0, List.nodup_nil, nofun, nofun, nofun⟩

section Steps

variable [Float64 F] {codec : DecimalCodec F}

omit [Float64 F] in
/-- Entries that were read are booked, whatever tasks are spawned for them. -/
theorem Booked.readMore (booked : z.Booked) {tasks : List ZoneTask}
    (mine : ∀ task ∈ tasks, task ∈ z.tasks ∨ task.entry ∈ z.unread) :
    Booked { z with
      cursor := z.next + z.unread.length
      pending := z.unread.foldl (deliver z.clock) z.pending
      tasks := tasks } where
  read := by
    have inside : z.next ≤ z.entries.length := Nat.max_le.mpr ⟨booked.read, booked.trimmed⟩
    simp only [unread, List.length_range']
    omega
  trimmed := booked.trimmed
  pendingOnce := deliverAll_once _ booked.pendingOnce
  pendingRead := by
    intro p mem
    rcases mem_deliverAll mem with ⟨q, listed, same⟩ | new
    · exact same ▸ lt_of_lt_cursor (booked.pendingRead q listed)
    · exact (mem_unread new).2
  claimsOnce := booked.claimsOnce
  tasksRead := by
    intro task mem
    rcases mine task mem with before | new
    · exact lt_of_lt_cursor (booked.tasksRead task before)
    · exact (mem_unread new).2

omit [Float64 F] in
/-- Entries that were claimed were booked before. -/
theorem Booked.claim (booked : z.Booked) (pass : Nat) {ids : List Nat} {tasks : List ZoneTask}
    (mine : ∀ task ∈ tasks, task ∈ z.tasks ∨ task.entry ∈ z.claimable ids) :
    Booked { z with
      claims := z.claims.eraseIdx pass
      pending := (z.claimable ids).foldl (deliver z.clock) (z.cleared ids)
      tasks := tasks } where
  read := booked.read
  trimmed := booked.trimmed
  pendingOnce := deliverAll_once _ (((cleared_sublist ids).map _).nodup booked.pendingOnce)
  pendingRead := by
    intro p mem
    rcases mem_deliverAll mem with ⟨q, listed, same⟩ | claimed
    · exact same ▸ booked.pendingRead q ((cleared_sublist ids).subset listed)
    · exact claimable_read booked claimed
  claimsOnce := fun ids mem => booked.claimsOnce ids (List.mem_of_mem_eraseIdx mem)
  tasksRead := by
    intro task mem
    rcases mine task mem with before | new
    · exact booked.tasksRead task before
    · exact claimable_read booked new

/-- The bookkeeping of the stream survives every step, trims and lost replies included. -/
theorem booked_step (booked : z.Booked) (moved : step codec cfg z e = some t) : t.Booked := by
  cases moves_of_step moved with
  | @added payload trim =>
    have longer : z.entries.length ≤ (z.entries ++ [payload]).length := by simp
    refine { booked with read := booked.read.trans longer, trimmed := ?_ }
    exact Nat.max_le.mpr ⟨booked.trimmed.trans longer, by simp⟩
  | ticked => exact { booked with }
  | read =>
    refine booked.readMore fun task mem => ?_
    exact (List.mem_append.mp mem).imp_right mem_tasksFor
  | readLost => exact booked.readMore fun task mem => .inl mem
  | unread => exact booked
  | looked =>
    refine { booked with claimsOnce := ?_ }
    intro ids mem
    rcases List.mem_append.mp mem with before | new
    · exact booked.claimsOnce ids before
    · rw [List.mem_singleton.mp new]
      refine List.Sublist.nodup ?_ booked.pendingOnce
      exact ((List.filter_sublist).trans (List.take_sublist _ _)).map _
  | @claimed pass ids found =>
    refine booked.claim pass fun task mem => ?_
    exact (List.mem_append.mp mem).imp_right mem_tasksFor
  | @claimLost pass ids found => exact booked.claim pass fun task mem => .inl mem
  | unclaimed =>
    exact { booked with
      claimsOnce := fun ids mem => booked.claimsOnce ids (List.mem_of_mem_eraseIdx mem) }
  | handled at_ here billed =>
    refine { booked with tasksRead := ?_ }
    intro task mem
    rcases List.mem_or_eq_of_mem_set mem with before | rfl
    · exact booked.tasksRead task before
    · exact booked.tasksRead ⟨_, .handle⟩ (List.mem_of_getElem? at_)
  | @acked i reply task at_ =>
    have fewer : (reply.effect (·.filter fun p => p.1 ≠ task.entry) z.pending).Sublist
        z.pending := by
      rcases reply.effect_cases (·.filter fun p => p.1 ≠ task.entry) z.pending with same | del
      · rw [same]
      · rw [del]
        exact List.filter_sublist
    exact ⟨booked.read, booked.trimmed, (fewer.map _).nodup booked.pendingOnce,
      fun p mem => booked.pendingRead p (fewer.subset mem), booked.claimsOnce,
      fun task mem => booked.tasksRead task (List.mem_of_mem_eraseIdx mem)⟩
  | restarted billed => exact { booked with claimsOnce := nofun, tasksRead := nofun }
  | settled billed => exact { booked with }

/-- A reading brings at most its own entry into memory. -/
theorem entriesAt_handle {w u : World Nat} (sound : w.Sound cfg) {now : DateTime} {id : Nat}
    {r : BillingReading} (moved : w.step cfg (.handle now id r) = some u) {k : BinKey} {j : Nat}
    (mem : j ∈ u.entriesAt k) : j ∈ w.entriesAt k ∨ j = id := by
  have moves := World.moves_of_step moved
  unfold World.entriesAt Core.contentsAt at mem
  cases found : u.core.agg.activeBins.lookup k with
  | none =>
    rw [found] at mem
    cases mem
  | some bin =>
    rw [found] at mem
    rcases World.memory_of_moves sound moves found with
      ⟨found', contents⟩ | ⟨now', id', r', same, _, rfl, contents⟩ | ⟨s, impossible, _⟩
    · left
      unfold World.entriesAt Core.contentsAt
      rw [found', ← contents]
      exact mem
    · cases same
      rw [Option.isSome_some, if_pos rfl, contents] at mem
      rcases List.mem_cons.mp mem with here | before
      · exact .inr here
      · exact .inl before
    · cases impossible

/-- What settles or is written brings no entry into memory. -/
theorem entriesAt_settle {w u : World Nat} (sound : w.Sound cfg) {e : World.Event Nat}
    (moved : w.step cfg e = some u) (reads : ∀ now id r, e ≠ .handle now id r)
    (runs : ∀ loaded, e ≠ .restart loaded) {k : BinKey} {j : Nat}
    (mem : j ∈ u.entriesAt k) : j ∈ w.entriesAt k := by
  have moves := World.moves_of_step moved
  unfold World.entriesAt Core.contentsAt at mem ⊢
  cases found : u.core.agg.activeBins.lookup k with
  | none =>
    rw [found] at mem
    cases mem
  | some bin =>
    rw [found] at mem
    rcases World.memory_of_moves sound moves found with
      ⟨found', contents⟩ | ⟨now, id, r, same, _⟩ | ⟨s, same, _⟩
    · rw [found', ← contents]
      exact mem
    · exact absurd same (reads now id r)
    · exact absurd same (runs true)

/-- What is not a reading makes no copies. -/
theorem holds_settle {w u : World Nat} (sound : w.Sound cfg) {e : World.Event Nat}
    (moved : w.step cfg e = some u) (reads : ∀ now id r, e ≠ .handle now id r)
    {y : ReadingSnapshot Nat} (held : u.Holds y) : w.Holds y := by
  rcases World.holds_of_moves sound.filed (World.moves_of_step moved) held with
    before | ⟨now, id, r, same, _⟩
  · exact before
  · exact absurd same (reads now id r)

/-- A task adds its entry to a bin that does not hold it, and is done with adding. -/
theorem once_handle (sound : z.world.Sound cfg) (booked : z.Booked) (once : z.Once cfg)
    {i id : Nat} {now : DateTime} {userId : Uuid} {reading : DeviceReading F} {world : World Nat}
    (at_ : z.tasks[i]? = some ⟨id, .handle⟩) (here : z.entries[id]? = some (.reading reading))
    (moved : z.world.step cfg (.handle now id (.ofDevice codec cfg.newV5 userId reading)) =
      some world) :
    Once cfg { z with world := world, tasks := z.tasks.set i ⟨id, .ack⟩ } := by
  have pending : id ∈ z.handling :=
    mem_handling.mpr ⟨_, List.mem_of_getElem? at_, rfl, rfl⟩
  obtain ⟨fewer, done⟩ := handling_set at_ once.handlingOnce world
  -- The one new copy is the bin in memory with the entry added.
  have made {y : ReadingSnapshot Nat} (held : world.Holds y) :
      z.world.Holds y ∨ entriesOf y = id :: z.world.entriesAt (reading.binKey cfg.newV5) := by
    rcases World.holds_of_moves sound.filed (World.moves_of_step moved) held with
      before | ⟨now', id', r', same, _, _, rfl⟩
    · exact .inl before
    · cases same
      exact .inr rfl
  refine ⟨?_, ?_, fewer.nodup once.handlingOnce, ?_⟩
  · intro y held j mem
    rcases made held with before | added
    · exact once.read y before j mem
    · rw [added] at mem
      rcases List.mem_cons.mp mem with rfl | mem
      · exact booked.tasksRead _ (List.mem_of_getElem? at_)
      · exact once.entriesAt_read mem
  · intro y held
    rcases made held with before | added
    · exact once.once y before
    · rw [added]
      exact List.nodup_cons.mpr ⟨once.fresh id pending reading here, once.entriesAt_once _⟩
  · intro j mem reading' here' again
    rcases entriesAt_handle sound moved again with before | rfl
    · exact once.fresh j (fewer.subset mem) reading' here' before
    · exact done mem

omit [Float64 F] in
/-- Entries nobody has read yet are fresh. -/
theorem once_read (booked : z.Booked) (once : z.Once cfg) :
    Once cfg { z with
      cursor := z.next + z.unread.length
      pending := z.unread.foldl (deliver z.clock) z.pending
      tasks := z.tasks ++ z.tasksFor EntryPayload.spawned z.unread } := by
  have distinct : z.unread.Nodup := List.nodup_range'
  have spawned := once.spawn EntryPayload.spawned distinct ?_ ?_ rfl
  · exact ⟨fun y held id mem => lt_of_lt_cursor (once.read y held id mem), once.once,
      spawned.handlingOnce, spawned.fresh⟩
  · intro id new mem
    obtain ⟨task, listed, _, rfl⟩ := mem_handling.mp mem
    have := booked.tasksRead task listed
    have := (mem_unread new).1
    omega
  · intro id new reading _ mem
    have := once.entriesAt_read mem
    have := (mem_unread new).1
    omega

omit [Float64 F] in
/-- Entries that are claimed while they are fresh. -/
theorem once_claim (booked : z.Booked) (once : z.Once cfg) {pass : Nat} {ids : List Nat}
    (found : z.claims[pass]? = some ids)
    (meets : ∀ id ∈ z.claimable ids, isFresh cfg z id = true) :
    Once cfg { z with
      claims := z.claims.eraseIdx pass
      pending := (z.claimable ids).foldl (deliver z.clock) (z.cleared ids)
      tasks := z.tasks ++ z.tasksFor EntryPayload.reclaimed (z.claimable ids) } := by
  have distinct : (z.claimable ids).Nodup :=
    claimable_once (booked.claimsOnce ids (List.mem_of_getElem? found))
  have spawned := once.spawn EntryPayload.reclaimed distinct ?_ ?_ rfl
  · exact ⟨once.read, once.once, spawned.handlingOnce, spawned.fresh⟩
  · intro id claimed
    have fresh := meets id claimed
    simp only [isFresh, Bool.and_eq_true, decide_eq_true_eq] at fresh
    exact fresh.1
  · intro id claimed reading here
    have fresh := meets id claimed
    simp only [isFresh, Bool.and_eq_true, here, decide_eq_true_eq] at fresh
    exact fresh.2

/-- Every step keeps entries apart, as long as a claim returns none that a task has or a bin holds.
-/
theorem once_step (sound : z.world.Sound cfg) (booked : z.Booked) (once : z.Once cfg)
    (meets : claimsFresh cfg z e = true) (moved : step codec cfg z e = some t) : t.Once cfg := by
  cases moves_of_step moved with
  | added =>
    refine ⟨once.read, once.once, once.handlingOnce, ?_⟩
    intro id mem reading here
    obtain ⟨task, listed, _, rfl⟩ := mem_handling.mp mem
    have bound : task.entry < z.entries.length :=
      (booked.tasksRead task listed).trans_le booked.read
    simp only [List.getElem?_append_left bound] at here
    exact once.fresh _ mem reading here
  | read => exact once_read booked once
  | readLost =>
    exact ⟨fun y held id mem => lt_of_lt_cursor (once.read y held id mem), once.once,
      once.handlingOnce, once.fresh⟩
  | claimed found =>
    simp only [claimsFresh, found, List.all_eq_true] at meets
    exact once_claim booked once found meets
  | handled at_ here billed => exact once_handle sound booked once at_ here billed
  | acked at_ => exact once.of_sublist (List.eraseIdx_sublist _ _)
  | restarted billed =>
    have held {y : ReadingSnapshot Nat} := holds_settle (y := y) sound billed (fun _ _ _ => nofun)
    exact ⟨fun y h => once.read y (held h), fun y h => once.once y (held h), List.nodup_nil,
      nofun⟩
  | settled billed reads runs =>
    have held {y : ReadingSnapshot Nat} := holds_settle (y := y) sound billed reads
    refine ⟨fun y h => once.read y (held h), fun y h => once.once y (held h),
      once.handlingOnce, ?_⟩
    intro id mem reading here again
    exact once.fresh id mem reading here (entriesAt_settle sound billed reads runs again)
  | unread => exact once
  | ticked => exact ⟨once.read, once.once, once.handlingOnce, once.fresh⟩
  | looked => exact ⟨once.read, once.once, once.handlingOnce, once.fresh⟩
  | claimLost found => exact ⟨once.read, once.once, once.handlingOnce, once.fresh⟩
  | unclaimed => exact ⟨once.read, once.once, once.handlingOnce, once.fresh⟩

/-- The worker touches billing in two ways only, and both are steps of it. -/
theorem sound_zone_step (sound : z.world.Sound cfg) (moved : step codec cfg z e = some t) :
    t.world.Sound cfg := by
  cases moves_of_step moved with
  | handled at_ here billed => exact World.sound_step sound billed
  | restarted billed => exact World.sound_step sound billed
  | settled billed => exact World.sound_step sound billed
  | _ => exact sound

/-! ## The law -/

/-- In every interleaving whose claims are fresh, a bin that a sweep takes holds each stream entry
at most once, and its energies and its reading count are the sums over what it holds. It does not
say that the bin holds every entry that was read: a late reading is dropped, and the entry
acknowledged all the same. -/
theorem entry_counted_once (codec : DecimalCodec F) (cfg : SettlementConfig) {z : Zone F}
    (chain : Steps (step codec cfg) (fun z e => claimsFresh cfg z e = true) init z)
    {y : ReadingSnapshot Nat} (settled : z.world.InHand y) :
    (∀ id, (entriesOf y).count id ≤ 1) ∧ Truthful y := by
  have holds : z.world.Sound cfg ∧ z.Booked ∧ z.Once cfg := by
    refine chain.invariant (P := fun z => z.world.Sound cfg ∧ z.Booked ∧ z.Once cfg) ?_
      ⟨World.sound_init, booked_init, once_init⟩
    intro z e t before meets moved
    exact ⟨sound_zone_step before.1 moved, booked_step before.2.1 moved,
      once_step before.1 before.2.1 before.2.2 meets moved⟩
  obtain ⟨item, mem, same⟩ := settled
  have held : z.world.Holds y := .inHand item mem same
  exact ⟨List.nodup_iff_count_le_one.mp (holds.2.2.once y held),
    (holds.1.copies y held).truthful⟩

end Steps

/-! ## An acknowledgement that failed -/

/-- The entry is read and added, and its `XACK` fails. Half a minute later it is claimed and
added again, and the sweep takes the bin. -/
private def failedAck : List (Event ℚ) :=
  [.xadd (.reading (generatedAt 0 5)) 0, .xreadgroup .ok, .handle 0 (DateTime.ofSecs 1) 7,
    .xack 0 .failed, .tick 30000, .xpending, .xclaim 0 .ok, .handle 0 (DateTime.ofSecs 31) 7,
    .xack 0 .ok, .settle (.take (DateTime.ofSecs 2000))]

private theorem failedAck_runs :
    (run (step exactCodec World.oneMeter) Always failedAck init).isSome := by
  decide +kernel

/-- One failed acknowledgement makes a sweep settle the energy of an entry twice. -/
theorem failed_ack_counts_twice :
    ¬ ∀ (z : Zone ℚ) (y : ReadingSnapshot Nat),
      Steps (step exactCodec World.oneMeter) Always init z → z.world.InHand y →
      (∀ id, (entriesOf y).count id ≤ 1) ∧ Truthful y := by
  intro law
  have chain := Steps.of_run_get failedAck_runs
  have twice : (((run (step exactCodec World.oneMeter) Always failedAck init).get
      failedAck_runs).world.sweep.any fun item =>
        decide ((entriesOf item.taken).count 0 = 2 ∧ item.taken.bin.net = 10)) = true := by
    decide +kernel
  obtain ⟨item, mem, counted⟩ := List.any_eq_true.mp twice
  have once := (law _ item.taken chain ⟨item, mem, rfl⟩).1 0
  have two := (of_decide_eq_true counted).1
  omega

/-- The process dies between reading the entry and adding it. After the restart the entry is
claimed and added. -/
private def diedBefore : List (Event ℚ) :=
  [.xadd (.reading (generatedAt 0 5)) 0, .xreadgroup .ok, .settle (.restart true), .tick 30000,
    .xpending, .xclaim 0 .ok, .handle 0 (DateTime.ofSecs 31) 7, .xack 0 .lost,
    .settle (.take (DateTime.ofSecs 2000))]

private theorem diedBefore_runs :
    (run (step exactCodec World.oneMeter) (fun z e => claimsFresh World.oneMeter z e = true)
      diedBefore init).isSome := by
  decide +kernel

/-- A redelivery that is needed counts the entry once. -/
theorem reclaimed_entry_counted_once :
    ∃ y, ((run (step exactCodec World.oneMeter) (fun z e => claimsFresh World.oneMeter z e = true)
        diedBefore init).get diedBefore_runs).world.InHand y ∧
      (∀ id, (entriesOf y).count id ≤ 1) ∧ Truthful y := by
  have chain := Steps.of_run_get diedBefore_runs
  have taken : (((run (step exactCodec World.oneMeter)
      (fun z e => claimsFresh World.oneMeter z e = true) diedBefore init).get
        diedBefore_runs).world.sweep.any fun item =>
          decide (item.taken.bin.net = 5)) = true := by
    decide +kernel
  obtain ⟨item, mem, _⟩ := List.any_eq_true.mp taken
  exact ⟨item.taken, ⟨item, mem, rfl⟩,
    entry_counted_once exactCodec World.oneMeter chain ⟨item, mem, rfl⟩⟩

end Zone

end AggregatorBridge
