import AggregatorBridge.Laws.CountedOnce

/-!
# Readings behind fifty that do not parse

Neither loop acknowledges an entry that decodes to no event, so it stays on the pending list, and a
pass of the redelivery loop looks at the first fifty of that list only. A reading that was delivered
to nobody, or to a task that a restart took, waits there to be claimed. Behind fifty entries that do
not parse it waits for good: no later step of anybody gives it to a task, whatever is appended, read,
claimed or acknowledged, and however often the process restarts.

That lasts as long as the fifty are in the stream. Once `MAXLEN` trims one of them, a pass that
claims it takes it off the list and the reading moves up, unless it is gone by then itself. The law
does not say which comes first, and nothing about an entry that a pass had in hand when the fifty
were at the head already.
-/

namespace AggregatorBridge

open Remote Transition

namespace Zone

variable {F : Type} [Float64 F] {codec : DecimalCodec F} {cfg : SettlementConfig} {z t : Zone F}
  {e : Event F} {ids : List Nat} {id : Nat}

/-! ## The head of the pending list -/

/-- Nobody is at work on an entry that does not parse. -/
def Attended (z : Zone F) : Prop :=
  ∀ task ∈ z.tasks, ∃ p, z.entries[task.entry]? = some p ∧ p ≠ .unparsable

omit [Float64 F] in
theorem attended_tasksFor {stageOf : EntryPayload F → Option TaskStage} {ids : List Nat}
    (leaves : stageOf .unparsable = none) {task : ZoneTask} (mem : task ∈ z.tasksFor stageOf ids) :
    ∃ p, z.entries[task.entry]? = some p ∧ p ≠ .unparsable := by
  obtain ⟨id, -, spawned⟩ := List.mem_filterMap.mp mem
  obtain ⟨stage, staged, rfl⟩ := Option.map_eq_some_iff.mp spawned
  obtain ⟨p, here, acts⟩ := Option.bind_eq_some_iff.mp staged
  refine ⟨p, here, ?_⟩
  rintro rfl
  rw [leaves] at acts
  cases acts

/-- No step gives anybody an entry that does not parse: both loops drop it before there is a task.
-/
theorem attended_step (attended : z.Attended) (moved : step codec cfg z e = some t) :
    t.Attended := by
  cases moves_of_step moved with
  | added =>
    intro task mem
    obtain ⟨p, here, parses⟩ := attended task mem
    refine ⟨p, ?_, parses⟩
    rw [List.getElem?_append_left (List.getElem?_eq_some_iff.mp here).1, here]
  | read =>
    intro task mem
    exact (List.mem_append.mp mem).elim (attended task) (attended_tasksFor rfl)
  | claimed found =>
    intro task mem
    exact (List.mem_append.mp mem).elim (attended task) (attended_tasksFor rfl)
  | handled at_ here billed =>
    intro task mem
    rcases List.mem_or_eq_of_mem_set mem with before | rfl
    · exact attended task before
    · exact ⟨_, here, nofun⟩
  | acked at_ => exact fun task mem => attended task (List.mem_of_mem_eraseIdx mem)
  | restarted billed => exact nofun
  | ticked => exact attended
  | readLost => exact attended
  | unread => exact attended
  | looked => exact attended
  | claimLost found => exact attended
  | unclaimed => exact attended
  | settled billed reads runs => exact attended

/-- These entries are at the head of the pending list and in the stream, and none of them parses. -/
structure Heads (ids : List Nat) (z : Zone F) : Prop where
  stuck : ∀ id ∈ ids, z.entries[id]? = some .unparsable
  there : ∀ id ∈ ids, z.gone ≤ id
  first : ids <+: z.pending.map Prod.fst

/-- No `XADD` trims one of these entries. -/
def Spares (ids : List Nat) (z : Zone F) : Event F → Prop
  | .xadd payload trim => ∀ id ∈ ids, (z.xadd payload trim).gone ≤ id
  | _ => True

/-- Taking others off the list leaves its head alone. -/
theorem first_filter {pending : List (Nat × Int)} (keep : Nat → Bool)
    (first : ids <+: pending.map Prod.fst) (kept : ∀ id ∈ ids, keep id = true) :
    ids <+: (pending.filter fun p => keep p.1).map Prod.fst := by
  obtain ⟨rest, same⟩ := first
  have filtered : (pending.filter fun p => keep p.1).map Prod.fst = (ids ++ rest).filter keep := by
    rw [same, List.filter_map]
    rfl
  rw [filtered, List.filter_append, List.filter_eq_self.mpr kept]
  exact List.prefix_append _ _

omit [Float64 F] in
theorem Heads.first_claimed (heads : z.Heads ids) (claim : List Nat) :
    ids <+: ((z.claimable claim).foldl (deliver z.clock) (z.cleared claim)).map Prod.fst := by
  have cleared : ids <+: (z.cleared claim).map Prod.fst :=
    first_filter (fun id => decide (id ∉ claim ∨ z.gone ≤ id)) heads.first
      fun id mem => decide_eq_true (.inr (heads.there id mem))
  exact cleared.trans (ids_deliverAll z.clock _ _)

/-- Entries that do not parse stay where they are on the pending list as long as they are in the
stream. -/
theorem heads_step (attended : z.Attended) (heads : z.Heads ids) (spares : Spares ids z e)
    (moved : step codec cfg z e = some t) : t.Heads ids := by
  have listed {more : List Nat} :
      ids <+: (more.foldl (deliver z.clock) z.pending).map Prod.fst :=
    heads.first.trans (ids_deliverAll z.clock z.pending more)
  cases moves_of_step moved with
  | added =>
    refine { heads with stuck := fun id mem => ?_, there := spares }
    have here := heads.stuck id mem
    rw [List.getElem?_append_left (List.getElem?_eq_some_iff.mp here).1, here]
  | read => exact { heads with first := listed }
  | readLost => exact { heads with first := listed }
  | claimed found => exact { heads with first := heads.first_claimed _ }
  | claimLost found => exact { heads with first := heads.first_claimed _ }
  | @acked i reply task at_ =>
    -- a task is for an entry that parses, so what it takes off the list is none of these
    have other : ∀ id ∈ ids, decide (id ≠ task.entry) = true := by
      refine fun id mem => decide_eq_true ?_
      rintro rfl
      obtain ⟨p, here, parses⟩ := attended task (List.mem_of_getElem? at_)
      rw [heads.stuck _ mem] at here
      exact parses (Option.some.inj here).symm
    refine { heads with first := ?_ }
    rcases reply.effect_cases (·.filter fun p => p.1 ≠ task.entry) z.pending with same | del
    · simpa only [same] using heads.first
    · simpa only [del] using first_filter _ heads.first other
  | ticked => exact { heads with }
  | unread => exact heads
  | looked => exact { heads with }
  | unclaimed => exact { heads with }
  | handled at_ here billed => exact { heads with }
  | restarted billed => exact { heads with }
  | settled billed reads runs => exact { heads with }

omit [Float64 F] in
/-- The redelivery loop looks no further than fifty of them. -/
theorem Heads.stale_mem (heads : z.Heads ids) (fifty : ids.length = pendingCount) :
    ∀ id ∈ z.stale, id ∈ ids := by
  intro id mem
  obtain ⟨rest, same⟩ := heads.first
  obtain ⟨p, found, rfl⟩ := List.mem_map.mp mem
  have scanned : p.1 ∈ (z.pending.take pendingCount).map Prod.fst :=
    List.mem_map_of_mem (List.mem_filter.mp found).1
  rwa [List.map_take, ← same, ← fifty, List.take_left] at scanned

/-! ## What is behind it -/

/-- The entry is pending behind those of `ids`, and nobody is at work on it or about to claim it. -/
structure Starved (ids : List Nat) (id : Nat) (z : Zone F) : Prop where
  booked : z.Booked
  attended : z.Attended
  heads : z.Heads ids
  pending : id ∈ z.pending.map Prod.fst
  idle : ∀ task ∈ z.tasks, task.entry ≠ id
  unclaimed : ∀ claim ∈ z.claims, id ∉ claim

omit [Float64 F] in
/-- A pending entry was read before, so it is not read again. -/
theorem Starved.not_mem_unread (starved : z.Starved ids id) : id ∉ z.unread := by
  intro fresh
  obtain ⟨p, listed, rfl⟩ := List.mem_map.mp starved.pending
  have read := starved.booked.pendingRead p listed
  have unread := (mem_unread fresh).1
  omega

omit [Float64 F] in
/-- An `XCLAIM` of others takes others off the list. -/
theorem Starved.claimed (starved : z.Starved ids id) {claim : List Nat} (other : id ∉ claim) :
    id ∈ ((z.claimable claim).foldl (deliver z.clock) (z.cleared claim)).map Prod.fst := by
  obtain ⟨p, listed, rfl⟩ := List.mem_map.mp starved.pending
  have left : p ∈ z.cleared claim :=
    List.mem_filter.mpr ⟨listed, decide_eq_true (.inl other)⟩
  exact (ids_deliverAll z.clock _ _).subset (List.mem_map_of_mem left)

omit [Float64 F] in
/-- What a task takes off the list is its own entry. -/
theorem Starved.acked (starved : z.Starved ids id) {task : ZoneTask} (mem : task ∈ z.tasks)
    (reply : Reply) :
    id ∈ (reply.effect (·.filter fun p => p.1 ≠ task.entry) z.pending).map Prod.fst := by
  rcases reply.effect_cases (·.filter fun p => p.1 ≠ task.entry) z.pending with same | del
  · rw [same]
    exact starved.pending
  · rw [del]
    obtain ⟨p, listed, rfl⟩ := List.mem_map.mp starved.pending
    have other := starved.idle task mem
    exact List.mem_map_of_mem (List.mem_filter.mpr ⟨listed, decide_eq_true other.symm⟩)

/-- So what is behind fifty of them is not looked at by the next pass either. -/
theorem starved_step (fifty : ids.length = pendingCount) (behind : id ∉ ids)
    (spares : Spares ids z e) (starved : z.Starved ids id) (moved : step codec cfg z e = some t) :
    t.Starved ids id := by
  have booked := booked_step starved.booked moved
  have attended := attended_step starved.attended moved
  have heads := heads_step starved.attended starved.heads spares moved
  have kept {more : List Nat} : id ∈ (more.foldl (deliver z.clock) z.pending).map Prod.fst :=
    (ids_deliverAll z.clock z.pending more).subset starved.pending
  cases moves_of_step moved with
  | read =>
    refine ⟨booked, attended, heads, kept, fun task mem => ?_, starved.unclaimed⟩
    rcases List.mem_append.mp mem with old | new
    · exact starved.idle task old
    · rintro rfl
      exact starved.not_mem_unread (mem_tasksFor new)
  | readLost => exact ⟨booked, attended, heads, kept, starved.idle, starved.unclaimed⟩
  | looked =>
    refine ⟨booked, attended, heads, starved.pending, starved.idle, fun claim mem => ?_⟩
    rcases List.mem_append.mp mem with old | new
    · exact starved.unclaimed claim old
    · cases List.mem_singleton.mp new
      exact fun found => behind (starved.heads.stale_mem fifty id found)
  | @claimed pass claim found =>
    have other := starved.unclaimed claim (List.mem_of_getElem? found)
    refine ⟨booked, attended, heads, starved.claimed other, fun task mem => ?_,
      fun claim mem => starved.unclaimed claim (List.mem_of_mem_eraseIdx mem)⟩
    rcases List.mem_append.mp mem with old | new
    · exact starved.idle task old
    · rintro rfl
      exact other (List.mem_filter.mp (mem_tasksFor new)).1
  | claimLost found =>
    have other := starved.unclaimed _ (List.mem_of_getElem? found)
    exact ⟨booked, attended, heads, starved.claimed other, starved.idle,
      fun claim mem => starved.unclaimed claim (List.mem_of_mem_eraseIdx mem)⟩
  | unclaimed =>
    exact ⟨booked, attended, heads, starved.pending, starved.idle,
      fun claim mem => starved.unclaimed claim (List.mem_of_mem_eraseIdx mem)⟩
  | handled at_ here billed =>
    refine ⟨booked, attended, heads, starved.pending, fun task mem => ?_, starved.unclaimed⟩
    rcases List.mem_or_eq_of_mem_set mem with old | rfl
    · exact starved.idle task old
    · exact starved.idle ⟨_, .handle⟩ (List.mem_of_getElem? at_)
  | @acked i reply task at_ =>
    exact ⟨booked, attended, heads, starved.acked (List.mem_of_getElem? at_) reply,
      fun task mem => starved.idle task (List.mem_of_mem_eraseIdx mem), starved.unclaimed⟩
  | restarted billed => exact ⟨booked, attended, heads, starved.pending, nofun, nofun⟩
  | added => exact ⟨booked, attended, heads, starved.pending, starved.idle, starved.unclaimed⟩
  | ticked => exact ⟨booked, attended, heads, starved.pending, starved.idle, starved.unclaimed⟩
  | unread => exact starved
  | settled billed reads runs =>
    exact ⟨booked, attended, heads, starved.pending, starved.idle, starved.unclaimed⟩

/-- A pending entry that no task and no pass has, behind fifty that do not parse, is not given to a
task again as long as `MAXLEN` trims none of the fifty. Restarts and further passes change nothing
about it. -/
theorem pending_starves (reached : Steps (step codec cfg) Always init z)
    (heads : z.Heads ids) (fifty : ids.length = pendingCount) (behind : id ∉ ids)
    (pending : id ∈ z.pending.map Prod.fst) (idle : ∀ task ∈ z.tasks, task.entry ≠ id)
    (unclaimed : ∀ claim ∈ z.claims, id ∉ claim) (later : Steps (step codec cfg) (Spares ids) z t) :
    id ∈ t.pending.map Prod.fst ∧ ∀ task ∈ t.tasks, task.entry ≠ id := by
  have booked : z.Booked := reached.invariant (fun _ _ _ before _ => booked_step before) booked_init
  have attended : z.Attended :=
    reached.invariant (fun _ _ _ before _ => attended_step before) nofun
  have starved : t.Starved ids id :=
    later.invariant (fun _ _ _ before spares => starved_step fifty behind spares before)
      ⟨booked, attended, heads, pending, idle, unclaimed⟩
  exact ⟨starved.pending, starved.idle⟩

/-- Fifty entries that do not parse, and a reading whose read is not answered. -/
private def blocked : List (Event ℚ) :=
  List.replicate 50 (.xadd .unparsable 0) ++
    [.xadd (.reading (generatedAt 0 5)) 0, .xreadgroup .ok, .xreadgroup .ok, .xreadgroup .lost]

private theorem blocked_run :
    (run (step exactCodec World.oneMeter) Always blocked init).isSome := by
  decide +kernel

private def blockedState : Zone ℚ :=
  (run (step exactCodec World.oneMeter) Always blocked init).get blocked_run

/-- The redelivery loop goes over the stream twice, and the process restarts in between. Nothing is
appended, and nothing trimmed. -/
private def reclaiming : List (Event ℚ) :=
  [.tick 30000, .xpending, .xclaim 0 .ok, .settle (.restart true), .tick 30000, .xpending,
    .xclaim 0 .ok]

private def quiet : Event ℚ → Bool
  | .xadd _ _ => false
  | _ => true

private theorem spares_of_quiet {z : Zone ℚ} {e : Event ℚ} (calm : quiet e = true) :
    Spares ids z e := by
  cases e with
  | xadd payload trim => cases calm
  | _ => trivial

private theorem reclaiming_run :
    (run (step exactCodec World.oneMeter) (fun _ e => quiet e = true) reclaiming
      blockedState).isSome := by
  decide +kernel

private def reclaimedState : Zone ℚ :=
  (run (step exactCodec World.oneMeter) (fun _ e => quiet e = true) reclaiming blockedState).get
    reclaiming_run

/-- The reading is the fifty-first. -/
theorem fifty_first_starves :
    50 ∈ reclaimedState.pending.map Prod.fst ∧ ∀ task ∈ reclaimedState.tasks, task.entry ≠ 50 := by
  have heads : blockedState.Heads (List.range 50) := by
    have whole : blockedState.gone = 0 := by decide +kernel
    refine ⟨fun id mem => ?_, fun id _ => whole ▸ id.zero_le, by decide +kernel⟩
    have entries : blockedState.entries =
        List.replicate 50 .unparsable ++ [.reading (generatedAt 0 5)] := rfl
    have inside : id < 50 := List.mem_range.mp mem
    rw [entries, List.getElem?_append_left (by simpa using inside), List.getElem?_replicate,
      if_pos inside]
  exact pending_starves (Steps.of_run_get blocked_run) heads (by decide) (by decide)
    (by decide +kernel) (by decide +kernel) (by decide +kernel)
    ((Steps.of_run_get reclaiming_run).mono fun _ _ calm => spares_of_quiet calm)

end Zone

end AggregatorBridge
