import AggregatorBridge.Laws.SettlementRuns

/-!
# A settled surplus has a durable home

Once the snapshot of a bin with a surplus is in the durable hash and no further reading of its
window is handled, the window is found in the durable hash, in the outbox or in the parked hash
at every later point, or the bridge has confirmed it (`Home`). The law is about every run:
any command can fail before or after it took effect, and the process can die between any two.

Two arguments carry it. A field that is in the outbox, parked or confirmed stays so (`Kept`),
because `park` writes before it deletes and `remove` is only called for what was confirmed. And
the sweep deletes a durable bin only when its window is `Kept` or the bin has no surplus.

That last alternative is where the law needs a condition (`prompt`). The sweep deletes by meter
and window, not by what it settled: while it holds a bin without surplus, a straggler can form
a new bin of the same window, and the deletion that belongs to the old bin takes the snapshot
of the new one. The set of settled windows does not prevent it, because a window more than a
day behind the meter is forgotten in the same call that settles it.

The law says that the window has a home. It does not say that the home holds the amount that
was in the snapshot.
-/

namespace AggregatorBridge

open Remote Transition

/-! ## The outbox keeps what it has -/

namespace Outbox

variable {τ : Type} {cfg : DrainConfig} {s t : Outbox τ} {e : Event} {field : String}

/-- The field is in a hash, or its mint is confirmed. -/
def Kept (s : Outbox τ) (field : String) : Prop :=
  s.outbox.lookup field ≠ none ∨ s.parked.lookup field ≠ none ∨ field ∈ s.replied

/-- A call deletes only what may be deleted: a `park` has written its field, a `remove` is for
a confirmed one. -/
structure Accounted (s : Outbox τ) : Prop where
  parkDel : ∀ field, .parkDel field ∈ s.calls →
    s.parked.lookup field ≠ none ∨ field ∈ s.replied
  removeOutbox : ∀ field, .removeOutbox field ∈ s.calls → field ∈ s.replied
  removeParked : ∀ field, .removeParked field ∈ s.calls → field ∈ s.replied

theorem lookup_set_ne_none {V : Type} {h : Hash String V} {f g : String} {v : V}
    (present : h.lookup f ≠ none) : (h.insert g v).lookup f ≠ none := by
  rw [Hash.lookup_set]
  split
  · exact Option.some_ne_none v
  · exact present

private theorem lookup_del_ne_none {V : Type} {h : Hash String V} {f g : String}
    (present : h.lookup f ≠ none) (other : f ≠ g) : (h.erase g).lookup f ≠ none := by
  rwa [Hash.lookup_del, if_neg other]

/-- Executed or not, a write leaves a field that was there. -/
private theorem effect_set_ne_none {V : Type} {h : Hash String V} {f g : String} {v : V}
    (reply : Reply) (present : h.lookup f ≠ none) :
    (reply.effect (AList.insert g v) h).lookup f ≠ none := by
  rcases reply.effect_cases (AList.insert g v) h with same | set
  · rwa [same]
  · rw [set]
    exact lookup_set_ne_none present

private theorem effect_del_ne_none {V : Type} {h : Hash String V} {f g : String}
    (reply : Reply) (present : h.lookup f ≠ none) (other : f ≠ g) :
    (reply.effect (AList.erase g) h).lookup f ≠ none := by
  rcases reply.effect_cases (AList.erase g) h with same | del
  · rwa [same]
  · rw [del]
    exact lookup_del_ne_none present other

/-- One command deletes nothing that has to be kept. -/
theorem kept_execute {k : Nat} {call : OutboxCall τ} (accounted : s.Accounted)
    (called : s.calls[k]? = some call) (reply : Reply) (kept : s.Kept field) :
    (execute { s with calls := s.calls.eraseIdx k } call reply).Kept field := by
  have mine : call ∈ s.calls := List.mem_of_getElem? called
  cases call with
  | parkSet p =>
    rcases kept with outbox | parked | replied
    · exact .inl outbox
    · exact .inr (.inl (effect_set_ne_none reply parked))
    · exact .inr (.inr replied)
  | parkDel g =>
    rcases kept with outbox | parked | replied
    · by_cases same : field = g
      · subst same
        exact .inr (accounted.parkDel field mine)
      · exact .inl (effect_del_ne_none reply outbox same)
    · exact .inr (.inl parked)
    · exact .inr (.inr replied)
  | removeOutbox g =>
    rcases kept with outbox | parked | replied
    · by_cases same : field = g
      · subst same
        exact .inr (.inr (accounted.removeOutbox field mine))
      · exact .inl (effect_del_ne_none reply outbox same)
    · exact .inr (.inl parked)
    · exact .inr (.inr replied)
  | removeParked g =>
    rcases kept with outbox | parked | replied
    · exact .inl outbox
    · by_cases same : field = g
      · subst same
        exact .inr (.inr (accounted.removeParked field mine))
      · exact .inr (.inl (effect_del_ne_none reply parked same))
    · exact .inr (.inr replied)

/-- A call that follows another in its list is accounted for if that one was. -/
theorem accounted_execute {k : Nat} {call : OutboxCall τ} (accounted : s.Accounted)
    (called : s.calls[k]? = some call) (reply : Reply) :
    (execute { s with calls := s.calls.eraseIdx k } call reply).Accounted := by
  have mine : call ∈ s.calls := List.mem_of_getElem? called
  have left {c : OutboxCall τ} (mem : c ∈ s.calls.eraseIdx k) : c ∈ s.calls :=
    List.mem_of_mem_eraseIdx mem
  -- The list after a command: what was left, and the call's next command if it went well.
  have cases_ {c d : OutboxCall τ}
      (mem : c ∈ s.calls.eraseIdx k ++ if reply = .ok then [d] else []) :
      c ∈ s.calls ∨ reply = .ok ∧ c = d := by
    rcases List.mem_append.mp mem with before | new
    · exact .inl (left before)
    · split at new
      · next ok => exact .inr ⟨ok, List.mem_singleton.mp new⟩
      · cases new
  cases call with
  | parkSet p =>
    refine ⟨?_, ?_, ?_⟩
    · intro f mem
      rcases cases_ mem with before | ⟨rfl, same⟩
      · exact (accounted.parkDel f before).imp_left (effect_set_ne_none reply)
      · cases same
        refine .inl ?_
        change (AList.insert p.field p s.parked).lookup p.field ≠ none
        rw [AList.lookup_insert]
        exact Option.some_ne_none p
    · intro f mem
      rcases cases_ mem with before | ⟨_, same⟩
      · exact accounted.removeOutbox f before
      · cases same
    · intro f mem
      rcases cases_ mem with before | ⟨_, same⟩
      · exact accounted.removeParked f before
      · cases same
  | parkDel g =>
    exact ⟨fun f mem => accounted.parkDel f (left mem),
      fun f mem => accounted.removeOutbox f (left mem),
      fun f mem => accounted.removeParked f (left mem)⟩
  | removeOutbox g =>
    refine ⟨?_, ?_, ?_⟩
    · intro f mem
      rcases cases_ mem with before | ⟨_, same⟩
      · exact accounted.parkDel f before
      · cases same
    · intro f mem
      rcases cases_ mem with before | ⟨_, same⟩
      · exact accounted.removeOutbox f before
      · cases same
    · intro f mem
      rcases cases_ mem with before | ⟨_, same⟩
      · exact accounted.removeParked f before
      · cases same
        exact accounted.removeOutbox _ mine
  | removeParked g =>
    refine ⟨?_, fun f mem => accounted.removeOutbox f (left mem),
      fun f mem => accounted.removeParked f (left mem)⟩
    intro f mem
    rcases accounted.parkDel f (left mem) with parked | replied
    · by_cases same : f = g
      · subst same
        exact .inr (accounted.removeParked f mine)
      · exact .inl (effect_del_ne_none reply parked same)
    · exact .inr replied

/-- What keeps a field safe is not undone: a removal comes after a confirmation, and a park moves
the entry. -/
theorem kept_step (accounted : s.Accounted) (moved : step cfg s e = some t)
    (kept : s.Kept field) : t.Kept field := by
  cases effect_of_step moved with
  | quiet outbox parked replied _ =>
    rwa [Kept, outbox, parked, replied]
  | parks _ outbox parked replied _ =>
    rwa [Kept, outbox, parked, replied]
  | confirms fields outbox parked replied _ =>
    rw [Kept, outbox, parked, replied]
    exact kept.imp_right fun rest => rest.imp_right fun mem => List.mem_append_left _ mem
  | executes k call reply _ called after =>
    subst after
    exact kept_execute accounted called reply kept

/-- Calls under way are about fields that were asked for. -/
theorem accounted_step (accounted : s.Accounted) (moved : step cfg s e = some t) :
    t.Accounted := by
  cases effect_of_step moved with
  | quiet _ parked replied calls =>
    refine ⟨?_, ?_, ?_⟩ <;> rw [calls, replied]
    · rw [parked]
      exact accounted.parkDel
    · exact accounted.removeOutbox
    · exact accounted.removeParked
  | parks p _ parked replied calls =>
    have old {c : OutboxCall τ} (mem : c ∈ s.calls ++ [.parkSet p]) (other : c ≠ .parkSet p) :
        c ∈ s.calls :=
      (List.mem_append.mp mem).resolve_right fun new => other (List.mem_singleton.mp new)
    refine ⟨?_, ?_, ?_⟩ <;> rw [calls, replied]
    · rw [parked]
      exact fun f mem => accounted.parkDel f (old mem nofun)
    · exact fun f mem => accounted.removeOutbox f (old mem nofun)
    · exact fun f mem => accounted.removeParked f (old mem nofun)
  | confirms fields _ parked replied calls =>
    refine ⟨?_, ?_, ?_⟩ <;> rw [calls, replied]
    · rw [parked]
      intro f mem
      rcases List.mem_append.mp mem with before | new
      · exact (accounted.parkDel f before).imp_right fun mem => List.mem_append_left _ mem
      · obtain ⟨g, _, impossible⟩ := List.mem_map.mp new
        cases impossible
    · intro f mem
      rcases List.mem_append.mp mem with before | new
      · exact List.mem_append_left _ (accounted.removeOutbox f before)
      · obtain ⟨g, confirmed, same⟩ := List.mem_map.mp new
        cases same
        exact List.mem_append_right _ confirmed
    · intro f mem
      rcases List.mem_append.mp mem with before | new
      · exact List.mem_append_left _ (accounted.removeParked f before)
      · obtain ⟨g, _, impossible⟩ := List.mem_map.mp new
        cases impossible
  | executes k call reply _ called after =>
    subst after
    exact accounted_execute accounted called reply

/-- An enqueue keeps what was kept, and what it wrote. -/
theorem Kept.enqueue {p : Owed τ} (reply : Reply) (kept : s.Kept field) :
    (s.enqueue p reply).Kept field :=
  kept.imp_left (effect_set_ne_none reply)

/-- An enqueue that was confirmed has put the field into the outbox. -/
theorem kept_enqueued (s : Outbox τ) (p : Owed τ) : (s.enqueue p .ok).Kept p.field := by
  refine .inl ?_
  change (AList.insert p.field p s.outbox).lookup p.field ≠ none
  rw [AList.lookup_insert]
  exact Option.some_ne_none p

theorem Accounted.crash (s : Outbox τ) : s.crash.Accounted := by
  refine ⟨?_, ?_, ?_⟩
  · intro f mem
    cases mem
  · intro f mem
    cases mem
  · intro f mem
    cases mem

end Outbox

/-! ## Homes -/

namespace World

variable {ρ : Type} {cfg : SettlementConfig} {w t : World ρ} {e : Event ρ} {k : BinKey}

/-- The window is in the outbox or parked, or its mint is confirmed. -/
def Handed (cfg : SettlementConfig) (w : World ρ) (k : BinKey) : Prop :=
  ∃ serial, cfg.newV5 serial = k.1 ∧
    w.ob.Kept (serial ++ ":" ++ toString k.2.timestampMillis)

/-- The window is in the durable hash, or handed on. -/
def Home (cfg : SettlementConfig) (w : World ρ) (k : BinKey) : Prop :=
  w.core.bins.lookup (binField k) ≠ none ∨ w.Handed cfg k

/-- For this meter the two owner lookups do not both say that there is no owner. -/
def attributed (k : BinKey) (w : World ρ) : Event ρ → Bool
  | .plan first second _ =>
    match w.sweep with
    | ⟨y, .plan⟩ :: _ =>
      decide (y.bin.meterId = k.1 → ¬ (first = .missing ∧ second = .missing))
    | _ => true
  | _ => true

/-- No reading of the window is accepted while the sweep holds a bin of it without surplus. -/
def prompt (k : BinKey) (w : World ρ) : Event ρ → Bool
  | .handle _ _ r =>
    decide (r.key = k → ¬ w.core.agg.IsSettled r.key →
      ∀ item ∈ w.sweep, item.taken.bin.key = k → 0 < item.taken.bin.net)
  | _ => true

/-- No reading for the window is handled; the others may go on. -/
def silent (k : BinKey) : Event ρ → Bool
  | .handle _ _ r => decide (r.key ≠ k)
  | _ => true

/-- The snapshot of a bin with a surplus is in the durable hash: what the hash holds of the
window has a surplus, and so does the bin as it stands, in memory or else in the hands of the
sweep, and whatever snapshot of it is on its way. -/
structure Recorded (w : World ρ) (k : BinKey) : Prop where
  durable : ∃ y ∈ w.core.bins.lookup (binField k), y.bin.key = k ∧ 0 < y.bin.net
  memory : ∀ bin ∈ w.core.agg.activeBins.lookup k, 0 < bin.net
  queued : ∀ y ∈ w.core.queue, y.bin.key = k → 0 < y.bin.net
  swept : w.core.agg.activeBins.lookup k = none →
    ∀ item ∈ w.sweep, item.taken.bin.key = k → 0 < item.taken.bin.net

/-! ## Before the snapshot is recorded -/

/-- What every run keeps about a window, as long as its readings are prompt: a bin in the hands
of the sweep has a surplus if there is a newer one in memory, and if the sweep is about to
delete a bin with a surplus, its window is handed on. -/
structure Ready (cfg : SettlementConfig) (k : BinKey) (w : World ρ) : Prop where
  accounted : w.ob.Accounted
  newer : w.core.agg.activeBins.lookup k ≠ none →
    ∀ item ∈ w.sweep, item.taken.bin.key = k → 0 < item.taken.bin.net
  settled : ∀ item ∈ w.sweep, ∀ handoff, item.stage = .settled handoff → handoff ≠ .lost →
    item.taken.bin.key = k → 0 < item.taken.bin.net → w.Handed cfg k

theorem ready_init : (init : World ρ).Ready cfg k where
  accounted := Outbox.Accounted.crash Outbox.init
  newer := by
    intro _ item mem
    cases mem
  settled := by
    intro item mem
    cases mem

/-- Billing and sweeps leave the calls of the drain loop alone. -/
theorem accounted_of_moves (accounted : w.ob.Accounted) (moves : Moves cfg w e t) :
    t.ob.Accounted := by
  have written (p : Owed (ReadingSnapshot ρ)) (reply : Reply) :
      (w.ob.enqueue p reply).Accounted :=
    ⟨accounted.parkDel, accounted.removeOutbox, accounted.removeParked⟩
  cases moves with
  | enqueued head =>
    exact ⟨accounted.parkDel, accounted.removeOutbox, accounted.removeParked⟩
  | retried head => exact written _ _
  | refused head => exact written _ _
  | published head =>
    exact ⟨accounted.parkDel, accounted.removeOutbox, accounted.removeParked⟩
  | minted head =>
    exact ⟨fun f mem => (accounted.parkDel f mem).imp_right fun h => List.mem_append_left _ h,
      fun f mem => List.mem_append_left _ (accounted.removeOutbox f mem),
      fun f mem => List.mem_append_left _ (accounted.removeParked f mem)⟩
  | drained moved => exact Outbox.accounted_step accounted moved
  | restarted => exact Outbox.Accounted.crash w.ob
  | handled named => exact accounted
  | flushed written => exact accounted
  | took idle => exact accounted
  | planned head => exact accounted
  | skipped head => exact accounted
  | failed head => exact accounted
  | evicted head => exact accounted
  | kept head => exact accounted

/-- A window whose mint was handed over stays handed over. -/
theorem handed_of_moves (accounted : w.ob.Accounted) (moves : Moves cfg w e t)
    (handed : w.Handed cfg k) : t.Handed cfg k := by
  obtain ⟨serial, named, kept⟩ := handed
  refine ⟨serial, named, ?_⟩
  cases moves with
  | enqueued head => exact Outbox.Kept.enqueue .ok kept
  | retried head => exact Outbox.Kept.enqueue .ok kept
  | refused head => exact Outbox.Kept.enqueue _ kept
  | published head => exact kept
  | minted head =>
    exact kept.imp_right fun rest => rest.imp_right fun mem => List.mem_append_left _ mem
  | drained moved => exact Outbox.kept_step accounted moved kept
  | restarted => exact kept
  | handled named => exact kept
  | flushed written => exact kept
  | took idle => exact kept
  | planned head => exact kept
  | skipped head => exact kept
  | failed head => exact kept
  | evicted head => exact kept
  | kept head => exact kept

/-- The field that the mint of a bin in hand goes by belongs to the window of the bin. -/
theorem handed_of_head (sound : w.Sound cfg) {y : ReadingSnapshot ρ} {stage : Stage}
    {rest : List (SweepItem ρ)} {p : PendingMint} (head : w.sweep = ⟨y, stage⟩ :: rest)
    (busy : stage.pending? = some p) (keyed : y.bin.key = k) (kept : t.ob.Kept p.field) :
    t.Handed cfg k := by
  have mem : (⟨y, stage⟩ : SweepItem ρ) ∈ w.sweep := head ▸ List.mem_cons_self
  have copy : SoundCopy cfg w.handled y := sound.copies y (.inHand ⟨y, stage⟩ mem rfl)
  have field : p.field = y.bin.mintField := (sound.busy ⟨y, stage⟩ mem p busy).field
  rw [field] at kept
  subst keyed
  exact ⟨y.bin.meterSerial, copy.named.symm, kept⟩

/-- A bin of the window that the sweep is done with, and that had a surplus, was handed on. -/
theorem settled_of_moves (sound : w.Sound cfg) (ready : w.Ready cfg k)
    (meets : attributed k w e = true) (moves : Moves cfg w e t) :
    ∀ item ∈ t.sweep, ∀ handoff, item.stage = .settled handoff → handoff ≠ .lost →
      item.taken.bin.key = k → 0 < item.taken.bin.net → t.Handed cfg k := by
  have before {item : SweepItem ρ} (mem : item ∈ w.sweep) (handoff : MintHandoff)
      (stage : item.stage = .settled handoff) (kept : handoff ≠ .lost)
      (keyed : item.taken.bin.key = k) (surplus : 0 < item.taken.bin.net) : t.Handed cfg k :=
    handed_of_moves ready.accounted moves
      (ready.settled item mem handoff stage kept keyed surplus)
  intro item mem handoff stage notLost keyed surplus
  have behind {y : ReadingSnapshot ρ} {stage' : Stage} {rest : List (SweepItem ρ)}
      (head : w.sweep = ⟨y, stage'⟩ :: rest) (mem : item ∈ rest) : t.Handed cfg k :=
    before (head ▸ List.mem_cons_of_mem _ mem) handoff stage notLost keyed surplus
  cases moves with
  | took idle =>
    obtain ⟨s, _, rfl⟩ := List.mem_map.mp mem
    cases stage
  | @planned first second nowMs y rest head =>
    rcases List.mem_cons.mp mem with rfl | mem
    · -- A surplus is settled without a handoff only if the owner is unknown.
      simp only [attributed, head, decide_eq_true_eq] at meets
      have known := ownerKnown_iff.mpr (meets (congrArg Prod.fst keyed))
      simp only [known, planned_of_surplus surplus] at stage
      cases stage
    · exact behind head mem
  | @enqueued y p rest head =>
    rcases List.mem_cons.mp mem with rfl | mem
    · exact handed_of_head sound head rfl keyed (Outbox.kept_enqueued w.ob ⟨p, y⟩)
    · exact behind head mem
  | @retried y p rest head =>
    rcases List.mem_cons.mp mem with rfl | mem
    · exact handed_of_head sound head rfl keyed (Outbox.kept_enqueued w.ob ⟨p, y⟩)
    · exact behind head mem
  | refused head busy still =>
    rcases List.mem_cons.mp mem with rfl | mem
    · simp only at stage
      rw [stage] at still
      cases still
    · exact behind head mem
  | published head =>
    rcases List.mem_cons.mp mem with rfl | mem
    · cases stage
    · exact behind head mem
  | skipped head =>
    rcases List.mem_cons.mp mem with rfl | mem
    · cases stage
      exact absurd rfl notLost
    · exact behind head mem
  | failed head =>
    rcases List.mem_cons.mp mem with rfl | mem
    · cases stage
      exact absurd rfl notLost
    · exact behind head mem
  | minted head =>
    rcases List.mem_cons.mp mem with rfl | mem
    · refine handed_of_head sound head rfl keyed ?_
      exact .inr (.inr (List.mem_append_right _ (List.mem_singleton.mpr rfl)))
    · exact behind head mem
  | evicted head =>
    exact behind head mem
  | kept head =>
    exact behind head mem
  | restarted => cases mem
  | handled named => exact before mem handoff stage notLost keyed surplus
  | flushed written => exact before mem handoff stage notLost keyed surplus
  | drained moved => exact before mem handoff stage notLost keyed surplus

/-- A newer bin of the window is in memory only while the older ones have a surplus. -/
theorem newer_of_moves (ready : w.Ready cfg k) (meets : prompt k w e = true)
    (moves : Moves cfg w e t) (present : t.core.agg.activeBins.lookup k ≠ none) :
    ∀ item ∈ t.sweep, item.taken.bin.key = k → 0 < item.taken.bin.net := by
  intro item mem keyed
  rcases inHand_of_moves moves ⟨item, mem, rfl⟩ with ⟨item', mem', same⟩ | ⟨now, rfl, completed⟩
  · rw [← same] at keyed ⊢
    by_cases before : w.core.agg.activeBins.lookup k = none
    · -- Memory did not have the window before: a reading of it was accepted just now.
      cases moves with
      | @handled now id r named =>
        simp only [Core.lookup_handle] at present
        split at present
        · next here =>
          simp only [prompt, decide_eq_true_eq] at meets
          exact meets here.1.symm here.2 item' mem' keyed
        · exact absurd before present
      | took idle =>
        rw [idle] at mem'
        cases mem'
      | flushed written => exact absurd (Core.agg_flush written ▸ before) present
      | restarted => cases mem
      | planned head => exact absurd before present
      | enqueued head => exact absurd before present
      | retried head => exact absurd before present
      | refused head => exact absurd before present
      | published head => exact absurd before present
      | skipped head => exact absurd before present
      | failed head => exact absurd before present
      | minted head => exact absurd before present
      | evicted head => exact absurd before present
      | kept head => exact absurd before present
      | drained moved => exact absurd before present
    · exact ready.newer before item' mem' keyed
  · cases moves with
    | took idle =>
      refine absurd ?_ present
      rw [Core.lookup_take, if_pos]
      exact List.mem_map.mpr ⟨item.taken, completed, keyed⟩

/-- Before the snapshot is recorded, prompt readings keep the bin of the window the one that is
going to be. -/
theorem ready_step (sound : w.Sound cfg) (ready : w.Ready cfg k)
    (meets : attributed k w e = true ∧ prompt k w e = true) (moved : step cfg w e = some t) :
    t.Ready cfg k :=
  have moves := moves_of_step moved
  ⟨accounted_of_moves ready.accounted moves, newer_of_moves ready meets.2 moves,
    settled_of_moves sound ready meets.1 moves⟩

/-! ## From then on -/

/-- What a run keeps after the snapshot was recorded, as long as no reading of the window is
handled: every copy of the window has a surplus, and the window has a home. -/
structure Safe (cfg : SettlementConfig) (k : BinKey) (w : World ρ) : Prop where
  ready : w.Ready cfg k
  whole : WholeKey k
  copies : ∀ y, w.core.Copy y → y.bin.key = k → 0 < y.bin.net
  swept : ∀ item ∈ w.sweep, item.taken.bin.key = k → 0 < item.taken.bin.net
  home : w.Home cfg k

theorem safe_of_recorded (sound : w.Sound cfg) (ready : w.Ready cfg k)
    (recorded : w.Recorded k) : w.Safe cfg k := by
  obtain ⟨y, durable, keyed, surplus⟩ := recorded.durable
  refine ⟨ready, ?_, ?_, ?_, .inl ?_⟩
  · rw [← keyed]
    exact sound.filed.whole y (.durable durable)
  · intro z copy keyed'
    cases copy with
    | @memory key bin found =>
      have same : bin.key = key := sound.filed.memory key bin found
      have here : key = k := same.symm.trans keyed'
      subst here
      exact recorded.memory bin found
    | queued mem => exact recorded.queued z mem keyed'
    | @durable field _ found =>
      have here : field = binField k := by
        rw [sound.filed.durable field z found, keyed']
      subst here
      rw [durable] at found
      cases found
      exact surplus
  · by_cases present : w.core.agg.activeBins.lookup k = none
    · exact recorded.swept present
    · exact ready.newer present
  · rw [durable]
    exact Option.some_ne_none y

/-- The window keeps its home. The one step that takes it from the durable hash is the deletion
after a handoff. -/
theorem home_of_moves (sound : w.Sound cfg) (safe : w.Safe cfg k) (moves : Moves cfg w e t) :
    t.Home cfg k := by
  have either : t.core.bins.lookup (binField k) ≠ none ∨ w.Handed cfg k := by
    rcases safe.home with durable | handed
    · have core := coreMoves_of_moves moves
      generalize t.core = after at core ⊢
      cases core with
      | flushed written => exact .inl (Core.lookup_flush_ne_none written durable)
      | @evicted reply y handoff rest head notLost =>
        have first : (⟨y, .settled handoff⟩ : SweepItem ρ) ∈ w.sweep :=
          head ▸ List.mem_cons_self
        by_cases same : y.bin.key = k
        · -- Every copy of the window has a surplus, so this one was handed on before.
          exact .inr (safe.ready.settled _ first handoff rfl notLost same
            (safe.swept _ first same))
        · left
          rw [Core.lookup_evict, if_neg]
          · exact durable
          · rintro ⟨field, _⟩
            have whole : WholeKey y.bin.key := (sound.copies y (.inHand _ first rfl)).whole
            exact same (binField_inj whole safe.whole field.symm)
      | handled named => exact .inl (by simpa using durable)
      | took idle => exact .inl durable
      | restarted => exact .inl durable
      | same => exact .inl durable
    · exact .inr handed
  exact either.imp_right (handed_of_moves safe.ready.accounted moves)

/-- From then on the window has a home after every step that handles no further reading of it. -/
theorem safe_step (sound : w.Sound cfg) (safe : w.Safe cfg k)
    (meets : attributed k w e = true ∧ silent k e = true) (moved : step cfg w e = some t) :
    t.Safe cfg k := by
  have moves := moves_of_step moved
  have prompt : prompt k w e = true := by
    cases e with
    | handle now id r =>
      have other : r.key ≠ k := by simpa [silent] using meets.2
      simp [World.prompt, other]
    | _ => rfl
  have copies : ∀ y, t.core.Copy y → y.bin.key = k → 0 < y.bin.net := by
    intro y copy keyed
    rcases copy_of_moves sound.filed moves copy with before | ⟨now, id, r, rfl, _, _, rfl⟩
    · exact safe.copies y before keyed
    · have other : r.key ≠ k := by simpa [silent] using meets.2
      rw [Core.nextSnapshot, Core.nextBin_key sound.filed] at keyed
      exact absurd keyed other
  refine ⟨ready_step sound safe.ready ⟨meets.1, prompt⟩ moved, safe.whole, copies, ?_,
    home_of_moves sound safe moves⟩
  intro item mem keyed
  rcases inHand_of_moves moves ⟨item, mem, rfl⟩ with ⟨item', mem', same⟩ | ⟨now, _, completed⟩
  · rw [← same] at keyed ⊢
    exact safe.swept item' mem' keyed
  · exact safe.copies _ (Core.copy_of_completed sound.filed completed) keyed

/-! ## The law -/

/-- In every run whose readings are prompt, once the snapshot of a bin with a surplus is recorded
and no further reading of its window is handled, the window has a home. A home is the durable bin,
or the outbox or a confirmation for the window's field; how much of the surplus is there is not
said. -/
theorem recorded_surplus_keeps_home (cfg : SettlementConfig) (k : BinKey) {w t : World ρ}
    (before : Steps (step cfg) (fun w e => attributed k w e = true ∧ prompt k w e = true) init w)
    (recorded : w.Recorded k)
    (after : Steps (step cfg) (fun w e => attributed k w e = true ∧ silent k e = true) w t) :
    t.Home cfg k := by
  have ready : w.Sound cfg ∧ w.Ready cfg k := by
    refine before.invariant (P := fun w => w.Sound cfg ∧ w.Ready cfg k) ?_
      ⟨sound_init, ready_init⟩
    intro w e t holds meets moved
    exact ⟨sound_step holds.1 moved, ready_step holds.1 holds.2 meets moved⟩
  have safe : t.Sound cfg ∧ t.Safe cfg k := by
    refine after.invariant (P := fun w => w.Sound cfg ∧ w.Safe cfg k) ?_
      ⟨ready.1, safe_of_recorded ready.1 ready.2 recorded⟩
    intro w e t holds meets moved
    exact ⟨sound_step holds.1 moved, safe_step holds.1 holds.2 meets moved⟩
  exact safe.2.home

/-! ## A straggler in the way of a deletion -/

def firstWindow : BinKey :=
  (0xf9f81f06fcc855deafeaa10e51078ea2, DateTime.ofSecs 0)

private def noon : DateTime :=
  DateTime.ofSecs 172900

/-- The meter is two days ahead when a reading of the first window comes in: consumption only.
The sweep takes it and decides that there is nothing to mint. Before it has deleted the durable
bin a second straggler brings five kilowatt hours, and its snapshot is written. -/
private def stragglers : List (Event Unit) :=
  [.handle noon () (meterReading 172800 0 1), .handle noon () (meterReading 0 0 1), .take noon,
    .plan .found .missing 172900000, .handle noon () (meterReading 10 5 0), .flush .ok,
    .flush .ok, .flush .ok]

private theorem stragglers_run :
    (run (step oneMeter) (fun w e => attributed firstWindow w e = true) stragglers
      init).isSome := by
  decide +kernel

/-- The state in which the second straggler's snapshot is recorded. -/
private def straggled : World Unit :=
  (run (step oneMeter) (fun w e => attributed firstWindow w e = true) stragglers init).get
    stragglers_run

private theorem straggled_recorded : straggled.Recorded firstWindow where
  durable := by decide +kernel
  memory := by decide +kernel
  queued := by decide +kernel
  swept := by decide +kernel

private theorem eviction_runs :
    (run (step oneMeter) (fun w e => attributed firstWindow w e = true ∧
      silent firstWindow e = true) [.evict .ok] straggled).isSome := by
  decide +kernel

/-- A recorded surplus can lose its home without any error: the deletion that belongs to an
older bin of the window takes it. -/
theorem recorded_surplus_deleted :
    ¬ ∀ w t : World Unit,
      Steps (step oneMeter) (fun w e => attributed firstWindow w e = true) init w →
      w.Recorded firstWindow →
      Steps (step oneMeter) (fun w e => attributed firstWindow w e = true ∧
        silent firstWindow e = true) w t →
      t.Home oneMeter firstWindow := by
  intro law
  have before := Steps.of_run_get stragglers_run
  have after := Steps.of_run_get eviction_runs
  rcases law _ _ before straggled_recorded after with durable | ⟨serial, _, kept⟩
  · exact durable (by decide +kernel)
  · rcases kept with outbox | parked | replied
    · exact outbox (Hash.lookup_of_keys_nil (by decide +kernel) _)
    · exact parked (Hash.lookup_of_keys_nil (by decide +kernel) _)
    · exact absurd replied (List.eq_nil_iff_forall_not_mem.mp (by decide +kernel) _)

private def promptRun : List (Event Unit) :=
  [.handle noon () (meterReading 0 5 0), .flush .ok]

private theorem prompt_runs :
    (run (step oneMeter) (fun w e => attributed firstWindow w e = true ∧
      prompt firstWindow w e = true) promptRun init).isSome := by
  decide +kernel

private def written : World Unit :=
  (run (step oneMeter) (fun w e => attributed firstWindow w e = true ∧
    prompt firstWindow w e = true) promptRun init).get prompt_runs

private theorem written_recorded : written.Recorded firstWindow where
  durable := by decide +kernel
  memory := by decide +kernel
  queued := by decide +kernel
  swept := by decide +kernel

/-- The process dies, the bin is restored and swept, the first enqueue fails and the second
works, and the durable bin is deleted. -/
private def crashAndSettle : List (Event Unit) :=
  [.restart true, .take noon, .plan .failed .missing 172900000, .enqueue .failed, .enqueue .ok,
    .evict .ok]

private theorem crashAndSettle_runs :
    (run (step oneMeter) (fun w e => attributed firstWindow w e = true ∧
      silent firstWindow e = true) crashAndSettle written).isSome := by
  decide +kernel

/-- After a crash, a failed enqueue and the deletion the window is in the outbox. -/
theorem settled_surplus_has_home :
    ((run (step oneMeter) (fun w e => attributed firstWindow w e = true ∧
      silent firstWindow e = true) crashAndSettle written).get crashAndSettle_runs).Home
        oneMeter firstWindow := by
  have before := Steps.of_run_get prompt_runs
  have after := Steps.of_run_get crashAndSettle_runs
  exact recorded_surplus_keeps_home oneMeter firstWindow before written_recorded after

end World

end AggregatorBridge
