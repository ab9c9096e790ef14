import AggregatorBridge.Settlement
import AggregatorBridge.Lib.Run

/-!
# What every settlement run keeps

The facts about copies of bins that hold in every reachable state, whatever fails and however
often the process dies. `Holds` is a copy of a bin anywhere: in memory, on its way to Redis, in
the durable hash, in the hands of the sweep, or behind a pending mint. A step makes no copies
except the one an accepted reading makes (`holds_of_moves`), so what is true of that one is
true of all of them:

* the totals are those of the contents, and no reading is in the contents twice;
* the bin is filed under its meter and window, and its meter is named after its serial;
* a pending mint is for the serial, the window and the net energy of the bin behind it.

The last one is about the amount that is sent, not about what the amount should have been.

Nor do these facts say that a copy is kept: where a bin may be lost is for the laws about durable
bins.
-/

namespace AggregatorBridge

open Remote Transition

variable {ρ : Type} {cfg : SettlementConfig}

/-- The outbox field a bin is enqueued under. -/
def BillingBin.mintField (bin : BillingBin) : String :=
  bin.meterSerial ++ ":" ++ toString bin.windowStartMs

/-- A pending mint says what the bin says. -/
structure Matches (p : PendingMint) (bin : BillingBin) : Prop where
  serial : p.meterSerial = bin.meterSerial
  window : p.windowStartMs = bin.windowStartMs
  energy : p.energyKwh = bin.net
  surplus : 0 < bin.net

theorem Matches.field {p : PendingMint} {bin : BillingBin} (fits : Matches p bin) :
    p.field = bin.mintField := by
  rw [PendingMint.field, BillingBin.mintField, fits.serial, fits.window]

/-- A planned mint says what its bin says. -/
theorem matches_planned {bin : BillingBin} {known : Bool} {nowMs : Int} {p : PendingMint}
    (pending : (planned bin known nowMs).pending? = some p) : Matches p bin := by
  unfold planned planMint at pending
  rw [if_pos rfl] at pending
  cases surplus : bin.netSurplusKwh with
  | none =>
    rw [surplus] at pending
    cases pending
  | some kwh =>
    rw [surplus] at pending
    obtain ⟨positive, rfl⟩ := BillingBin.netSurplusKwh_eq_some.mp surplus
    simp only at pending
    split at pending
    · cases pending
      exact ⟨rfl, rfl, rfl, positive⟩
    · cases pending

/-- What is true of a copy of a bin after `n` readings. -/
structure SoundCopy (cfg : SettlementConfig) (n : Nat) (y : ReadingSnapshot ρ) : Prop where
  truthful : Truthful y
  whole : WholeKey y.bin.key
  named : y.bin.meterId = cfg.newV5 y.bin.meterSerial
  once : (y.contents.map fun c => c.label.1).Nodup
  below : ∀ c ∈ y.contents, c.label.1 < n

theorem SoundCopy.mono {n m : Nat} {y : ReadingSnapshot ρ} (sound : SoundCopy cfg n y)
    (later : n ≤ m) : SoundCopy cfg m y :=
  { sound with below := fun c mem => (sound.below c mem).trans_le later }

/-- Two bins enqueued under one field are bins of one meter and window. -/
theorem key_eq_of_mintField {n m : Nat} {y z : ReadingSnapshot ρ} (sound : SoundCopy cfg n y)
    (sound' : SoundCopy cfg m z) (same : y.bin.mintField = z.bin.mintField) :
    y.bin.key = z.bin.key := by
  obtain ⟨serial, window⟩ := Text.joined_inj same
  refine binField_inj sound.whole sound'.whole ?_
  refine Prod.ext ?_ window
  exact (sound.named.trans (congrArg cfg.newV5 serial)).trans sound'.named.symm

namespace World

variable {w t : World ρ} {e : Event ρ} {y : ReadingSnapshot ρ}

/-! ## Copies -/

/-- Every place where the surplus of a reading may be while it waits to be minted. -/
inductive Holds (w : World ρ) (y : ReadingSnapshot ρ) : Prop
  | copy (copy : w.core.Copy y)
  | inHand (item : SweepItem ρ) (mem : item ∈ w.sweep) (same : item.taken = y)
  | owed (p : Owed (ReadingSnapshot ρ)) (held : w.ob.Holds p) (same : p.origin = y)
  | enqueued (mem : y ∈ w.enqueued)

/-- The step handles a reading that is not late, and this is the copy it makes. -/
def Makes (cfg : SettlementConfig) (w : World ρ) (e : Event ρ) (y : ReadingSnapshot ρ) : Prop :=
  ∃ now id r, e = .handle now id r ∧ r.meterId = cfg.newV5 r.meterSerial ∧
    ¬ w.core.agg.IsSettled r.key ∧ y = w.core.nextSnapshot (w.handled, id) r

/-- A copy of a bin was there before, or this step made it. -/
theorem copy_of_moves (filed : w.core.Filed) (moves : Moves cfg w e t) (copy : t.core.Copy y) :
    w.core.Copy y ∨ Makes cfg w e y := by
  have core := coreMoves_of_moves moves
  generalize t.core = after at copy core
  cases core with
  | @handled now id r named =>
    rcases Core.copy_handle copy with before | ⟨accepted, rfl⟩
    · exact .inl before
    · exact .inr ⟨now, id, r, rfl, named, accepted, rfl⟩
  | flushed written => exact .inl (Core.copy_flush written copy)
  | took idle => exact .inl (Core.copy_take copy)
  | evicted head => exact .inl (Core.copy_evict copy)
  | restarted => exact .inl (Core.copy_restart filed copy)
  | same => exact .inl copy

/-- A bin is in the hands of the sweep. -/
def InHand (w : World ρ) (y : ReadingSnapshot ρ) : Prop :=
  ∃ item ∈ w.sweep, item.taken = y

/-- The sweep has what it had, or what it just took. -/
theorem inHand_of_moves (moves : Moves cfg w e t) (inHand : t.InHand y) :
    w.InHand y ∨ ∃ now, e = .take now ∧ y ∈ w.core.completed now cfg.grace := by
  have restaged {y₀ : ReadingSnapshot ρ} {stage stage' : Stage} {rest : List (SweepItem ρ)}
      (head : w.sweep = ⟨y₀, stage⟩ :: rest)
      (inHand : ∃ item ∈ (⟨y₀, stage'⟩ :: rest : List (SweepItem ρ)), item.taken = y) :
      w.InHand y := by
    obtain ⟨item, mem, same⟩ := inHand
    rcases List.mem_cons.mp mem with rfl | mem
    · exact ⟨⟨y₀, stage⟩, head ▸ List.mem_cons_self, same⟩
    · exact ⟨item, head ▸ List.mem_cons_of_mem _ mem, same⟩
  have popped {item₀ : SweepItem ρ} {rest : List (SweepItem ρ)}
      (head : w.sweep = item₀ :: rest) (inHand : ∃ item ∈ rest, item.taken = y) :
      w.InHand y := by
    obtain ⟨item, mem, same⟩ := inHand
    exact ⟨item, head ▸ List.mem_cons_of_mem _ mem, same⟩
  cases moves with
  | @took now idle =>
    obtain ⟨item, mem, same⟩ := inHand
    obtain ⟨s, completed, rfl⟩ := List.mem_map.mp mem
    subst same
    exact .inr ⟨now, rfl, completed⟩
  | planned head => exact .inl (restaged head inHand)
  | enqueued head => exact .inl (restaged head inHand)
  | retried head => exact .inl (restaged head inHand)
  | refused head => exact .inl (restaged head inHand)
  | published head => exact .inl (restaged head inHand)
  | skipped head => exact .inl (restaged head inHand)
  | failed head => exact .inl (restaged head inHand)
  | minted head => exact .inl (restaged head inHand)
  | evicted head => exact .inl (popped head inHand)
  | kept head => exact .inl (popped head inHand)
  | restarted =>
    obtain ⟨item, mem, _⟩ := inHand
    cases mem
  | handled named => exact .inl inHand
  | flushed written => exact .inl inHand
  | drained moved => exact .inl inHand

/-- An entry is new only if the sweep was busy with it. -/
def Busy (w : World ρ) (p : Owed (ReadingSnapshot ρ)) : Prop :=
  ∃ stage rest, w.sweep = ⟨p.origin, stage⟩ :: rest ∧ stage.pending? = some p.mint

/-- A mint that is held was held before, or the sweep was at it. -/
theorem owed_of_moves (moves : Moves cfg w e t) {p : Owed (ReadingSnapshot ρ)}
    (held : t.ob.Holds p) : w.ob.Holds p ∨ w.Busy p := by
  cases moves with
  | enqueued head =>
    rcases held.of_spawn with held | rfl
    · rcases held.of_enqueue with held | rfl
      · exact .inl held
      · exact .inr ⟨_, _, head, rfl⟩
    · exact .inr ⟨_, _, head, rfl⟩
  | retried head =>
    rcases held.of_enqueue with held | rfl
    · exact .inl held
    · exact .inr ⟨_, _, head, rfl⟩
  | refused head busy =>
    rcases held.of_enqueue with held | rfl
    · exact .inl held
    · exact .inr ⟨_, _, head, busy⟩
  | published head =>
    rcases held.of_published with held | rfl
    · exact .inl held
    · exact .inr ⟨_, _, head, rfl⟩
  | minted head => exact .inl held.of_replied
  | drained moved => exact .inl (held.of_step moved)
  | restarted => exact .inl held.of_crash
  | handled named => exact .inl held
  | flushed written => exact .inl held
  | took idle => exact .inl held
  | planned head => exact .inl held
  | skipped head => exact .inl held
  | failed head => exact .inl held
  | evicted head => exact .inl held
  | kept head => exact .inl held

/-- A bin was enqueued before, or it is being enqueued. -/
theorem enqueued_of_moves (moves : Moves cfg w e t) (mem : y ∈ t.enqueued) :
    y ∈ w.enqueued ∨ w.InHand y := by
  have first {stage : Stage} {rest : List (SweepItem ρ)} {y₀ : ReadingSnapshot ρ}
      (head : w.sweep = ⟨y₀, stage⟩ :: rest) (mem : y ∈ y₀ :: w.enqueued) :
      y ∈ w.enqueued ∨ w.InHand y := by
    rcases List.mem_cons.mp mem with rfl | mem
    · exact .inr ⟨_, head ▸ List.mem_cons_self, rfl⟩
    · exact .inl mem
  cases moves with
  | enqueued head => exact first head mem
  | retried head => exact first head mem
  | refused head =>
    simp only at mem
    split at mem
    · exact first head mem
    · exact .inl mem
  | _ => exact .inl mem

/-- A step makes no copies except the one an accepted reading makes. -/
theorem holds_of_moves (filed : w.core.Filed) (moves : Moves cfg w e t) (held : t.Holds y) :
    w.Holds y ∨ Makes cfg w e y := by
  cases held with
  | copy copy => exact (copy_of_moves filed moves copy).imp_left .copy
  | inHand item mem same =>
    left
    rcases inHand_of_moves moves ⟨item, mem, same⟩ with ⟨item', mem', same'⟩ | ⟨now, _, completed⟩
    · exact .inHand item' mem' same'
    · exact .copy (Core.copy_of_completed filed completed)
  | owed p held same =>
    left
    rcases owed_of_moves moves held with before | ⟨stage, rest, head, _⟩
    · exact .owed p before same
    · exact .inHand _ (head ▸ List.mem_cons_self) same
  | enqueued mem =>
    left
    rcases enqueued_of_moves moves mem with before | ⟨item, mem', same⟩
    · exact .enqueued before
    · exact .inHand item mem' same

/-! ## Soundness -/

/-- The copy an accepted reading makes is sound. -/
theorem soundCopy_nextSnapshot (copies : ∀ y, w.Holds y → SoundCopy cfg w.handled y)
    (filed : w.core.Filed) (id : ρ) {r : BillingReading}
    (named : r.meterId = cfg.newV5 r.meterSerial) :
    SoundCopy cfg (w.handled + 1) (w.core.nextSnapshot (w.handled, id) r) where
  truthful := Core.truthful_nextSnapshot (fun y copy => (copies y (.copy copy)).truthful) _ r
  whole := by
    rw [Core.nextSnapshot, Core.nextBin_key filed]
    exact wholeKey_of_reading r
  named := by
    rcases w.core.nextSnapshot_cases (w.handled, id) r with ⟨_, eq⟩ | ⟨bin, found, eq⟩
    · rw [eq]
      exact named
    · rw [eq]
      exact (copies _ (.copy (.memory found))).named
  once := by
    rcases w.core.nextSnapshot_cases (w.handled, id) r with ⟨_, eq⟩ | ⟨bin, found, eq⟩
    · rw [eq]
      simp
    · rw [eq]
      have before := copies _ (.copy (.memory found))
      refine List.nodup_cons.mpr ⟨?_, before.once⟩
      intro again
      obtain ⟨c, mem, same⟩ := List.mem_map.mp again
      exact absurd same (before.below c mem).ne
  below := by
    intro c mem
    rcases w.core.nextSnapshot_cases (w.handled, id) r with ⟨_, eq⟩ | ⟨bin, found, eq⟩
    · rw [eq] at mem
      cases List.mem_singleton.mp mem
      exact Nat.lt_succ_self _
    · rw [eq] at mem
      rcases List.mem_cons.mp mem with rfl | mem
      · exact Nat.lt_succ_self _
      · exact ((copies _ (.copy (.memory found))).below c mem).trans (Nat.lt_succ_self _)

/-- What is true in every reachable state. -/
structure Sound (cfg : SettlementConfig) (w : World ρ) : Prop where
  filed : w.core.Filed
  copies : ∀ y, w.Holds y → SoundCopy cfg w.handled y
  owed : ∀ p, w.ob.Holds p → Matches p.mint p.origin.bin
  busy : ∀ item ∈ w.sweep, ∀ p, item.stage.pending? = some p → Matches p item.taken.bin
  fields : ∀ field p, w.ob.outbox.lookup field = some p → field = p.field

theorem not_owed_init (p : Owed (ReadingSnapshot ρ)) : ¬ (init : World ρ).ob.Holds p := by
  intro held
  cases held with
  | outbox field found => cases found
  | parked field found => cases found
  | hand mem => cases mem

theorem not_holds_init (y : ReadingSnapshot ρ) : ¬ (init : World ρ).Holds y := by
  intro held
  cases held with
  | copy copy =>
    cases copy with
    | memory found => cases found
    | queued mem => cases mem
    | durable found => cases found
  | inHand item mem same => cases mem
  | owed p held same => exact not_owed_init p held
  | enqueued mem => cases mem

/-- Nothing is held in the beginning. -/
theorem sound_init : (init : World ρ).Sound cfg where
  filed := Core.filed_init
  copies := fun y held => absurd held (not_holds_init y)
  owed := fun p held => absurd held (not_owed_init p)
  busy := by
    intro item mem
    cases mem
  fields := by
    intro field p found
    cases found

/-- Bins stay filed under their own keys. -/
theorem filed_of_moves (filed : w.core.Filed) (moves : Moves cfg w e t) : t.core.Filed := by
  have core := coreMoves_of_moves moves
  generalize t.core = after at core ⊢
  cases core with
  | handled named => exact filed.handle _ _ _
  | flushed written => exact filed.flush written
  | took idle => exact filed.take _ _
  | evicted head => exact filed.evict _ _
  | restarted => exact filed.restart _
  | same => exact filed

/-- The count of handled readings does not go back. -/
theorem handled_of_moves (moves : Moves cfg w e t) : w.handled ≤ t.handled := by
  cases moves with
  | handled named => exact Nat.le_succ _
  | _ => exact Nat.le_refl _

/-- The first bin takes its mint along when it changes its stage. -/
private theorem busy_of_head {y : ReadingSnapshot ρ} {stage stage' : Stage}
    {rest : List (SweepItem ρ)}
    (busy : ∀ item ∈ w.sweep, ∀ p, item.stage.pending? = some p → Matches p item.taken.bin)
    (head : w.sweep = ⟨y, stage⟩ :: rest)
    (same : ∀ p, stage'.pending? = some p → Matches p y.bin) :
    ∀ item ∈ (⟨y, stage'⟩ :: rest : List (SweepItem ρ)), ∀ p,
      item.stage.pending? = some p → Matches p item.taken.bin := by
  intro item mem p pending
  rcases List.mem_cons.mp mem with rfl | mem
  · exact same p pending
  · exact busy item (head ▸ List.mem_cons_of_mem _ mem) p pending

/-- The mint that a bin of the sweep is at says what the bin says. -/
theorem busy_of_moves (sound : w.Sound cfg) (moves : Moves cfg w e t) :
    ∀ item ∈ t.sweep, ∀ p, item.stage.pending? = some p → Matches p item.taken.bin := by
  have first {y : ReadingSnapshot ρ} {stage : Stage} {rest : List (SweepItem ρ)}
      {q : PendingMint} (head : w.sweep = ⟨y, stage⟩ :: rest) (busy : stage.pending? = some q) :
      Matches q y.bin :=
    sound.busy ⟨y, stage⟩ (head ▸ List.mem_cons_self) q busy
  have settled {y : ReadingSnapshot ρ} (handoff : MintHandoff) (p : PendingMint)
      (pending : (Stage.settled handoff).pending? = some p) : Matches p y.bin := by
    cases pending
  cases moves with
  | took idle =>
    intro item mem p pending
    obtain ⟨s, _, rfl⟩ := List.mem_map.mp mem
    cases pending
  | planned head => exact busy_of_head sound.busy head fun p pending => matches_planned pending
  | refused head busy still =>
    refine busy_of_head sound.busy head fun p pending => ?_
    rw [still] at pending
    cases pending
    exact first head busy
  | published head =>
    refine busy_of_head sound.busy head fun p pending => ?_
    cases pending
    exact first head rfl
  | enqueued head => exact busy_of_head sound.busy head (settled _)
  | retried head => exact busy_of_head sound.busy head (settled _)
  | skipped head => exact busy_of_head sound.busy head (settled _)
  | failed head => exact busy_of_head sound.busy head (settled _)
  | minted head => exact busy_of_head sound.busy head (settled _)
  | evicted head =>
    exact fun item mem => sound.busy item (head ▸ List.mem_cons_of_mem _ mem)
  | kept head => exact fun item mem => sound.busy item (head ▸ List.mem_cons_of_mem _ mem)
  | restarted =>
    intro item mem
    cases mem
  | handled named => exact sound.busy
  | flushed written => exact sound.busy
  | drained moved => exact sound.busy

/-- An enqueue files the entry under its field. -/
private theorem fields_enqueue {ob : Outbox (ReadingSnapshot ρ)}
    (fields : ∀ field p, ob.outbox.lookup field = some p → field = p.field)
    (q : Owed (ReadingSnapshot ρ)) (reply : Reply) :
    ∀ field p, (ob.enqueue q reply).outbox.lookup field = some p → field = p.field := by
  intro field p found
  rcases Outbox.lookup_effect_set found with before | ⟨rfl, here⟩
  · exact fields field p before
  · exact here

/-- Every entry of the outbox is under its own field. -/
theorem fields_of_moves (sound : w.Sound cfg) (moves : Moves cfg w e t) :
    ∀ field p, t.ob.outbox.lookup field = some p → field = p.field := by
  cases moves with
  | enqueued head => exact fields_enqueue sound.fields _ _
  | retried head => exact fields_enqueue sound.fields _ _
  | refused head => exact fields_enqueue sound.fields _ _
  | drained moved =>
    intro field p found
    exact sound.fields field p (Outbox.lookup_of_step moved found)
  | handled named => exact sound.fields
  | flushed written => exact sound.fields
  | took idle => exact sound.fields
  | planned head => exact sound.fields
  | published head => exact sound.fields
  | skipped head => exact sound.fields
  | failed head => exact sound.fields
  | minted head => exact sound.fields
  | evicted head => exact sound.fields
  | kept head => exact sound.fields
  | restarted => exact sound.fields

/-- Every step keeps the copies truthful and the mints true to their bins. -/
theorem sound_step (sound : w.Sound cfg) (moved : step cfg w e = some t) : t.Sound cfg := by
  have moves := moves_of_step moved
  refine ⟨filed_of_moves sound.filed moves, ?_, ?_, busy_of_moves sound moves,
    fields_of_moves sound moves⟩
  · intro y held
    rcases holds_of_moves sound.filed moves held with before | ⟨now, id, r, rfl, named, _, rfl⟩
    · exact (sound.copies y before).mono (handled_of_moves moves)
    · have grows : t.handled = w.handled + 1 := by
        cases moves
        rfl
      rw [grows]
      exact soundCopy_nextSnapshot sound.copies sound.filed id named
  · intro p held
    rcases owed_of_moves moves held with before | ⟨stage, rest, head, busy⟩
    · exact sound.owed p before
    · exact sound.busy _ (head ▸ List.mem_cons_self) p.mint busy

/-- Where the bin in memory under a key came from: it was there with its contents, or a reading
was accepted into it, or a restart brought it back. -/
theorem memory_of_moves (sound : w.Sound cfg) (moves : Moves cfg w e t) {k : BinKey}
    {bin : BillingBin} (found : t.core.agg.activeBins.lookup k = some bin) :
    (w.core.agg.activeBins.lookup k = some bin ∧ t.core.contents k = w.core.contents k) ∨
    (∃ now id r, e = .handle now id r ∧ ¬ w.core.agg.IsSettled r.key ∧ r.key = k ∧
      t.core.contents k = (w.core.nextSnapshot (w.handled, id) r).contents) ∨
    ∃ s, e = .restart true ∧ w.core.bins.lookup (binField k) = some s ∧
      t.core.contents k = s.contents := by
  have core := coreMoves_of_moves moves
  generalize t.core = after at found core ⊢
  cases core with
  | @handled now id r named =>
    by_cases late : w.core.agg.IsSettled r.key
    · left
      rw [Core.handle_late late] at found ⊢
      refine ⟨?_, rfl⟩
      rw [← Aggregator.handleReading_late late]
      exact found
    · by_cases here : k = r.key
      · subst here
        refine .inr (.inl ⟨now, id, r, rfl, late, rfl, ?_⟩)
        simp only [Core.handle_accepted late, Function.update_self]
      · left
        rw [Core.lookup_handle, if_neg fun h => here h.1] at found
        refine ⟨found, ?_⟩
        simp only [Core.handle_accepted late, Function.update_of_ne here]
  | flushed written =>
    left
    rw [Core.agg_flush written] at found
    exact ⟨found, congrFun (Core.contents_flush written) k⟩
  | took idle =>
    left
    rw [Core.lookup_take] at found
    split at found
    · cases found
    · exact ⟨found, rfl⟩
  | @restarted loaded =>
    obtain ⟨rfl, _, s, durable, _⟩ := Core.lookup_restart sound.filed found
    refine .inr (.inr ⟨s, rfl, durable, ?_⟩)
    simp [Core.restart, durable]
  | evicted head => exact .inl ⟨found, rfl⟩
  | same => exact .inl ⟨found, rfl⟩

/-! ## A meter to run with -/

/-- One meter, known by its name-based id. -/
def oneMeter : SettlementConfig where
  newV5 serial := if serial = "MTR-1" then 0xf9f81f06fcc855deafeaa10e51078ea2 else 0
  grace := 120
  drain := ⟨604800, 15⟩

def meterReading (secs : Int) (generated consumed : ℚ) : BillingReading where
  meterId := 0xf9f81f06fcc855deafeaa10e51078ea2
  userId := 7
  meterSerial := "MTR-1"
  generated := generated
  consumed := consumed
  timestamp := DateTime.ofSecs secs
  tariffPeriod := none
  demandKw := none
  zoneCode := none

end World

end AggregatorBridge
