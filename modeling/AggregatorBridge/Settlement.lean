import AggregatorBridge.Ledger
import AggregatorBridge.MintOutbox

/-!
# Settlement

The parties that move energy from a bin to the bridge, over one Redis: the ingester's locked
section and the writer task (`Core`), the settlement sweep, and the drain loop with the
attempts (`Outbox`). A step is one of them doing the next thing it awaits: a Redis command, a
lookup, a reply. Between two steps any other party can move or the process can die.

The sweep takes all completed bins out of memory at once and then works through them one by
one. For a bin with a surplus it looks the owner up, enqueues, enqueues again if that failed,
attempts the mint itself as a last resort, and deletes the durable bin unless the surplus has
found no home. What was handed off, and how, is `MintHandoff`, as in the source.

Minting, durable bins and the outbox are on, and stored values parse. `ρ` identifies the
readings: each contribution is labelled with the reading and with the number of readings
handled before it, so two contributions never have the same label.
-/

namespace AggregatorBridge

open Remote

/-! ## The decisions -/

/-- What is to be done about the surplus of a bin that a sweep has taken. -/
inductive MintDecision where
  | surplus (kwh : ℚ)
  | noSurplus
  | disabled
  deriving DecidableEq

/-- `plan_mint`: without minting, a surplus is not looked at. -/
def planMint (bin : BillingBin) (mintEnabled : Bool) : MintDecision :=
  if mintEnabled then
    match bin.netSurplusKwh with
    | some kwh => .surplus kwh
    | none => .noSurplus
  else .disabled

/-- How the surplus of a bin was handed off. -/
inductive MintHandoff where
  | notApplicable
  | enqueued
  | mintedDirectly
  | bestEffortOnly
  | lost
  deriving DecidableEq

/-- `bin_durably_settled`: only of a handoff that was lost must the bin be kept. -/
def binDurablySettled : MintHandoff → Bool
  | .lost => false
  | _ => true

/-- The answer to the question who owns a meter; a failure is not a no. -/
inductive OwnerLookup where
  | found
  | missing
  | failed
  deriving DecidableEq

/-- Whether a surplus is enqueued: not if both lookups say there is no owner. The second is
only made if the first found none. -/
def ownerKnown (resolveUserId ownerInSourceOfTruth : OwnerLookup) : Bool :=
  match resolveUserId with
  | .found => true
  | .failed => true
  | .missing =>
    match ownerInSourceOfTruth with
    | .found => true
    | .failed => true
    | .missing => false

/-- The owner counts as unknown only when both sources said so. -/
theorem ownerKnown_iff {first second : OwnerLookup} :
    ownerKnown first second = true ↔ ¬ (first = .missing ∧ second = .missing) := by
  cases first <;> cases second <;> simp [ownerKnown]

/-- `PendingMint::new` of a bin. -/
def pendingMint (bin : BillingBin) (kwh : ℚ) (nowMs : Int) : PendingMint :=
  ⟨bin.meterSerial, bin.meterId, bin.windowStartMs, kwh, nowMs⟩

/-! ## The sweep -/

/-- How far the sweep is with a bin. -/
inductive Stage where
  | plan
  | enqueue (p : PendingMint)
  /-- The first enqueue failed. -/
  | retry (p : PendingMint)
  /-- Both failed. -/
  | lastResort (p : PendingMint)
  /-- The attempt of last resort waits for the bridge. -/
  | awaiting (p : PendingMint)
  | settled (handoff : MintHandoff)
  deriving DecidableEq

/-- The mint that a bin is at, once it is decided that there is one. -/
def Stage.pending? : Stage → Option PendingMint
  | plan => none
  | enqueue p => some p
  | retry p => some p
  | lastResort p => some p
  | awaiting p => some p
  | settled _ => none

/-- The stage a decision leads to. Nothing to mint and nobody to mint for are both no reason to
keep the bin. -/
def planned (bin : BillingBin) (known : Bool) (nowMs : Int) : Stage :=
  match planMint bin true with
  | .surplus kwh =>
    if known then .enqueue (pendingMint bin kwh nowMs) else .settled .notApplicable
  | .noSurplus => .settled .notApplicable
  | .disabled => .settled .notApplicable

/-- A surplus whose owner is known is enqueued. -/
theorem planned_of_surplus {bin : BillingBin} (surplus : 0 < bin.net) (nowMs : Int) :
    planned bin true nowMs = .enqueue (pendingMint bin bin.net nowMs) := by
  have some_ : bin.netSurplusKwh = some bin.net :=
    BillingBin.netSurplusKwh_eq_some.mpr ⟨surplus, rfl⟩
  simp [planned, planMint, some_]

variable {ρ : Type}

/-- A reading and how many were handled before it. -/
abbrev ReadingLabel (ρ : Type) := Nat × ρ

/-- A copy of a bin with the readings in it. -/
abbrev ReadingSnapshot (ρ : Type) := Snapshot (ReadingLabel ρ)

/-- The readings in a copy of a bin. -/
def entriesOf (y : ReadingSnapshot ρ) : List ρ :=
  y.contents.map fun c => c.label.2

/-- A bin in the hands of the sweep. -/
structure SweepItem (ρ : Type) where
  taken : ReadingSnapshot ρ
  stage : Stage

/-- Memory and the store of bins, the running sweep, and the outbox behind it, with a count of the
readings that were ever handled. -/
structure World (ρ : Type) where
  core : Core (ReadingLabel ρ)
  handled : Nat
  /-- The bins of the running sweep. Only the first is being worked on. -/
  sweep : List (SweepItem ρ)
  ob : Outbox (ReadingSnapshot ρ)
  /-- The bins whose enqueue reached the outbox. -/
  enqueued : List (ReadingSnapshot ρ)

/-- How the process is configured, and the name-based UUID of a serial. -/
structure SettlementConfig where
  newV5 : String → Uuid
  /-- `BILLING_FLUSH_GRACE_SECS`. -/
  grace : Int
  drain : DrainConfig

namespace World

/-- A fresh process with an empty Redis. -/
def init : World ρ :=
  ⟨Core.init, 0, [], Outbox.init, []⟩

/-- A step of a task, of the writer, of the sweep, of the outbox, or the end of the process. -/
inductive Event (ρ : Type) where
  /-- `handle_iot_reading` in its locked section. -/
  | handle (now : DateTime) (id : ρ) (r : BillingReading)
  /-- The writer task writes the oldest snapshot. -/
  | flush (reply : Reply)
  | take (now : DateTime)
  /-- The sweep decides on its first bin. -/
  | plan (resolveUserId ownerInSourceOfTruth : OwnerLookup) (nowMs : Int)
  /-- The sweep enqueues, for the first or the second time. -/
  | enqueue (reply : Reply)
  /-- The sweep publishes its own attempt, if it got a wallet and the key. -/
  | lastResort (resolved : Bool)
  | lastReply (answer : BridgeReply)
  /-- The sweep deletes the durable bin, where it may, and goes to the next. -/
  | evict (reply : Reply)
  | drain (e : Outbox.Event)
  /-- The process dies and comes back; `loaded` says whether the bins could be read. -/
  | restart (loaded : Bool)

/-- A reading is handled. The bin's meter is named after the serial. -/
def handle (cfg : SettlementConfig) (w : World ρ) (now : DateTime) (id : ρ) (r : BillingReading) :
    Option (World ρ) :=
  if r.meterId = cfg.newV5 r.meterSerial then
    some { w with core := w.core.handle now (w.handled, id) r, handled := w.handled + 1 }
  else none

/-- A sweep begins when the last one is through. -/
def take (cfg : SettlementConfig) (w : World ρ) (now : DateTime) : Option (World ρ) :=
  if w.sweep.isEmpty then
    some { w with
      core := w.core.take now cfg.grace
      sweep := (w.core.completed now cfg.grace).map fun s => ⟨s, .plan⟩ }
  else none

/-- The sweep decides what becomes of its first bin, and has asked for the owner if it had to. -/
def plan (w : World ρ) (resolveUserId ownerInSourceOfTruth : OwnerLookup) (nowMs : Int) :
    Option (World ρ) :=
  match w.sweep with
  | ⟨y, .plan⟩ :: rest =>
    let stage := planned y.bin (ownerKnown resolveUserId ownerInSourceOfTruth) nowMs
    some { w with sweep := ⟨y, stage⟩ :: rest }
  | _ => none

/-- The first enqueue spawns an attempt if it worked, the second does not. -/
def enqueue (w : World ρ) (reply : Reply) : Option (World ρ) :=
  match w.sweep with
  | ⟨y, .enqueue p⟩ :: rest =>
    let ob := w.ob.enqueue ⟨p, y⟩ reply
    some { w with
      ob := if reply = .ok then ob.spawn ⟨p, y⟩ else ob
      sweep := ⟨y, if reply = .ok then .settled .enqueued else .retry p⟩ :: rest
      enqueued := if reply.took then y :: w.enqueued else w.enqueued }
  | ⟨y, .retry p⟩ :: rest =>
    some { w with
      ob := w.ob.enqueue ⟨p, y⟩ reply
      sweep := ⟨y, if reply = .ok then .settled .enqueued else .lastResort p⟩ :: rest
      enqueued := if reply.took then y :: w.enqueued else w.enqueued }
  | _ => none

/-- `attempt_mint` as the last resort, up to the publish. -/
def lastResort (w : World ρ) (resolved : Bool) : Option (World ρ) :=
  match w.sweep with
  | ⟨y, .lastResort p⟩ :: rest =>
    if p.field ∉ w.ob.inFlightKeys ∧ resolved = true then
      some { w with
        ob := { w.ob with published := w.ob.published ++ [⟨p, y⟩] }
        sweep := ⟨y, .awaiting p⟩ :: rest }
    else some { w with sweep := ⟨y, .settled .lost⟩ :: rest }
  | _ => none

/-- `attempt_mint` as the last resort, from the reply on. -/
def lastReply (w : World ρ) (answer : BridgeReply) : Option (World ρ) :=
  match w.sweep with
  | ⟨y, .awaiting p⟩ :: rest =>
    match Outbox.confirmed (.single (⟨p, y⟩ : Owed (ReadingSnapshot ρ))) answer with
    | none => none
    | some [] => some { w with sweep := ⟨y, .settled .lost⟩ :: rest }
    | some fields =>
      some { w with
        ob := { w.ob with replied := w.ob.replied ++ fields }
        sweep := ⟨y, .settled .mintedDirectly⟩ :: rest }
  | _ => none

/-- The durable bin is deleted, if `bin_durably_settled`; an error is only logged. -/
def evict (w : World ρ) (reply : Reply) : Option (World ρ) :=
  match w.sweep with
  | ⟨y, .settled handoff⟩ :: rest =>
    some { w with
      core := if binDurablySettled handoff then w.core.evict y.bin.key reply else w.core
      sweep := rest }
  | _ => none

/-- The sweep works on its bins one at a time, beside everything else. -/
def step (cfg : SettlementConfig) (w : World ρ) : Event ρ → Option (World ρ)
  | .handle now id r => handle cfg w now id r
  | .flush reply => (w.core.flush reply).map fun core => { w with core := core }
  | .take now => take cfg w now
  | .plan resolveUserId ownerInSourceOfTruth nowMs =>
    plan w resolveUserId ownerInSourceOfTruth nowMs
  | .enqueue reply => enqueue w reply
  | .lastResort resolved => lastResort w resolved
  | .lastReply answer => lastReply w answer
  | .evict reply => evict w reply
  | .drain e => (w.ob.step cfg.drain e).map fun ob => { w with ob := ob }
  | .restart loaded =>
    some { w with core := w.core.restart loaded, sweep := [], ob := w.ob.crash }

/-! ## The steps as cases -/

/-- What a step can be, with what it found and what it left. -/
inductive Moves (cfg : SettlementConfig) (w : World ρ) : Event ρ → World ρ → Prop
  | handled {now : DateTime} {id : ρ} {r : BillingReading}
      (named : r.meterId = cfg.newV5 r.meterSerial) :
      Moves cfg w (.handle now id r)
        { w with core := w.core.handle now (w.handled, id) r, handled := w.handled + 1 }
  | flushed {reply : Reply} {core : Core (ReadingLabel ρ)}
      (written : w.core.flush reply = some core) :
      Moves cfg w (.flush reply) { w with core := core }
  | took {now : DateTime} (idle : w.sweep = []) :
      Moves cfg w (.take now)
        { w with
          core := w.core.take now cfg.grace
          sweep := (w.core.completed now cfg.grace).map fun s => ⟨s, .plan⟩ }
  | planned {first second : OwnerLookup} {nowMs : Int} {y : ReadingSnapshot ρ}
      {rest : List (SweepItem ρ)} (head : w.sweep = ⟨y, .plan⟩ :: rest) :
      Moves cfg w (.plan first second nowMs)
        { w with sweep := ⟨y, AggregatorBridge.planned y.bin (ownerKnown first second) nowMs⟩ ::
          rest }
  | enqueued {y : ReadingSnapshot ρ} {p : PendingMint} {rest : List (SweepItem ρ)}
      (head : w.sweep = ⟨y, .enqueue p⟩ :: rest) :
      Moves cfg w (.enqueue .ok)
        { w with
          ob := (w.ob.enqueue ⟨p, y⟩ .ok).spawn ⟨p, y⟩
          sweep := ⟨y, .settled .enqueued⟩ :: rest
          enqueued := y :: w.enqueued }
  | retried {y : ReadingSnapshot ρ} {p : PendingMint} {rest : List (SweepItem ρ)}
      (head : w.sweep = ⟨y, .retry p⟩ :: rest) :
      Moves cfg w (.enqueue .ok)
        { w with
          ob := w.ob.enqueue ⟨p, y⟩ .ok
          sweep := ⟨y, .settled .enqueued⟩ :: rest
          enqueued := y :: w.enqueued }
  | refused {reply : Reply} {y : ReadingSnapshot ρ} {p : PendingMint} {stage next : Stage}
      {rest : List (SweepItem ρ)} (head : w.sweep = ⟨y, stage⟩ :: rest)
      (busy : stage.pending? = some p) (still : next.pending? = some p) :
      Moves cfg w (.enqueue reply)
        { w with
          ob := w.ob.enqueue ⟨p, y⟩ reply
          sweep := ⟨y, next⟩ :: rest
          enqueued := if reply.took then y :: w.enqueued else w.enqueued }
  | published {resolved : Bool} {y : ReadingSnapshot ρ} {p : PendingMint}
      {rest : List (SweepItem ρ)} (head : w.sweep = ⟨y, .lastResort p⟩ :: rest) :
      Moves cfg w (.lastResort resolved)
        { w with
          ob := { w.ob with published := w.ob.published ++ [⟨p, y⟩] }
          sweep := ⟨y, .awaiting p⟩ :: rest }
  | skipped {resolved : Bool} {y : ReadingSnapshot ρ} {p : PendingMint}
      {rest : List (SweepItem ρ)} (head : w.sweep = ⟨y, .lastResort p⟩ :: rest) :
      Moves cfg w (.lastResort resolved) { w with sweep := ⟨y, .settled .lost⟩ :: rest }
  | failed {answer : BridgeReply} {y : ReadingSnapshot ρ} {p : PendingMint}
      {rest : List (SweepItem ρ)} (head : w.sweep = ⟨y, .awaiting p⟩ :: rest) :
      Moves cfg w (.lastReply answer) { w with sweep := ⟨y, .settled .lost⟩ :: rest }
  | minted {answer : BridgeReply} {y : ReadingSnapshot ρ} {p : PendingMint}
      {rest : List (SweepItem ρ)} (head : w.sweep = ⟨y, .awaiting p⟩ :: rest)
      (confirmed : Outbox.confirmed (.single (⟨p, y⟩ : Owed (ReadingSnapshot ρ))) answer =
        some [p.field]) :
      Moves cfg w (.lastReply answer)
        { w with
          ob := { w.ob with replied := w.ob.replied ++ [p.field] }
          sweep := ⟨y, .settled .mintedDirectly⟩ :: rest }
  | evicted {reply : Reply} {y : ReadingSnapshot ρ} {handoff : MintHandoff}
      {rest : List (SweepItem ρ)} (head : w.sweep = ⟨y, .settled handoff⟩ :: rest)
      (settled : handoff ≠ .lost) :
      Moves cfg w (.evict reply) { w with core := w.core.evict y.bin.key reply, sweep := rest }
  | kept {reply : Reply} {y : ReadingSnapshot ρ} {rest : List (SweepItem ρ)}
      (head : w.sweep = ⟨y, .settled .lost⟩ :: rest) :
      Moves cfg w (.evict reply) { w with sweep := rest }
  | drained {e : Outbox.Event} {ob : Outbox (ReadingSnapshot ρ)}
      (moved : w.ob.step cfg.drain e = some ob) :
      Moves cfg w (.drain e) { w with ob := ob }
  | restarted {loaded : Bool} :
      Moves cfg w (.restart loaded)
        { w with core := w.core.restart loaded, sweep := [], ob := w.ob.crash }

variable {cfg : SettlementConfig} {w t : World ρ} {e : Event ρ}

/-- A reply to an attempt for one entry confirms that entry or nothing. -/
theorem confirmed_single {τ : Type} {p : Owed τ} {answer : BridgeReply} {fields : List String}
    (confirmed : Outbox.confirmed (.single p) answer = some fields) :
    fields = [] ∨ fields = [p.field] := by
  cases answer with
  | nothing =>
    cases confirmed
    exact .inl rfl
  | single result =>
    simp only [Outbox.confirmed] at confirmed
    split at confirmed
    · cases confirmed
      exact .inr rfl
    · cases confirmed
      exact .inl rfl
  | batch results => cases confirmed

theorem moves_of_enqueue {reply : Reply} (moved : enqueue w reply = some t) :
    Moves cfg w (.enqueue reply) t := by
  unfold enqueue at moved
  split at moved
  · next y p rest head =>
    cases moved
    by_cases ok : reply = .ok
    · subst ok
      exact .enqueued head
    · simp only [if_neg ok]
      exact .refused head rfl rfl
  · next y p rest head =>
    cases moved
    by_cases ok : reply = .ok
    · subst ok
      exact .retried head
    · simp only [if_neg ok]
      exact .refused head rfl rfl
  · cases moved

theorem moves_of_lastReply {answer : BridgeReply} (moved : lastReply w answer = some t) :
    Moves cfg w (.lastReply answer) t := by
  unfold lastReply at moved
  split at moved
  · next y p rest head =>
    split at moved
    · cases moved
    · cases moved
      exact .failed head
    · next fields some_ confirmed =>
      cases moved
      rcases confirmed_single confirmed with rfl | rfl
      · exact absurd rfl some_
      · exact .minted head confirmed
  · cases moved

/-- Every step is one of these, with all that was asked on the way. -/
theorem moves_of_step (moved : step cfg w e = some t) : Moves cfg w e t := by
  cases e with
  | handle now id r =>
    change (if _ then _ else _) = _ at moved
    split at moved
    · next named =>
      cases moved
      exact .handled named
    · cases moved
  | flush reply =>
    obtain ⟨core, written, rfl⟩ := Option.map_eq_some_iff.mp moved
    exact .flushed written
  | take now =>
    change (if _ then _ else _) = _ at moved
    split at moved
    · next idle =>
      cases moved
      exact .took (List.isEmpty_iff.mp idle)
    · cases moved
  | plan first second nowMs =>
    change plan w first second nowMs = _ at moved
    unfold plan at moved
    split at moved
    · next y rest head =>
      cases moved
      exact .planned head
    · cases moved
  | enqueue reply => exact moves_of_enqueue moved
  | lastResort resolved =>
    change lastResort w resolved = _ at moved
    unfold lastResort at moved
    split at moved
    · next y p rest head =>
      split at moved
      · cases moved
        exact .published head
      · cases moved
        exact .skipped head
    · cases moved
  | lastReply answer => exact moves_of_lastReply moved
  | evict reply =>
    change evict w reply = _ at moved
    unfold evict at moved
    split at moved
    · next y handoff rest head =>
      cases moved
      by_cases lost : handoff = .lost
      · subst lost
        exact .kept head
      · have settled : binDurablySettled handoff = true := by
          cases handoff with
          | lost => exact absurd rfl lost
          | _ => rfl
        simp only [settled, if_true]
        exact .evicted head lost
    · cases moved
  | drain e =>
    obtain ⟨ob, drained, rfl⟩ := Option.map_eq_some_iff.mp moved
    exact .drained drained
  | restart loaded =>
    cases moved
    exact .restarted

/-- What a step can do to memory, the writer's channel and the durable bins. Most steps of the
sweep and the drain loop do nothing to them. -/
inductive CoreMoves (cfg : SettlementConfig) (w : World ρ) :
    Event ρ → Core (ReadingLabel ρ) → Prop
  | handled {now : DateTime} {id : ρ} {r : BillingReading}
      (named : r.meterId = cfg.newV5 r.meterSerial) :
      CoreMoves cfg w (.handle now id r) (w.core.handle now (w.handled, id) r)
  | flushed {reply : Reply} {core : Core (ReadingLabel ρ)}
      (written : w.core.flush reply = some core) : CoreMoves cfg w (.flush reply) core
  | took {now : DateTime} (idle : w.sweep = []) :
      CoreMoves cfg w (.take now) (w.core.take now cfg.grace)
  | evicted {reply : Reply} {y : ReadingSnapshot ρ} {handoff : MintHandoff}
      {rest : List (SweepItem ρ)} (head : w.sweep = ⟨y, .settled handoff⟩ :: rest)
      (settled : handoff ≠ .lost) :
      CoreMoves cfg w (.evict reply) (w.core.evict y.bin.key reply)
  | restarted {loaded : Bool} : CoreMoves cfg w (.restart loaded) (w.core.restart loaded)
  | same {e : Event ρ} : CoreMoves cfg w e w.core

/-- What a step does to the bins in memory, on their way and in Redis. -/
theorem coreMoves_of_moves (moves : Moves cfg w e t) : CoreMoves cfg w e t.core := by
  cases moves with
  | handled named => exact .handled named
  | flushed written => exact .flushed written
  | took idle => exact .took idle
  | evicted head settled => exact .evicted head settled
  | restarted => exact .restarted
  | _ => exact .same

end World

end AggregatorBridge
