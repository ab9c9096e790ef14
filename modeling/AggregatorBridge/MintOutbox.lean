import AggregatorBridge.Models
import AggregatorBridge.Lib.MachineInt
import AggregatorBridge.Lib.Remote
import AggregatorBridge.Lib.Text

/-!
# The mint outbox and its drain loop

A settled surplus waits in a Redis hash, the outbox, until the bridge confirms its mint. A
drain loop loads the hash, moves the entries that have waited too long to a second hash, the
parked one, and asks the bridge to mint the rest in batches; the settlement sweep spawns an
attempt of its own for every entry it enqueues. A confirmed entry is removed from both hashes.

The model is at the level of single Redis commands: `park` and `remove` are two commands each,
a call that has begun leaves its next command in `calls`, and any other party can move before
that command is executed. A tick works on the entries its load returned, not on the hash. The
source awaits some of its calls one after the other; here they are only ordered within one
call, so every run of the source is a run of the model and the model has more.

`Owed` carries, next to a pending mint, where the energy in it came from. The source stores
no such thing: it is a ghost, of a type the caller chooses, that no operation looks at.
-/

namespace AggregatorBridge

open Remote

/-! ## Pending mints -/

/-- A surplus that was settled out of a bin and is not yet confirmed on-chain. -/
structure PendingMint where
  meterSerial : String
  meterId : Uuid
  windowStartMs : Int
  energyKwh : ℚ
  enqueuedAtMs : Int
  deriving DecidableEq

namespace PendingMint

/-- The field of a mint in either hash: one for each meter and window. -/
def field (p : PendingMint) : String :=
  p.meterSerial ++ ":" ++ toString p.windowStartMs

/-- The entry has waited longer than the retention bound. A bound of zero is none. -/
def isExpired (p : PendingMint) (nowMs : Int) (maxAgeSecs : Nat) : Bool :=
  if maxAgeSecs = 0 then false
  else decide (MachineInt.saturateI64 (MachineInt.asI64 maxAgeSecs * 1000) <
    MachineInt.saturateI64 (nowMs - p.enqueuedAtMs))

end PendingMint

/-- A pending mint and the origin of its energy. -/
structure Owed (τ : Type) where
  mint : PendingMint
  origin : τ
  deriving DecidableEq

namespace Owed

/-- As that of the mint; the label is not stored. -/
def field {τ : Type} (p : Owed τ) : String :=
  p.mint.field

end Owed

/-! ## What the bridge answers -/

/-- What the bridge says of a mint. -/
structure MintEnergyResultMessage where
  success : Bool
  signature : Option String
  slot : Nat
  error : Option String
  deriving DecidableEq

/-- A mint that happened, with its transaction. -/
structure MintOutcome where
  signature : String
  slot : Nat
  deriving DecidableEq

/-- `parse_mint_result`: a success needs a signature. -/
def parseMintResult (result : MintEnergyResultMessage) : Except String MintOutcome :=
  if result.success then
    match result.signature with
    | some signature => .ok ⟨signature, result.slot⟩
    | none => .error "mint succeeded without signature"
  else .error (result.error.getD "mint failed")

/-- The reply for one item of a batch. -/
structure MintBatchItemResult where
  idempotencyKey : String
  success : Bool
  signature : Option String
  slot : Nat
  deriving DecidableEq

/-- The key under which the bridge recognises a mint that it has seen before. -/
def mintIdempotencyKey (p : PendingMint) : String :=
  "mint:" ++ p.meterSerial ++ ":" ++ toString p.windowStartMs

/-- The outbox field an idempotency key stands for: the key without its `mint:`. -/
def fieldOfKey (key : String) : String :=
  Text.stripPrefix "mint:" key

theorem fieldOfKey_mintIdempotencyKey (p : PendingMint) :
    fieldOfKey (mintIdempotencyKey p) = p.field := by
  unfold fieldOfKey mintIdempotencyKey PendingMint.field
  rw [String.append_assoc, String.append_assoc, Text.stripPrefix_append, String.append_assoc]

/-- `classify_batch_results`, its confirmed fields. An item is confirmed by `success` alone. -/
def confirmedFields (results : List MintBatchItemResult) : List String :=
  (results.filter MintBatchItemResult.success).map fun r => fieldOfKey r.idempotencyKey

/-- What an attempt got to hear. -/
inductive BridgeReply where
  /-- A publish error, a missing acknowledgement, a timeout or an unreadable reply. -/
  | nothing
  | single (result : MintEnergyResultMessage)
  | batch (results : List MintBatchItemResult)

/-! ## The drain loop -/

/-- How the drain loop is configured: `MINT_OUTBOX_MAX_AGE_SECS` and
`AGGREGATOR_MINT_BATCH_SIZE`. -/
structure DrainConfig where
  maxAgeSecs : Nat
  batchSize : Nat

/-- One tick of the drain loop: what its load returned and it has not looked at yet, and what
it will ask the bridge to mint. -/
structure DrainTick (τ : Type) where
  nowMs : Int
  pending : List (Owed τ)
  toMint : List (Owed τ)

/-- An attempt at minting. The sweep's attempt is for one entry, the drain loop's for a
batch. -/
inductive MintAttempt (τ : Type) where
  | single (p : Owed τ)
  | batch (ps : List (Owed τ))

/-- What an attempt is about. -/
def MintAttempt.entries {τ : Type} : MintAttempt τ → List (Owed τ)
  | single p => [p]
  | batch ps => ps

/-- The next Redis command of a `park` or `remove` call in progress. -/
inductive OutboxCall (τ : Type) where
  /-- `park`: `HSET` in the parked hash. -/
  | parkSet (p : Owed τ)
  /-- `park`: `HDEL` in the outbox. -/
  | parkDel (field : String)
  /-- `remove`: `HDEL` in the outbox. -/
  | removeOutbox (field : String)
  /-- `remove`: `HDEL` in the parked hash. -/
  | removeParked (field : String)
  deriving DecidableEq

/-- The two hashes and the parties that work on them. -/
structure Outbox (τ : Type) where
  /-- The hash `gridtokenx:billing:mint_outbox`. -/
  outbox : Hash String (Owed τ)
  /-- The hash `gridtokenx:billing:mint_outbox:parked`. -/
  parked : Hash String (Owed τ)
  ticks : List (DrainTick τ)
  /-- Attempts that were spawned and have not begun. -/
  spawned : List (MintAttempt τ)
  inFlight : List (MintAttempt τ)
  /-- The intents that went to the bridge. They outlive the attempt that sent them. -/
  published : List (Owed τ)
  calls : List (OutboxCall τ)
  /-- The fields whose mint the bridge confirmed. -/
  replied : List String

namespace Outbox

variable {τ : Type}

/-- Two empty hashes and nobody at work. -/
def init : Outbox τ :=
  ⟨∅, ∅, [], [], [], [], [], []⟩

/-- `MintOutbox::enqueue`: `HSET`, over whatever the field held. -/
def enqueue (s : Outbox τ) (p : Owed τ) (reply : Reply) : Outbox τ :=
  { s with outbox := reply.effect (AList.insert p.field p) s.outbox }

/-- The sweep attempts a mint at once, beside the drain loop. -/
def spawn (s : Outbox τ) (p : Owed τ) : Outbox τ :=
  { s with spawned := s.spawned ++ [.single p] }

/-- The process dies: the hashes stay, and what the bridge was told and what it said. -/
def crash (s : Outbox τ) : Outbox τ :=
  { s with ticks := [], spawned := [], inFlight := [], calls := [] }

/-- The keys of `MintInFlight`. -/
def inFlightKeys (s : Outbox τ) : List String :=
  (s.inFlight.flatMap MintAttempt.entries).map Owed.field

/-- The entries of an attempt that are published: those whose key nobody holds and whose
wallet is found and valid. An entry without a wallet gives its key back. -/
def claim (resolved : String → Bool) (held : List String) : List (Owed τ) → List (Owed τ)
  | [] => []
  | p :: ps =>
    if p.field ∉ held ∧ resolved p.mint.meterSerial = true then
      p :: claim resolved (p.field :: held) ps
    else claim resolved held ps

/-- What the drain loop and the attempts do next. -/
inductive Event where
  | load (nowMs : Int)
  /-- A tick looks at its next entry: park it, or keep it for minting. -/
  | examine (tick : Nat)
  /-- A tick that has looked at all of them spawns the attempt for its next batch. -/
  | batch (tick : Nat)
  /-- An attempt claims its keys, resolves its wallets and publishes. -/
  | publish (attempt : Nat) (resolved : String → Bool)
  | reply (attempt : Nat) (answer : BridgeReply)
  | command (call : Nat) (reply : Reply)

/-- A tick looks at its next entry: one that is too old is parked, the others are kept for the
batches. -/
def examine (cfg : DrainConfig) (s : Outbox τ) (i : Nat) : Option (Outbox τ) := do
  let tick ← s.ticks[i]?
  match tick.pending with
  | [] => none
  | p :: rest =>
    if p.mint.isExpired tick.nowMs cfg.maxAgeSecs then
      some { s with
        ticks := s.ticks.set i { tick with pending := rest }
        calls := s.calls ++ [.parkSet p] }
    else
      some { s with
        ticks := s.ticks.set i { tick with pending := rest, toMint := tick.toMint ++ [p] } }

/-- A tick spawns the attempt for its next batch. -/
def batch (cfg : DrainConfig) (s : Outbox τ) (i : Nat) : Option (Outbox τ) := do
  let tick ← s.ticks[i]?
  if tick.pending.isEmpty ∧ ¬ tick.toMint.isEmpty then
    some { s with
      ticks := s.ticks.set i { tick with toMint := tick.toMint.drop cfg.batchSize }
      spawned := s.spawned ++ [.batch (tick.toMint.take cfg.batchSize)] }
  else none

/-- An attempt publishes what it could claim. With nothing to publish it ends. -/
def publish (s : Outbox τ) (j : Nat) (resolved : String → Bool) : Option (Outbox τ) := do
  let attempt ← s.spawned[j]?
  let s := { s with spawned := s.spawned.eraseIdx j }
  match attempt, claim resolved s.inFlightKeys attempt.entries with
  | _, [] => some s
  | .single _, p :: _ =>
    some { s with inFlight := s.inFlight ++ [.single p], published := s.published ++ [p] }
  | .batch _, ps =>
    some { s with inFlight := s.inFlight ++ [.batch ps], published := s.published ++ ps }

/-- The fields an answer confirms, if it is an answer to that attempt. -/
def confirmed (attempt : MintAttempt τ) (answer : BridgeReply) : Option (List String) :=
  match attempt, answer with
  | _, .nothing => some []
  | .single p, .single result =>
    match parseMintResult result with
    | .ok _ => some [p.field]
    | .error _ => some []
  | .batch _, .batch results => some (confirmedFields results)
  | _, _ => none

/-- An attempt hears from the bridge, or gives up, and removes what was confirmed. -/
def reply (s : Outbox τ) (j : Nat) (answer : BridgeReply) : Option (Outbox τ) := do
  let attempt ← s.inFlight[j]?
  let fields ← confirmed attempt answer
  some { s with
    inFlight := s.inFlight.eraseIdx j
    replied := s.replied ++ fields
    calls := s.calls ++ fields.map .removeOutbox }

/-- One command of a call. An error ends the call. -/
def execute (s : Outbox τ) (call : OutboxCall τ) (reply : Reply) : Outbox τ :=
  match call with
  | .parkSet p =>
    { s with
      parked := reply.effect (AList.insert p.field p) s.parked
      calls := s.calls ++ if reply = .ok then [.parkDel p.field] else [] }
  | .parkDel field =>
    { s with outbox := reply.effect (AList.erase field) s.outbox }
  | .removeOutbox field =>
    { s with
      outbox := reply.effect (AList.erase field) s.outbox
      calls := s.calls ++ if reply = .ok then [.removeParked field] else [] }
  | .removeParked field =>
    { s with parked := reply.effect (AList.erase field) s.parked }

/-- A command on Redis is carried out, or is not, or its answer is lost. -/
def command (s : Outbox τ) (k : Nat) (reply : Reply) : Option (Outbox τ) := do
  let call ← s.calls[k]?
  some (execute { s with calls := s.calls.eraseIdx k } call reply)

/-- One move of the drain loop, an attempt or a call. -/
def step (cfg : DrainConfig) (s : Outbox τ) : Event → Option (Outbox τ)
  | .load nowMs => some { s with ticks := s.ticks ++ [⟨nowMs, Hash.values s.outbox, []⟩] }
  | .examine i => examine cfg s i
  | .batch i => batch cfg s i
  | .publish j resolved => publish s j resolved
  | .reply j answer => reply s j answer
  | .command k reply => command s k reply

/-! ## What a move can do

The hashes change only when a command is executed, and the list of confirmed fields only when
the bridge replies. -/

/-- The effect of a move on the hashes, the calls and the confirmed fields. -/
inductive Effect (s : Outbox τ) (e : Event) (t : Outbox τ) : Prop
  | quiet (outbox : t.outbox = s.outbox) (parked : t.parked = s.parked)
      (replied : t.replied = s.replied) (calls : t.calls = s.calls)
  | parks (p : Owed τ) (outbox : t.outbox = s.outbox) (parked : t.parked = s.parked)
      (replied : t.replied = s.replied) (calls : t.calls = s.calls ++ [.parkSet p])
  | confirms (fields : List String) (outbox : t.outbox = s.outbox) (parked : t.parked = s.parked)
      (replied : t.replied = s.replied ++ fields)
      (calls : t.calls = s.calls ++ fields.map .removeOutbox)
  | executes (k : Nat) (call : OutboxCall τ) (reply : Reply) (event : e = .command k reply)
      (called : s.calls[k]? = some call)
      (after : t = execute { s with calls := s.calls.eraseIdx k } call reply)

variable {cfg : DrainConfig} {s t : Outbox τ} {e : Event}

/-- What a step does to the two hashes and to the calls in progress. Invariants are read off these
cases. -/
theorem effect_of_step (moved : step cfg s e = some t) : Effect s e t := by
  cases e with
  | load nowMs =>
    cases moved
    exact .quiet rfl rfl rfl rfl
  | examine i =>
    obtain ⟨tick, _, moved⟩ := Option.bind_eq_some_iff.mp moved
    split at moved
    · cases moved
    · split at moved
      · cases moved
        exact .parks _ rfl rfl rfl rfl
      · cases moved
        exact .quiet rfl rfl rfl rfl
  | batch i =>
    obtain ⟨tick, _, moved⟩ := Option.bind_eq_some_iff.mp moved
    split at moved
    · cases moved
      exact .quiet rfl rfl rfl rfl
    · cases moved
  | publish j resolved =>
    obtain ⟨attempt, _, moved⟩ := Option.bind_eq_some_iff.mp moved
    simp only at moved
    split at moved <;> cases moved <;> exact .quiet rfl rfl rfl rfl
  | reply j answer =>
    obtain ⟨attempt, _, moved⟩ := Option.bind_eq_some_iff.mp moved
    obtain ⟨fields, _, moved⟩ := Option.bind_eq_some_iff.mp moved
    cases moved
    exact .confirms fields rfl rfl rfl rfl
  | command k reply =>
    obtain ⟨call, called, moved⟩ := Option.bind_eq_some_iff.mp moved
    cases moved
    exact .executes k call reply rfl called rfl

/-! ## Who holds an entry -/

/-- The entries that a tick has loaded and not decided on, and those it is going to mint. -/
def tickEntries (tick : DrainTick τ) : List (Owed τ) :=
  tick.pending ++ tick.toMint

/-- The entry a call is about to write. -/
def callEntries : OutboxCall τ → List (Owed τ)
  | .parkSet p => [p]
  | _ => []

/-- The entries in the hands of the parties. -/
def hands (s : Outbox τ) : List (Owed τ) :=
  s.ticks.flatMap tickEntries ++ s.spawned.flatMap MintAttempt.entries ++
    s.inFlight.flatMap MintAttempt.entries ++ s.published ++ s.calls.flatMap callEntries

/-- An entry that is in a hash or in somebody's hands. -/
inductive Holds (s : Outbox τ) (p : Owed τ) : Prop
  | outbox (field : String) (found : s.outbox.lookup field = some p)
  | parked (field : String) (found : s.parked.lookup field = some p)
  | hand (mem : p ∈ s.hands)

variable {p : Owed τ}

section Lists

variable {α β : Type} {f : α → List β} {l : List α} {within : List β}

private theorem flatMap_set_subset {i : Nat} {a : α} (old : l.flatMap f ⊆ within)
    (new : f a ⊆ within) : (l.set i a).flatMap f ⊆ within := by
  intro b mem
  obtain ⟨a', listed, here⟩ := List.mem_flatMap.mp mem
  rcases List.mem_or_eq_of_mem_set listed with before | rfl
  · exact old (List.mem_flatMap.mpr ⟨a', before, here⟩)
  · exact new here

private theorem flatMap_eraseIdx_subset {i : Nat} (old : l.flatMap f ⊆ within) :
    (l.eraseIdx i).flatMap f ⊆ within := by
  intro b mem
  obtain ⟨a, listed, here⟩ := List.mem_flatMap.mp mem
  exact old (List.mem_flatMap.mpr ⟨a, List.mem_of_mem_eraseIdx listed, here⟩)

private theorem flatMap_snoc_subset {a : α} (old : l.flatMap f ⊆ within) (new : f a ⊆ within) :
    (l ++ [a]).flatMap f ⊆ within := by
  rw [List.flatMap_append, List.flatMap_singleton]
  exact List.append_subset.mpr ⟨old, new⟩

private theorem subset_flatMap {i : Nat} {a : α} (at_ : l[i]? = some a) : f a ⊆ l.flatMap f :=
  fun _ mem => List.mem_flatMap.mpr ⟨a, List.mem_of_getElem? at_, mem⟩

private theorem singleton_subset {b : β} (mem : b ∈ within) : [b] ⊆ within :=
  List.cons_subset.mpr ⟨mem, List.nil_subset _⟩

end Lists

theorem ticks_subset_hands (s : Outbox τ) : s.ticks.flatMap tickEntries ⊆ s.hands := by
  intro p mem
  simp [hands, mem]

theorem spawned_subset_hands (s : Outbox τ) :
    s.spawned.flatMap MintAttempt.entries ⊆ s.hands := by
  intro p mem
  simp [hands, mem]

theorem inFlight_subset_hands (s : Outbox τ) :
    s.inFlight.flatMap MintAttempt.entries ⊆ s.hands := by
  intro p mem
  simp [hands, mem]

theorem published_subset_hands (s : Outbox τ) : s.published ⊆ s.hands := by
  intro p mem
  simp [hands, mem]

theorem calls_subset_hands (s : Outbox τ) : s.calls.flatMap callEntries ⊆ s.hands := by
  intro p mem
  simp [hands, mem]

/-- All hands hold is in a list if what each party holds is. -/
theorem hands_subset {t : Outbox τ} {within : List (Owed τ)}
    (ticks : t.ticks.flatMap tickEntries ⊆ within)
    (spawned : t.spawned.flatMap MintAttempt.entries ⊆ within)
    (inFlight : t.inFlight.flatMap MintAttempt.entries ⊆ within)
    (published : t.published ⊆ within) (calls : t.calls.flatMap callEntries ⊆ within) :
    t.hands ⊆ within := by
  simp only [hands, List.append_subset]
  exact ⟨⟨⟨⟨ticks, spawned⟩, inFlight⟩, published⟩, calls⟩

theorem mem_of_mem_claim {resolved : String → Bool} {held : List String} {ps : List (Owed τ)}
    (mem : p ∈ claim resolved held ps) : p ∈ ps := by
  induction ps generalizing held with
  | nil => cases mem
  | cons q ps ih =>
    unfold claim at mem
    split at mem
    · rcases List.mem_cons.mp mem with rfl | mem
      · exact List.mem_cons_self
      · exact List.mem_cons_of_mem _ (ih mem)
    · exact List.mem_cons_of_mem _ (ih mem)

/-- A hash after a write holds what it held, or what was written. -/
theorem lookup_effect_set {h : Hash String (Owed τ)} {q : Owed τ} {reply : Reply}
    {field : String}
    (found : (reply.effect (AList.insert q.field q) h).lookup field = some p) :
    h.lookup field = some p ∨ p = q ∧ field = q.field := by
  rcases reply.effect_cases (AList.insert q.field q) h with same | set
  · rw [same] at found
    exact .inl found
  · rw [set, Hash.lookup_set] at found
    split at found
    · next here =>
      cases found
      exact .inr ⟨rfl, here⟩
    · exact .inl found

/-- A hash after a deletion holds what it held. -/
theorem lookup_effect_del {h : Hash String (Owed τ)} {g : String} {reply : Reply}
    {field : String} (found : (reply.effect (AList.erase g) h).lookup field = some p) :
    h.lookup field = some p := by
  rcases reply.effect_cases (AList.erase g) h with same | del
  · rw [same] at found
    exact found
  · rw [del, Hash.lookup_del] at found
    split at found
    · cases found
    · exact found

/-- A load puts what the outbox holds into the hands of a tick. -/
theorem hands_load (nowMs : Int) :
    hands { s with ticks := s.ticks ++ [⟨nowMs, Hash.values s.outbox, []⟩] } ⊆
      Hash.values s.outbox ++ s.hands := by
  have old {l : List (Owed τ)} (known : l ⊆ s.hands) : l ⊆ Hash.values s.outbox ++ s.hands :=
    List.Subset.trans known (List.subset_append_right _ _)
  refine hands_subset (flatMap_snoc_subset (old s.ticks_subset_hands) ?_)
    (old s.spawned_subset_hands) (old s.inFlight_subset_hands) (old s.published_subset_hands)
    (old s.calls_subset_hands)
  rw [tickEntries, List.append_nil]
  exact List.subset_append_left _ _

theorem hands_examine {i : Nat} (moved : examine cfg s i = some t) : t.hands ⊆ s.hands := by
  obtain ⟨tick, at_, moved⟩ := Option.bind_eq_some_iff.mp moved
  split at moved
  · cases moved
  next q rest pending =>
  have mine : q :: rest ++ tick.toMint ⊆ s.hands := by
    refine List.Subset.trans ?_ s.ticks_subset_hands
    have entries := subset_flatMap (f := tickEntries) at_
    rw [tickEntries, pending] at entries
    exact entries
  split at moved
  · cases moved
    refine hands_subset ?_ s.spawned_subset_hands s.inFlight_subset_hands
      s.published_subset_hands ?_
    · refine flatMap_set_subset s.ticks_subset_hands ?_
      exact List.Subset.trans (List.subset_cons_self _ _) mine
    · refine flatMap_snoc_subset s.calls_subset_hands ?_
      exact singleton_subset (mine List.mem_cons_self)
  · cases moved
    refine hands_subset ?_ s.spawned_subset_hands s.inFlight_subset_hands
      s.published_subset_hands s.calls_subset_hands
    refine flatMap_set_subset s.ticks_subset_hands ?_
    -- the entry that was looked at moved from one end to the other
    intro p mem
    apply mine
    simp only [tickEntries, List.mem_append, List.mem_cons, List.not_mem_nil, or_false] at mem ⊢
    rcases mem with later | before | here
    · exact .inl (.inr later)
    · exact .inr before
    · exact .inl (.inl here)

theorem hands_batch {i : Nat} (moved : batch cfg s i = some t) : t.hands ⊆ s.hands := by
  obtain ⟨tick, at_, moved⟩ := Option.bind_eq_some_iff.mp moved
  split at moved
  · cases moved
    have mine : tickEntries tick ⊆ s.hands :=
      List.Subset.trans (subset_flatMap at_) s.ticks_subset_hands
    have toMint : tick.toMint ⊆ s.hands :=
      List.Subset.trans (List.subset_append_right _ _) mine
    refine hands_subset ?_ ?_ s.inFlight_subset_hands s.published_subset_hands
      s.calls_subset_hands
    · refine flatMap_set_subset s.ticks_subset_hands (List.append_subset.mpr ⟨?_, ?_⟩)
      · exact List.Subset.trans (List.subset_append_left _ _) mine
      · exact List.Subset.trans (List.drop_subset _ _) toMint
    · refine flatMap_snoc_subset s.spawned_subset_hands ?_
      exact List.Subset.trans (List.take_subset _ _) toMint
  · cases moved

theorem hands_publish {j : Nat} {resolved : String → Bool}
    (moved : publish s j resolved = some t) : t.hands ⊆ s.hands := by
  obtain ⟨attempt, at_, moved⟩ := Option.bind_eq_some_iff.mp moved
  have claimed {keys : List String} : claim resolved keys attempt.entries ⊆ s.hands := by
    intro p mem
    exact s.spawned_subset_hands (subset_flatMap at_ (mem_of_mem_claim mem))
  have left : (s.spawned.eraseIdx j).flatMap MintAttempt.entries ⊆ s.hands :=
    flatMap_eraseIdx_subset s.spawned_subset_hands
  simp only at moved
  split at moved
  · cases moved
    exact hands_subset s.ticks_subset_hands left s.inFlight_subset_hands
      s.published_subset_hands s.calls_subset_hands
  · next q₀ q qs claims =>
    cases moved
    have first : [q] ⊆ s.hands := by
      exact singleton_subset (claimed (claims ▸ List.mem_cons_self))
    exact hands_subset s.ticks_subset_hands left
      (flatMap_snoc_subset s.inFlight_subset_hands first)
      (List.append_subset.mpr ⟨s.published_subset_hands, first⟩) s.calls_subset_hands
  · cases moved
    exact hands_subset s.ticks_subset_hands left
      (flatMap_snoc_subset s.inFlight_subset_hands claimed)
      (List.append_subset.mpr ⟨s.published_subset_hands, claimed⟩) s.calls_subset_hands

theorem hands_reply {j : Nat} {answer : BridgeReply} (moved : reply s j answer = some t) :
    t.hands ⊆ s.hands := by
  obtain ⟨attempt, _, moved⟩ := Option.bind_eq_some_iff.mp moved
  obtain ⟨fields, _, moved⟩ := Option.bind_eq_some_iff.mp moved
  cases moved
  refine hands_subset s.ticks_subset_hands s.spawned_subset_hands
    (flatMap_eraseIdx_subset s.inFlight_subset_hands) s.published_subset_hands ?_
  rw [List.flatMap_append]
  refine List.append_subset.mpr ⟨s.calls_subset_hands, ?_⟩
  -- a `remove` writes no entry
  intro p new
  obtain ⟨call, listed, mem⟩ := List.mem_flatMap.mp new
  obtain ⟨field, _, rfl⟩ := List.mem_map.mp listed
  cases mem

/-- A command takes its call off the list and puts one that writes nothing on it at most. -/
theorem hands_execute {k : Nat} {call : OutboxCall τ} {reply : Reply} :
    (execute { s with calls := s.calls.eraseIdx k } call reply).hands ⊆ s.hands := by
  have left : (s.calls.eraseIdx k).flatMap callEntries ⊆ s.hands :=
    flatMap_eraseIdx_subset s.calls_subset_hands
  have next (call' : OutboxCall τ) (writesNothing : callEntries call' = []) :
      (s.calls.eraseIdx k ++ if reply = .ok then [call'] else []).flatMap callEntries ⊆
        s.hands := by
    split
    · refine flatMap_snoc_subset left ?_
      rw [writesNothing]
      exact List.nil_subset _
    · rw [List.append_nil]
      exact left
  cases call with
  | parkSet q =>
    exact hands_subset s.ticks_subset_hands s.spawned_subset_hands s.inFlight_subset_hands
      s.published_subset_hands (next (.parkDel q.field) rfl)
  | parkDel g =>
    exact hands_subset s.ticks_subset_hands s.spawned_subset_hands s.inFlight_subset_hands
      s.published_subset_hands left
  | removeOutbox g =>
    exact hands_subset s.ticks_subset_hands s.spawned_subset_hands s.inFlight_subset_hands
      s.published_subset_hands (next (.removeParked g) rfl)
  | removeParked g =>
    exact hands_subset s.ticks_subset_hands s.spawned_subset_hands s.inFlight_subset_hands
      s.published_subset_hands left

/-- The outbox holds after a move what it held: only the sweep enqueues. -/
theorem lookup_of_step {field : String} (moved : step cfg s e = some t)
    (found : t.outbox.lookup field = some p) : s.outbox.lookup field = some p := by
  cases effect_of_step moved with
  | quiet outbox => exact outbox ▸ found
  | parks _ outbox => exact outbox ▸ found
  | confirms _ outbox => exact outbox ▸ found
  | executes k call reply _ _ after =>
    subst after
    cases call with
    | parkSet q => exact found
    | parkDel g => exact lookup_effect_del found
    | removeOutbox g => exact lookup_effect_del found
    | removeParked g => exact found

/-- The drain loop and the attempts make no entries: whatever somebody holds after a move,
somebody held before. -/
theorem Holds.of_step (moved : step cfg s e = some t) (held : Holds t p) : Holds s p := by
  cases held with
  | outbox field found => exact .outbox field (lookup_of_step moved found)
  | parked field found =>
    cases effect_of_step moved with
    | quiet _ parked => exact .parked field (parked ▸ found)
    | parks _ _ parked => exact .parked field (parked ▸ found)
    | confirms _ _ parked => exact .parked field (parked ▸ found)
    | executes k call reply _ called after =>
      subst after
      cases call with
      | parkSet q =>
        rcases lookup_effect_set found with before | ⟨rfl, _⟩
        · exact .parked field before
        · have writing : p ∈ s.calls.flatMap callEntries :=
            subset_flatMap called (List.mem_singleton.mpr rfl)
          exact .hand (s.calls_subset_hands writing)
      | parkDel g => exact .parked field found
      | removeOutbox g => exact .parked field found
      | removeParked g => exact .parked field (lookup_effect_del found)
  | hand mem =>
    cases e with
    | load nowMs =>
      cases moved
      rcases List.mem_append.mp (hands_load nowMs mem) with loaded | before
      · obtain ⟨field, found⟩ := Hash.mem_values.mp loaded
        exact .outbox field found
      · exact .hand before
    | examine i => exact .hand (hands_examine moved mem)
    | batch i => exact .hand (hands_batch moved mem)
    | publish j resolved => exact .hand (hands_publish moved mem)
    | reply j answer => exact .hand (hands_reply moved mem)
    | command k reply =>
      obtain ⟨call, _, moved⟩ := Option.bind_eq_some_iff.mp moved
      cases moved
      exact .hand (hands_execute mem)

theorem Holds.of_enqueue {q : Owed τ} {reply : Reply} (held : Holds (s.enqueue q reply) p) :
    Holds s p ∨ p = q := by
  cases held with
  | outbox field found =>
    rcases lookup_effect_set found with before | ⟨rfl, _⟩
    · exact .inl (.outbox field before)
    · exact .inr rfl
  | parked field found => exact .inl (.parked field found)
  | hand mem => exact .inl (.hand mem)

theorem Holds.of_spawn {q : Owed τ} (held : Holds (s.spawn q) p) : Holds s p ∨ p = q := by
  cases held with
  | outbox field found => exact .inl (.outbox field found)
  | parked field found => exact .inl (.parked field found)
  | hand mem =>
    have known : (s.spawn q).hands ⊆ q :: s.hands :=
      hands_subset (List.subset_cons_of_subset _ s.ticks_subset_hands)
        (flatMap_snoc_subset (List.subset_cons_of_subset _ s.spawned_subset_hands)
          (singleton_subset List.mem_cons_self))
        (List.subset_cons_of_subset _ s.inFlight_subset_hands)
        (List.subset_cons_of_subset _ s.published_subset_hands)
        (List.subset_cons_of_subset _ s.calls_subset_hands)
    rcases List.mem_cons.mp (known mem) with same | before
    · exact .inr same
    · exact .inl (.hand before)

theorem Holds.of_crash (held : Holds s.crash p) : Holds s p := by
  cases held with
  | outbox field found => exact .outbox field found
  | parked field found => exact .parked field found
  | hand mem =>
    have fewer : s.crash.hands ⊆ s.hands :=
      hands_subset (List.nil_subset _) (List.nil_subset _) (List.nil_subset _)
        s.published_subset_hands (List.nil_subset _)
    exact .hand (fewer mem)

theorem Holds.of_published {q : Owed τ}
    (held : Holds { s with published := s.published ++ [q] } p) : Holds s p ∨ p = q := by
  cases held with
  | outbox field found => exact .inl (.outbox field found)
  | parked field found => exact .inl (.parked field found)
  | hand mem =>
    have known : hands { s with published := s.published ++ [q] } ⊆ q :: s.hands :=
      hands_subset (List.subset_cons_of_subset _ s.ticks_subset_hands)
        (List.subset_cons_of_subset _ s.spawned_subset_hands)
        (List.subset_cons_of_subset _ s.inFlight_subset_hands)
        (List.append_subset.mpr ⟨List.subset_cons_of_subset _ s.published_subset_hands,
          singleton_subset List.mem_cons_self⟩)
        (List.subset_cons_of_subset _ s.calls_subset_hands)
    rcases List.mem_cons.mp (known mem) with same | before
    · exact .inr same
    · exact .inl (.hand before)

theorem Holds.of_replied {fields : List String} (held : Holds { s with replied := fields } p) :
    Holds s p := by
  cases held with
  | outbox field found => exact .outbox field found
  | parked field found => exact .parked field found
  | hand mem => exact .hand mem

end Outbox

end AggregatorBridge
