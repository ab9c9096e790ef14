import AggregatorBridge.ZoneIngester

/-!
# The history of readings

Next to the zone stream, every energy reading is mirrored as a row of the `meter_readings`
table, over a queue of its own. When a mint is confirmed, the rows of its meter and window are
marked minted with the signature of the transaction; which rows these are is decided by serial
and time at that moment.

`History` puts the two paths side by side: readings are disseminated, their rows are queued and
inserted, their entries are handled and settled, and confirmed mints are written back. A row
carries the number of the reading it mirrors, which is a ghost: the table has an id of its own.
The columns that no write-back looks at are left out.

The bridge is outside of this repository. What is assumed of it is what the code relies on: it
mints a key at most once, and reports a success only with the signature under which the key
was minted, also when the request is a repetition.
-/

namespace AggregatorBridge

open Remote

variable {F : Type}

/-! ## Rows -/

/-- `canonicalize_serial`: a UUID in its usual spelling, anything else without the blanks around it.
-/
def canonicalizeSerial (codec : UuidCodec) (raw : String) : String :=
  let trimmed := Text.trim raw
  match codec.parseStr trimmed with
  | some uuid => codec.display uuid
  | none => trimmed

/-- Length of the billing window in milliseconds. -/
def windowMs : Int := 15 * 60 * 1000

/-- A row on its way to the table. -/
structure ReadingRow where
  reading : Nat
  serialNumber : String
  timestampMs : Int
  deriving DecidableEq

/-- `reading_to_row`: only energy readings have one. -/
def readingToRow (id : Nat) (reading : DeviceReading F) : Option ReadingRow :=
  match reading.metrics with
  | .energy _ _ _ => some ⟨id, reading.serialNumber, reading.timestamp.timestampMillis⟩
  | _ => none

/-- What a mint has to do with a row of the table: the meter and the time that select it, and the
mint it was marked with. -/
structure StoredRow where
  reading : Nat
  meterSerial : String
  readingTimestampMs : Int
  minted : Option MintOutcome
  deriving DecidableEq

/-- What `insert_batch` stores. -/
def ReadingRow.stored (codec : UuidCodec) (row : ReadingRow) : StoredRow :=
  ⟨row.reading, canonicalizeSerial codec row.serialNumber, row.timestampMs, none⟩

/-- A confirmed mint that is to be written back. -/
structure Stamp where
  meterSerial : String
  windowStartMs : Int
  outcome : MintOutcome
  deriving DecidableEq

/-- The row is one of a meter and of a window that starts at some time. -/
def StoredRow.within (codec : UuidCodec) (row : StoredRow) (meterSerial : String)
    (windowStartMs : Int) : Bool :=
  decide (row.meterSerial = canonicalizeSerial codec meterSerial ∧
    windowStartMs ≤ row.readingTimestampMs ∧
    row.readingTimestampMs < windowStartMs + windowMs)

/-- The rows `mark_minted` selects: those of the window that are not marked. -/
def StoredRow.selected (codec : UuidCodec) (row : StoredRow) (meterSerial : String)
    (windowStartMs : Int) : Bool :=
  row.within codec meterSerial windowStartMs && row.minted.isNone

/-- `mark_minted`: every row of the meter and the window, each of which may have been marked before.
-/
def markMinted (codec : UuidCodec) (stamp : Stamp) (rows : List StoredRow) : List StoredRow :=
  rows.map fun row =>
    if row.selected codec stamp.meterSerial stamp.windowStartMs then
      { row with minted := some stamp.outcome }
    else row

/-- What a row shows in `blockchain_status`. -/
inductive BlockchainStatus where
  | pending
  | submitted
  | confirmed
  | failed
  | noSurplus
  deriving DecidableEq

/-! ## The table -/

/-- A row of `meter_readings`, as far as the write-backs and the trigger look at it. What
`mark_minted` sets, the status aside, is `minted`. -/
structure TableRow where
  row : StoredRow
  blockchainStatus : BlockchainStatus
  blockchainTxSignature : Option String
  deriving DecidableEq

/-- A row as it is inserted: the rest are the defaults of the columns. -/
def ReadingRow.tableRow (codec : UuidCodec) (row : ReadingRow) : TableRow :=
  ⟨row.stored codec, .pending, none⟩

/-- The trigger `update_meter_readings_blockchain_status`, before each update of a row. -/
def updateBlockchainStatusOnHash (old new : TableRow) : TableRow :=
  if new.blockchainTxSignature.isSome ∧ old.blockchainTxSignature.isNone ∧
      new.blockchainStatus = .pending then
    { new with blockchainStatus := .submitted }
  else new

namespace TableRow

variable (codec : UuidCodec)

/-- The update of one row, with its trigger. -/
def markMinted (stamp : Stamp) (old : TableRow) : TableRow :=
  if old.row.selected codec stamp.meterSerial stamp.windowStartMs then
    updateBlockchainStatusOnHash old { old with
      row := { old.row with minted := some stamp.outcome }
      blockchainStatus := .confirmed }
  else old

/-- The rows `mark_no_surplus` selects: those of the window that are not marked and wait. -/
def selected (r : TableRow) (meterSerial : String) (windowStartMs : Int) : Bool :=
  r.row.selected codec meterSerial windowStartMs && r.blockchainStatus == .pending

def markNoSurplus (meterSerial : String) (windowStartMs : Int) (old : TableRow) : TableRow :=
  if old.selected codec meterSerial windowStartMs then
    updateBlockchainStatusOnHash old { old with blockchainStatus := .noSurplus }
  else old

end TableRow

/-- What is done to the table. -/
inductive TableCall where
  /-- The rows of a batch that have an owner. -/
  | insertBatch (rows : List ReadingRow)
  | markMinted (stamp : Stamp)
  | markNoSurplus (meterSerial : String) (windowStartMs : Int)

/-- Rows are appended and updated, and never removed. -/
def TableCall.execute (codec : UuidCodec) (table : List TableRow) : TableCall → List TableRow
  | insertBatch rows => table ++ rows.map (ReadingRow.tableRow codec)
  | markMinted stamp => table.map (TableRow.markMinted codec stamp)
  | markNoSurplus meterSerial windowStartMs =>
    table.map (TableRow.markNoSurplus codec meterSerial windowStartMs)

/-- The table after some calls, from the empty one on. -/
def tableAfter (codec : UuidCodec) (calls : List TableCall) : List TableRow :=
  calls.foldl (TableCall.execute codec) []

/-! ## Write-backs -/

/-- The serial may contain colons itself, so the window is what stands after the last one. -/
def parseMintField (idempotencyKey : String) : Option (String × Int) := do
  let (serial, window) ← Text.rsplitOnceColon (fieldOfKey idempotencyKey)
  let windowStartMs ← Text.parseI64 window
  some (serial, windowStartMs)

/-- What is parsed out of a field is what the field was made of. -/
theorem eq_of_parseMintField {key serial meterSerial : String} {windowStartMs window : Int}
    (parsed : parseMintField key = some (serial, windowStartMs))
    (same : fieldOfKey key = meterSerial ++ ":" ++ toString window) :
    serial = meterSerial ∧ windowStartMs = window := by
  obtain ⟨⟨head, tail⟩, split, parsed⟩ := Option.bind_eq_some_iff.mp parsed
  obtain ⟨number, read, parsed⟩ := Option.bind_eq_some_iff.mp parsed
  cases parsed
  obtain ⟨joined, noColon⟩ := Text.rsplitOnceColon_eq_some split
  rw [same] at joined
  obtain ⟨rfl, rfl⟩ := Text.colonJoined_inj (Text.colon_not_mem_int _) noColon joined
  exact ⟨rfl, Text.eq_of_parseI64_toString read⟩

/-- `write_back_confirmed`, for one item. -/
def writeBack (r : MintBatchItemResult) : Option Stamp :=
  if r.success then do
    let signature ← r.signature
    let (serial, windowStartMs) ← parseMintField r.idempotencyKey
    some ⟨serial, windowStartMs, ⟨signature, r.slot⟩⟩
  else none

/-- What an attempt writes back when it hears from the bridge. -/
def stampsOf {τ : Type} (attempt : MintAttempt τ) (answer : BridgeReply) : List Stamp :=
  match attempt, answer with
  | .single p, .single result =>
    match parseMintResult result with
    | .ok outcome => [⟨p.mint.meterSerial, p.mint.windowStartMs, outcome⟩]
    | .error _ => []
  | .batch _, .batch results => results.filterMap writeBack
  | _, _ => []

/-! ## An attempt as one call -/

/-- What an attempt hears while it claims its entries. -/
structure ClaimAnswers where
  /-- `try_begin` for the n-th entry: its key was free. -/
  begun : Nat → Bool
  /-- `resolve_wallet` for the n-th entry. -/
  wallet : Nat → Except String (Option String)
  walletIsValid : String → Bool

namespace ClaimAnswers

variable (answers : ClaimAnswers)

/-- The n-th entry is submitted: its key was free, and it has a valid wallet. -/
def usable (n : Nat) : Bool :=
  answers.begun n &&
    match answers.wallet n with
    | .ok (some w) => answers.walletIsValid w
    | _ => false

/-- The entries of a batch that are submitted. -/
def submitted (pending : List PendingMint) : List PendingMint :=
  (pending.zipIdx.filter fun m => answers.usable m.2).map Prod.fst

/-- `attempt_mint`: whether the entry is confirmed, and what is written back. -/
def attemptMint (p : PendingMint) (reply : Option MintEnergyResultMessage) : Bool × List Stamp :=
  if answers.usable 0 then
    match reply with
    | some result =>
      match parseMintResult result with
      | .ok outcome => (true, [⟨p.meterSerial, p.windowStartMs, outcome⟩])
      | .error _ => (false, [])
    | none => (false, [])
  else (false, [])

/-- `attempt_mint_batch`: the fields it returns for removal, and what is written back. There is
no reply where the gateway reports an error. -/
def attemptMintBatch (pending : List PendingMint) (reply : Option (List MintBatchItemResult)) :
    List String × List Stamp :=
  if (answers.submitted pending).isEmpty then ([], [])
  else
    match reply with
    | some results => (confirmedFields results, results.filterMap writeBack)
    | none => ([], [])

end ClaimAnswers

/-! ## The bridge -/

/-- What was minted under a key: the signature, and the bin behind the request. -/
abbrev Chain := Hash String (String × ReadingSnapshot Nat)

/-- The bridge works on a request. A key that was minted before is not minted again. -/
def Chain.mint (chain : Chain) (p : Owed (ReadingSnapshot Nat)) (signature : String) : Chain :=
  match AList.lookup p.field chain with
  | some _ => chain
  | none => AList.insert p.field (signature, p.origin) chain

/-- The transaction of the first mint of a field; there is no other. -/
def Chain.signatureOf (chain : Chain) (field : String) : Option String :=
  (AList.lookup field chain).map Prod.fst

/-- The answer reports only what was minted. -/
def answersTruly (chain : Chain) (attempt : MintAttempt (ReadingSnapshot Nat))
    (answer : BridgeReply) : Bool :=
  match attempt, answer with
  | .single p, .single result =>
    decide (result.success = true → ∀ signature ∈ result.signature,
      Chain.signatureOf chain p.field = some signature)
  | .batch _, .batch results =>
    decide (∀ r ∈ results, r.success = true → ∀ signature ∈ r.signature,
      Chain.signatureOf chain (fieldOfKey r.idempotencyKey) = some signature)
  | _, _ => true

/-! ## Both paths -/

/-- The whole way of a reading: disseminated, queued as a row, inserted, billed, minted, and its row
marked. -/
structure History (F : Type) where
  /-- The readings in the order they were disseminated; a reading is known by its place. -/
  disseminated : List (DeviceReading F)
  rowQueue : List ReadingRow
  rows : List StoredRow
  stamps : List Stamp
  chain : Chain
  world : World Nat
  /-- Every bin a sweep has taken. -/
  taken : List (ReadingSnapshot Nat)

/-- The spelling of UUIDs, the reading of decimals, and the settlement. -/
structure HistoryConfig (F : Type) where
  serials : UuidCodec
  decimals : DecimalCodec F
  settlement : SettlementConfig

namespace History

/-- Nothing was ever disseminated. -/
def init : History F :=
  ⟨[], [], [], [], ∅, World.init, []⟩

/-- A step of the router, of the writer of rows, of billing and settlement, or of the bridge. -/
inductive Event (F : Type) where
  /-- `Router::disseminate`; `queued` says whether the row found a place in its queue. -/
  | disseminate (reading : DeviceReading F) (queued : Bool)
  /-- The writer inserts the oldest row, or loses it: no owner, no wallet, a failed batch. -/
  | insert (stored : Bool)
  /-- The ingester handles the entry of a reading. -/
  | handle (now : DateTime) (id : Nat) (userId : Uuid)
  /-- The bridge works on a published intent. -/
  | mint (intent : Nat) (signature : String)
  | writeBack (stamp : Nat) (reply : Reply)
  /-- The parties of settlement move, or the process restarts. -/
  | settle (e : World.Event Nat)

/-- The row of a reading is queued behind its stream entry. -/
def disseminate (h : History F) (reading : DeviceReading F) (queued : Bool) : History F :=
  { h with
    disseminated := h.disseminated ++ [reading]
    rowQueue := h.rowQueue ++
      if queued then (readingToRow h.disseminated.length reading).toList else [] }

def insert (cfg : HistoryConfig F) (h : History F) (stored : Bool) : Option (History F) :=
  match h.rowQueue with
  | [] => none
  | row :: rest =>
    some { h with
      rowQueue := rest
      rows := h.rows ++ if stored then [row.stored cfg.serials] else [] }

/-- The ingester's locked section. -/
def handle [Float64 F] (cfg : HistoryConfig F) (h : History F) (now : DateTime) (id : Nat)
    (userId : Uuid) : Option (History F) := do
  let reading ← h.disseminated[id]?
  let r := BillingReading.ofDevice cfg.decimals cfg.settlement.newV5 userId reading
  let world ← h.world.handle cfg.settlement now id r
  some { h with world := world }

/-- An attempt hears from the bridge: what was confirmed is to be written back. -/
def hear (cfg : HistoryConfig F) (h : History F) (attempt : MintAttempt (ReadingSnapshot Nat))
    (answer : BridgeReply) (e : World.Event Nat) : Option (History F) :=
  if answersTruly h.chain attempt answer then
    (h.world.step cfg.settlement e).map fun world =>
      { h with world := world, stamps := h.stamps ++ stampsOf attempt answer }
  else none

def settle (cfg : HistoryConfig F) (h : History F) (e : World.Event Nat) :
    Option (History F) :=
  match e with
  | .handle _ _ _ => none
  | .take now => (h.world.step cfg.settlement e).map fun world =>
      { h with
        world := world
        taken := h.taken ++ h.world.core.completed now cfg.settlement.grace }
  | .drain (.reply j answer) =>
    match h.world.ob.inFlight[j]? with
    | some attempt => hear cfg h attempt answer e
    | none => none
  | .lastReply answer =>
    match h.world.sweep with
    | ⟨y, .awaiting p⟩ :: _ => hear cfg h (.single ⟨p, y⟩) answer e
    | _ => none
  | .restart _ => (h.world.step cfg.settlement e).map fun world =>
      { h with world := world, rowQueue := [], stamps := [] }
  | _ => (h.world.step cfg.settlement e).map fun world => { h with world := world }

def step [Float64 F] (cfg : HistoryConfig F) (h : History F) : Event F → Option (History F)
  | .disseminate reading queued => some (h.disseminate reading queued)
  | .insert stored => insert cfg h stored
  | .handle now id userId => handle cfg h now id userId
  | .mint i signature =>
    h.world.ob.published[i]?.map fun p => { h with chain := h.chain.mint p signature }
  | .writeBack i reply =>
    h.stamps[i]?.map fun stamp =>
      { h with
        stamps := h.stamps.eraseIdx i
        rows := reply.effect (markMinted cfg.serials stamp) h.rows }
  | .settle e => settle cfg h e

end History

end AggregatorBridge
