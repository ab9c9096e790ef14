import AggregatorBridge.DeviceKeys
import AggregatorBridge.Grpc

/-!
# Bulk ingest, column by column

`bulkRawIngest` of the gRPC module works on entries: a frame with its own bytes and its own
signature. The source does not. It cuts the payload with a cursor, pushes what decodes onto four
vectors, hands three of them to the verifier, which works by index itself (`DeviceKeys`), and
walks over the answers by index. This module is that code, with its indices and its slices;
`Laws.BulkPairing` is that nothing gets out of step.
-/

namespace AggregatorBridge

open Checked Remote Expiring

/-! ## Framing -/

/-- The loop of `split_bulk_frames`, from `cursor` on, with what it has pushed so far. -/
def splitBulkLoop (payload : List UInt8) (cursor : Nat) (out : List (List UInt8 × List UInt8)) :
    Checked ConnectError (List (List UInt8 × List UInt8)) :=
  if _more : cursor < payload.length then do
    let frameLen ← index payload cursor
    -- The full frame and its signature, or stop.
    if cursor + 1 + frameLen.toNat + 64 ≤ payload.length then do
      let frameBytes ← slice payload (cursor + 1) (cursor + 1 + frameLen.toNat)
      let sigSlice ← slice payload (cursor + 1 + frameLen.toNat)
        (cursor + 1 + frameLen.toNat + 64)
      let sig ← exactly 64 sigSlice
      splitBulkLoop payload (cursor + 1 + frameLen.toNat + 64) (out ++ [(frameBytes, sig)])
    else .ok out
  else .ok out
  termination_by payload.length - cursor

/-- One entry of a packed payload. -/
structure PackedEntry where
  frame : List UInt8
  signature : List UInt8
  frame_fits : frame.length ≤ 255
  signature_length : signature.length = 64

/-- What the splitter is to make of an entry. -/
def PackedEntry.pair (e : PackedEntry) : List UInt8 × List UInt8 :=
  (e.frame, e.signature)

/-- `[frame_len: 1B][frame: frame_len B][signature: 64B]`. -/
def PackedEntry.bytes (e : PackedEntry) : List UInt8 :=
  UInt8.ofNat e.frame.length :: (e.frame ++ e.signature)

/-- The payload of a bulk request, which has no length of its own for the entries as a whole. -/
def packBulk (entries : List PackedEntry) : List UInt8 :=
  entries.flatMap PackedEntry.bytes

/-- Nothing, or less than the entry that the first byte declares. -/
def Truncated (tail : List UInt8) : Prop :=
  ∀ len rest, tail = len :: rest → rest.length < len.toNat + 64

/-! ## Unpacking -/

/-- The four vectors of `bulk_raw_ingest`. -/
structure BulkColumns where
  meterIds : List String
  payloadsForSig : List (List UInt8)
  signatures : List (List UInt8)
  frames : List DlmsBinaryFrame

/-- The columns before the first entry. -/
def BulkColumns.empty : BulkColumns :=
  ⟨[], [], [], []⟩

/-- An entry that decoded is added to all four columns at once, so they stay of one length. -/
def BulkColumns.push (cols : BulkColumns) (frame : DlmsBinaryFrame)
    (frameBytes sigBytes : List UInt8) : BulkColumns where
  meterIds := cols.meterIds ++ [frame.logicalDeviceName]
  payloadsForSig := cols.payloadsForSig ++ [frameBytes]
  signatures := cols.signatures ++ [sigBytes]
  frames := cols.frames ++ [frame]

section

variable {F K : Type}

/-- Step 1: what decodes is pushed, what does not is skipped. -/
def unpackColumns (svc : Services F K) (env : Env) :
    List (List UInt8 × List UInt8) → BulkColumns → Checked ConnectError BulkColumns
  | [], cols => .ok cols
  | (frameBytes, sigBytes) :: rest, cols => do
    match ← decodeSecureFrame svc env frameBytes with
    | some frame => unpackColumns svc env rest (cols.push frame frameBytes sigBytes)
    | none => unpackColumns svc env rest cols

end

/-! ## The request -/

section

variable {F K : Type} [Float64 F] (svc : Services F K) (env : Env)

/-- The answer to a bulk request: the count is of what was handed on, not of what was sent. -/
structure BulkRawResponse where
  processedCount : Nat
  status : String
  deriving DecidableEq, Repr

/-- The reading of step 3, from the frame and the meter id at one index. -/
def columnReading (i : Nat) (meterId : String) (frame : DlmsBinaryFrame) : DeviceReading F :=
  { bulkReading svc i frame with deviceId := meterId, serialNumber := meterId }

/-- Step 3: the answers of the verifier by index. What did not verify is logged and skipped. -/
def processVerified (cols : BulkColumns) (i : Nat) :
    List Bool → Checked ConnectError (List (DeviceReading F))
  | [] => .ok []
  | verified :: rest => do
    let meterId ← index cols.meterIds i
    if verified then do
      let frame ← index cols.frames i
      let readings ← processVerified cols (i + 1) rest
      .ok (columnReading svc i meterId frame :: readings)
    else processVerified cols (i + 1) rest

/-- The `map_err` of step 2. -/
def batchFailed {α : Type} : Checked String α → Checked ConnectError α
  | .ok results => .ok results
  | .error e => .error (.internal ("Batch signature verification failed: " ++ e))
  | .panic => .panic

/-- Step 2: the answers of the verifier, or `true` for everything where verification is off. -/
def verifyColumns (keys : KeyServices K) (times : CallTimes) (reply : Except String Unit)
    (cols : BulkColumns) (cache : PubkeyCache K) :
    Checked ConnectError (List Bool) × PubkeyCache K :=
  if bulkSkipVerifyAllowed env.skipSigVerify env.secureModeEnabled then
    (.ok (List.replicate cols.meterIds.length true), cache)
  else
    let (results, cache) := keys.verifyTelemetrySignatureBatchGiven times reply cols.meterIds
      cols.payloadsForSig cols.signatures cache
    (batchFailed results, cache)

/-- Step 1: the columns of a request. -/
def bulkColumns (payload : List UInt8) (meterCount : Int) : Checked ConnectError BulkColumns := do
  withCapacity meterCount
  let entries ← splitBulkLoop payload 0 []
  unpackColumns svc env entries BulkColumns.empty

/-- `bulk_raw_ingest`: the readings it hands to dissemination and its response, and the cache it
leaves behind. -/
def bulkRawIngestColumns (keys : KeyServices K) (times : CallTimes) (reply : Except String Unit)
    (payload : List UInt8) (meterCount : Int) (cache : PubkeyCache K) :
    Checked ConnectError (List (DeviceReading F) × BulkRawResponse) × PubkeyCache K :=
  match bulkColumns svc env payload meterCount with
  | .ok cols =>
    let (results, cache) := verifyColumns env keys times reply cols cache
    (do
      let results ← results
      let readings ← processVerified svc cols 0 results
      .ok (readings, ⟨readings.length, "success"⟩), cache)
  | .error e => (.error e, cache)
  | .panic => (.panic, cache)

end

end AggregatorBridge
