import AggregatorBridge.BinaryDecoder
import AggregatorBridge.Crypto
import AggregatorBridge.IngestPolicy
import AggregatorBridge.Lib.Text
import AggregatorBridge.Models

/-!
# gRPC ingest

The three methods of `OracleService`: `ingest`, `ingest_batch` and `bulk_raw_ingest`, with the
secure-frame path they share. What a method lets the rest of the system see is the readings
it hands to `router.disseminate`, so those are part of every result here, next to the
response; a method can also end in a `ConnectError` or, through the frame decoder, in a
panic.

Random identifiers (`Uuid::new_v4`) come from the outside and are a field of `Services`, as
are the clock, the key store and the answer of the stream. Log lines, metrics and the Kafka
copy of an accepted reading are left out: nothing reads them back.
-/

namespace AggregatorBridge

open Checked

/-- An AES-256 key. -/
abbrev AesKey := { key : List UInt8 // key.length = 32 }

/-- A `ConnectError`, by code. -/
inductive ConnectError where
  | invalidArgument (message : String)
  | permissionDenied (message : String)
  | unauthenticated (message : String)
  | internal (message : String)
  deriving DecidableEq, Repr

/-- What the service reaches outside itself while it answers one request. -/
structure Services (F K : Type) where
  crypto : FrameCrypto
  verifier : SignatureVerifier K
  getDeviceAesKey : String → Except String (Option AesKey)
  now : DateTime
  parseUuid : String → Option Uuid
  /-- `Uuid::new_v4`, for the reading at this position of the request. -/
  newV4 : Nat → Uuid
  disseminate : DeviceReading F → Bool

section

variable {F K : Type} [Float64 F] (svc : Services F K) (env : Env)

/-! ## The secure-frame path -/

/-- `apply_dlms_key_policy`: decrypt under the device key; without one, reject in production,
read plaintext only where that is allowed, and otherwise skip the frame. -/
def applyDlmsKeyPolicy (frameBytes : List UInt8) (key : Option AesKey)
    (isProduction allowPlaintext : Bool) : Checked ConnectError (Option DlmsBinaryFrame) :=
  match key with
  | some k => (DlmsBinaryFrame.parse svc.crypto frameBytes (some k.1)).caught
  | none =>
    if isProduction then .ok none
    else if allowPlaintext then (DlmsBinaryFrame.parse svc.crypto frameBytes none).caught
    else .ok none

/-- `decode_secure_frame`: the plaintext header names the device, its key decrypts the frame.
`none` when the frame could not be decoded securely. -/
def decodeSecureFrame (frameBytes : List UInt8) :
    Checked ConnectError (Option DlmsBinaryFrame) := do
  match ← (DlmsBinaryFrame.parseHeader svc.crypto frameBytes).caught with
  | none => .ok none
  | some header =>
    let allowPlaintext := plaintextDlmsAllowed env.allowPlaintextDlms env.secureModeEnabled
    match svc.getDeviceAesKey header.logicalDeviceName with
    | .error _ => .ok none
    | .ok key => applyDlmsKeyPolicy svc frameBytes key env.isProduction allowPlaintext

/-! ## Bulk raw ingest -/

/-- `split_bulk_frames`, from `cursor` on: `[len: 1][frame: len][signature: 64]` entries, up
to the first one that runs past the buffer. -/
def splitBulkFrames (payload : List UInt8) (cursor : Nat) : List (List UInt8 × List UInt8) :=
  if more : cursor < payload.length then
    let frameLen := (payload.getD cursor 0).toNat
    if cursor + 1 + frameLen + 64 ≤ payload.length then
      ((payload.drop (cursor + 1)).take frameLen,
        (payload.drop (cursor + 1 + frameLen)).take 64) ::
          splitBulkFrames payload (cursor + 1 + frameLen + 64)
    else []
  else []
  termination_by payload.length - cursor

/-- A decoded bulk entry with the bytes its signature is over. -/
structure BulkEntry where
  frame : DlmsBinaryFrame
  frameBytes : List UInt8
  signature : List UInt8

/-- The unpack loop: every entry that decodes is kept, in order. -/
def unpackBulk : List (List UInt8 × List UInt8) → Checked ConnectError (List BulkEntry)
  | [] => .ok []
  | (frameBytes, signature) :: rest => do
    match ← decodeSecureFrame svc env frameBytes with
    | none => unpackBulk rest
    | some frame => do
      let kept ← unpackBulk rest
      .ok (⟨frame, frameBytes, signature⟩ :: kept)

/-- `Vec::with_capacity(count as usize)` of a 32-bit count: a negative one is cast to more
bytes than an allocation may have. -/
def withCapacity (count : Int) : Checked ConnectError Unit :=
  if 0 ≤ count then .ok () else .panic

/-- A watt-hour register in kilowatt-hours. -/
def kwhOfWh (wh : Nat) : F :=
  Float64.div (Float64.ofInt wh) (Float64.ofInt 1000)

/-- A register scaled by `unit` as a metadata entry, when the frame carries it. -/
def registerEntry (name : String) (unit : Int) : Option Nat → List (String × Json F)
  | some value => [(name, .num (.float (Float64.div (Float64.ofInt value) (Float64.ofInt unit))))]
  | none => []

/-- The registers a decoded frame adds to a reading's metadata. -/
def frameRegisters (frame : DlmsBinaryFrame) : List (String × Json F) :=
  registerEntry "voltage_v" 100 frame.voltageCv ++
    registerEntry "current_a" 1000 frame.currentMa ++
    registerEntry "battery_level_pct" 100 frame.batterySocBps ++
    [("dlms_manufacturer_id", .str frame.manufacturerId)]

/-- The reading of a verified bulk frame: everything in it comes from the frame. -/
def bulkReading (position : Nat) (frame : DlmsBinaryFrame) : DeviceReading F :=
  let generated : F := kwhOfWh (frame.activeEnergyExportWh.getD 0)
  let consumed : F := kwhOfWh (frame.activeEnergyImportWh.getD 0)
  { readingId := svc.newV4 position
    deviceId := frame.logicalDeviceName
    deviceType := .smartMeter
    serialNumber := frame.logicalDeviceName
    zoneCode := none
    timestamp := frame.timestamp
    metrics := .energy generated consumed (Float64.sub generated consumed)
    metadata := frameRegisters frame ++ [("ingest_mode", .str "bulk_raw")] }

/-- The readings of the entries that verified, in order. -/
def bulkReadings (verified : List (BulkEntry × Bool)) : List (DeviceReading F) :=
  verified.zipIdx.filterMap fun (entry, i) =>
    if entry.2 then some (bulkReading svc i entry.1.frame) else none

/-- `bulk_raw_ingest`: the readings it disseminates. -/
def bulkRawIngest (payload : List UInt8) (meterCount : Int) :
    Checked ConnectError (List (DeviceReading F)) := do
  withCapacity meterCount
  let entries ← unpackBulk svc env (splitBulkFrames payload 0)
  if bulkSkipVerifyAllowed env.skipSigVerify env.secureModeEnabled then
    .ok (bulkReadings svc (entries.map fun e => (e, true)))
  else
    let batch := entries.map fun e => (e.frame.logicalDeviceName, e.frameBytes, e.signature)
    match svc.verifier.verifyTelemetrySignatureBatch batch with
    | .error e => .error (.internal ("Batch signature verification failed: " ++ e))
    | .ok results => .ok (bulkReadings svc (entries.zip results))

/-! ## Signed readings -/

/-- The fields of the wire message `MeterReading` that the service reads. -/
structure MeterReading where
  readingId : String
  meterId : String
  meterSerial : String
  zoneCode : Option String
  kwh : String
  energyGenerated : Option String
  energyConsumed : Option String
  timestamp : Int
  rawPayload : List UInt8
  signature : Option String

/-- `grpc_sign_target`: the canonical text a meter signs. -/
def grpcSignTarget (meterId kwh : String) (timestamp : Int) : String :=
  meterId ++ ":" ++ kwh ++ ":" ++ toString timestamp

/-- The bytes of the canonical text of a request. -/
def MeterReading.signedBytes (req : MeterReading) : List UInt8 :=
  Text.utf8 (grpcSignTarget req.meterId req.kwh req.timestamp)

/-- Candidates are tried in order: the first that verifies is enough, a verifier error is
final, a mismatch falls through to the next one. -/
def verifyAny (meterId signature : String) : List (List UInt8) → Except String Bool
  | [] => .ok false
  | target :: rest =>
    match svc.verifier.verifyTelemetrySignature meterId target signature with
    | .ok true => .ok true
    | .ok false => verifyAny meterId signature rest
    | .error e => .error e

/-- The signature gate of `ingest`: the canonical text, then the raw binary payload. -/
def ingestGate (req : MeterReading) : Checked ConnectError Bool :=
  match req.signature with
  | some signature =>
    let raw := if req.rawPayload.isEmpty then [] else [req.rawPayload]
    match verifyAny svc req.meterId signature (req.signedBytes :: raw) with
    | .ok true => .ok true
    | .ok false => .error (.permissionDenied "UTT-H Signature Verification Failed")
    | .error _ => .error (.unauthenticated "UTT-H signature verification unavailable")
  | none =>
    if env.signatureEnforcementDisabled then .ok false
    else .error (.invalidArgument "Signature required")

/-- The signature gate of one `ingest_batch` item: the canonical text only, and `none` for a
rejected item. -/
def batchGate (req : MeterReading) : Option Bool :=
  match req.signature with
  | some signature =>
    match svc.verifier.verifyTelemetrySignature req.meterId req.signedBytes signature with
    | .ok true => some true
    | _ => none
  | none => if env.signatureEnforcementDisabled then some false else none

/-- A decimal field of the request: absent or unparseable counts as zero. -/
def fieldKwh (field : Option String) : F :=
  (field.bind Float64.parse).getD (Float64.ofInt 0)

/-- An energy of the reading: the register of the decoded frame when it carries one, else the
field of the request. -/
def billedKwh (register : Option Nat) (field : Option String) : F :=
  match register with
  | some wh => kwhOfWh wh
  | none => fieldKwh field

/-- The time of the reading: the frame's when there is a frame, else the request's, else the
time of arrival. -/
def billedTime (frame : Option DlmsBinaryFrame) (timestamp : Int) : DateTime :=
  match frame with
  | some frame => frame.timestamp
  | none => (DateTime.timestampOpt timestamp).getD svc.now

/-- The frame a request carries: decoded when there are raw bytes and they decode. -/
def requestFrame (req : MeterReading) : Checked ConnectError (Option DlmsBinaryFrame) :=
  if req.rawPayload.isEmpty then .ok none else decodeSecureFrame svc env req.rawPayload

/-- The reading of a request, given its decoded frame and the metadata it contributes. -/
def requestReading (position : Nat) (req : MeterReading) (frame : Option DlmsBinaryFrame)
    (metadata : List (String × Json F)) : DeviceReading F :=
  let generated : F := billedKwh (frame.bind (·.activeEnergyExportWh)) req.energyGenerated
  let consumed : F := billedKwh (frame.bind (·.activeEnergyImportWh)) req.energyConsumed
  { readingId := (svc.parseUuid req.readingId).getD (svc.newV4 position)
    deviceId := req.meterId
    deviceType := .smartMeter
    serialNumber := req.meterSerial
    zoneCode := req.zoneCode
    timestamp := billedTime svc frame req.timestamp
    metrics := .energy generated consumed
      ((Float64.parse req.kwh).getD (Float64.sub generated consumed))
    metadata := metadata }

/-- `ingest`: the reading it disseminated, and whether its signature was verified. -/
def ingest (req : MeterReading) : Checked ConnectError (DeviceReading F × Bool) := do
  let sigVerified ← ingestGate svc env req
  let frame ← requestFrame svc env req
  let reading := requestReading svc 0 req frame ((frame.map frameRegisters).getD [])
  if svc.disseminate reading then .ok (reading, sigVerified)
  else .error (.internal "Platform dissemination failed")

/-- One item of `ingest_batch`: the reading it disseminated, or `none` when the item was
rejected. A batch keeps only the manufacturer of a frame. -/
def ingestBatchItem (position : Nat) (req : MeterReading) :
    Checked ConnectError (Option (DeviceReading F × Bool)) :=
  match batchGate svc env req with
  | none => .ok none
  | some sigVerified => do
    let frame ← requestFrame svc env req
    let manufacturer (f : DlmsBinaryFrame) : List (String × Json F) :=
      [("dlms_manufacturer_id", .str f.manufacturerId)]
    let reading := requestReading svc position req frame ((frame.map manufacturer).getD [])
    if svc.disseminate reading then .ok (some (reading, sigVerified)) else .ok none

/-- The answer to a batch: rejected items do not fail it. -/
structure MeterReadingBatchResponse where
  status : String
  acceptedCount : Nat
  rejectedCount : Nat
  deriving DecidableEq, Repr

/-- The loop of `ingest_batch` from one position on. -/
def ingestBatchFrom (position : Nat) :
    List MeterReading → Checked ConnectError (List (Option (DeviceReading F × Bool)))
  | [] => .ok []
  | req :: rest => do
    let item ← ingestBatchItem svc env position req
    let items ← ingestBatchFrom (position + 1) rest
    .ok (item :: items)

/-- `ingest_batch`: the disseminated readings and the response. -/
def ingestBatch (readings : List MeterReading) :
    Checked ConnectError (List (DeviceReading F × Bool) × MeterReadingBatchResponse) := do
  let items ← ingestBatchFrom svc env 0 readings
  let accepted := items.filterMap id
  let rejectedCount := items.length - accepted.length
  .ok (accepted,
    { status := if rejectedCount = 0 then "all_accepted" else "partially_accepted"
      acceptedCount := accepted.length
      rejectedCount := rejectedCount })

end

end AggregatorBridge
