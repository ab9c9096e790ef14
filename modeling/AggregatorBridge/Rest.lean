import AggregatorBridge.Crypto
import AggregatorBridge.Dlms
import AggregatorBridge.IngestPolicy
import AggregatorBridge.Lib.Text

/-!
# REST ingest

The handlers behind the four REST ingest routes. A handler answers with a status and a body;
what the rest of the system sees of a request is the readings handed to `router.disseminate`,
so a handler here returns both. The gate is not shared: `ingest_private_network`, its batch
sibling and `ingest_legacy_batch` each decide for themselves what they enforce, and each is
written out as it stands.

The body of a request is the decoded JSON. Serializing it again, base64, AES-GCM, the key
stores, the replay counter, the clock and random identifiers are fields of `RestServices`.
-/

namespace AggregatorBridge

/-- What a REST handler reaches outside itself while it answers one request. -/
structure RestServices (F K : Type) where
  verifier : SignatureVerifier K
  toVec : Json F → List UInt8
  rfc3339 : DlmsStack.Rfc3339
  now : DateTime
  /-- `Uuid::new_v4`, for the reading at this position of the request. -/
  newV4 : Nat → Uuid
  disseminate : DeviceReading F → Bool
  base64Decode : String → Option (List UInt8)
  /-- `get_device_aes_key_versioned` under a key version, `get_device_aes_key` under none. -/
  getDeviceAesKey : String → Option Int → Except String (Option (List UInt8))
  /-- AES-256-GCM: key, nonce, ciphertext, associated data. -/
  gcmDecrypt : List UInt8 → List UInt8 → List UInt8 → List UInt8 → Option (List UInt8)
  /-- `check_and_bump_counter`: `false` for a counter that does not increase. -/
  checkAndBumpCounter : String → Int → Except String Bool
  fromSlice : List UInt8 → Except String (Json F)

/-- The statuses that the handlers answer with. -/
inductive StatusCode where
  | ok
  | accepted
  | badRequest
  | unauthorized
  | forbidden
  | conflict
  | upgradeRequired
  | internalServerError
  deriving DecidableEq, Repr

/-- What is said of one reading that was accepted or refused. -/
structure IngestResponse where
  status : String
  readingId : Uuid
  deviceType : DeviceType
  stream : String
  deriving DecidableEq, Repr

/-- The bodies of the answers, by shape; all are JSON. -/
inductive ResponseBody where
  | error (message : String)
  | processed (message : String)
  | entry (response : IngestResponse)
  | entries (responses : List IngestResponse)
  deriving DecidableEq, Repr

/-- A reading that was handed to `router.disseminate`, with the payload it was read from. -/
structure Disseminated (F : Type) where
  payload : Json F
  reading : DeviceReading F

/-- An answer, with what was disseminated before it was given. -/
structure RestAnswer (F : Type) where
  status : StatusCode
  body : ResponseBody
  disseminated : List (Disseminated F)

section

variable {F K : Type} [Float64 F]

/-- An answer that disseminates nothing. -/
def refuse (status : StatusCode) (message : String) : RestAnswer F :=
  ⟨status, .error message, []⟩

/-! ## The gate -/

/-- `str::to_lowercase` on ASCII letters. No other letter lowercases into one of the protocol
names compared below, so a name outside ASCII is unsupported either way. -/
def lowercase (text : String) : String :=
  String.ofList (text.toList.map Char.toLower)

/-- `resolve_protocol`: empty and `auto` mean `dlms`. -/
def resolveProtocol (raw : String) : String :=
  let p := lowercase raw
  if p = "" ∨ p = "auto" then "dlms" else p

/-- The two protocols there is a decoder for, in lower case. -/
def isSupportedProtocol (resolved : String) : Bool :=
  resolved == "dlms" || resolved == "simulator"

/-- In secure mode nothing passes but what came encrypted. -/
def secureModeGate (secureMode wasEncrypted : Bool) : Option StatusCode :=
  if secureMode && !wasEncrypted then some .upgradeRequired else none

/-- `sig_failure_status`: forged is 403, uncheckable is 401, both suppressed by the hatch. -/
def sigFailureStatus (verified : Except String Bool) (enforcementDisabled : Bool) :
    Option StatusCode :=
  if enforcementDisabled then none
  else
    match verified with
    | .ok true => none
    | .ok false => some .forbidden
    | .error _ => some .unauthorized

/-! ## What a REST meter signs -/

/-- A number under a key, also one spelled as a string. -/
def signNumber (payload : Json F) (key : String) : Option F :=
  (payload.get key).bind fun v =>
    match v.asF64 with
    | some x => some x
    | none => v.asStr.bind Float64.parse

/-- A watt-hour register in kilowatt-hours. -/
def toKwh (wh : F) : F :=
  Float64.div wh (Float64.ofInt 1000)

/-- The number `canonical_sign_value` prints: the first of `kwh`, `energy_consumed`,
`energy_generated`, OBIS import and OBIS export that is one, else zero. -/
def signValue (payload : Json F) : F :=
  ((signNumber payload "kwh").or
    ((signNumber payload "energy_consumed").or
      ((signNumber payload "energy_generated").or
        (((signNumber payload "1.1.1.8.0.255").map toKwh).or
          ((signNumber payload "1.1.2.8.0.255").map toKwh))))).getD (Float64.ofInt 0)

/-- The number of a payload in the text that its sender has signed. -/
def canonicalSignValue (payload : Json F) : String :=
  Float64.display (signValue payload)

variable (svc : RestServices F K)

/-- The timestamp of the signed message: zero when the payload carries none that parses. -/
def signTimestampMs (payload : Json F) : Int :=
  let timestampStr := ((payload.get "timestamp").bind Json.asStr).getD ""
  match svc.rfc3339.parse timestampStr with
  | some t => t.timestampMillis
  | none => 0

/-- `rest_sign_candidates`: milliseconds, seconds (truncated towards zero), the object without
its signature. -/
def restSignCandidates (deviceId kwh : String) (timestampMs : Int) (payload : Json F) :
    List (List UInt8) :=
  let message (ts : Int) := Text.utf8 (deviceId ++ ":" ++ kwh ++ ":" ++ toString ts)
  [message timestampMs, message (Int.tdiv timestampMs 1000)] ++
    match payload with
    | .obj members => [svc.toVec (.obj (members.filter fun m => m.1 ≠ "signature"))]
    | _ => []

/-- `verify_rest_signature`: the first candidate that verifies is enough, a verifier error is
final. -/
def verifyRestSignature (deviceId signature : String) :
    List (List UInt8) → Except String Bool
  | [] => .ok false
  | target :: rest =>
    match svc.verifier.verifyTelemetrySignature deviceId target signature with
    | .ok true => .ok true
    | .ok false => verifyRestSignature deviceId signature rest
    | .error e => .error e

/-- The signature a payload carries, checked over the messages it may have signed. -/
def verifyPayload (deviceId : String) (payload : Json F) : Except String Bool :=
  let signature := ((payload.get "signature").bind Json.asStr).getD ""
  verifyRestSignature svc deviceId signature
    (restSignCandidates svc deviceId (canonicalSignValue payload) (signTimestampMs svc payload)
      payload)

/-! ## Encrypted frames -/

/-- Outcome of decrypting a `dlms-enc` envelope. -/
inductive DecryptOutcome (F : Type) where
  | ok (inner : Json F)
  | replay
  | bad (reason : String)

/-- `decrypt_dlms_envelope`: authenticate first, and let only an authenticated frame advance
the replay counter. -/
def decryptDlmsEnvelope (deviceId : String) (payload : Json F) : DecryptOutcome F :=
  match payload.get "enc" with
  | none => .bad "missing 'enc' envelope"
  | some enc =>
    match (enc.get "counter").bind Json.asI64 with
    | none => .bad "missing/invalid counter"
    | some counter =>
      let kid := (enc.get "kid").bind Json.asI64
      let nonceB64 := ((enc.get "nonce").bind Json.asStr).getD ""
      let ctB64 := ((enc.get "ciphertext").bind Json.asStr).getD ""
      match (svc.base64Decode nonceB64).filter (·.length = 12) with
      | none => .bad "nonce must be 12 bytes base64"
      | some nonce =>
        match svc.base64Decode ctB64 with
        | none => .bad "ciphertext not base64"
        | some ct =>
          match svc.getDeviceAesKey deviceId kid with
          | .error e => .bad ("key lookup failed: " ++ e)
          | .ok none =>
            match kid with
            | some v => .bad ("no AES key v" ++ toString v ++ " for " ++ deviceId)
            | none => .bad ("no AES key for " ++ deviceId)
          | .ok (some key) =>
            let aad := Text.utf8 (deviceId ++ ":" ++ toString counter)
            match svc.gcmDecrypt key nonce ct aad with
            | none => .bad "GCM auth/decrypt failed"
            | some plaintext =>
              match svc.checkAndBumpCounter deviceId counter with
              | .error e => .bad ("counter check failed: " ++ e)
              | .ok false => .replay
              | .ok true =>
                match svc.fromSlice plaintext with
                | .error e => .bad ("decrypted payload not JSON: " ++ e)
                | .ok inner => .ok inner

/-! ## Readings -/

/-- The display value of a reading, used for the net energy of simulator readings only. -/
def displayKwh (payload : Json F) : String :=
  let kwh := (payload.get "kwh").bind fun v =>
    match v.asF64 with
    | some x => some x
    | none => v.asStr.bind Float64.parse
  let value := (kwh.or ((payload.get "energy_consumed").bind Json.asF64)).or
    ((payload.get "energy_generated").bind Json.asF64)
  Float64.display (value.getD (Float64.ofInt 0))

/-- A number under a key, or a default. -/
def numberAt (payload : Json F) (key : String) (default : F) : F :=
  ((payload.get key).bind Json.asF64).getD default

/-- The time a handler reads off a payload, or the arrival time. -/
def handlerTime (payload : Json F) : DateTime :=
  (svc.rfc3339.parse (((payload.get "timestamp").bind Json.asStr).getD "")).getD svc.now

/-- The reading of a `simulator` payload, which bypasses the DLMS stack. -/
def simulatorReading (position : Nat) (deviceId : String) (payload : Json F) :
    DeviceReading F where
  readingId := svc.newV4 position
  deviceId := deviceId
  deviceType := .smartMeter
  serialNumber := deviceId
  zoneCode := (payload.get "zone_code").bind Json.asStr
  timestamp := handlerTime svc payload
  metrics := .energy (numberAt payload "energy_generated" (Float64.ofInt 0))
    (numberAt payload "energy_consumed" (Float64.ofInt 0))
    ((Float64.parse (displayKwh payload)).getD (Float64.ofInt 0))
  metadata := payload.asObject.getD []

/-- The entry a disseminated reading gets in an answer. -/
def responseOf (reading : DeviceReading F) (status : String) : IngestResponse :=
  ⟨status, reading.readingId, reading.deviceType, reading.deviceType.targetStream⟩

/-- The answer follows the stream: what no stream took is not accepted. -/
def disseminateReading (d : Disseminated F) : RestAnswer F :=
  if svc.disseminate d.reading then
    ⟨.accepted, .entry (responseOf d.reading "accepted"), [d]⟩
  else ⟨.internalServerError, .error "Failed to disseminate reading", [d]⟩

/-- The answer to a list of readings, disseminated one by one. -/
def disseminateAll (ds : List (Disseminated F)) : RestAnswer F :=
  let status (d : Disseminated F) := if svc.disseminate d.reading then "accepted" else "failed"
  ⟨.ok, .entries (ds.map fun d => responseOf d.reading (status d)), ds⟩

/-! ## The single route -/

/-- The body of `/v1/private-network/ingest`. -/
structure PrivateNetworkPayload (F : Type) where
  protocol : String
  deviceId : String
  payload : Json F

variable (env : Env)

/-- The reading of a payload whose gate has been passed. -/
def readAndDisseminate (protocol deviceId : String) (payload : Json F) : RestAnswer F :=
  if protocol = "simulator" then
    disseminateReading svc ⟨payload, simulatorReading svc 0 deviceId payload⟩
  else
    match DlmsStack.handleMessage svc.rfc3339 svc.now (svc.newV4 0) deviceId payload with
    | .ok reading => disseminateReading svc ⟨payload, reading⟩
    | .error e => refuse .badRequest ("Protocol error: " ++ e)

/-- `ingest_private_network` from the recovered payload on. -/
def ingestRecovered (wasEncrypted : Bool) (protocol deviceId : String) (payload : Json F) :
    RestAnswer F :=
  match secureModeGate env.secureModeEnabled wasEncrypted with
  | some code => refuse code "secure mode requires an encrypted dlms-enc frame"
  | none =>
    let protocol := resolveProtocol protocol
    if isSupportedProtocol protocol then
      if protocol = "simulator" ∧ env.simulatorBypassAllowed = true then
        readAndDisseminate svc protocol deviceId payload
      else
        let result := verifyPayload svc deviceId payload
        match sigFailureStatus result env.signatureEnforcementDisabled with
        | some code =>
          match result with
          | .error e => refuse code ("Verification failed: " ++ e)
          | .ok _ => refuse code "Invalid Ed25519 signature"
        | none => readAndDisseminate svc protocol deviceId payload
    else refuse .badRequest ("Unsupported protocol: " ++ protocol)

/-- `ingest_private_network`: an encrypted frame is opened first and goes on as `dlms`. -/
def ingestPrivateNetwork (req : PrivateNetworkPayload F) : RestAnswer F :=
  if lowercase req.protocol = "dlms-enc" then
    match decryptDlmsEnvelope svc req.deviceId req.payload with
    | .ok inner => ingestRecovered svc env true "dlms" req.deviceId inner
    | .replay => refuse .conflict "replayed invocation counter"
    | .bad e => refuse .badRequest ("decrypt failed: " ++ e)
  else ingestRecovered svc env false req.protocol req.deviceId req.payload

/-! ## The batch route -/

/-- The body of `/v1/private-network/ingest/batch`. -/
structure BatchPrivateNetworkPayload (F : Type) where
  protocol : String
  readings : List (Json F)

/-- The device a batch item names. The first key that is present decides, even when its value
is not a string. -/
def batchDeviceId (item : Json F) : String :=
  (((item.get "device_id").or ((item.get "meter_id").or (item.get "meter_serial"))).bind
    Json.asStr).getD "unknown"

/-- The signature decision of a batch item. -/
def batchVerified (protocol deviceId : String) (item : Json F) : Bool :=
  if protocol = "simulator" ∧ env.simulatorBypassAllowed = true then true
  else
    match verifyPayload svc deviceId item with
    | .ok verified => verified
    | .error _ => false

/-- One item of the batch: its reading, or `none` when it is skipped. -/
def batchItem (protocol : String) (position : Nat) (item : Json F) : Option (Disseminated F) :=
  let deviceId := batchDeviceId item
  if !batchVerified svc env protocol deviceId item && !env.signatureEnforcementDisabled then none
  else if protocol = "simulator" then
    some ⟨item, simulatorReading svc position deviceId item⟩
  else
    match DlmsStack.handleMessage svc.rfc3339 svc.now (svc.newV4 position) deviceId item with
    | .ok reading => some ⟨item, reading⟩
    | .error _ => none

/-- The handler of a batch. The gate is asked once, as none of its items is encrypted, and then each
item fares by itself. -/
def ingestPrivateNetworkBatch (req : BatchPrivateNetworkPayload F) : RestAnswer F :=
  match secureModeGate env.secureModeEnabled false with
  | some code => refuse code "secure mode: encrypted single-frame REST ingest only"
  | none =>
    let topProtocol := lowercase req.protocol
    if topProtocol = "" ∨ topProtocol = "auto" ∨ isSupportedProtocol topProtocol = true then
      disseminateAll svc <| req.readings.zipIdx.filterMap fun (item, i) =>
        batchItem svc env (resolveProtocol topProtocol) i item
    else refuse .badRequest ("Unsupported protocol: " ++ topProtocol)

/-! ## The legacy routes -/

/-- The older clients name a device in one of two ways, or not at all. -/
def legacyDeviceId (item : Json F) : String :=
  (((item.get "meter_serial").or (item.get "meter_id")).bind Json.asStr).getD "unknown"

/-- The reading of an item of the older clients. What they call `kwh` is the net energy, and the
generated energy too unless that is said by itself. -/
def legacyReading (position : Nat) (item : Json F) : DeviceReading F :=
  let kwh := numberAt item "kwh" (Float64.ofInt 0)
  { readingId := svc.newV4 position
    deviceId := legacyDeviceId item
    deviceType := .smartMeter
    serialNumber := legacyDeviceId item
    zoneCode := (item.get "zone_code").bind Json.asStr
    timestamp := handlerTime svc item
    metrics := .energy (numberAt item "energy_generated" kwh)
      (numberAt item "energy_consumed" (Float64.ofInt 0)) kwh
    metadata := item.asObject.getD [] }

/-- `ingest_legacy_batch`. It reads neither the environment nor a signature. -/
def ingestLegacyBatch (body : Json F) : RestAnswer F :=
  match (body.get "readings").bind Json.asArray with
  | none => refuse .badRequest "Missing readings array"
  | some readings => disseminateAll svc <| readings.zipIdx.map fun (item, i) =>
      ⟨item, legacyReading svc i item⟩

/-! ## The routes -/

/-- A request on one of the REST ingest routes, with its decoded body. -/
inductive RestRequest (F : Type) where
  /-- `POST /v1/private-network/ingest`. -/
  | privateNetwork (body : PrivateNetworkPayload F)
  /-- `POST /v1/private-network/ingest/batch`. -/
  | privateNetworkBatch (body : BatchPrivateNetworkPayload F)
  /-- `POST /v1/ingest/telemetry`. -/
  | telemetry (body : Json F)
  /-- `POST /v1/ingest/telemetry/batch`. -/
  | telemetryBatch (body : Json F)

/-- The route table of `main`. -/
def handleRest : RestRequest F → RestAnswer F
  | .privateNetwork body => ingestPrivateNetwork svc env body
  | .privateNetworkBatch body => ingestPrivateNetworkBatch svc env body
  | .telemetry body => ingestLegacyBatch svc body
  | .telemetryBatch body => ingestLegacyBatch svc body

end

end AggregatorBridge
