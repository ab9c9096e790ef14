import AggregatorBridge.Serde
import AggregatorBridge.StreamCipher

/-!
# Stream entries

`Router::disseminate` writes a reading to a stream as a JSON envelope, with the name of an event and
the reading, or with the reading sealed. The zone ingester decodes the envelope (`decode_entry`) to a
text with the name and the reading in the clear, and reads the text as an `Event`. The two live in
different crates, and derived code does the reading and the writing.

`Event` is adjacently tagged: a name under `event_type` and its data under `payload`. A name that
`Event` does not know is `Unknown`, which has no data, so it is one only without a payload.
-/

namespace AggregatorBridge

open Json

variable {F : Type}

/-! ## Names -/

/-- The name of a device type in JSON. -/
def DeviceType.name : DeviceType → String
  | smartMeter => "smart_meter"
  | evCharger => "ev_charger"
  | battery => "battery"

/-- The device type of a name; other names are errors. -/
def DeviceType.ofName (name : String) : Option DeviceType :=
  [smartMeter, evCharger, battery].find? (·.name = name)

theorem DeviceType.ofName_name (t : DeviceType) : ofName t.name = some t := by
  cases t <;> decide

/-- The name of a status in JSON. -/
def EvStatus.name : EvStatus → String
  | available => "available"
  | charging => "charging"
  | suspendedEv => "suspended_ev"
  | suspendedEvse => "suspended_evse"
  | finishing => "finishing"
  | faulted => "faulted"

/-- The status of a name, if it is one. -/
def EvStatus.ofName (name : String) : Option EvStatus :=
  [available, charging, suspendedEv, suspendedEvse, finishing, faulted].find? (·.name = name)

theorem EvStatus.ofName_name (s : EvStatus) : ofName s.name = some s := by
  cases s <;> decide

/-- The name of a mode in JSON. -/
def BatteryMode.name : BatteryMode → String
  | idle => "idle"
  | charging => "charging"
  | discharging => "discharging"

/-- The mode of a name, if it is one. -/
def BatteryMode.ofName (name : String) : Option BatteryMode :=
  [idle, charging, discharging].find? (·.name = name)

theorem BatteryMode.ofName_name (m : BatteryMode) : ofName m.name = some m := by
  cases m <;> decide

/-! ## Metrics -/

namespace DeviceMetrics

/-- The metrics as `serde` writes an internally tagged enumeration: the tag is a member beside the
others. -/
def toJson : DeviceMetrics F → Json F
  | energy generatedKwh consumedKwh netKwh =>
    obj [("type", str "energy"), ("generated_kwh", num (.float generatedKwh)),
      ("consumed_kwh", num (.float consumedKwh)), ("net_kwh", num (.float netKwh))]
  | evSession energyDeliveredKwh sessionId connectorId status =>
    obj [("type", str "ev_session"), ("energy_delivered_kwh", num (.float energyDeliveredKwh)),
      ("session_id", str sessionId), ("connector_id", num (.posInt connectorId)),
      ("status", str status.name)]
  | batteryState socPercent powerKw temperatureC mode =>
    obj [("type", str "battery_state"), ("soc_percent", num (.float socPercent)),
      ("power_kw", num (.float powerKw)), ("temperature_c", num (.float temperatureC)),
      ("mode", str mode.name)]

/-- The doubles of the metrics are finite. -/
def isFinite (finite : F → Bool) : DeviceMetrics F → Bool
  | energy generatedKwh consumedKwh netKwh =>
    finite generatedKwh && finite consumedKwh && finite netKwh
  | evSession energyDeliveredKwh _ _ _ => finite energyDeliveredKwh
  | batteryState socPercent powerKw temperatureC _ =>
    finite socPercent && finite powerKw && finite temperatureC

variable [Float64 F]

/-- The metrics of a meter, from its members. -/
def energyOf : List (Option (Json F)) → Option (DeviceMetrics F)
  | [some generated, some consumed, some net] => do
    some (.energy (← generated.asF64) (← consumed.asF64) (← net.asF64))
  | _ => none

/-- The metrics of a charger, from its members; the connector must be a `u32`. -/
def evSessionOf : List (Option (Json F)) → Option (DeviceMetrics F)
  | [some delivered, some session, some connector, some status] => do
    some (.evSession (← delivered.asF64) (← session.asStr)
      (← connector.asU64.filter (· < 2 ^ 32)) (← status.variantName.bind EvStatus.ofName))
  | _ => none

/-- The metrics of a battery, from its members. -/
def batteryStateOf : List (Option (Json F)) → Option (DeviceMetrics F)
  | [some soc, some power, some temperature, some mode] => do
    some (.batteryState (← soc.asF64) (← power.asF64) (← temperature.asF64)
      (← mode.variantName.bind BatteryMode.ofName))
  | _ => none

/-- The tag says which members there are to be; others are passed over. -/
def fromJson (v : Json F) : Option (DeviceMetrics F) :=
  match tagged "type" v with
  | none => none
  | some (name, rest) =>
    if name = "energy" then
      (fields ["generated_kwh", "consumed_kwh", "net_kwh"] rest).bind energyOf
    else if name = "ev_session" then
      (fields ["energy_delivered_kwh", "session_id", "connector_id", "status"] rest).bind evSessionOf
    else if name = "battery_state" then
      (fields ["soc_percent", "power_kw", "temperature_c", "mode"] rest).bind batteryStateOf
    else none

end DeviceMetrics

/-! ## Readings -/

namespace DeviceReading

variable (json : SerdeJson F)

/-- A reading as it is written to a stream. -/
def toJson (r : DeviceReading F) : Json F :=
  obj [("reading_id", str (json.uuid.display r.readingId)), ("device_id", str r.deviceId),
    ("device_type", str r.deviceType.name), ("serial_number", str r.serialNumber),
    ("zone_code", match r.zoneCode with | some zone => str zone | none => null),
    ("timestamp", str (json.displayTime r.timestamp)), ("metrics", r.metrics.toJson),
    ("metadata", obj r.metadata)]

/-- The members of a reading, in the order of its struct. -/
def fieldNames : List String :=
  ["reading_id", "device_id", "device_type", "serial_number", "zone_code", "timestamp", "metrics",
    "metadata"]

/-- An `Option<String>`, which may be absent. -/
def zoneOf : Option (Json F) → Option (Option String)
  | none => some none
  | some .null => some none
  | some (.str zone) => some (some zone)
  | _ => none

/-- A map of values, by default empty. -/
def metadataOf : Option (Json F) → Option (List (String × Json F))
  | none => some []
  | some (.obj members) => some (lastWins (valueMembers members))
  | _ => none

variable [Float64 F]

/-- A reading from its members; a zone and metadata may be missing. -/
def ofFields : List (Option (Json F)) → Option (DeviceReading F)
  | [some readingId, some deviceId, some deviceType, some serialNumber, zone, some timestamp,
      some metrics, metadata] => do
    some
      { readingId := ← readingId.asStr.bind json.uuid.parseStr
        deviceId := ← deviceId.asStr
        deviceType := ← deviceType.variantName.bind DeviceType.ofName
        serialNumber := ← serialNumber.asStr
        zoneCode := ← zoneOf zone
        timestamp := ← timestamp.asStr.bind json.parseTime
        metrics := ← DeviceMetrics.fromJson metrics
        metadata := ← metadataOf metadata }
  | _ => none

/-- A document is a reading if its members can be read. -/
def fromJson (v : Json F) : Option (DeviceReading F) :=
  (fields fieldNames v).bind (ofFields json)

end DeviceReading

/-! ## Events -/

/-- `Event` of the ingester. -/
inductive StreamEvent (F : Type) where
  | smartMeterReading (reading : DeviceReading F)
  | evCharging (reading : DeviceReading F)
  | batteryStateUpdate (reading : DeviceReading F)
  | orderMatched (data : Json F)
  | orderUpdate (data : Json F)
  | settlementRequested (data : Json F)
  | peakPriceUpdate (data : Json F)
  | triggerExecution (data : Json F)
  | orderCreated (data : Json F)
  | unknown

namespace StreamEvent

/-- The variant that a reading of the device type belongs in. -/
def ofReading (r : DeviceReading F) : StreamEvent F :=
  match r.deviceType with
  | .smartMeter => smartMeterReading r
  | .evCharger => evCharging r
  | .battery => batteryStateUpdate r

/-- The reading that is handed to billing. -/
def reading : StreamEvent F → Option (DeviceReading F)
  | smartMeterReading r => some r
  | evCharging r => some r
  | batteryStateUpdate r => some r
  | _ => none

variable (json : SerdeJson F) [Float64 F]

/-- The event of a name and its content. -/
def ofContent (name : String) (content : Option (Json F)) : Option (StreamEvent F) :=
  if name = "SmartMeterReading" then
    (content.bind (DeviceReading.fromJson json)).map smartMeterReading
  else if name = "EvCharging" then (content.bind (DeviceReading.fromJson json)).map evCharging
  else if name = "BatteryStateUpdate" then
    (content.bind (DeviceReading.fromJson json)).map batteryStateUpdate
  else if name = "OrderMatched" then content.map fun v => orderMatched v.value
  else if name = "OrderUpdate" then content.map fun v => orderUpdate v.value
  else if name = "SettlementRequested" then content.map fun v => settlementRequested v.value
  else if name = "PeakPriceUpdate" then content.map fun v => peakPriceUpdate v.value
  else if name = "TriggerExecution" then content.map fun v => triggerExecution v.value
  else if name = "OrderCreated" then content.map fun v => orderCreated v.value
  else
    match content with
    | none => some unknown
    | some .null => some unknown
    | some _ => none

/-- An event as an object with its tag beside the content, or as an array of the two. -/
def fromJson : Json F → Option (StreamEvent F)
  | .obj members =>
    match single members "event_type" with
    | some (some (.str name)) => (single members "payload").bind (ofContent json name)
    | _ => none
  | .arr [.str name, content] => ofContent json name (some content)
  | _ => none

/-- `serde_json::from_str::<Event>`. -/
def fromStr (text : String) : Option (StreamEvent F) :=
  (json.fromStr text).bind (fromJson json)

end StreamEvent

/-! ## The stream cipher -/

/-- A nonce is 96 bits. -/
abbrev GcmNonce := { bytes : List UInt8 // bytes.length = 12 }

/-- AES-256-GCM, with key, nonce, text and associated data, and base64. -/
structure StreamCrypto where
  base64Encode : List UInt8 → String
  base64Decode : String → Option (List UInt8)
  gcmEncrypt : AesKey → List UInt8 → List UInt8 → List UInt8 → Option (List UInt8)
  gcmDecrypt : AesKey → List UInt8 → List UInt8 → List UInt8 → Option (List UInt8)

namespace StreamCrypto

variable (crypto : StreamCrypto)

/-- `StreamCipher::encrypt`, with the nonce that was drawn. -/
def encrypt (sek : AesKey) (nonce : GcmNonce) (plaintext aad : List UInt8) :
    Option (String × String) :=
  (crypto.gcmEncrypt sek nonce.1 plaintext aad).map fun ct =>
    (crypto.base64Encode nonce.1, crypto.base64Encode ct)

/-- `StreamCipher::decrypt`. -/
def decrypt (sek : AesKey) (nonceB64 ctB64 : String) (aad : List UInt8) : Option (List UInt8) := do
  let nonce ← (crypto.base64Decode (Text.trim nonceB64)).filter (·.length = 12)
  let ct ← crypto.base64Decode (Text.trim ctB64)
  crypto.gcmDecrypt sek nonce ct aad

/-- Decrypting undoes encrypting, and base64 is undone and has no blanks. -/
structure Sound : Prop where
  opens : ∀ sek nonce plaintext aad ct, crypto.gcmEncrypt sek nonce plaintext aad = some ct →
    crypto.gcmDecrypt sek nonce ct aad = some plaintext
  decodes : ∀ bytes, crypto.base64Decode (crypto.base64Encode bytes) = some bytes
  plain : ∀ bytes, ∀ c ∈ (crypto.base64Encode bytes).toList, Text.isWhiteSpace c = false

variable {crypto}

/-- What was sealed under a key is opened under it, whatever the nonce was. -/
theorem Sound.decrypt_encrypt (sound : crypto.Sound) {sek : AesKey} {nonce : GcmNonce}
    {plaintext aad : List UInt8} {nonceB64 ctB64 : String}
    (sealed : crypto.encrypt sek nonce plaintext aad = some (nonceB64, ctB64)) :
    crypto.decrypt sek nonceB64 ctB64 aad = some plaintext := by
  obtain ⟨ct, encrypted, texts⟩ := Option.map_eq_some_iff.mp sealed
  cases texts
  have long : (some nonce.1).filter (·.length = 12) = some nonce.1 := by
    simp [Option.filter, nonce.2]
  simp only [decrypt, Text.trim_of_plain (sound.plain _), sound.decodes, long, Option.bind_eq_bind,
    Option.bind_some, sound.opens _ _ _ _ _ encrypted]

end StreamCrypto

/-! ## Envelopes -/

/-- `event_type_name`: the tag under which a reading of a device type goes to a stream. -/
def eventTypeName : DeviceType → String
  | .smartMeter => "SmartMeterReading"
  | .evCharger => "EvCharging"
  | .battery => "BatteryStateUpdate"

section

variable (json : SerdeJson F) (crypto : StreamCrypto)

/-- The text that `disseminate` writes. With a cipher, encrypting may fail, and nothing is written. -/
def envelope (cipher : Option AesKey) (nonce : GcmNonce) (r : DeviceReading F) : Option String :=
  let eventType := eventTypeName r.deviceType
  match cipher with
  | some sek =>
    (crypto.encrypt sek nonce (json.toVec (r.toJson json)) (Text.utf8 eventType)).map
      fun (nonceB64, ctB64) => json.toString (obj [("event_type", str eventType),
        ("enc", obj [("nonce", str nonceB64), ("ciphertext", str ctB64)])])
  | none =>
    some (json.toString (obj [("event_type", str eventType), ("payload", r.toJson json)]))

/-- A string under a key, or the empty one. -/
def textAt (v : Json F) (key : String) : String :=
  ((v.get key).bind asStr).getD ""

/-- `decode_entry`. -/
def decodeEntry (cipher : Option AesKey) (raw : String) : Option String := do
  let value := (← json.fromStr raw).value
  match value.get "enc" with
  | none => some raw
  | some enc =>
    let sek ← cipher
    let eventType := textAt value "event_type"
    let plaintext ← crypto.decrypt sek (textAt enc "nonce") (textAt enc "ciphertext")
      (Text.utf8 eventType)
    let payload ← json.fromSlice plaintext
    some (json.toString (obj [("event_type", str eventType), ("payload", payload.value)]))

end

/-! ## A deployment without a key -/

/-- Base64 as letters, and a cipher that a deployment without a key does not use. -/
def idleCrypto : StreamCrypto where
  base64Encode bytes := String.ofList (bytes.map Text.letter)
  base64Decode text := some (text.toList.map Text.byteOf)
  gcmEncrypt _ _ plaintext _ := some plaintext
  gcmDecrypt _ _ ciphertext _ := some ciphertext

/-- There is a cipher of which the laws can be used. -/
theorem idleCrypto_sound : idleCrypto.Sound where
  opens _ _ _ _ _ encrypted := encrypted.symm
  decodes bytes := by
    show some ((String.ofList (bytes.map Text.letter)).toList.map Text.byteOf) = some bytes
    rw [String.toList_ofList, Text.map_byteOf_letter]
  plain bytes c mem := by
    have letters : c ∈ (String.ofList (bytes.map Text.letter)).toList := mem
    rw [String.toList_ofList] at letters
    obtain ⟨b, -, rfl⟩ := List.mem_map.mp letters
    exact Text.isWhiteSpace_letter b

end AggregatorBridge
