import AggregatorBridge.Grpc
import AggregatorBridge.JsonText
import AggregatorBridge.StreamEnvelope

/-!
# What is disseminated can be decoded

The envelope of a reading decodes to the event of its device type with that reading in it, sealed or
not, if and only if the doubles of its metrics are finite. A double that is not is written as `null`,
which no reader of a double takes, and the entry is JSON that is no event.

Nothing before the stream keeps such doubles out: `str::parse` reads `NaN` and `inf`, so a signed
request is enough.

The text of a document is taken to be read back as it was written. Nothing is said here of a reading
that is nested deeper than `serde_json` reads; `Legible` keeps that out where it matters.
-/

namespace AggregatorBridge

open Json

variable {F : Type} {json : SerdeJson F} {crypto : StreamCrypto}

/-! ## Metrics -/

namespace DeviceMetrics

variable (finite : F → Bool)

/-- The connector is a `u32`. -/
def Typed : DeviceMetrics F → Prop
  | evSession _ _ connectorId _ => connectorId < 2 ^ 32
  | _ => True

theorem isValue_written {m : DeviceMetrics F} (typed : m.Typed) :
    (m.toJson.written finite).IsValue finite := by
  cases m with
  | energy generated consumed net =>
    simp only [toJson, written_obj, writtenMembers, written_str]
    refine .obj (by simp) ?_
    simp only [List.forall_mem_cons]
    exact ⟨.str _, .float _, .float _, .float _, nofun⟩
  | evSession delivered session connector status =>
    simp only [toJson, written_obj, writtenMembers, written_str, written_posInt]
    refine .obj (by simp) ?_
    simp only [List.forall_mem_cons]
    exact ⟨.str _, .float _, .str _, .posInt (lt_trans typed (by decide)), .str _, nofun⟩
  | batteryState soc power temperature mode =>
    simp only [toJson, written_obj, writtenMembers, written_str]
    refine .obj (by simp) ?_
    simp only [List.forall_mem_cons]
    exact ⟨.str _, .float _, .float _, .float _, .str _, nofun⟩

theorem fits_toJson {m : DeviceMetrics F} (typed : m.Typed) : m.toJson.fits = true := by
  cases m with
  | energy _ _ _ => rfl
  | evSession _ _ connector _ =>
    have small : connector < 2 ^ 64 := lt_trans typed (by decide)
    simpa [toJson, fits, fitsMembers] using small
  | batteryState _ _ _ _ => rfl

theorem fromJson_written [Float64 F] {m : DeviceMetrics F} (typed : m.Typed) :
    fromJson (m.toJson.written finite) = if m.isFinite finite then some m else none := by
  cases m with
  | energy generated consumed net =>
    simp [toJson, written_obj, writtenMembers, written_str, fromJson, tagged, single, fields,
      energyOf, asF64_written_float, isFinite]
    cases finite generated <;> cases finite consumed <;> cases finite net <;> rfl
  | evSession delivered session connector status =>
    have small : connector < 4294967296 := typed
    simp [toJson, written_obj, writtenMembers, written_str, written_posInt, fromJson, tagged, single,
      fields, evSessionOf, asF64_written_float, isFinite, asStr, asU64, JsonNumber.asU64,
      Option.filter, small, variantName, EvStatus.ofName_name]
    by_cases ok : finite delivered = true <;> simp [ok]
  | batteryState soc power temperature mode =>
    simp [toJson, written_obj, writtenMembers, written_str, fromJson, tagged, single, fields,
      batteryStateOf, asF64_written_float, isFinite, variantName, BatteryMode.ofName_name]
    cases finite soc <;> cases finite power <;> cases finite temperature <;> rfl

end DeviceMetrics

/-! ## Readings -/

namespace DeviceReading

/-- What the types of the source say of a reading: its connector is a `u32`, and its metadata is a
map of values. -/
structure Typed (finite : F → Bool) (r : DeviceReading F) : Prop where
  metrics : r.metrics.Typed
  keys : (r.metadata.map Prod.fst).Nodup
  values : ∀ m ∈ r.metadata, m.2.IsValue finite

/-- How deep the values of the metadata are nested. -/
def nesting (r : DeviceReading F) : Nat :=
  depthMembers r.metadata

/-- A reading that can be read back from a stream: its types are those of the source, its doubles are
finite, and the reading in its envelope is not nested deeper than `serde_json` goes. -/
structure Legible (json : SerdeJson F) (r : DeviceReading F) : Prop where
  typed : r.Typed json.isFinite
  finite : r.metrics.isFinite json.isFinite = true
  shallow : r.nesting + 3 ≤ SerdeJson.recursionLimit

variable {r : DeviceReading F}

theorem toJson_written (typed : r.Typed json.isFinite) :
    (r.toJson json).written json.isFinite =
      obj [("reading_id", str (json.uuid.display r.readingId)), ("device_id", str r.deviceId),
        ("device_type", str r.deviceType.name), ("serial_number", str r.serialNumber),
        ("zone_code", match r.zoneCode with | some zone => str zone | none => null),
        ("timestamp", str (json.displayTime r.timestamp)),
        ("metrics", r.metrics.toJson.written json.isFinite), ("metadata", obj r.metadata)] := by
  have metadata : (obj r.metadata).written json.isFinite = obj r.metadata :=
    (IsValue.obj typed.keys typed.values).written
  cases zone : r.zoneCode with
  | none =>
    simp [toJson, zone, written_obj, writtenMembers, written_str, metadata]
    rfl
  | some code => simp [toJson, zone, written_obj, writtenMembers, written_str, metadata]

theorem isValue_written (typed : r.Typed json.isFinite) :
    ((r.toJson json).written json.isFinite).IsValue json.isFinite := by
  rw [toJson_written typed]
  refine .obj (by simp) ?_
  simp only [List.forall_mem_cons]
  refine ⟨.str _, .str _, .str _, .str _, ?_, .str _, DeviceMetrics.isValue_written _ typed.metrics,
    .obj typed.keys typed.values, nofun⟩
  cases r.zoneCode with
  | none => exact .null
  | some zone => exact .str zone

theorem fits_toJson (typed : r.Typed json.isFinite) : (r.toJson json).fits = true := by
  have metadata : fitsMembers r.metadata = true := (IsValue.obj typed.keys typed.values).fits
  have metrics : r.metrics.toJson.fits = true := DeviceMetrics.fits_toJson typed.metrics
  cases zone : r.zoneCode <;> simp [toJson, zone, fits, fitsMembers, metrics, metadata]

theorem depth_toJson : (r.toJson json).depth = r.nesting + 2 := by
  have metrics : r.metrics.toJson.depth = 1 := by cases r.metrics <;> rfl
  cases zone : r.zoneCode <;> simp [toJson, zone, depth, depthMembers, metrics, nesting]

/-- Reading it back nests it no deeper. -/
theorem depth_written (typed : r.Typed json.isFinite) :
    ((r.toJson json).written json.isFinite).depth = r.nesting + 2 := by
  have metrics : (r.metrics.toJson.written json.isFinite).depth = 1 := by
    have double (x : F) : ((num (.float x)).written json.isFinite).depth = 0 := by
      rw [Json.written]
      split <;> rfl
    cases r.metrics <;>
      simp [DeviceMetrics.toJson, written_obj, writtenMembers, written_str, written_posInt, depth,
        depthMembers, double]
  rw [toJson_written typed]
  cases zone : r.zoneCode <;> simp [depth, depthMembers, metrics, nesting]

theorem fromJson_written [Float64 F] {limit : Nat} (trips : json.RoundTripsWithin limit)
    (typed : r.Typed json.isFinite) :
    fromJson json ((r.toJson json).written json.isFinite) =
      if r.metrics.isFinite json.isFinite then some r else none := by
  have metadata : lastWins (valueMembers r.metadata) = r.metadata :=
    Json.obj.inj (IsValue.obj typed.keys typed.values).value
  have metrics := DeviceMetrics.fromJson_written json.isFinite typed.metrics
  rw [toJson_written typed]
  cases zone : r.zoneCode <;>
    simp [fromJson, fieldNames, fields, single, ofFields, asStr, trips.uuids, trips.times,
      variantName, DeviceType.ofName_name, zoneOf, metadataOf, metadata, metrics] <;>
    by_cases ok : r.metrics.isFinite json.isFinite = true <;>
    simp [ok, ← zone]

end DeviceReading

/-! ## The envelope -/

variable {cipher : Option AesKey} {nonce : GcmNonce} {r : DeviceReading F} {text : String}

/-- However the envelope was written, it decodes to a text of the name and the reading, if that text
is not nested too deep. -/
theorem decodeEntry_envelope {limit : Nat} (trips : json.RoundTripsWithin limit)
    (sound : crypto.Sound) (typed : r.Typed json.isFinite) (shallow : r.nesting + 3 ≤ limit)
    (wrote : envelope json crypto cipher nonce r = some text) :
    ∃ plain, decodeEntry json crypto cipher text = some plain ∧
      json.fromStr plain = some (obj [("event_type", str (eventTypeName r.deviceType)),
        ("payload", (r.toJson json).written json.isFinite)]) := by
  have value := DeviceReading.isValue_written typed
  -- the envelope in the clear, with the reading as it is or as it is read back
  have clear {payload : Json F} (fits : payload.fits = true) (deep : payload.depth = r.nesting + 2)
      (same : payload.written json.isFinite = (r.toJson json).written json.isFinite) :
      json.fromStr (json.toString (obj [("event_type", str (eventTypeName r.deviceType)),
        ("payload", payload)])) = some (obj [("event_type", str (eventTypeName r.deviceType)),
          ("payload", (r.toJson json).written json.isFinite)]) := by
    have within : (obj [("event_type", str (eventTypeName r.deviceType)),
        ("payload", payload)]).depth ≤ limit := by
      simp only [depth, depthMembers, deep]
      omega
    rw [trips.texts _ (by simp [Json.fits, fitsMembers, fits]) within]
    simp [written_obj, writtenMembers, written_str, same]
  cases cipher with
  | none =>
    cases wrote
    have read := clear (DeviceReading.fits_toJson typed) DeviceReading.depth_toJson rfl
    have whole : (obj [("event_type", str (eventTypeName r.deviceType)),
        ("payload", (r.toJson json).written json.isFinite)]).IsValue json.isFinite :=
      .obj (by simp) (by
        simp only [List.forall_mem_cons]
        exact ⟨.str _, value, List.forall_mem_nil _⟩)
    refine ⟨_, ?_, read⟩
    simp [decodeEntry, read, whole.value, Json.get, List.lookup_cons, List.lookup_nil]
  | some sek =>
    obtain ⟨⟨nonceB64, ctB64⟩, sealed, rfl⟩ := Option.map_eq_some_iff.mp wrote
    have whole : (obj [("event_type", str (eventTypeName r.deviceType)),
        ("enc", obj [("nonce", str nonceB64), ("ciphertext", str ctB64)])] : Json F).IsValue
        json.isFinite :=
      .obj (by simp) (by
        simp only [List.forall_mem_cons]
        refine ⟨.str _, .obj (by simp) ?_, List.forall_mem_nil _⟩
        simp only [List.forall_mem_cons]
        exact ⟨.str _, .str _, List.forall_mem_nil _⟩)
    have two : (obj [("event_type", str (eventTypeName r.deviceType)),
        ("enc", obj [("nonce", str nonceB64), ("ciphertext", str ctB64)])] : Json F).depth ≤ limit := by
      simp [depth, depthMembers]
      omega
    have read := trips.texts _ whole.fits two
    rw [whole.written] at read
    have inner : (r.toJson json).depth ≤ limit := by
      rw [DeviceReading.depth_toJson]
      omega
    refine ⟨_, ?_, clear value.fits (DeviceReading.depth_written typed) value.written⟩
    simp [decodeEntry, read, whole.value, Json.get, List.lookup_cons, textAt, asStr,
      sound.decrypt_encrypt sealed, trips.bytes (DeviceReading.fits_toJson typed) inner,
      value.value]

theorem fromJson_payload [Float64 F] (payload : Json F) :
    StreamEvent.fromJson json (obj [("event_type", str (eventTypeName r.deviceType)),
      ("payload", payload)]) = (DeviceReading.fromJson json payload).map fun reading =>
        match r.deviceType with
        | .smartMeter => .smartMeterReading reading
        | .evCharger => .evCharging reading
        | .battery => .batteryStateUpdate reading := by
  cases r.deviceType <;> simp [StreamEvent.fromJson, single, eventTypeName, StreamEvent.ofContent]

/-- What a reading was written as decodes to its event, with the same reading in it, exactly when
the doubles of its metrics are finite. Sealed or plain makes no difference, if the reader has the
key of the writer. -/
theorem envelope_roundtrips_iff [Float64 F] (trips : json.RoundTrips) (sound : crypto.Sound)
    (typed : r.Typed json.isFinite) (wrote : envelope json crypto cipher nonce r = some text) :
    (decodeEntry json crypto cipher text).bind (StreamEvent.fromStr json) =
      some (.ofReading r) ↔ r.metrics.isFinite json.isFinite = true := by
  have within := trips.within (r.nesting + 3)
  obtain ⟨plain, decoded, read⟩ := decodeEntry_envelope within sound typed le_rfl wrote
  rw [decoded, Option.bind_some, StreamEvent.fromStr, read, Option.bind_some, fromJson_payload,
    DeviceReading.fromJson_written within typed]
  by_cases ok : r.metrics.isFinite json.isFinite = true
  · simp only [ok, if_true, Option.map_some, iff_true]
    rfl
  · simp [ok]

/-! ## A signed request -/

def meterSignature : String :=
  String.ofList (List.replicate 64 '1')

/-- A deployment in which meter `M1` has signed `M1:5:1700000000` and `M1:NaN:1700000000`. -/
def signedMeter : Services WholeDouble Unit where
  crypto := ⟨fun _ => 0, fun _ _ _ => none⟩
  verifier :=
    { resolvePubkey := fun meter => .ok (if meter = "M1" then some () else none)
      bs58Decode := fun text =>
        if text = meterSignature then .ok (List.replicate 64 0) else .error "invalid character"
      verify := fun _ message signature =>
        (message == Text.utf8 "M1:5:1700000000" || message == Text.utf8 "M1:NaN:1700000000") &&
          signature == List.replicate 64 0 }
  getDeviceAesKey := fun _ => .ok none
  now := .ofSecs 1700000100
  parseUuid := fun _ => none
  newV4 := fun position => BitVec.ofNat 128 position
  disseminate := fun _ => true

/-- Five generated kilowatt-hours, with `kwh` as it is given. -/
def kwhRequest (kwh : String) : MeterReading where
  readingId := ""
  meterId := "M1"
  meterSerial := "M1"
  zoneCode := none
  kwh := kwh
  energyGenerated := some "5"
  energyConsumed := none
  timestamp := 1700000000
  rawPayload := []
  signature := some meterSignature

def secureEnv : Env :=
  ⟨true, false, true, false, false⟩

/-- The reading of the request. -/
def kwhReading (kwh : String) : DeviceReading WholeDouble :=
  requestReading signedMeter 0 (kwhRequest kwh) none []

theorem kwhReading_typed (kwh : String) : (kwhReading kwh).Typed compactJson.isFinite :=
  ⟨trivial, List.nodup_nil, nofun⟩

theorem kwhReading_finite :
    (kwhReading "5").metrics.isFinite compactJson.isFinite = true ∧
      (kwhReading "NaN").metrics.isFinite compactJson.isFinite = false := by
  constructor <;> rfl

theorem kwhRequest_accepted (kwh : String) (signed : kwh = "5" ∨ kwh = "NaN") :
    ingest signedMeter secureEnv (kwhRequest kwh) = .ok (kwhReading kwh, true) := by
  have gate : ingestGate signedMeter secureEnv (kwhRequest kwh) = .ok true := by
    rcases signed with rfl | rfl <;> rfl
  rw [ingest, gate]
  rfl

def zeroNonce : GcmNonce :=
  ⟨List.replicate 12 0, rfl⟩

/-- A signed request in secure mode, and the envelope of its reading decodes to no event. -/
theorem nan_envelope_is_no_event :
    ¬ ∀ (req : MeterReading) (reading : DeviceReading WholeDouble) (text : String),
      ingest signedMeter secureEnv req = .ok (reading, true) →
      envelope compactJson idleCrypto none zeroNonce reading = some text →
      (decodeEntry compactJson idleCrypto none text).bind (StreamEvent.fromStr compactJson) =
        some (.ofReading reading) := by
  intro decodes
  have wrote : envelope compactJson idleCrypto none zeroNonce (kwhReading "NaN") = some _ := rfl
  have within := compactJson_roundTrips.within 3
  obtain ⟨plain, decoded, read⟩ :=
    decodeEntry_envelope within idleCrypto_sound (kwhReading_typed "NaN") le_rfl wrote
  have event := decodes _ _ _ (kwhRequest_accepted "NaN" (.inr rfl)) wrote
  rw [decoded, Option.bind_some, StreamEvent.fromStr, read, Option.bind_some, fromJson_payload,
    DeviceReading.fromJson_written within (kwhReading_typed "NaN"),
    kwhReading_finite.2] at event
  cases event

/-- With `kwh` a number, the same request is read back as it was. -/
theorem five_kwh_decode :
    ingest signedMeter secureEnv (kwhRequest "5") = .ok (kwhReading "5", true) ∧
      ∃ text, envelope compactJson idleCrypto none zeroNonce (kwhReading "5") = some text ∧
        (decodeEntry compactJson idleCrypto none text).bind (StreamEvent.fromStr compactJson) =
          some (.ofReading (kwhReading "5")) :=
  have wrote : envelope compactJson idleCrypto none zeroNonce (kwhReading "5") = some _ := rfl
  ⟨kwhRequest_accepted "5" (.inl rfl), _, wrote,
    (envelope_roundtrips_iff compactJson_roundTrips idleCrypto_sound (kwhReading_typed "5")
      wrote).mpr kwhReading_finite.1⟩

end AggregatorBridge
