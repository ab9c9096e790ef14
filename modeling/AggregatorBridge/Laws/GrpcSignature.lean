import AggregatorBridge.Grpc

/-!
# What a gRPC signature binds

A meter signs `{meter_id}:{kwh}:{timestamp}`. The reading that is billed takes its serial from
`meter_serial`, its energies from `energy_generated` and `energy_consumed` (or from the
registers of a decoded frame) and its time from the frame when there is one. Of all that only
the timestamp is under the signature, so two requests that verify over the same bytes carry
the same bill exactly when the fields OUTSIDE those bytes happen to agree.

`same_bill_iff_unsigned_agree` is that equivalence, for any two accepted requests of either
method. The one thing the signed bytes do contribute is the timestamp: meter and value may
hold colons, the printed timestamp cannot, so equal bytes have equal timestamps
(`timestamp_of_signedBytes`) and a request without a frame is billed at its signed time,
unless the calendar does not reach it and the arrival time stands in.

The law says nothing of whether both requests should have been accepted: it compares what they are
billed as.
-/

namespace AggregatorBridge

open Checked

section

variable {F K : Type} [Float64 F]

/-- One of the two signed methods accepted the request and disseminated this reading. -/
inductive Accepts (svc : Services F K) (env : Env) (req : MeterReading)
    (reading : DeviceReading F) : Prop
  | single {verified : Bool} : ingest svc env req = .ok (reading, verified) →
      Accepts svc env req reading
  | item {position : Nat} {verified : Bool} :
      ingestBatchItem svc env position req = .ok (some (reading, verified)) →
      Accepts svc env req reading

/-- An accepted request whose signature verified over its canonical text, which is `bytes`. -/
structure AcceptedOver (svc : Services F K) (env : Env) (bytes : List UInt8)
    (req : MeterReading) (reading : DeviceReading F) : Prop where
  accepted : Accepts svc env req reading
  signed : ∃ signature, req.signature = some signature ∧
    svc.verifier.VerifiesUnder req.meterId bytes signature
  target : bytes = req.signedBytes

/-- Whatever the method, an accepted request is read the same way: decode its frame, then
build the reading. -/
theorem Accepts.reading_eq {svc : Services F K} {env : Env} {req : MeterReading}
    {reading : DeviceReading F} (accepts : Accepts svc env req reading) :
    ∃ position frame metadata, requestFrame svc env req = .ok frame ∧
      reading = requestReading svc position req frame metadata := by
  cases accepts with
  | single ran =>
    rw [ingest] at ran
    obtain ⟨sigVerified, _, ran⟩ := bind_eq_ok ran
    obtain ⟨frame, decoded, ran⟩ := bind_eq_ok ran
    simp only at ran
    split at ran
    · cases ran
      exact ⟨0, frame, _, decoded, rfl⟩
    · cases ran
  | @item position verified ran =>
    rw [ingestBatchItem] at ran
    split at ran
    · cases ran
    · obtain ⟨frame, decoded, ran⟩ := bind_eq_ok ran
      simp only at ran
      split at ran
      · cases ran
        exact ⟨position, frame, _, decoded, rfl⟩
      · cases ran

/-! ## The bill and the fields outside the signature -/

/-- Two readings the biller cannot tell apart. -/
structure SameBill (a b : DeviceReading F) : Prop where
  serialNumber : a.serialNumber = b.serialNumber
  generated : a.generatedKwh = b.generatedKwh
  consumed : a.consumedKwh = b.consumedKwh
  timestamp : a.timestamp = b.timestamp

/-- The times two requests are billed at agree, given that they carry the same signed
timestamp: two frames must carry the same time, one frame must carry the time of the request
without one, and without frames the calendar must reach the timestamp or the requests have
arrived at the same instant. -/
def TimesAgree (svc₁ svc₂ : Services F K) (frame₁ frame₂ : Option DlmsBinaryFrame)
    (timestamp : Int) : Prop :=
  match frame₁, frame₂ with
  | none, none => (DateTime.timestampOpt timestamp).isSome ∨ svc₁.now = svc₂.now
  | some f₁, none => f₁.timestamp = (DateTime.timestampOpt timestamp).getD svc₂.now
  | none, some f₂ => (DateTime.timestampOpt timestamp).getD svc₁.now = f₂.timestamp
  | some f₁, some f₂ => f₁.timestamp = f₂.timestamp

/-- The fields outside the signed bytes agree: the meter serial, for each energy the register
of the frame or else the field of the request, and the time. -/
structure UnsignedAgree (svc₁ svc₂ : Services F K) (req₁ req₂ : MeterReading)
    (frame₁ frame₂ : Option DlmsBinaryFrame) : Prop where
  meterSerial : req₁.meterSerial = req₂.meterSerial
  energyGenerated :
    (billedKwh (frame₁.bind (·.activeEnergyExportWh)) req₁.energyGenerated : F) =
      billedKwh (frame₂.bind (·.activeEnergyExportWh)) req₂.energyGenerated
  energyConsumed :
    (billedKwh (frame₁.bind (·.activeEnergyImportWh)) req₁.energyConsumed : F) =
      billedKwh (frame₂.bind (·.activeEnergyImportWh)) req₂.energyConsumed
  times : TimesAgree svc₁ svc₂ frame₁ frame₂ req₁.timestamp

/-- Equal signed bytes carry equal timestamps, whatever colons the other parts hold. -/
theorem timestamp_of_signedBytes {req₁ req₂ : MeterReading}
    (same : req₁.signedBytes = req₂.signedBytes) : req₁.timestamp = req₂.timestamp := by
  have texts := Text.utf8_inj same
  exact (Text.joined_inj texts).2

omit [Float64 F] in
theorem billedTime_eq_iff (svc₁ svc₂ : Services F K) (frame₁ frame₂ : Option DlmsBinaryFrame)
    (timestamp : Int) :
    billedTime svc₁ frame₁ timestamp = billedTime svc₂ frame₂ timestamp ↔
      TimesAgree svc₁ svc₂ frame₁ frame₂ timestamp := by
  cases frame₁ with
  | some f₁ => cases frame₂ <;> exact Iff.rfl
  | none =>
    cases frame₂ with
    | some f₂ => exact Iff.rfl
    | none =>
      cases reached : DateTime.timestampOpt timestamp with
      | none => simp [billedTime, TimesAgree, reached]
      | some t => simp [billedTime, TimesAgree, reached]

/-- Two accepted requests whose signatures verified over the same bytes, of any two callers at any
two times: their readings are billed alike if and only if the fields outside the signed bytes agree.
None of these fields is under a signature, so the sender of the bytes has no say in them. -/
theorem same_bill_iff_unsigned_agree {svc₁ svc₂ : Services F K} {env₁ env₂ : Env}
    {bytes : List UInt8} {req₁ req₂ : MeterReading} {reading₁ reading₂ : DeviceReading F}
    (first : AcceptedOver svc₁ env₁ bytes req₁ reading₁)
    (second : AcceptedOver svc₂ env₂ bytes req₂ reading₂) :
    SameBill reading₁ reading₂ ↔
      ∃ frame₁ frame₂, requestFrame svc₁ env₁ req₁ = .ok frame₁ ∧
        requestFrame svc₂ env₂ req₂ = .ok frame₂ ∧
        UnsignedAgree svc₁ svc₂ req₁ req₂ frame₁ frame₂ := by
  obtain ⟨p₁, frame₁, meta₁, decoded₁, rfl⟩ := first.accepted.reading_eq
  obtain ⟨p₂, frame₂, meta₂, decoded₂, rfl⟩ := second.accepted.reading_eq
  have signedTime : req₁.timestamp = req₂.timestamp :=
    timestamp_of_signedBytes (first.target.symm.trans second.target)
  constructor
  · rintro ⟨serial, generated, consumed, time⟩
    refine ⟨frame₁, frame₂, decoded₁, decoded₂, serial, generated, consumed, ?_⟩
    rw [← billedTime_eq_iff]
    rw [show billedTime svc₂ frame₂ req₁.timestamp = billedTime svc₂ frame₂ req₂.timestamp by
      rw [signedTime]]
    exact time
  · rintro ⟨f₁, f₂, same₁, same₂, agree⟩
    rw [decoded₁] at same₁
    rw [decoded₂] at same₂
    cases same₁
    cases same₂
    refine ⟨agree.meterSerial, agree.energyGenerated, agree.energyConsumed, ?_⟩
    have time := (billedTime_eq_iff svc₁ svc₂ frame₁ frame₂ req₁.timestamp).mpr agree.times
    change billedTime svc₁ frame₁ req₁.timestamp = billedTime svc₂ frame₂ req₂.timestamp
    rw [time, signedTime]

end

/-! ## One signature, two bills -/

def zeroSignature : String :=
  String.ofList (List.replicate 64 '1')

/-- A deployment with one registered meter, `M1`, and one signature that verifies: the one over
`M1:5:1700000000`. -/
def oneMeterServices : Services ℚ Unit where
  crypto := ⟨fun _ => 0, fun _ _ _ => none⟩
  verifier :=
    { resolvePubkey := fun meter => .ok (if meter = "M1" then some () else none)
      bs58Decode := fun text =>
        if text = zeroSignature then .ok (List.replicate 64 0) else .error "invalid character"
      verify := fun _ message signature =>
        message == Text.utf8 "M1:5:1700000000" && signature == List.replicate 64 0 }
  getDeviceAesKey := fun _ => .ok none
  now := DateTime.ofSecs 1700000100
  parseUuid := fun _ => none
  newV4 := fun position => BitVec.ofNat 128 position
  disseminate := fun _ => true

/-- A production environment with every bypass off. -/
def productionEnv : Env :=
  ⟨false, false, true, false, false⟩

/-- A request signed over `M1:5:1700000000`, for the given unsigned serial and energy. -/
def signedRequest (meterSerial energyGenerated : String) : MeterReading where
  readingId := ""
  meterId := "M1"
  meterSerial := meterSerial
  zoneCode := none
  kwh := "5"
  energyGenerated := some energyGenerated
  energyConsumed := none
  timestamp := 1700000000
  rawPayload := []
  signature := some zeroSignature

/-- The signed bytes do not mention the serial or the energy, so every such request is
accepted under the one signature. -/
theorem signedRequest_accepted (meterSerial energyGenerated : String) :
    AcceptedOver oneMeterServices productionEnv (Text.utf8 "M1:5:1700000000")
      (signedRequest meterSerial energyGenerated)
      (requestReading oneMeterServices 0 (signedRequest meterSerial energyGenerated) none []) where
  accepted := by
    have gate : ingestGate oneMeterServices productionEnv
        (signedRequest meterSerial energyGenerated) = .ok true := by
      rfl
    have ran : ingest oneMeterServices productionEnv (signedRequest meterSerial energyGenerated) =
        .ok (requestReading oneMeterServices 0 (signedRequest meterSerial energyGenerated)
          none [], true) := by
      rw [ingest, gate]
      rfl
    exact .single ran
  signed := ⟨zeroSignature, rfl, (), List.replicate 64 0, rfl, rfl, rfl, rfl⟩
  target := rfl

/-- The same signature bills meter `M1` for one request and meter `M2` for another. -/
theorem one_signature_bills_two_meters :
    ¬ ∀ (bytes : List UInt8) (req₁ req₂ : MeterReading) (reading₁ reading₂ : DeviceReading ℚ),
      AcceptedOver oneMeterServices productionEnv bytes req₁ reading₁ →
      AcceptedOver oneMeterServices productionEnv bytes req₂ reading₂ →
      SameBill reading₁ reading₂ := by
  intro binds
  have same := binds _ _ _ _ _ (signedRequest_accepted "M1" "5") (signedRequest_accepted "M2" "5")
  exact absurd same.serialNumber (by decide)

/-- Replayed for the same serial and the same energy, the signature does bind the bill. -/
theorem replayed_request_bills_alike :
    SameBill
      (requestReading oneMeterServices 0 (signedRequest "M1" "5") none [])
      (requestReading oneMeterServices 0 (signedRequest "M1" "5") none []) :=
  (same_bill_iff_unsigned_agree (signedRequest_accepted "M1" "5")
    (signedRequest_accepted "M1" "5")).mpr
      ⟨none, none, rfl, rfl, rfl, rfl, rfl, Or.inl rfl⟩

end AggregatorBridge
