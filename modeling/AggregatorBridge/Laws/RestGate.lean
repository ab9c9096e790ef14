import AggregatorBridge.Laws.RestSignature

/-!
# The gate in front of REST ingest

A locked-down deployment is meant to accept one thing over REST: an encrypted frame that
authenticates under the device key and whose signature verifies. Outside secure mode, and with
the escape hatch closed, everything but a `simulator` payload must still be signed by the
device it names. `Enforced` says that of one disseminated reading.

Two of the three handlers enforce it on every request (`ingestPrivateNetwork_enforced`,
`ingestPrivateNetworkBatch_enforced`). The third, `ingest_legacy_batch`, reads neither the
environment nor a signature, and it is wired under two routes: what it disseminates is
enforced only by coincidence, when nothing has to be enforced or every item happens to carry
a signature that would have verified. `rest_gate_iff` is the exact condition over the whole
route table.

The law is about what is disseminated. It does not say that a request that passes is answered with
success.
-/

namespace AggregatorBridge

section

variable {F K : Type} [Float64 F] (svc : RestServices F K) (env : Env)

/-! ## What enforcement means -/

/-- The payload carries a signature that verifies, over one of the messages it may have
signed, under the key registered for the device. -/
def SignatureVerifies (deviceId : String) (payload : Json F) : Prop :=
  ∃ target ∈ restSignCandidates svc deviceId (canonicalSignValue payload)
      (signTimestampMs svc payload) payload,
    svc.verifier.VerifiesUnder deviceId target
      (((payload.get "signature").bind Json.asStr).getD "")

/-- The payload is what an envelope of the device decrypts to: some key registered for the
device authenticates the ciphertext. -/
def Authenticates (deviceId : String) (inner : Json F) : Prop :=
  ∃ kid key nonce ct aad plaintext,
    svc.getDeviceAesKey deviceId kid = .ok (some key) ∧
    svc.gcmDecrypt key nonce ct aad = some plaintext ∧ svc.fromSlice plaintext = .ok inner

/-- The request names the unsigned development protocol. -/
def DeclaresSimulator : RestRequest F → Prop
  | .privateNetwork body => resolveProtocol body.protocol = "simulator"
  | .privateNetworkBatch body => resolveProtocol (lowercase body.protocol) = "simulator"
  | .telemetry _ => False
  | .telemetryBatch _ => False

/-- What must hold of every disseminated reading. -/
structure Enforced (req : RestRequest F) (d : Disseminated F) : Prop where
  secure : env.secureModeEnabled = true →
    (∃ body, req = .privateNetwork body ∧ lowercase body.protocol = "dlms-enc") ∧
      Authenticates svc d.reading.serialNumber d.payload ∧
      SignatureVerifies svc d.reading.serialNumber d.payload
  signed : env.signatureEnforcementDisabled = false → ¬ DeclaresSimulator req →
    SignatureVerifies svc d.reading.serialNumber d.payload

/-! ## The checks deliver what they test -/

omit [Float64 F] in
/-- The candidate ladder succeeds only through a candidate that verifies. -/
theorem verifyRestSignature_ok_true {deviceId signature : String} {targets : List (List UInt8)}
    (verified : verifyRestSignature svc deviceId signature targets = .ok true) :
    ∃ target ∈ targets, svc.verifier.VerifiesUnder deviceId target signature := by
  induction targets with
  | nil => cases verified
  | cons target rest ih =>
    rw [verifyRestSignature] at verified
    split at verified
    · next first =>
      exact ⟨target, List.mem_cons_self,
        (svc.verifier.verifyTelemetrySignature_ok_true).mp first⟩
    · obtain ⟨other, mem, verifies⟩ := ih verified
      exact ⟨other, List.mem_cons_of_mem _ mem, verifies⟩
    · cases verified

theorem verifyPayload_ok_true {deviceId : String} {payload : Json F}
    (verified : verifyPayload svc deviceId payload = .ok true) :
    SignatureVerifies svc deviceId payload :=
  verifyRestSignature_ok_true svc verified

omit [Float64 F] in
/-- An envelope that was opened authenticated under a key of the device. -/
theorem decryptDlmsEnvelope_ok {deviceId : String} {payload inner : Json F}
    (opened : decryptDlmsEnvelope svc deviceId payload = .ok inner) :
    Authenticates svc deviceId inner := by
  unfold decryptDlmsEnvelope at opened
  split at opened
  · cases opened
  split at opened
  · cases opened
  simp only at opened
  split at opened
  · cases opened
  split at opened
  · cases opened
  split at opened
  · cases opened
  · split at opened <;> cases opened
  next key found =>
  split at opened
  · cases opened
  next plaintext authentic =>
  split at opened
  · cases opened
  · cases opened
  split at opened
  · cases opened
  next parsed =>
  cases opened
  exact ⟨_, key, _, _, _, plaintext, found, authentic, parsed⟩

/-- The stack books a message on the device it was given. -/
theorem handleMessage_serialNumber {rfc3339 : DlmsStack.Rfc3339} {now : DateTime} {id : Uuid}
    {deviceId : String} {payload : Json F} {reading : DeviceReading F}
    (decoded : DlmsStack.handleMessage rfc3339 now id deviceId payload = .ok reading) :
    reading.serialNumber = deviceId := by
  unfold DlmsStack.handleMessage at decoded
  split at decoded
  · cases decoded
    rfl
  · cases decoded

omit [Float64 F] in
@[simp] theorem disseminateReading_disseminated (d : Disseminated F) :
    (disseminateReading svc d).disseminated = [d] := by
  unfold disseminateReading
  split <;> rfl

/-- What a payload disseminates carries the payload and is booked on its device. -/
theorem readAndDisseminate_mem {protocol deviceId : String} {payload : Json F}
    {d : Disseminated F}
    (mem : d ∈ (readAndDisseminate svc protocol deviceId payload).disseminated) :
    d.payload = payload ∧ d.reading.serialNumber = deviceId := by
  unfold readAndDisseminate at mem
  split at mem
  · rw [disseminateReading_disseminated, List.mem_singleton] at mem
    subst mem
    exact ⟨rfl, rfl⟩
  · split at mem
    · next reading decoded =>
      rw [disseminateReading_disseminated, List.mem_singleton] at mem
      subst mem
      exact ⟨rfl, handleMessage_serialNumber decoded⟩
    · cases mem

/-! ## The single route -/

/-- Behind the envelope: a disseminated reading carries its payload and its device, was not
plaintext in secure mode, and was either verified, or let through by the hatch, or is a
simulator payload outside secure mode. -/
theorem ingestRecovered_mem {wasEncrypted : Bool} {protocol deviceId : String}
    {payload : Json F} {d : Disseminated F}
    (mem : d ∈ (ingestRecovered svc env wasEncrypted protocol deviceId payload).disseminated) :
    d.payload = payload ∧ d.reading.serialNumber = deviceId ∧
      (env.secureModeEnabled = true → wasEncrypted = true) ∧
      (SignatureVerifies svc deviceId payload ∨ env.signatureEnforcementDisabled = true ∨
        (resolveProtocol protocol = "simulator" ∧ env.simulatorBypassAllowed = true)) := by
  unfold ingestRecovered at mem
  split at mem
  · cases mem
  next passed =>
  have encrypted : env.secureModeEnabled = true → wasEncrypted = true := by
    intro secure
    cases wasEncrypted with
    | true => rfl
    | false => simp [secureModeGate, secure] at passed
  simp only at mem
  split at mem
  · split at mem
    · next bypass =>
      obtain ⟨carried, booked⟩ := readAndDisseminate_mem svc mem
      exact ⟨carried, booked, encrypted, .inr (.inr bypass)⟩
    · split at mem
      · split at mem <;> cases mem
      · next accepted =>
        obtain ⟨carried, booked⟩ := readAndDisseminate_mem svc mem
        refine ⟨carried, booked, encrypted, ?_⟩
        by_cases hatch : env.signatureEnforcementDisabled = true
        · exact .inr (.inl hatch)
        · refine .inl (verifyPayload_ok_true svc ?_)
          unfold sigFailureStatus at accepted
          rw [if_neg hatch] at accepted
          split at accepted
          · assumption
          · cases accepted
          · cases accepted
  · cases mem

/-- The three ways past the signature check leave the fourth for a request that has to be
signed. -/
theorem signed_of_passed {deviceId : String} {payload : Json F} {simulator : Prop}
    (passed : SignatureVerifies svc deviceId payload ∨ env.signatureEnforcementDisabled = true ∨
      (simulator ∧ env.simulatorBypassAllowed = true))
    (closed : env.signatureEnforcementDisabled = false)
    (other : ¬ (simulator ∧ env.simulatorBypassAllowed = true)) :
    SignatureVerifies svc deviceId payload := by
  rcases passed with verified | hatch | bypass
  · exact verified
  · rw [closed] at hatch
    cases hatch
  · exact absurd bypass other

theorem ingestPrivateNetwork_enforced {body : PrivateNetworkPayload F} {d : Disseminated F}
    (mem : d ∈ (ingestPrivateNetwork svc env body).disseminated) :
    Enforced svc env (.privateNetwork body) d := by
  unfold ingestPrivateNetwork at mem
  split at mem
  · next encrypted =>
    split at mem
    · next inner opened =>
      obtain ⟨rfl, booked, _, passed⟩ := ingestRecovered_mem svc env mem
      have notSimulator : ¬ (resolveProtocol "dlms" = "simulator" ∧
          env.simulatorBypassAllowed = true) := by
        rintro ⟨named, _⟩
        exact absurd named (by decide)
      rw [← booked] at passed
      constructor
      · intro secure
        have closed := (secureMode_closes_bypasses secure).1
        refine ⟨⟨body, rfl, encrypted⟩, ?_, signed_of_passed svc env passed closed notSimulator⟩
        rw [booked]
        exact decryptDlmsEnvelope_ok svc opened
      · intro closed _
        exact signed_of_passed svc env passed closed notSimulator
    · cases mem
    · cases mem
  · obtain ⟨carried, booked, plaintext, passed⟩ := ingestRecovered_mem svc env mem
    rw [← booked, ← carried] at passed
    constructor
    · intro secure
      exact absurd (plaintext secure) (by decide)
    · intro closed named
      exact signed_of_passed svc env passed closed fun bypass => named bypass.1

/-! ## The batch route -/

/-- A batch item that is disseminated carries its payload and its device and passed the same
check as a single payload. -/
theorem batchItem_mem {protocol : String} {position : Nat} {item : Json F}
    {d : Disseminated F} (kept : batchItem svc env protocol position item = some d) :
    d.payload = item ∧ d.reading.serialNumber = batchDeviceId item ∧
      (SignatureVerifies svc (batchDeviceId item) item ∨
        env.signatureEnforcementDisabled = true ∨
        (protocol = "simulator" ∧ env.simulatorBypassAllowed = true)) := by
  unfold batchItem at kept
  by_cases passed : (!batchVerified svc env protocol (batchDeviceId item) item &&
      !env.signatureEnforcementDisabled) = true
  · simp only [if_pos passed] at kept
    cases kept
  simp only [if_neg passed] at kept
  have accepted : SignatureVerifies svc (batchDeviceId item) item ∨
      env.signatureEnforcementDisabled = true ∨
      (protocol = "simulator" ∧ env.simulatorBypassAllowed = true) := by
    by_cases bypass : protocol = "simulator" ∧ env.simulatorBypassAllowed = true
    · exact .inr (.inr bypass)
    · by_cases hatch : env.signatureEnforcementDisabled = true
      · exact .inr (.inl hatch)
      · left
        apply verifyPayload_ok_true svc
        simp only [batchVerified, if_neg bypass] at passed
        cases result : verifyPayload svc (batchDeviceId item) item with
        | error e => simp [result, hatch] at passed
        | ok verified =>
          cases verified with
          | true => rfl
          | false => simp [result, hatch] at passed
  split at kept
  · cases kept
    exact ⟨rfl, rfl, accepted⟩
  · split at kept
    · next decoded =>
      cases kept
      exact ⟨rfl, handleMessage_serialNumber decoded, accepted⟩
    · cases kept

theorem ingestPrivateNetworkBatch_enforced {body : BatchPrivateNetworkPayload F}
    {d : Disseminated F} (mem : d ∈ (ingestPrivateNetworkBatch svc env body).disseminated) :
    Enforced svc env (.privateNetworkBatch body) d := by
  unfold ingestPrivateNetworkBatch at mem
  split at mem
  · cases mem
  next passed =>
  have open_ : ¬ env.secureModeEnabled = true := by
    intro secure
    simp [secureModeGate, secure] at passed
  simp only at mem
  split at mem
  · obtain ⟨⟨item, position⟩, _, kept⟩ := List.mem_filterMap.mp mem
    obtain ⟨rfl, booked, accepted⟩ := batchItem_mem svc env kept
    rw [← booked] at accepted
    constructor
    · exact fun secure => absurd secure open_
    · intro closed named
      exact signed_of_passed svc env accepted closed fun bypass => named bypass.1
  · cases mem

/-! ## The legacy routes -/

def legacyItems (body : Json F) : List (Json F) :=
  ((body.get "readings").bind Json.asArray).getD []

/-- The legacy handler disseminates every item, as it stands. -/
theorem mem_ingestLegacyBatch {body : Json F} {d : Disseminated F} :
    d ∈ (ingestLegacyBatch svc body).disseminated ↔
      ∃ item position, (item, position) ∈ (legacyItems body).zipIdx ∧
        d = ⟨item, legacyReading svc position item⟩ := by
  unfold ingestLegacyBatch legacyItems
  cases (body.get "readings").bind Json.asArray with
  | none => simp [refuse]
  | some readings =>
    constructor
    · intro mem
      obtain ⟨⟨item, position⟩, listed, rfl⟩ := List.mem_map.mp mem
      exact ⟨item, position, listed, rfl⟩
    · rintro ⟨item, position, listed, rfl⟩
      exact List.mem_map.mpr ⟨(item, position), listed, rfl⟩

/-- An item of a legacy body does no harm unchecked: secure mode is off, and either the hatch
is open or the item carries a signature that verifies for the device it names. -/
def LegacyItemHarmless (item : Json F) : Prop :=
  env.secureModeEnabled = false ∧
    (env.signatureEnforcementDisabled = true ∨
      SignatureVerifies svc (legacyDeviceId item) item)

/-- The handler without a gate enforces nothing, so what it lets through is enforced only if it
would have passed anyway. -/
theorem legacy_enforced_iff {req : RestRequest F} {body : Json F}
    (legacy : req = .telemetry body ∨ req = .telemetryBatch body) :
    (∀ d ∈ (ingestLegacyBatch svc body).disseminated, Enforced svc env req d) ↔
      ∀ item ∈ legacyItems body, LegacyItemHarmless svc env item := by
  have notEncrypted : ∀ b, req ≠ .privateNetwork b := by
    rcases legacy with rfl | rfl <;> exact fun b h => nomatch h
  have notSimulator : ¬ DeclaresSimulator req := by
    rcases legacy with rfl | rfl <;> exact fun h => h
  constructor
  · intro enforced item mem
    obtain ⟨position, inRange, rfl⟩ := List.getElem_of_mem mem
    have listed : ((legacyItems body)[position], position) ∈ (legacyItems body).zipIdx :=
      List.mk_mem_zipIdx_iff_getElem?.mpr (List.getElem?_eq_getElem inRange)
    obtain ⟨secure, signed⟩ := enforced _
      ((mem_ingestLegacyBatch svc).mpr ⟨_, position, listed, rfl⟩)
    have open_ : env.secureModeEnabled = false := by
      by_contra on
      obtain ⟨⟨b, single, _⟩, _⟩ := secure (by simpa using on)
      exact notEncrypted b single
    refine ⟨open_, ?_⟩
    by_cases hatch : env.signatureEnforcementDisabled = true
    · exact .inl hatch
    · exact .inr (signed (by simpa using hatch) notSimulator)
  · intro harmless d mem
    obtain ⟨item, position, listed, rfl⟩ := (mem_ingestLegacyBatch svc).mp mem
    have inBody : item ∈ legacyItems body := (List.mem_zipIdx' listed).2 ▸ List.getElem_mem _
    obtain ⟨open_, either⟩ := harmless item inBody
    constructor
    · intro secure
      rw [open_] at secure
      cases secure
    · intro closed _
      rcases either with hatch | verified
      · rw [closed] at hatch
        cases hatch
      · exact verified

/-! ## The route table -/

/-- The condition on a request: none on the private-network routes, every item harmless on
the legacy ones. -/
def GateApplies : RestRequest F → Prop
  | .privateNetwork _ => True
  | .privateNetworkBatch _ => True
  | .telemetry body => ∀ item ∈ legacyItems body, LegacyItemHarmless svc env item
  | .telemetryBatch body => ∀ item ∈ legacyItems body, LegacyItemHarmless svc env item

/-- For every request on every REST ingest route, under every environment: all that is disseminated
is enforced if and only if the gate applies. What the routes answer, and with which status, plays no
part. -/
theorem rest_gate_iff (req : RestRequest F) :
    (∀ d ∈ (handleRest svc env req).disseminated, Enforced svc env req d) ↔
      GateApplies svc env req := by
  cases req with
  | privateNetwork body =>
    exact ⟨fun _ => trivial, fun _ d mem => ingestPrivateNetwork_enforced svc env mem⟩
  | privateNetworkBatch body =>
    exact ⟨fun _ => trivial, fun _ d mem => ingestPrivateNetworkBatch_enforced svc env mem⟩
  | telemetry body => exact legacy_enforced_iff svc env (.inl rfl)
  | telemetryBatch body => exact legacy_enforced_iff svc env (.inr rfl)

end

/-- `AGGREGATOR_REQUIRE_SECURE=true` in production, every bypass variable unset. -/
def lockedDownEnv : Env :=
  ⟨true, false, true, false, false⟩

/-- An unsigned plaintext item for a meter of the caller's choice. -/
def unsignedLegacyBody : Json ℚ :=
  .obj [("readings", .arr [.obj [("meter_serial", .str "M1"), ("kwh", .num (.posInt 500))]])]

/-- In a locked-down deployment the legacy route disseminates it. -/
theorem unsigned_item_passes_locked_gate :
    ¬ ∀ req : RestRequest ℚ, ∀ d ∈ (handleRest oneMeterRest lockedDownEnv req).disseminated,
      Enforced oneMeterRest lockedDownEnv req d := by
  intro enforced
  have disseminated : (handleRest oneMeterRest lockedDownEnv
      (.telemetry unsignedLegacyBody)).disseminated ≠ [] := by
    simp [handleRest, ingestLegacyBatch, unsignedLegacyBody, Json.get, Json.asArray,
      disseminateAll]
  obtain ⟨d, mem⟩ := List.exists_mem_of_ne_nil _ disseminated
  obtain ⟨⟨body, single, _⟩, _⟩ := (enforced _ d mem).secure rfl
  cases single

end AggregatorBridge
