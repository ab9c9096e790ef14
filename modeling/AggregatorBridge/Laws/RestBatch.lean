import AggregatorBridge.Laws.RestGate
import Mathlib

/-!
# A REST batch is its items, one by one

The batch handler repeats what the single handler does with a payload: resolve the protocol, check
the signature unless a switch says otherwise, read the simulator's payload or ask the DLMS stack.
Outside secure mode, and under a protocol that both process, the two say the same of every
payload (`batchItem_eq_single`), and so a batch hands over what its items would.

A reading gets its own identifier, and is dated at its arrival if its payload has no date that
parses; two arrivals differ in these. `Disseminated.settled` forgets them.

In secure mode the batch is refused as a whole, and so it is under a protocol that is not supported;
the law does not speak of these.
-/

namespace AggregatorBridge

section

variable {F K : Type} [Float64 F]

/-- The services as a request finds them that arrives at some time, with the identifier its reading
gets. -/
def RestServices.arriving (svc : RestServices F K) (now : DateTime) (id : Uuid) :
    RestServices F K :=
  { svc with now := now, newV4 := fun _ => id }

/-- A reading without its identifier, and without its time if that is the time of its arrival. -/
def Disseminated.settled (rfc3339 : DlmsStack.Rfc3339) (d : Disseminated F) : Disseminated F :=
  { d with
    reading := { d.reading with
      readingId := 0
      timestamp :=
        if (DlmsStack.payloadTime rfc3339 d.payload).isSome then d.reading.timestamp
        else .ofSecs 0 } }

/-! ## The protocol -/

theorem lowercase_idempotent (text : String) : lowercase (lowercase text) = lowercase text := by
  unfold lowercase
  rw [String.toList_ofList, List.map_map]
  congr 1
  apply List.map_congr_left
  intro c _
  exact Char.toLower_toLower_eq_toLower c

/-- The batch handler lowercases the protocol first, and processes what the single one does. -/
theorem batchProtocol (raw : String) :
    resolveProtocol (lowercase raw) = resolveProtocol raw ∧
      ((lowercase raw = "" ∨ lowercase raw = "auto" ∨
        isSupportedProtocol (lowercase raw) = true) ↔
          isSupportedProtocol (resolveProtocol raw) = true) := by
  constructor
  · simp only [resolveProtocol, lowercase_idempotent]
  · unfold resolveProtocol
    by_cases empty : lowercase raw = ""
    · simp [empty, isSupportedProtocol]
    · by_cases auto : lowercase raw = "auto"
      · simp [auto, isSupportedProtocol]
      · simp [empty, auto]

/-- An encrypted frame is not a protocol that resolves. -/
theorem not_encrypted_of_supported {raw : String}
    (supported : isSupportedProtocol (resolveProtocol raw) = true) :
    lowercase raw ≠ "dlms-enc" := by
  intro encrypted
  rw [resolveProtocol, encrypted] at supported
  exact absurd supported (by decide)

/-! ## One payload -/

variable (svc : RestServices F K) (env : Env)

/-- A payload that neither a date nor the arrival of its reading tells apart. -/
theorem settled_simulatorReading (position : Nat) (deviceId : String) (payload : Json F)
    (now : DateTime) (id : Uuid) :
    (Disseminated.mk payload (simulatorReading svc position deviceId payload)).settled
        svc.rfc3339 =
      (Disseminated.mk payload (simulatorReading (svc.arriving now id) 0 deviceId
        payload)).settled svc.rfc3339 := by
  have time : (DlmsStack.payloadTime svc.rfc3339 payload).isSome = true →
      handlerTime svc payload = handlerTime (svc.arriving now id) payload := by
    intro dated
    unfold DlmsStack.payloadTime at dated
    unfold handlerTime RestServices.arriving
    cases text : (payload.get "timestamp").bind Json.asStr with
    | none =>
      rw [text] at dated
      cases dated
    | some timestamp =>
      rw [text, Option.bind_some] at dated
      obtain ⟨parsed, found⟩ := Option.isSome_iff_exists.mp dated
      simp only [Option.getD_some, found]
  unfold Disseminated.settled
  simp only [simulatorReading, Disseminated.mk.injEq, DeviceReading.mk.injEq, true_and, and_true]
  split
  · next dated => exact time dated
  · rfl

/-- What a payload that has passed the gate is read as, by either handler. -/
def readPayload (position : Nat) (protocol deviceId : String) (payload : Json F) :
    Option (Disseminated F) :=
  if protocol = "simulator" then some ⟨payload, simulatorReading svc position deviceId payload⟩
  else
    match DlmsStack.handleMessage svc.rfc3339 svc.now (svc.newV4 position) deviceId payload with
    | .ok reading => some ⟨payload, reading⟩
    | .error _ => none

/-- Arrivals make no other difference. -/
theorem settled_readPayload (position : Nat) (protocol deviceId : String) (payload : Json F)
    (now : DateTime) (id : Uuid) :
    (readPayload svc position protocol deviceId payload).map (·.settled svc.rfc3339) =
      (readPayload (svc.arriving now id) 0 protocol deviceId payload).map
        (·.settled svc.rfc3339) := by
  unfold readPayload
  by_cases simulator : protocol = "simulator"
  · rw [if_pos simulator, if_pos simulator, Option.map_some, Option.map_some,
      settled_simulatorReading svc position deviceId payload now id]
  · rw [if_neg simulator, if_neg simulator]
    cases payload with
    | obj members =>
      simp only [DlmsStack.handleMessage, RestServices.arriving, Option.map_some,
        Disseminated.settled]
      cases DlmsStack.payloadTime svc.rfc3339 (.obj members) <;> rfl
    | _ => rfl

theorem disseminated_readAndDisseminate (protocol deviceId : String) (payload : Json F) :
    (readAndDisseminate svc protocol deviceId payload).disseminated =
      (readPayload svc 0 protocol deviceId payload).toList := by
  unfold readAndDisseminate readPayload
  by_cases simulator : protocol = "simulator"
  · rw [if_pos simulator, if_pos simulator, disseminateReading_disseminated]
    rfl
  · rw [if_neg simulator, if_neg simulator]
    cases DlmsStack.handleMessage svc.rfc3339 svc.now (svc.newV4 0) deviceId payload with
    | ok reading => exact disseminateReading_disseminated svc _
    | error e => rfl

/-- A signature is checked alike whenever it arrives. -/
theorem verifyPayload_arriving (deviceId : String) (payload : Json F) (now : DateTime)
    (id : Uuid) :
    verifyPayload (svc.arriving now id) deviceId payload = verifyPayload svc deviceId payload := by
  have ladder (signature : String) (targets : List (List UInt8)) :
      verifyRestSignature (svc.arriving now id) deviceId signature targets =
        verifyRestSignature svc deviceId signature targets := by
    induction targets with
    | nil => rfl
    | cons target rest ih =>
      rw [verifyRestSignature, verifyRestSignature, ih]
      rfl
  unfold verifyPayload
  exact ladder _ _

/-- The payload passes the gate: the simulator's do, and signed ones, and all if the hatch is
open. -/
def PassesGate (protocol deviceId : String) (payload : Json F) : Prop :=
  protocol = "simulator" ∧ env.simulatorBypassAllowed = true ∨
    verifyPayload svc deviceId payload = .ok true ∨ env.signatureEnforcementDisabled = true

variable {svc env}

theorem batchItem_of_passes {protocol : String} {item : Json F}
    (passes : PassesGate svc env protocol (batchDeviceId item) item) (position : Nat) :
    batchItem svc env protocol position item =
      readPayload svc position protocol (batchDeviceId item) item := by
  have open_ : (!batchVerified svc env protocol (batchDeviceId item) item &&
      !env.signatureEnforcementDisabled) = false := by
    unfold batchVerified
    rcases passes with bypass | verified | hatch
    · rw [if_pos bypass]
      rfl
    · rw [verified]
      split <;> rfl
    · rw [hatch, Bool.not_true, Bool.and_false]
  unfold batchItem
  simp only [open_]
  rw [if_neg Bool.false_ne_true]
  unfold readPayload
  congr 1

theorem batchItem_of_stopped {protocol : String} {item : Json F}
    (stopped : ¬ PassesGate svc env protocol (batchDeviceId item) item) (position : Nat) :
    batchItem svc env protocol position item = none := by
  obtain ⟨noBypass, unverified, closed⟩ := not_or.mp stopped |>.imp_right not_or.mp
  have failed : batchVerified svc env protocol (batchDeviceId item) item = false := by
    unfold batchVerified
    rw [if_neg noBypass]
    split
    · next verified result =>
      cases verified with
      | false => rfl
      | true => exact absurd result unverified
    · rfl
  unfold batchItem
  simp only [failed, closed, Bool.not_false, Bool.and_self, if_true]

theorem disseminated_ingestRecovered_of_passes {protocol deviceId : String} {payload : Json F}
    (plain : env.secureModeEnabled = false)
    (supported : isSupportedProtocol (resolveProtocol protocol) = true)
    (passes : PassesGate svc env (resolveProtocol protocol) deviceId payload) :
    (ingestRecovered svc env false protocol deviceId payload).disseminated =
      (readPayload svc 0 (resolveProtocol protocol) deviceId payload).toList := by
  unfold ingestRecovered
  simp only [secureModeGate, plain, Bool.false_and, Bool.false_eq_true, if_false, supported,
    if_true]
  by_cases bypass : resolveProtocol protocol = "simulator" ∧ env.simulatorBypassAllowed = true
  · rw [if_pos bypass, disseminated_readAndDisseminate]
  · have open_ : sigFailureStatus (verifyPayload svc deviceId payload)
        env.signatureEnforcementDisabled = none := by
      rcases passes with bypass' | verified | hatch
      · exact absurd bypass' bypass
      · rw [verified]
        unfold sigFailureStatus
        split <;> rfl
      · unfold sigFailureStatus
        rw [if_pos hatch]
    rw [if_neg bypass, open_]
    exact disseminated_readAndDisseminate svc _ deviceId payload

theorem disseminated_ingestRecovered_of_stopped {protocol deviceId : String} {payload : Json F}
    (plain : env.secureModeEnabled = false)
    (supported : isSupportedProtocol (resolveProtocol protocol) = true)
    (stopped : ¬ PassesGate svc env (resolveProtocol protocol) deviceId payload) :
    (ingestRecovered svc env false protocol deviceId payload).disseminated = [] := by
  obtain ⟨noBypass, unverified, closed⟩ := not_or.mp stopped |>.imp_right not_or.mp
  unfold ingestRecovered
  simp only [secureModeGate, plain, Bool.false_and, Bool.false_eq_true, if_false, supported,
    if_true]
  rw [if_neg noBypass]
  cases result : verifyPayload svc deviceId payload with
  | error e =>
    simp only [sigFailureStatus, closed]
    rfl
  | ok verified =>
    cases verified with
    | true => exact absurd result unverified
    | false =>
      simp only [sigFailureStatus, closed]
      rfl

/-! ## The batch -/

/-- The single handler's request for an item of a batch. -/
def PrivateNetworkPayload.ofItem (protocol : String) (item : Json F) : PrivateNetworkPayload F :=
  ⟨protocol, batchDeviceId item, item⟩

/-- An item of a batch is what it would be alone. -/
theorem batchItem_eq_single {protocol : String} (plain : env.secureModeEnabled = false)
    (supported : isSupportedProtocol (resolveProtocol protocol) = true) (position : Nat)
    (item : Json F) (now : DateTime) (id : Uuid) :
    (batchItem svc env (resolveProtocol protocol) position item).toList.map
        (·.settled svc.rfc3339) =
      (ingestPrivateNetwork (svc.arriving now id) env (.ofItem protocol item)).disseminated.map
        (·.settled svc.rfc3339) := by
  have single : ingestPrivateNetwork (svc.arriving now id) env (.ofItem protocol item) =
      ingestRecovered (svc.arriving now id) env false protocol (batchDeviceId item) item :=
    if_neg (not_encrypted_of_supported supported)
  have gate : PassesGate (svc.arriving now id) env (resolveProtocol protocol)
      (batchDeviceId item) item ↔
        PassesGate svc env (resolveProtocol protocol) (batchDeviceId item) item := by
    unfold PassesGate
    rw [verifyPayload_arriving]
  rw [single]
  by_cases passes : PassesGate svc env (resolveProtocol protocol) (batchDeviceId item) item
  · rw [batchItem_of_passes passes,
      disseminated_ingestRecovered_of_passes plain supported (gate.mpr passes),
      ← Option.toList_map, ← Option.toList_map, settled_readPayload svc position _ _ _ now id]
  · rw [batchItem_of_stopped passes,
      disseminated_ingestRecovered_of_stopped plain supported (mt gate.mp passes)]
    rfl

/-- Outside secure mode, a batch under a protocol that resolves to `dlms` or `simulator` hands over,
in order, what its items would if each were posted alone. Identifiers and dates of arrival are left
out of the comparison. -/
theorem rest_batch_is_its_items (svc : RestServices F K) {env : Env}
    {req : BatchPrivateNetworkPayload F} (plain : env.secureModeEnabled = false)
    (supported : isSupportedProtocol (resolveProtocol req.protocol) = true)
    (now : Nat → DateTime) (id : Nat → Uuid) :
    (ingestPrivateNetworkBatch svc env req).disseminated.map (·.settled svc.rfc3339) =
      req.readings.zipIdx.flatMap fun x =>
        (ingestPrivateNetwork (svc.arriving (now x.2) (id x.2)) env
          (.ofItem req.protocol x.1)).disseminated.map (·.settled svc.rfc3339) := by
  have batch : (ingestPrivateNetworkBatch svc env req).disseminated =
      req.readings.zipIdx.filterMap fun x =>
        batchItem svc env (resolveProtocol req.protocol) x.2 x.1 := by
    unfold ingestPrivateNetworkBatch
    simp only [secureModeGate, plain, Bool.false_and, Bool.false_eq_true, if_false]
    rw [if_pos ((batchProtocol req.protocol).2.mpr supported), (batchProtocol req.protocol).1]
    rfl
  rw [batch]
  induction req.readings.zipIdx with
  | nil => rfl
  | cons entry rest ih =>
    rw [List.flatMap_cons, ← ih, ← batchItem_eq_single plain supported entry.2 entry.1]
    cases here : batchItem svc env (resolveProtocol req.protocol) entry.2 entry.1 with
    | none => simp [here]
    | some d => simp [here]

end

/-- Two payloads of the simulator, one of which names its meter. -/
def simulatorBatch : BatchPrivateNetworkPayload ℚ :=
  ⟨"Simulator", [.obj [("meter_id", .str "M1")], .obj []]⟩

theorem simulator_batch_is_its_items :
    (ingestPrivateNetworkBatch oneMeterRest ⟨false, false, false, false, false⟩
      simulatorBatch).disseminated.length = 2 ∧
    (ingestPrivateNetworkBatch oneMeterRest ⟨false, false, false, false, false⟩
      simulatorBatch).disseminated.map (·.settled oneMeterRest.rfc3339) =
      simulatorBatch.readings.zipIdx.flatMap fun x =>
        (ingestPrivateNetwork (oneMeterRest.arriving (.ofSecs x.2) 7)
          ⟨false, false, false, false, false⟩
          (.ofItem simulatorBatch.protocol x.1)).disseminated.map
            (·.settled oneMeterRest.rfc3339) :=
  ⟨by decide +kernel, rest_batch_is_its_items oneMeterRest rfl (by decide +kernel)
    (fun i => .ofSecs i) fun _ => 7⟩

end AggregatorBridge
