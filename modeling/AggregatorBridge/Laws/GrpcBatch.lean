import AggregatorBridge.Laws.GrpcSignature

/-!
# A gRPC batch and its items

The body of `ingest_batch` is a copy of the body of `ingest`, and three things were not copied.
A signature over the raw payload is tried by `ingest` alone. Of the registers of a decoded frame
the batch keeps the manufacturer, and drops voltage, current and battery level. And a frame on
which the decoder panics ends the batch with all of its items. A batch does to each of its items
what `ingest` does to it alone exactly if none of the three comes up (`batch_as_items_iff`).

The stream is outside: what is assumed of it is that it answers alike for readings that go to the
same place, that is of one serial and one zone.
-/

namespace AggregatorBridge

open Checked

section

variable {F K : Type} [Float64 F]

/-- The services with the identifier that the next reading gets. -/
def Services.generating (svc : Services F K) (id : Uuid) : Services F K :=
  { svc with newV4 := fun _ => id }

/-- The stream answers alike for readings of one serial and one zone. -/
def SteadyStream (svc : Services F K) : Prop :=
  ∀ a b : DeviceReading F, a.serialNumber = b.serialNumber → a.zoneCode = b.zoneCode →
    svc.disseminate a = svc.disseminate b

variable (svc : Services F K) (env : Env)

/-- The stream takes readings of the serial and the zone of a request. -/
def StreamUp (req : MeterReading) : Prop :=
  svc.disseminate (requestReading svc 0 req none []) = true

/-- A reading without its identifier, if that was generated. -/
def ungenerated (req : MeterReading) (reading : DeviceReading F) : DeviceReading F :=
  if (svc.parseUuid req.readingId).isSome then reading else { reading with readingId := 0 }

/-- An item fared as it would have alone. -/
structure AsAlone (req : MeterReading) (item : Option (DeviceReading F × Bool))
    (alone : Checked ConnectError (DeviceReading F × Bool)) : Prop where
  accepted : item.isSome = true ↔ ∃ result, alone = .ok result
  same : ∀ result result', item = some result → alone = .ok result' →
    ungenerated svc req result.1 = ungenerated svc req result'.1

/-- The batch returns, counts every item once, and every item fared as it would have alone. -/
def BatchAsItems (ids : Nat → Uuid) (readings : List MeterReading) : Prop :=
  ∃ items response, ingestBatchFrom svc env 0 readings = .ok items ∧
    ingestBatch svc env readings = .ok (items.filterMap id, response) ∧
    response.acceptedCount + response.rejectedCount = readings.length ∧
    ∀ k req, readings[k]? = some req → ∃ item, items[k]? = some item ∧
      AsAlone svc req item (ingest (svc.generating (ids k)) env req)

/-! ## What is different -/

/-- The signature is over the raw payload and not over the canonical text. -/
def RawSigned (req : MeterReading) : Prop :=
  ∃ signature, req.signature = some signature ∧ req.rawPayload.isEmpty = false ∧
    svc.verifier.verifyTelemetrySignature req.meterId req.signedBytes signature = .ok false ∧
    svc.verifier.verifyTelemetrySignature req.meterId req.rawPayload signature = .ok true

/-- The frame has none of the registers that a batch drops. -/
def Bare (frame : DlmsBinaryFrame) : Prop :=
  frame.voltageCv = none ∧ frame.currentMa = none ∧ frame.batterySocBps = none

/-- Nothing that is different comes up with a request. -/
structure SameEntry (req : MeterReading) : Prop where
  returns : (batchGate svc env req).isSome = true → (requestFrame svc env req).Returns
  signed : RawSigned svc req → StreamUp svc req → ¬ (requestFrame svc env req).Returns
  registers : (batchGate svc env req).isSome = true → StreamUp svc req →
    ∀ frame, requestFrame svc env req = .ok (some frame) → Bare frame

variable {svc env} {req : MeterReading}

omit [Float64 F] in
/-- `ingest` lets in what the batch does, and what is signed over its raw payload. -/
theorem ingestGate_eq_ok {verified : Bool} :
    ingestGate svc env req = .ok verified ↔
      batchGate svc env req = some verified ∨ verified = true ∧ RawSigned svc req := by
  unfold ingestGate batchGate RawSigned
  cases carried : req.signature with
  | none => by_cases hatch : env.signatureEnforcementDisabled = true <;> simp [hatch]
  | some signature =>
    cases canonical : svc.verifier.verifyTelemetrySignature req.meterId req.signedBytes
        signature with
    | error e => simp [verifyAny, canonical]
    | ok first =>
      cases first with
      | true => cases verified <;> simp [verifyAny, canonical]
      | false =>
        cases empty : req.rawPayload.isEmpty with
        | true => simp_all [verifyAny]
        | false =>
          cases raw : svc.verifier.verifyTelemetrySignature req.meterId req.rawPayload
              signature with
          | error e => simp_all [verifyAny]
          | ok second => cases second <;> cases verified <;> simp_all [verifyAny]

omit [Float64 F] in
/-- A frame that does not decode is no error: only a panic keeps it from being answered. -/
theorem requestFrame_of_returns (returned : (requestFrame svc env req).Returns) :
    ∃ frame, requestFrame svc env req = .ok frame := by
  have caught {ε α : Type} (x : Checked ε α) (e : ConnectError) :
      (x.caught : Checked ConnectError (Option α)) ≠ .error e := by
    cases x <;> simp [Checked.caught]
  have policy (bytes : List UInt8) (key : Option AesKey) (isProduction allowPlaintext : Bool)
      (e : ConnectError) :
      applyDlmsKeyPolicy svc bytes key isProduction allowPlaintext ≠ .error e := by
    unfold applyDlmsKeyPolicy
    split
    · exact caught _ e
    · split
      · intro same
        cases same
      · split
        · exact caught _ e
        · intro same
          cases same
  cases decoded : requestFrame svc env req with
  | ok frame => exact ⟨frame, rfl⟩
  | panic =>
    rw [decoded] at returned
    exact absurd returned not_returns_panic
  | error e =>
    exfalso
    unfold requestFrame at decoded
    split at decoded
    · cases decoded
    · unfold decodeSecureFrame at decoded
      cases header : ((DlmsBinaryFrame.parseHeader svc.crypto req.rawPayload).caught :
          Checked ConnectError _) with
      | error e => exact caught _ e header
      | panic =>
        rw [header] at decoded
        cases decoded
      | ok found =>
        rw [header, ok_bind] at decoded
        split at decoded
        · cases decoded
        · simp only at decoded
          split at decoded
          · cases decoded
          · exact policy _ _ _ _ e decoded

/-! ## One item -/

/-- What the batch keeps of the registers of a frame. -/
def keptRegisters (frame : DlmsBinaryFrame) : List (String × Json F) :=
  [("dlms_manufacturer_id", .str frame.manufacturerId)]

theorem frameRegisters_eq_kept {frame : DlmsBinaryFrame} :
    (frameRegisters frame : List (String × Json F)) = keptRegisters frame ↔ Bare frame := by
  unfold frameRegisters keptRegisters Bare
  cases frame.voltageCv <;> cases frame.currentMa <;> cases frame.batterySocBps <;>
    simp [registerEntry]

theorem ingest_eq_ok {result : DeviceReading F × Bool} :
    ingest svc env req = .ok result ↔
      ∃ frame, ingestGate svc env req = .ok result.2 ∧ requestFrame svc env req = .ok frame ∧
        result.1 = requestReading svc 0 req frame ((frame.map frameRegisters).getD []) ∧
        svc.disseminate result.1 = true := by
  unfold ingest
  constructor
  · intro ran
    obtain ⟨verified, gate, ran⟩ := bind_eq_ok ran
    obtain ⟨frame, decoded, ran⟩ := bind_eq_ok ran
    simp only at ran
    split at ran
    · next taken =>
      cases ran
      exact ⟨frame, gate, decoded, rfl, taken⟩
    · cases ran
  · rintro ⟨frame, gate, decoded, reading, taken⟩
    rw [gate, decoded, ok_bind, ok_bind]
    simp only [← reading, taken, if_true]

/-- An item the batch lets in is read like a single request, but for its registers. -/
theorem ingestBatchItem_of_gate {verified : Bool} (gate : batchGate svc env req = some verified)
    {frame : Option DlmsBinaryFrame} (decoded : requestFrame svc env req = .ok frame)
    (position : Nat) :
    ingestBatchItem svc env position req =
      .ok (if svc.disseminate (requestReading svc position req frame
          ((frame.map keptRegisters).getD [])) then
        some (requestReading svc position req frame ((frame.map keptRegisters).getD []), verified)
      else none) := by
  unfold ingestBatchItem
  rw [gate]
  simp only [decoded, ok_bind]
  by_cases taken : svc.disseminate (requestReading svc position req frame
      ((frame.map keptRegisters).getD [])) = true
  · rw [if_pos taken]
    exact if_pos taken
  · rw [if_neg taken]
    exact if_neg taken

theorem ingestBatchItem_of_no_gate (gate : batchGate svc env req = none) (position : Nat) :
    ingestBatchItem svc env position req = .ok none := by
  unfold ingestBatchItem
  rw [gate]

theorem streamUp_iff (steady : SteadyStream svc) (position : Nat) (frame : Option DlmsBinaryFrame)
    (metadata : List (String × Json F)) :
    svc.disseminate (requestReading svc position req frame metadata) = true ↔
      StreamUp svc req := by
  unfold StreamUp
  rw [steady (requestReading svc position req frame metadata) (requestReading svc 0 req none [])
    rfl rfl]

theorem ungenerated_requestReading (position : Nat) (id : Uuid) (frame : Option DlmsBinaryFrame)
    {metadata metadata' : List (String × Json F)} :
    ungenerated svc req (requestReading svc position req frame metadata) =
        ungenerated svc req (requestReading (svc.generating id) 0 req frame metadata') ↔
      metadata = metadata' := by
  unfold ungenerated
  cases parsed : svc.parseUuid req.readingId with
  | some given => simp [requestReading, Services.generating, parsed, billedTime]
  | none => simp [requestReading, Services.generating, billedTime]

section

variable (steady : SteadyStream svc)

include steady

theorem streamUp_generating (id : Uuid) (frame : Option DlmsBinaryFrame)
    (metadata : List (String × Json F)) :
    (svc.generating id).disseminate (requestReading (svc.generating id) 0 req frame metadata) =
        true ↔ StreamUp svc req := by
  unfold StreamUp
  rw [show (svc.generating id).disseminate = svc.disseminate from rfl,
    steady (requestReading (svc.generating id) 0 req frame metadata)
      (requestReading svc 0 req none []) rfl rfl]

/-- The single handler accepts what passes its gate and decodes, if the stream is up. -/
theorem ingest_generating {verified : Bool} {frame : Option DlmsBinaryFrame}
    (gate : batchGate svc env req = some verified ∨ verified = true ∧ RawSigned svc req)
    (decoded : requestFrame svc env req = .ok frame) (up : StreamUp svc req) (id : Uuid) :
    ingest (svc.generating id) env req = .ok (requestReading (svc.generating id) 0 req frame
      ((frame.map frameRegisters).getD []), verified) :=
  ingest_eq_ok.mpr ⟨frame, ingestGate_eq_ok.mpr gate, decoded, rfl,
    (streamUp_generating steady id frame _).mpr up⟩

/-- And nothing else. -/
theorem of_ingest_generating {id : Uuid} {result : DeviceReading F × Bool}
    (ran : ingest (svc.generating id) env req = .ok result) :
    (batchGate svc env req = some result.2 ∨ result.2 = true ∧ RawSigned svc req) ∧
      (requestFrame svc env req).Returns ∧ StreamUp svc req := by
  obtain ⟨frame, passed, decoded, reading, taken⟩ := ingest_eq_ok.mp ran
  rw [reading, streamUp_generating steady] at taken
  have gate := ingestGate_eq_ok.mp passed
  refine ⟨gate.imp (fun batch => batch) (fun raw => raw), ?_, taken⟩
  rw [show requestFrame svc env req = .ok frame from decoded]
  exact returns_ok frame

omit [Float64 F] steady in
theorem asAlone_none {alone : Checked ConnectError (DeviceReading F × Bool)}
    (refused : ∀ result, alone ≠ .ok result) : AsAlone svc req none alone := by
  refine ⟨⟨fun accepted => absurd accepted Bool.false_ne_true, ?_⟩, ?_⟩
  · rintro ⟨result, ran⟩
    exact absurd ran (refused result)
  · intro _ _ item
    cases item

omit [Float64 F] steady in
theorem batchGate_of_rawSigned (raw : RawSigned svc req) : batchGate svc env req = none := by
  obtain ⟨signature, carried, _, canonical, _⟩ := raw
  unfold batchGate
  rw [carried]
  simp only [canonical]

theorem sameEntry_of_asAlone {position : Nat} {id : Uuid}
    {item : Option (DeviceReading F × Bool)}
    (ran : ingestBatchItem svc env position req = .ok item)
    (asAlone : AsAlone svc req item (ingest (svc.generating id) env req)) :
    SameEntry svc env req := by
  refine ⟨?_, ?_, ?_⟩
  · intro gate panics
    obtain ⟨verified, gate⟩ := Option.isSome_iff_exists.mp gate
    unfold ingestBatchItem at ran
    rw [gate] at ran
    simp only [panics, panic_bind] at ran
    cases ran
  · intro raw up returned
    obtain ⟨frame, decoded⟩ := requestFrame_of_returns returned
    rw [ingestBatchItem_of_no_gate (batchGate_of_rawSigned raw)] at ran
    cases ran
    have single := ingest_generating steady (.inr ⟨rfl, raw⟩) decoded up id
    exact Bool.false_ne_true (asAlone.accepted.mpr ⟨_, single⟩)
  · intro gate up frame decoded
    obtain ⟨verified, gate⟩ := Option.isSome_iff_exists.mp gate
    rw [ingestBatchItem_of_gate gate decoded, if_pos ((streamUp_iff steady _ _ _).mpr up)] at ran
    cases ran
    have same := asAlone.same _ _ rfl (ingest_generating steady (.inl gate) decoded up id)
    rw [ungenerated_requestReading] at same
    exact (frameRegisters_eq_kept (F := F)).mp same.symm

theorem asAlone_of_sameEntry (entry : SameEntry svc env req) (position : Nat) (id : Uuid) :
    ∃ item, ingestBatchItem svc env position req = .ok item ∧
      AsAlone svc req item (ingest (svc.generating id) env req) := by
  cases gate : batchGate svc env req with
  | none =>
    refine ⟨none, ingestBatchItem_of_no_gate gate position, asAlone_none fun result ran => ?_⟩
    obtain ⟨batch | ⟨_, raw⟩, returned, up⟩ := of_ingest_generating steady ran
    · rw [gate] at batch
      cases batch
    · exact entry.signed raw up returned
  | some verified =>
    have passes : (batchGate svc env req).isSome = true := by rw [gate]; rfl
    obtain ⟨frame, decoded⟩ := requestFrame_of_returns (entry.returns passes)
    refine ⟨_, ingestBatchItem_of_gate gate decoded position, ?_⟩
    by_cases up : StreamUp svc req
    · have kept : ((frame.map keptRegisters).getD [] : List (String × Json F)) =
          (frame.map frameRegisters).getD [] := by
        cases frame with
        | none => rfl
        | some frame =>
          exact (frameRegisters_eq_kept.mpr (entry.registers passes up frame decoded)).symm
      have single := ingest_generating steady (.inl gate) decoded up id
      rw [if_pos ((streamUp_iff steady _ _ _).mpr up)]
      refine ⟨⟨fun _ => ⟨_, single⟩, fun _ => rfl⟩, ?_⟩
      intro result result' item ran
      cases item
      cases single.symm.trans ran
      exact (ungenerated_requestReading position id frame).mpr kept
    · rw [if_neg (mt (streamUp_iff steady _ _ _).mp up)]
      refine asAlone_none fun result ran => ?_
      exact absurd (of_ingest_generating steady ran).2.2 up

/-- An item fares as it would alone exactly if nothing that is different comes up with it. -/
theorem item_asAlone_iff (position : Nat) (id : Uuid) :
    (∃ item, ingestBatchItem svc env position req = .ok item ∧
      AsAlone svc req item (ingest (svc.generating id) env req)) ↔ SameEntry svc env req := by
  constructor
  · rintro ⟨item, ran, asAlone⟩
    exact sameEntry_of_asAlone steady ran asAlone
  · exact fun entry => asAlone_of_sameEntry steady entry position id

end

/-! ## The batch -/

/-- The loop returns, with every item as it would be alone, exactly if every item does. -/
theorem ingestBatchFrom_asAlone_iff (steady : SteadyStream svc) (ids : Nat → Uuid)
    (readings : List MeterReading) (position : Nat) :
    (∃ items, ingestBatchFrom svc env position readings = .ok items ∧
      items.length = readings.length ∧
      ∀ k req, readings[k]? = some req → ∃ item, items[k]? = some item ∧
        AsAlone svc req item (ingest (svc.generating (ids (position + k))) env req)) ↔
      ∀ req ∈ readings, SameEntry svc env req := by
  induction readings generalizing position with
  | nil =>
    refine iff_of_true ⟨[], rfl, rfl, ?_⟩ (by simp)
    intro k req found
    rw [List.getElem?_nil] at found
    cases found
  | cons req rest ih =>
    have shifted (k : Nat) : position + (k + 1) = position + 1 + k := by omega
    have items := ih (position + 1)
    rw [List.forall_mem_cons, ← item_asAlone_iff steady position (ids position), ← items,
      ingestBatchFrom]
    constructor
    · rintro ⟨all, ran, length, alone⟩
      obtain ⟨item, first, ran⟩ := bind_eq_ok ran
      obtain ⟨others, onward, ran⟩ := bind_eq_ok ran
      cases ran
      obtain ⟨found, here, asAlone⟩ := alone 0 req rfl
      cases here
      refine ⟨⟨item, first, asAlone⟩, others, onward, Nat.succ.inj length, ?_⟩
      intro k next listed
      rw [← shifted]
      exact alone (k + 1) next listed
    · rintro ⟨⟨item, first, asAlone⟩, others, onward, length, alone⟩
      refine ⟨item :: others, by rw [first, onward]; rfl,
        by rw [List.length_cons, List.length_cons, length], ?_⟩
      intro k next listed
      cases k with
      | zero =>
        cases listed
        exact ⟨item, rfl, asAlone⟩
      | succ k =>
        rw [shifted]
        exact alone k next listed

theorem sameEntry_of_batchAsItems (steady : SteadyStream svc) {ids : Nat → Uuid}
    {readings : List MeterReading} (asItems : BatchAsItems svc env ids readings) :
    ∀ req ∈ readings, SameEntry svc env req := by
  obtain ⟨items, response, ran, answered, counted, alone⟩ := asItems
  rw [← ingestBatchFrom_asAlone_iff steady ids readings 0]
  refine ⟨items, ran, ?_, ?_⟩
  · rw [ingestBatch, ran, ok_bind] at answered
    cases answered
    have fewer : (items.filterMap id).length ≤ items.length := List.length_filterMap_le _ _
    simp only at counted
    omega
  · simpa only [Nat.zero_add] using alone

theorem batchAsItems_of_sameEntry (steady : SteadyStream svc) {ids : Nat → Uuid}
    {readings : List MeterReading} (entries : ∀ req ∈ readings, SameEntry svc env req) :
    BatchAsItems svc env ids readings := by
  rw [← ingestBatchFrom_asAlone_iff steady ids readings 0] at entries
  obtain ⟨items, ran, length, alone⟩ := entries
  refine ⟨items, _, ran, by rw [ingestBatch, ran]; rfl, ?_, ?_⟩
  · have fewer : (items.filterMap id).length ≤ items.length := List.length_filterMap_le _ _
    simp only
    omega
  · simpa only [Nat.zero_add] using alone

/-- A batch does to its items what `ingest` does to each alone, and counts them all, exactly if
nothing that is different comes up with any of them. The three differences are a signature over the
raw payload, a frame with registers that the batch drops, and a frame on which the decoder panics.
-/
theorem batch_as_items_iff (steady : SteadyStream svc) (env : Env) (ids : Nat → Uuid)
    (readings : List MeterReading) :
    BatchAsItems svc env ids readings ↔ ∀ req ∈ readings, SameEntry svc env req :=
  ⟨sameEntry_of_batchAsItems steady, batchAsItems_of_sameEntry steady⟩

end

theorem steady_oneMeterServices : SteadyStream oneMeterServices :=
  fun _ _ _ _ => rfl

/-- Two requests that are signed over their fields, the second with a byte of raw payload that is no
frame, fare in a batch as they do alone. -/
theorem signed_request_fares_alike :
    BatchAsItems oneMeterServices productionEnv (fun _ => 7)
      [signedRequest "SN-1" "5", { signedRequest "SN-2" "6" with rawPayload := [7] }] := by
  refine (batch_as_items_iff steady_oneMeterServices productionEnv _ _).mpr ?_
  have signed (raw : List UInt8) (decoded : requestFrame oneMeterServices productionEnv
      { signedRequest "SN-2" "6" with rawPayload := raw } = .ok none) :
      SameEntry oneMeterServices productionEnv
        { signedRequest "SN-2" "6" with rawPayload := raw } := by
    refine ⟨fun _ => decoded ▸ returns_ok none, ?_, ?_⟩
    · rintro ⟨signature, same, -, unsigned, -⟩
      cases same
      have verified : oneMeterServices.verifier.verifyTelemetrySignature "M1"
          (signedRequest "SN-2" "6").signedBytes zeroSignature = .ok true := by decide +kernel
      cases verified.symm.trans unsigned
    · intro _ _ frame found
      cases decoded.symm.trans found
  intro req mem
  rcases List.mem_cons.mp mem with rfl | mem
  · refine ⟨fun _ => returns_ok none, ?_, ?_⟩
    · rintro ⟨_, _, nonempty, _⟩
      cases nonempty
    · intro _ _ frame decoded
      cases decoded
  · rw [List.mem_singleton.mp mem]
    exact signed [7] (by decide +kernel)

/-- `M1` signs its raw payload, which is a byte that is no frame. -/
def rawServices : Services ℚ Unit :=
  { oneMeterServices with
    verifier := { oneMeterServices.verifier with
      verify := fun _ message signature => message == [7] && signature == List.replicate 64 0 } }

def rawRequest : MeterReading :=
  { signedRequest "SN-1" "5" with rawPayload := [7] }

/-- What `ingest` accepts over its raw payload, a batch rejects. -/
theorem raw_signature_is_rejected_in_batch :
    (∃ result, ingest rawServices productionEnv rawRequest = .ok result) ∧
    ingestBatchItem rawServices productionEnv 0 rawRequest = .ok none ∧
    ¬ BatchAsItems rawServices productionEnv (fun _ => 7) [rawRequest] := by
  have gate : batchGate rawServices productionEnv rawRequest = none := by decide +kernel
  have raw : RawSigned rawServices rawRequest := by
    refine ⟨zeroSignature, rfl, rfl, by decide +kernel, by decide +kernel⟩
  have decoded : requestFrame rawServices productionEnv rawRequest = .ok none := by
    decide +kernel
  refine ⟨⟨(requestReading rawServices 0 rawRequest none [], true), ?_⟩,
    ingestBatchItem_of_no_gate gate 0, ?_⟩
  · exact ingest_eq_ok.mpr ⟨none, ingestGate_eq_ok.mpr (.inr ⟨rfl, raw⟩), decoded, rfl, rfl⟩
  intro asItems
  have steady : SteadyStream rawServices := fun _ _ _ _ => rfl
  have entry := sameEntry_of_batchAsItems steady asItems rawRequest List.mem_cons_self
  refine entry.signed raw rfl ?_
  rw [decoded]
  exact returns_ok none

end AggregatorBridge
