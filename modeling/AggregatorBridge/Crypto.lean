import Mathlib.Data.List.Basic

/-!
# Telemetry signatures

`SignatureVerifier` resolves the Ed25519 key registered for a device and checks a signature
under it. Key storage, base58 and Ed25519 itself are outside this repository and are fields
of the structure; the order of the checks, and which failure is an error and which is only a
signature that does not verify, are the repository's.

A key lookup is taken as one answer per device for the duration of one request: the hot cache
in front of Redis, with its time to live, decides WHICH key is the registered one and is not
modelled here.
-/

namespace AggregatorBridge

/-- Why a registered key could not be read. -/
inductive KeyError where
  /-- Redis did not answer, also after the reconnect. -/
  | unreachable (reason : String)
  /-- There is a value, and it is not a key. -/
  | malformed (reason : String)
  deriving DecidableEq, Repr

/-- The text of an error, which is all that its callers pass on. -/
def KeyError.reason : KeyError → String
  | unreachable reason => reason
  | malformed reason => reason

/-- The verifier, over a type `K` of verifying keys. -/
structure SignatureVerifier (K : Type) where
  /-- `resolve_pubkey`: `none` only when no key is registered. -/
  resolvePubkey : String → Except KeyError (Option K)
  bs58Decode : String → Except String (List UInt8)
  /-- `VerifyingKey::verify` of a message and a 64-byte signature. -/
  verify : K → List UInt8 → List UInt8 → Bool

namespace SignatureVerifier

variable {K : Type} (verifier : SignatureVerifier K)

/-- `verify_telemetry_signature`. A missing key and an undecodable signature are errors, a
signature of the wrong length and one that does not verify are not. -/
def verifyTelemetrySignature (meterId : String) (payload : List UInt8)
    (signatureBase58 : String) : Except String Bool :=
  match verifier.resolvePubkey meterId with
  | .error e => .error e.reason
  | .ok none => .error ("Public key not found in Redis for meter: " ++ meterId)
  | .ok (some verifyingKey) =>
    match verifier.bs58Decode signatureBase58 with
    | .error e => .error ("Invalid base58 signature: " ++ e)
    | .ok signatureBytes =>
      if signatureBytes.length ≠ 64 then .ok false
      else .ok (verifier.verify verifyingKey payload signatureBytes)

/-- The signature verifies under the key registered for the device. -/
def VerifiesUnder (meterId : String) (payload : List UInt8) (signatureBase58 : String) : Prop :=
  ∃ verifyingKey signatureBytes,
    verifier.resolvePubkey meterId = .ok (some verifyingKey) ∧
    verifier.bs58Decode signatureBase58 = .ok signatureBytes ∧
    signatureBytes.length = 64 ∧
    verifier.verify verifyingKey payload signatureBytes = true

/-- `Ok(true)` is exactly a signature that verifies under the registered key. -/
theorem verifyTelemetrySignature_ok_true {meterId : String} {payload : List UInt8}
    {signature : String} :
    verifier.verifyTelemetrySignature meterId payload signature = .ok true ↔
      verifier.VerifiesUnder meterId payload signature := by
  unfold verifyTelemetrySignature VerifiesUnder
  cases resolved : verifier.resolvePubkey meterId with
  | error e => simp
  | ok key =>
    cases key with
    | none => simp
    | some key =>
      cases decoded : verifier.bs58Decode signature with
      | error e => simp
      | ok bytes =>
        by_cases len : bytes.length = 64
        · simp [len]
        · simp [len]

/-- One entry of a verified batch: an absent or malformed key rejects that entry only. -/
def verifyEntry (meterId : String) (payload signature : List UInt8) : Bool :=
  match verifier.resolvePubkey meterId with
  | .ok (some verifyingKey) => verifier.verify verifyingKey payload signature
  | _ => false

/-- The first lookup of a batch that Redis did not answer, if any. -/
def unreachableKey : List (String × List UInt8 × List UInt8) → Option String
  | [] => none
  | (meterId, _) :: rest =>
    match verifier.resolvePubkey meterId with
    | .error (.unreachable reason) => some reason
    | _ => unreachableKey rest

/-- `verify_telemetry_signature_batch`, over entries of meter, payload and signature: one
lookup that cannot be answered fails the batch. The source takes the three columns
separately and errors when their lengths differ; its only caller builds them in one loop. -/
def verifyTelemetrySignatureBatch (entries : List (String × List UInt8 × List UInt8)) :
    Except String (List Bool) :=
  match verifier.unreachableKey entries with
  | some reason => .error reason
  | none => .ok (entries.map fun e => verifier.verifyEntry e.1 e.2.1 e.2.2)

end SignatureVerifier

end AggregatorBridge
