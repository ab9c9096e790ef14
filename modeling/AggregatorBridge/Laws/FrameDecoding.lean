import AggregatorBridge.Grpc

/-!
# Which bytes the secure-frame path survives

`DlmsBinaryFrame.parse_returns_iff` decides one call of the decoder. This module carries the
answer outwards, to the two places that feed the decoder bytes no signature has been checked
on: `decode_secure_frame` and `bulk_raw_ingest`. A key store is outside the caller's control,
so a path is called safe when it returns under EVERY answer the key store and the environment
can give; for such paths the condition is the same `DecodesSafely`, frame by frame, and for
the bulk request also a meter count that is not negative.

The last part is about the count alone: `Vec::with_capacity` is asked for `meter_count as
usize` elements before a single byte is looked at, and the wire type of the count is signed.

That a path returns does not say that it returns a reading: most bytes are skipped.
-/

namespace AggregatorBridge

open Checked DlmsBinaryFrame

section

variable {F K : Type} (svc : Services F K) (env : Env)

/-- A stored key is one the cipher accepts. -/
theorem keyFits_map (key : Option AesKey) : KeyFits (key.map Subtype.val) := by
  rintro bytes found
  obtain ⟨k, _, rfl⟩ := Option.map_eq_some_iff.mp found
  exact k.2

/-- The key policy never adds a panic of its own. -/
theorem applyDlmsKeyPolicy_returns {frameBytes : List UInt8}
    (safe : DecodesSafely svc.crypto frameBytes) (key : Option AesKey) (prod plain : Bool) :
    (applyDlmsKeyPolicy svc frameBytes key prod plain).Returns := by
  cases key with
  | some k =>
    rw [applyDlmsKeyPolicy, returns_caught]
    exact (parse_returns_iff svc.crypto frameBytes (keyFits_map (some k))).mpr safe
  | none =>
    have plaintext := (parse_returns_iff svc.crypto frameBytes (keyFits_map none)).mpr safe
    simp only [applyDlmsKeyPolicy]
    split
    · exact returns_ok _
    · split
      · rw [returns_caught]
        exact plaintext
      · exact returns_ok _

theorem decodeSecureFrame_returns {frameBytes : List UInt8}
    (safe : DecodesSafely svc.crypto frameBytes) :
    (decodeSecureFrame svc env frameBytes).Returns := by
  rw [decodeSecureFrame, returns_bind, returns_caught]
  refine ⟨(parseHeader_returns_iff svc.crypto frameBytes).mpr fun long => (safe long).1, ?_⟩
  intro header? _
  cases header? with
  | none => exact returns_ok _
  | some header =>
    cases found : svc.getDeviceAesKey header.logicalDeviceName with
    | error e => simp only [found, returns_ok]
    | ok key =>
      simp only [found]
      exact applyDlmsKeyPolicy_returns svc safe key _ _

/-- Services whose key store holds a key for every device. -/
def Services.keyed (key : AesKey) : Services F K :=
  { svc with getDeviceAesKey := fun _ => .ok (some key) }

/-- With a key for every device each frame reaches `parse`, so an unsafe frame panics. -/
theorem decodeSecureFrame_keyed_returns {frameBytes : List UInt8} {key : AesKey}
    (returned : (decodeSecureFrame (svc.keyed key) env frameBytes).Returns) :
    DecodesSafely svc.crypto frameBytes := by
  have parsed := parse_returns_iff svc.crypto frameBytes (keyFits_map (some key))
  rw [← parsed]
  change (parse svc.crypto frameBytes (some key.1)).Returns
  rw [decodeSecureFrame, returns_bind, returns_caught] at returned
  obtain ⟨header, onward⟩ := returned
  cases read : parseHeader svc.crypto frameBytes with
  | panic =>
    change (parseHeader svc.crypto frameBytes).Returns at header
    rw [read] at header
    exact absurd header not_returns_panic
  | error e =>
    rw [parse, read, error_bind]
    exact returns_error _
  | ok h =>
    have reached := onward (some h) (by
      change (parseHeader svc.crypto _).caught = _
      rw [read]
      rfl)
    exact returns_caught.mp reached

/-- The secure-frame path reports no error: it decodes, skips or panics. -/
theorem decodeSecureFrame_ok_of_returns {frameBytes : List UInt8}
    (returned : (decodeSecureFrame svc env frameBytes).Returns) :
    ∃ decoded, decodeSecureFrame svc env frameBytes = .ok decoded := by
  rw [decodeSecureFrame] at returned ⊢
  obtain ⟨header, onward⟩ := returns_bind.mp returned
  obtain ⟨header?, read⟩ := exists_ok_of_caught header
  have rest := onward header? read
  rw [read, ok_bind]
  cases header? with
  | none => exact ⟨none, rfl⟩
  | some header =>
    simp only at rest ⊢
    split at rest
    · exact ⟨none, rfl⟩
    · next key _ =>
      cases key with
      | some k => exact exists_ok_of_caught rest
      | none =>
        rw [applyDlmsKeyPolicy] at rest ⊢
        by_cases prod : env.isProduction = true
        · exact ⟨none, if_pos prod⟩
        · rw [if_neg prod] at rest ⊢
          by_cases plain :
            plaintextDlmsAllowed env.allowPlaintextDlms env.secureModeEnabled = true
          · rw [if_pos plain] at rest ⊢
            exact exists_ok_of_caught rest
          · exact ⟨none, if_neg plain⟩

/-- The unpack loop returns exactly when every frame of it does. -/
theorem unpackBulk_returns_iff (frames : List (List UInt8 × List UInt8)) :
    (unpackBulk svc env frames).Returns ↔
      ∀ f ∈ frames, (decodeSecureFrame svc env f.1).Returns := by
  induction frames with
  | nil => simp [unpackBulk]
  | cons f frames ih =>
    obtain ⟨frameBytes, signature⟩ := f
    rw [unpackBulk, returns_bind, List.forall_mem_cons, ← ih]
    refine and_congr_right fun decodes => ?_
    constructor
    · intro onward
      obtain ⟨decoded?, decoded⟩ := decodeSecureFrame_ok_of_returns svc env decodes
      have rest := onward decoded? decoded
      cases decoded? with
      | none => exact rest
      | some frame => exact (returns_bind.mp rest).1
    · intro rest decoded? _
      cases decoded? with
      | none => exact rest
      | some frame =>
        simp only []
        rw [returns_bind]
        exact ⟨rest, fun kept _ => returns_ok _⟩

variable [Float64 F]

/-- Past the unpack loop nothing of the bulk request can panic. -/
theorem bulkRawIngest_returns_iff (payload : List UInt8) (meterCount : Int) :
    (bulkRawIngest svc env payload meterCount).Returns ↔
      0 ≤ meterCount ∧
        ∀ f ∈ splitBulkFrames payload 0, (decodeSecureFrame svc env f.1).Returns := by
  rw [bulkRawIngest, ← unpackBulk_returns_iff]
  by_cases sized : 0 ≤ meterCount
  · rw [withCapacity, if_pos sized, ok_bind, returns_bind]
    constructor
    · rintro ⟨unpacked, _⟩
      exact ⟨sized, unpacked⟩
    · rintro ⟨_, unpacked⟩
      refine ⟨unpacked, fun entries _ => ?_⟩
      split
      · exact returns_ok _
      · simp only
        split
        · exact returns_error _
        · exact returns_ok _
  · rw [withCapacity, if_neg sized, panic_bind]
    exact ⟨fun returned => absurd returned not_returns_panic, fun both => absurd both.1 sized⟩

/-! ## The whole path -/

/-- A packed bulk request that no key store and no environment can make panic. -/
def BulkDecodesSafely (crypto : FrameCrypto) (payload : List UInt8) (meterCount : Int) : Prop :=
  0 ≤ meterCount ∧ ∀ f ∈ splitBulkFrames payload 0, DecodesSafely crypto f.1

/-- The decoder and both paths that call it before any signature is checked return exactly on the
bytes that decode safely: `parse_header` and `parse` on a frame under every key,
`decode_secure_frame` on a frame and `bulk_raw_ingest` on a packed request under every key store and
environment. What they return, an error or a reading, is left open. -/
theorem frame_path_returns_iff :
    (∀ payload : List UInt8, ∀ key : Option AesKey,
      (parseHeader svc.crypto payload).Returns ∧
        (parse svc.crypto payload (key.map Subtype.val)).Returns ↔
          DecodesSafely svc.crypto payload) ∧
    (∀ frameBytes : List UInt8,
      (∀ keys env, (decodeSecureFrame { svc with getDeviceAesKey := keys } env
        frameBytes).Returns) ↔ DecodesSafely svc.crypto frameBytes) ∧
    (∀ (payload : List UInt8) (meterCount : Int),
      (∀ keys env, (bulkRawIngest { svc with getDeviceAesKey := keys } env payload
        meterCount).Returns) ↔ BulkDecodesSafely svc.crypto payload meterCount) := by
  have zeroKey : AesKey := ⟨List.replicate 32 0, List.length_replicate⟩
  have anyEnv : Env := ⟨true, false, true, false, false⟩
  refine ⟨?_, ?_, ?_⟩
  · intro payload key
    rw [parse_returns_iff svc.crypto payload (keyFits_map key)]
    constructor
    · exact fun both => both.2
    · exact fun safe =>
        ⟨(parseHeader_returns_iff svc.crypto payload).mpr fun long => (safe long).1, safe⟩
  · intro frameBytes
    constructor
    · intro returned
      exact decodeSecureFrame_keyed_returns svc anyEnv
        (returned (fun _ => .ok (some zeroKey)) anyEnv)
    · intro safe keys env
      exact decodeSecureFrame_returns { svc with getDeviceAesKey := keys } env safe
  · intro payload meterCount
    constructor
    · intro returned
      have keyed := returned (fun _ => .ok (some zeroKey)) anyEnv
      rw [bulkRawIngest_returns_iff] at keyed
      exact ⟨keyed.1, fun f mem => decodeSecureFrame_keyed_returns svc anyEnv (keyed.2 f mem)⟩
    · rintro ⟨sized, safe⟩ keys env
      rw [bulkRawIngest_returns_iff]
      exact ⟨sized, fun f mem =>
        decodeSecureFrame_returns { svc with getDeviceAesKey := keys } env (safe f mem)⟩

end

/-- Twenty-five zero bytes, a frame that declares a length of zero, are long enough to be
looked at and end `parse_header`, and with it `parse`, in a panic. -/
theorem zero_frame_panics :
    ¬ ∀ (crypto : FrameCrypto) (payload : List UInt8) (key : Option AesKey),
      (parseHeader crypto payload).Returns ∧
        (parse crypto payload (key.map Subtype.val)).Returns := by
  intro total
  let crypto : FrameCrypto := ⟨fun _ => 0, fun _ _ _ => none⟩
  have returned := (total crypto (List.replicate 25 0) none).1
  have panicked : parseHeader crypto (List.replicate 25 0) = .panic :=
    parseHeader_of_underflow crypto (by decide) (by decide)
  rw [panicked] at returned
  exact not_returns_panic returned

end AggregatorBridge
