import AggregatorBridge.Chrono
import AggregatorBridge.Lib.Checked
import AggregatorBridge.Lib.MachineInt
import AggregatorBridge.Lib.Text

/-!
# The secure v4 binary frame

`DlmsBinaryFrame::parse_header` validates a frame and reads its plaintext header,
`DlmsBinaryFrame::parse` decrypts the block behind the header and walks its TLVs. Both run on
bytes nobody has authenticated yet, so what matters about them first is how they END: with a
value, with an error, or with a panic. The model is in `Checked`, every index, slice,
subtraction and conversion of the source is the checked one, and nothing is assumed about the
bytes.

CRC-32 and AES-256-GCM are the two things the decoder takes from other crates; they are the
fields of `FrameCrypto`, and no theorem here assumes anything about either.

## What is proved

`parseHeader_returns_iff` and `parse_returns_iff` say exactly on which frames the two
functions return. The declared length `payload[1]` is bounded from above before it is used,
and never from below: a frame of at least 25 bytes that declares fewer than 2 makes the
subtraction `frame_data.len() - 4` wrap, and one that declares fewer than 23 but passes the
checksum, the version and the timestamp makes the slice `payload[21..total_length - 2]` run
backwards. Everywhere else the decoder returns.
-/

namespace AggregatorBridge

open Checked MachineInt Text

/-- The two primitives the decoder calls into. -/
structure FrameCrypto where
  crc32 : List UInt8 → Nat
  /-- AES-256-GCM: key, nonce, ciphertext with its tag; `none` when the tag does not match. -/
  decrypt : List UInt8 → List UInt8 → List UInt8 → Option (List UInt8)

/-- Protocol version of a secure v4 frame. -/
def protocolVersionV4 : UInt8 := 0x04

/-- The fields of a header in the clear, as `parse_header` returns them. -/
structure DlmsHeader where
  version : UInt8
  manufacturerId : String
  logicalDeviceName : String
  timestamp : DateTime
  deriving DecidableEq

/-- A parsed frame: the header and the registers its TLVs carried. -/
structure DlmsBinaryFrame extends DlmsHeader where
  activeEnergyImportWh : Option Nat
  activeEnergyExportWh : Option Nat
  voltageCv : Option Nat
  currentMa : Option Nat
  batterySocBps : Option Nat
  deriving DecidableEq

/-- `{:02x}` of a byte. -/
def hex2 (b : UInt8) : String :=
  String.ofList [Nat.digitChar (b.toNat / 16), Nat.digitChar (b.toNat % 16)]

/-- The texts of the decoder's errors. -/
def FrameError.tooSmall : String := "Payload too small for v4 header"

/-- The texts of the decoder's errors, as its callers log them. -/
def FrameError.lengthExceedsPayload : String := "Declared frame length exceeds payload"

def FrameError.crcMismatch : String := "CRC-32 integrity check failed"

/-- The one error text with an argument; the byte is written in two hexadecimal digits. -/
def FrameError.unsupportedVersion (version : UInt8) : String :=
  "Unsupported protocol version: 0x" ++ hex2 version

def FrameError.invalidTs : String := "Invalid TS"

def FrameError.decryptionFailed : String := "Decryption failed: aead::Error"

namespace DlmsBinaryFrame

variable (crypto : FrameCrypto)

/-- `parse_header`, with the checks in the order of the source. Every index and slice is checked as
Rust checks it, so a frame that is declared too short ends in a panic and not in an error. -/
def parseHeader (payload : List UInt8) : Checked String DlmsHeader := do
  ensure (25 ≤ payload.length) FrameError.tooSmall
  -- 1. Integrity check over the whole frame.
  let totalLength ← index payload 1
  ensure (totalLength.toNat + 2 ≤ payload.length) FrameError.lengthExceedsPayload
  let frameData ← slice payload 0 (totalLength.toNat + 2)
  let mid ← usub frameData.length 4
  let dataToChecksum ← slice frameData 0 mid
  let checksumBytes ← slice frameData mid frameData.length
  let checksum ← exactly 4 checksumBytes
  ensure (beNat checksum = crypto.crc32 dataToChecksum) FrameError.crcMismatch
  -- 2. Version check.
  let version ← index payload 0
  ensure (version = protocolVersionV4) (FrameError.unsupportedVersion version)
  -- 3. Plaintext header: manufacturer 3 bytes, logical device name 8, timestamp 8.
  let manufacturer ← slice payload 2 5
  let ldn ← slice payload 5 13
  let tsSlice ← slice payload 13 21
  let tsBytes ← exactly 8 tsSlice
  let timestamp ← ofOption FrameError.invalidTs (DateTime.timestampOpt (asI64 (beNat tsBytes)))
  .ok
    { version := version
      manufacturerId := String.ofList (fromUtf8Lossy manufacturer)
      logicalDeviceName := String.ofList (trimMatches '\x00' (fromUtf8Lossy ldn))
      timestamp := timestamp }

/-- One TLV into the frame: a known tag of the right length is stored, anything else is
skipped. -/
def store (frame : DlmsBinaryFrame) (tag : UInt8) (val : List UInt8) :
    Checked String DlmsBinaryFrame :=
  if tag = 1 ∧ val.length = 8 then do
    let bytes ← exactly 8 val
    .ok { frame with activeEnergyImportWh := some (beNat bytes) }
  else if tag = 2 ∧ val.length = 8 then do
    let bytes ← exactly 8 val
    .ok { frame with activeEnergyExportWh := some (beNat bytes) }
  else if tag = 3 ∧ val.length = 4 then do
    let bytes ← exactly 4 val
    .ok { frame with voltageCv := some (beNat bytes) }
  else if tag = 4 ∧ val.length = 4 then do
    let bytes ← exactly 4 val
    .ok { frame with currentMa := some (beNat bytes) }
  else if tag = 5 ∧ val.length = 4 then do
    let bytes ← exactly 4 val
    .ok { frame with batterySocBps := some (beNat bytes) }
  else .ok frame

/-- The TLV loop from `cursor` on. It stops at the end of the data, and before a TLV whose
length byte or value would run past it. -/
def storeTlvs (data : List UInt8) (cursor : Nat) (frame : DlmsBinaryFrame) :
    Checked String DlmsBinaryFrame :=
  if more : cursor < data.length then do
    let tag ← index data cursor
    if cursor + 1 < data.length then do
      let tagLen ← index data (cursor + 1)
      if cursor + 2 + tagLen.toNat ≤ data.length then do
        let val ← slice data (cursor + 2) (cursor + 2 + tagLen.toNat)
        let frame ← store frame tag val
        storeTlvs data (cursor + 2 + tagLen.toNat) frame
      else .ok frame
    else .ok frame
  else .ok frame
  termination_by data.length - cursor

/-- Step 4 of `parse`: AES-256-GCM under the device key, with the nonce manufacturer,
timestamp, version. With no key the block is read as plaintext. -/
def decryptBlock (encryptionKey : Option (List UInt8)) (nonce encryptedData : List UInt8) :
    Checked String (List UInt8) :=
  match encryptionKey with
  | some keyBytes => do
    -- `Key::from_slice` panics on any other length.
    let key ← exactly 32 keyBytes
    ofOption FrameError.decryptionFailed (crypto.decrypt key nonce encryptedData)
  | none => .ok encryptedData

/-- `parse`: the header, then the block between it and the checksum, decrypted under the key if
there is one and read as records. -/
def parse (payload : List UInt8) (encryptionKey : Option (List UInt8)) :
    Checked String DlmsBinaryFrame := do
  let header ← parseHeader crypto payload
  let totalLength ← index payload 1
  -- The nonce needs the raw header bytes: manufacturer [2..5], timestamp [13..21].
  let manufBytes ← slice payload 2 5
  let tsSlice ← slice payload 13 21
  let tsBytes ← exactly 8 tsSlice
  let blockEnd ← usub (totalLength.toNat + 2) 4
  let encryptedData ← slice payload 21 blockEnd
  let decryptedData ←
    decryptBlock crypto encryptionKey (manufBytes ++ tsBytes ++ [header.version]) encryptedData
  storeTlvs decryptedData 0
    { header with
      activeEnergyImportWh := none
      activeEnergyExportWh := none
      voltageCv := none
      currentMa := none
      batterySocBps := none }

/-! ## The checks, read off the bytes -/

/-- The length byte of a frame. -/
def declaredLength (payload : List UInt8) : Nat :=
  (payload.getD 1 0).toNat

/-- The bytes a frame declares to be its own. -/
def frameData (payload : List UInt8) : List UInt8 :=
  payload.take (declaredLength payload + 2)

/-- The checksum of a frame, its last four bytes, is the one of the bytes before it. -/
def ChecksumMatches (payload : List UInt8) : Prop :=
  beNat ((frameData payload).drop ((frameData payload).length - 4)) =
    crypto.crc32 ((frameData payload).take ((frameData payload).length - 4))

instance (payload : List UInt8) : Decidable (ChecksumMatches crypto payload) :=
  inferInstanceAs (Decidable (_ = _))

/-- Everything the header is checked for, read off the bytes: the declared length fits, the
checksum matches, the version is the supported one and the timestamp is a date. -/
structure HeaderValid (payload : List UInt8) : Prop where
  fits : declaredLength payload + 2 ≤ payload.length
  checksum : ChecksumMatches crypto payload
  version : payload.getD 0 0 = protocolVersionV4
  timestamp : (DateTime.timestampOpt (asI64 (beNat ((payload.take 21).drop 13)))).isSome

private theorem index_getD {payload : List UInt8} {i : Nat} (h : i < payload.length) :
    (index payload i : Checked String UInt8) = ok (payload.getD i 0) := by
  rw [index_of_lt h, List.getD_eq_getElem?_getD, List.getElem?_eq_getElem h]
  rfl

/-! ## How the header ends -/

theorem parseHeader_of_short {payload : List UInt8} (short : payload.length < 25) :
    parseHeader crypto payload = .error FrameError.tooSmall := by
  have no : ¬ 25 ≤ payload.length := by omega
  simp [parseHeader, ensure, no]

theorem parseHeader_of_overrun {payload : List UInt8} (long : 25 ≤ payload.length)
    (overrun : ¬ declaredLength payload + 2 ≤ payload.length) :
    parseHeader crypto payload = .error FrameError.lengthExceedsPayload := by
  have one : 1 < payload.length := by omega
  unfold declaredLength at overrun
  rw [parseHeader, ensure_of long, ok_bind, index_getD one, ok_bind, ensure, if_neg overrun,
    error_bind]

/-- A declared length below two leaves no room for the checksum: the split point wraps. -/
theorem parseHeader_of_underflow {payload : List UInt8} (long : 25 ≤ payload.length)
    (tiny : declaredLength payload < 2) : parseHeader crypto payload = .panic := by
  have one : 1 < payload.length := by omega
  have fits : declaredLength payload + 2 ≤ payload.length := by omega
  unfold declaredLength at tiny fits
  have wraps : ¬ 4 ≤ (payload.getD 1 0).toNat + 2 := by omega
  rw [parseHeader, ensure_of long, ok_bind, index_getD one, ok_bind, ensure_of fits, ok_bind,
    slice_of_le (Nat.zero_le _) fits, ok_bind]
  simp only [List.drop_zero, List.length_take, Nat.min_eq_left fits, usub, wraps, if_false,
    panic_bind]

/-- The header a frame spells, given its timestamp. -/
def headerAt (payload : List UInt8) (timestamp : DateTime) : DlmsHeader :=
  { version := payload.getD 0 0
    manufacturerId := String.ofList (fromUtf8Lossy ((payload.take 5).drop 2))
    logicalDeviceName :=
      String.ofList (trimMatches '\x00' (fromUtf8Lossy ((payload.take 13).drop 5)))
    timestamp := timestamp }

/-- On a frame of full size whose declared length covers its checksum, `parse_header` is its
three checks and nothing else: every index, slice and conversion is in range. -/
theorem parseHeader_eq {payload : List UInt8} (long : 25 ≤ payload.length)
    (covers : 2 ≤ declaredLength payload)
    (fits : declaredLength payload + 2 ≤ payload.length) :
    parseHeader crypto payload = (do
      ensure (ChecksumMatches crypto payload) FrameError.crcMismatch
      ensure (payload.getD 0 0 = protocolVersionV4)
        (FrameError.unsupportedVersion (payload.getD 0 0))
      let timestamp ← ofOption FrameError.invalidTs
        (DateTime.timestampOpt (asI64 (beNat ((payload.take 21).drop 13))))
      .ok (headerAt payload timestamp)) := by
  have zero : 0 < payload.length := by omega
  have one : 1 < payload.length := by omega
  have len : (frameData payload).length = declaredLength payload + 2 := by
    rw [frameData, List.length_take]
    omega
  have mid : 4 ≤ (frameData payload).length := by omega
  have midLe : (frameData payload).length - 4 ≤ (frameData payload).length := by omega
  have crcLen : ((frameData payload).drop ((frameData payload).length - 4)).length = 4 := by
    rw [List.length_drop]
    omega
  have tsLen : ((payload.take 21).drop 13).length = 8 := by
    rw [List.length_drop, List.length_take]
    omega
  rw [parseHeader, ensure_of long, ok_bind, index_getD one, ok_bind]
  change (ensure (declaredLength payload + 2 ≤ payload.length) _ >>= fun _ =>
    slice payload 0 (declaredLength payload + 2) >>= _) = _
  rw [ensure_of fits, ok_bind, slice_of_le (Nat.zero_le _) fits, ok_bind, List.drop_zero]
  change (usub (frameData payload).length 4 >>= fun mid =>
    slice (frameData payload) 0 mid >>= fun dataToChecksum =>
    slice (frameData payload) mid (frameData payload).length >>= _) = _
  rw [usub_of_le mid, ok_bind, slice_of_le (Nat.zero_le _) midLe, ok_bind, List.drop_zero,
    slice_of_le midLe le_rfl, ok_bind, List.take_length, exactly_of_length crcLen, ok_bind,
    index_getD zero, slice_of_le (by omega : 2 ≤ 5) (by omega : 5 ≤ payload.length),
    slice_of_le (by omega : 5 ≤ 13) (by omega : 13 ≤ payload.length),
    slice_of_le (by omega : 13 ≤ 21) (by omega : 21 ≤ payload.length)]
  simp only [ok_bind, exactly_of_length tsLen]
  rfl

/-- `parse_header` returns exactly on the frames that are too short to be looked at or
declare at least two bytes. -/
theorem parseHeader_returns_iff (payload : List UInt8) :
    (parseHeader crypto payload).Returns ↔
      (25 ≤ payload.length → 2 ≤ declaredLength payload) := by
  constructor
  · intro returned long
    by_contra tiny
    rw [parseHeader_of_underflow crypto long (by omega)] at returned
    exact not_returns_panic returned
  · intro covers
    by_cases long : 25 ≤ payload.length
    · by_cases fits : declaredLength payload + 2 ≤ payload.length
      · rw [parseHeader_eq crypto long (covers long) fits]
        simp [returns_bind]
      · rw [parseHeader_of_overrun crypto long fits]
        exact returns_error _
    · rw [parseHeader_of_short crypto (by omega)]
      exact returns_error _

/-- Among the frames it returns on, `parse_header` accepts exactly the valid ones. -/
theorem parseHeader_ok_iff {payload : List UInt8} (long : 25 ≤ payload.length)
    (covers : 2 ≤ declaredLength payload) :
    (∃ header, parseHeader crypto payload = .ok header) ↔ HeaderValid crypto payload := by
  constructor
  · rintro ⟨header, accepted⟩
    by_cases fits : declaredLength payload + 2 ≤ payload.length
    · rw [parseHeader_eq crypto long covers fits] at accepted
      obtain ⟨_, checksum, accepted⟩ := bind_eq_ok accepted
      obtain ⟨_, version, accepted⟩ := bind_eq_ok accepted
      obtain ⟨timestamp, date, _⟩ := bind_eq_ok accepted
      refine ⟨fits, of_ensure checksum, of_ensure version, ?_⟩
      rw [of_ofOption date]
      rfl
    · rw [parseHeader_of_overrun crypto long fits] at accepted
      cases accepted
  · rintro ⟨fits, checksum, version, date⟩
    obtain ⟨timestamp, date⟩ := Option.isSome_iff_exists.mp date
    refine ⟨headerAt payload timestamp, ?_⟩
    rw [parseHeader_eq crypto long covers fits, ensure_of checksum, ok_bind,
      ensure_of version, ok_bind, date]
    rfl

/-! ## The TLV walk -/

/-- Storing a TLV returns: a value is converted only where its length was just matched. -/
theorem store_returns (frame : DlmsBinaryFrame) (tag : UInt8) (val : List UInt8) :
    (store frame tag val).Returns := by
  unfold store
  repeat'
    split
    · next matched =>
      rw [exactly_of_length matched.2]
      exact returns_ok _
  exact returns_ok _

/-- The TLV loop returns from every cursor, on every data. -/
theorem storeTlvs_returns (data : List UInt8) (cursor : Nat) (frame : DlmsBinaryFrame) :
    (storeTlvs data cursor frame).Returns := by
  induction cursor, frame using storeTlvs.induct data with
  | case1 cursor frame more ih =>
    rw [storeTlvs, dif_pos more, index_getD more, ok_bind]
    split
    · next hasLen =>
      rw [index_getD hasLen, ok_bind]
      split
      · next fits =>
        rw [slice_of_le (by omega) fits, ok_bind, returns_bind]
        refine ⟨store_returns _ _ _, ?_⟩
        intro next _
        exact ih hasLen _ fits next
      · exact returns_ok _
    · exact returns_ok _
  | case2 cursor frame done =>
    rw [storeTlvs, dif_neg done]
    exact returns_ok _

/-! ## When the decoder returns -/

/-- The frames on which neither function panics: short ones, and full ones that declare at
least the two bytes the checksum needs and, once the header is accepted, at least the 23 the
encrypted block needs. -/
def DecodesSafely (payload : List UInt8) : Prop :=
  25 ≤ payload.length →
    2 ≤ declaredLength payload ∧ (HeaderValid crypto payload → 23 ≤ declaredLength payload)

/-- A key the cipher can be built from, or no key. -/
def KeyFits (encryptionKey : Option (List UInt8)) : Prop :=
  ∀ key, encryptionKey = some key → key.length = 32

theorem decryptBlock_returns {encryptionKey : Option (List UInt8)}
    (keyFits : KeyFits encryptionKey) (nonce encryptedData : List UInt8) :
    (decryptBlock crypto encryptionKey nonce encryptedData).Returns := by
  cases encryptionKey with
  | none => exact returns_ok _
  | some key =>
    rw [decryptBlock, exactly_of_length (keyFits key rfl), ok_bind]
    exact returns_ofOption _ _

/-- The nonce of a frame: manufacturer, timestamp, version. -/
def nonceAt (payload : List UInt8) (version : UInt8) : List UInt8 :=
  (payload.take 5).drop 2 ++ (payload.take 21).drop 13 ++ [version]

/-- A frame no TLV of which was read. -/
def bare (header : DlmsHeader) : DlmsBinaryFrame :=
  { header with
    activeEnergyImportWh := none
    activeEnergyExportWh := none
    voltageCv := none
    currentMa := none
    batterySocBps := none }

/-- Past an accepted header, `parse` cuts out the block, decrypts it and walks it. -/
theorem parse_of_header {payload : List UInt8} {header : DlmsHeader}
    {encryptionKey : Option (List UInt8)} (long : 25 ≤ payload.length)
    (covers : 2 ≤ declaredLength payload) (accepted : parseHeader crypto payload = .ok header) :
    parse crypto payload encryptionKey = (do
      let encryptedData ← slice payload 21 (declaredLength payload + 2 - 4)
      let decryptedData ← decryptBlock crypto encryptionKey (nonceAt payload header.version)
        encryptedData
      storeTlvs decryptedData 0 (bare header)) := by
  have one : 1 < payload.length := by omega
  have tsLen : ((payload.take 21).drop 13).length = 8 := by
    rw [List.length_drop, List.length_take]
    omega
  rw [parse, accepted, ok_bind, index_getD one, ok_bind,
    slice_of_le (by omega : 2 ≤ 5) (by omega : 5 ≤ payload.length), ok_bind,
    slice_of_le (by omega : 13 ≤ 21) (by omega : 21 ≤ payload.length), ok_bind,
    exactly_of_length tsLen, ok_bind]
  change (usub (declaredLength payload + 2) 4 >>= _) = _
  rw [usub_of_le (by omega), ok_bind]
  rfl

/-- If there is room for the block, it is what lies between the header and the checksum. -/
theorem parse_eq {payload : List UInt8} {header : DlmsHeader}
    {encryptionKey : Option (List UInt8)} (long : 25 ≤ payload.length)
    (full : 23 ≤ declaredLength payload) (fits : declaredLength payload + 2 ≤ payload.length)
    (accepted : parseHeader crypto payload = .ok header) :
    parse crypto payload encryptionKey = (do
      let decryptedData ← decryptBlock crypto encryptionKey (nonceAt payload header.version)
        ((payload.take (declaredLength payload + 2 - 4)).drop 21)
      storeTlvs decryptedData 0 (bare header)) := by
  rw [parse_of_header crypto long (by omega) accepted, slice_of_le (by omega) (by omega), ok_bind]

/-- Past an accepted header, `parse` returns exactly when the encrypted block does not start
behind its end. -/
theorem parse_returns_of_header {payload : List UInt8} {header : DlmsHeader}
    {encryptionKey : Option (List UInt8)} (keyFits : KeyFits encryptionKey)
    (long : 25 ≤ payload.length) (covers : 2 ≤ declaredLength payload)
    (fits : declaredLength payload + 2 ≤ payload.length)
    (accepted : parseHeader crypto payload = .ok header) :
    (parse crypto payload encryptionKey).Returns ↔ 23 ≤ declaredLength payload := by
  rw [parse_of_header crypto long covers accepted, returns_bind, returns_slice]
  constructor
  · rintro ⟨⟨starts, _⟩, _⟩
    omega
  · intro enough
    refine ⟨⟨by omega, by omega⟩, ?_⟩
    intro block _
    rw [returns_bind]
    refine ⟨?_, fun data _ => storeTlvs_returns data 0 _⟩
    exact decryptBlock_returns crypto keyFits _ _

/-- `parse` returns exactly on the frames that decode safely, whatever the key. -/
theorem parse_returns_iff (payload : List UInt8) {encryptionKey : Option (List UInt8)}
    (keyFits : KeyFits encryptionKey) :
    (parse crypto payload encryptionKey).Returns ↔ DecodesSafely crypto payload := by
  by_cases long : 25 ≤ payload.length
  · by_cases covers : 2 ≤ declaredLength payload
    · by_cases valid : HeaderValid crypto payload
      · obtain ⟨header, accepted⟩ := (parseHeader_ok_iff crypto long covers).mpr valid
        rw [parse_returns_of_header crypto keyFits long covers valid.fits accepted]
        exact ⟨fun enough _ => ⟨covers, fun _ => enough⟩, fun safe => (safe long).2 valid⟩
      · refine ⟨fun _ _ => ⟨covers, fun yes => absurd yes valid⟩, fun _ => ?_⟩
        rw [parse, returns_bind]
        refine ⟨(parseHeader_returns_iff crypto payload).mpr fun _ => covers, ?_⟩
        intro header accepted
        exact absurd ((parseHeader_ok_iff crypto long covers).mp ⟨header, accepted⟩) valid
    · rw [parse, parseHeader_of_underflow crypto long (by omega), panic_bind]
      exact ⟨fun returned => absurd returned not_returns_panic,
        fun safe => absurd (safe long).1 covers⟩
  · rw [parse, parseHeader_of_short crypto (by omega), error_bind]
    exact ⟨fun _ full => absurd full long, fun _ => returns_error _⟩

end DlmsBinaryFrame

end AggregatorBridge
