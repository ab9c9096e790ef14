import AggregatorBridge.BinaryDecoder
import AggregatorBridge.Grpc
import AggregatorBridge.Lib.Bytes
import AggregatorBridge.Lib.Overwrite

/-!
# The v4 frame as a format

`frameFromTlv` lays a frame out as the encoder in the decoder's own tests does: version, length,
manufacturer, padded device name, timestamp, the TLV block, encrypted if there is a key, and the
checksum of all that. `frame_round_trips` is that the decoder inverts it, with anything behind
the frame, and `storeTlvs_encoded` is its core: the walk over the block reads record by record
what was written, and keeps of each tag the last record of the right length.

The other half is what the decoder accepts. The checksum is over the bytes the frame DECLARES to
be its own, the header is read at fixed places, and the size that is checked is that of the
buffer. `header_protected_iff` puts the three together: the header is a function of the checked
bytes exactly if the frame declares at least 23 of them.

The checksum and the cipher are given functions. That no two byte strings have one checksum is not
claimed, so a frame that passes need not be the one that was sent.
-/

namespace AggregatorBridge

open Checked MachineInt Text

namespace DlmsBinaryFrame

/-! ## Laying a frame out -/

/-- One record of the block: a tag, the length of the value in one byte, the value. -/
structure Tlv where
  tag : UInt8
  val : List UInt8
  fits : val.length ≤ 255

/-- A length byte, so that no value is longer than 255. -/
def Tlv.bytes (t : Tlv) : List UInt8 :=
  t.tag :: UInt8.ofNat t.val.length :: t.val

def tlvBlock (tlvs : List Tlv) : List UInt8 :=
  tlvs.flatMap Tlv.bytes

/-- What the plaintext header of a frame says. -/
structure FrameFields where
  manuf : List UInt8
  manuf_length : manuf.length = 3
  manuf_ascii : ∀ b ∈ manuf, b.toNat < 0x80
  ldn : String
  ldn_fits : (utf8 ldn).length ≤ 8
  ldn_start : ldn.toList.head? ≠ some '\x00'
  ldn_end : ldn.toList.getLast? ≠ some '\x00'
  /-- In the calendar, and so below 2⁶³. -/
  tsSec : Nat
  tsSec_dated : (tsSec : Int) ≤ DateTime.maxSecs

namespace FrameFields

variable (fields : FrameFields)

/-- The device name, padded with NUL to eight bytes. -/
def ldnBytes : List UInt8 :=
  utf8 fields.ldn ++ List.replicate (8 - (utf8 fields.ldn).length) 0

def tsBytes : List UInt8 :=
  beBytes 8 fields.tsSec

def nonce : List UInt8 :=
  fields.manuf ++ fields.tsBytes ++ [protocolVersionV4]

/-- The header that is read back. -/
def header : DlmsHeader where
  version := protocolVersionV4
  manufacturerId := String.ofList (fields.manuf.map fun b => Char.ofNat b.toNat)
  logicalDeviceName := fields.ldn
  timestamp := DateTime.ofSecs fields.tsSec

end FrameFields

/-- The encoder's side of AES-256-GCM: key, nonce, plaintext. -/
abbrev Encrypt := List UInt8 → List UInt8 → List UInt8 → List UInt8

/-- What the format takes from the primitives: decryption undoes encryption, which adds a tag
of 16 bytes, and a checksum is a 32-bit integer. -/
structure Seals (crypto : FrameCrypto) (encrypt : Encrypt) : Prop where
  decrypt_encrypt : ∀ (key : AesKey) (nonce plain : List UInt8),
    crypto.decrypt key.1 nonce (encrypt key.1 nonce plain) = some plain
  tagged : ∀ (key : AesKey) (nonce plain : List UInt8),
    (encrypt key.1 nonce plain).length = plain.length + 16
  crc32_lt : ∀ data, crypto.crc32 data < 2 ^ 32

section Layout

variable (crypto : FrameCrypto) (encrypt : Encrypt)

/-- The block of a frame, encrypted if there is a key. -/
def frameBlock (key : Option AesKey) (fields : FrameFields) (tlvs : List Tlv) : List UInt8 :=
  match key with
  | some k => encrypt k.1 fields.nonce (tlvBlock tlvs)
  | none => tlvBlock tlvs

/-- Everything of a frame but its checksum: version, length, header, block. -/
def frameBody (fields : FrameFields) (block : List UInt8) : List UInt8 :=
  [protocolVersionV4, UInt8.ofNat (19 + block.length + 4)] ++
    (fields.manuf ++ (fields.ldnBytes ++ (fields.tsBytes ++ block)))

/-- `frame_from_tlv`, for any manufacturer and timestamp. -/
def frameFromTlv (key : Option AesKey) (fields : FrameFields) (tlvs : List Tlv) : List UInt8 :=
  let body := frameBody fields (frameBlock encrypt key fields tlvs)
  body ++ beBytes 4 (crypto.crc32 body)

end Layout

/-- The value of the last record with this tag and this length. -/
def lastValue (tag : UInt8) (length : Nat) (tlvs : List Tlv) : Option Nat :=
  ((tlvs.filter fun t => t.tag = tag ∧ t.val.length = length).getLast?).map fun t => beNat t.val

/-- The frame that is read back. -/
def decoded (fields : FrameFields) (tlvs : List Tlv) : DlmsBinaryFrame :=
  { fields.header with
    activeEnergyImportWh := lastValue 1 8 tlvs
    activeEnergyExportWh := lastValue 2 8 tlvs
    voltageCv := lastValue 3 4 tlvs
    currentMa := lastValue 4 4 tlvs
    batterySocBps := lastValue 5 4 tlvs }

/-! ## The walk over the block -/

/-- One record into the frame. -/
def keep (frame : DlmsBinaryFrame) (t : Tlv) : DlmsBinaryFrame :=
  { frame with
    activeEnergyImportWh :=
      if t.tag = 1 ∧ t.val.length = 8 then some (beNat t.val) else frame.activeEnergyImportWh
    activeEnergyExportWh :=
      if t.tag = 2 ∧ t.val.length = 8 then some (beNat t.val) else frame.activeEnergyExportWh
    voltageCv := if t.tag = 3 ∧ t.val.length = 4 then some (beNat t.val) else frame.voltageCv
    currentMa := if t.tag = 4 ∧ t.val.length = 4 then some (beNat t.val) else frame.currentMa
    batterySocBps :=
      if t.tag = 5 ∧ t.val.length = 4 then some (beNat t.val) else frame.batterySocBps }

/-- The arms exclude each other, so `store` sets one register or none. -/
theorem store_eq_keep (frame : DlmsBinaryFrame) (t : Tlv) :
    store frame t.tag t.val = .ok (keep frame t) := by
  unfold store keep
  split_ifs <;> simp_all [exactly]

/-- The walk reads one record and goes on behind it. -/
theorem storeTlvs_record (front rest : List UInt8) (t : Tlv) (frame : DlmsBinaryFrame) :
    storeTlvs (front ++ t.bytes ++ rest) front.length frame =
      storeTlvs (front ++ t.bytes ++ rest) (front ++ t.bytes).length (keep frame t) := by
  have length : (front ++ t.bytes ++ rest).length =
      front.length + 2 + t.val.length + rest.length := by
    simp only [Tlv.bytes, List.length_append, List.length_cons]
    omega
  have byte : (UInt8.ofNat t.val.length).toNat = t.val.length := by
    rw [UInt8.toNat_ofNat', Nat.mod_eq_of_lt (by have := t.fits; omega)]
  have behind : (front ++ t.bytes).length = front.length + 2 + t.val.length := by
    simp only [Tlv.bytes, List.length_append, List.length_cons]
    omega
  have tag : (index (front ++ t.bytes ++ rest) front.length : Checked String UInt8) =
      .ok t.tag := by
    rw [index_of_lt (by omega)]
    simp [Tlv.bytes]
  have tagLen : (index (front ++ t.bytes ++ rest) (front.length + 1) : Checked String UInt8) =
      .ok (UInt8.ofNat t.val.length) := by
    rw [index_of_lt (by omega)]
    simp [Tlv.bytes]
  have val : (slice (front ++ t.bytes ++ rest) (front.length + 2)
      (front.length + 2 + t.val.length) : Checked String (List UInt8)) = .ok t.val := by
    rw [slice_of_le (by omega) (by omega), ← behind, List.take_left, Tlv.bytes,
      ← List.drop_drop, List.drop_left]
    rfl
  rw [storeTlvs, dif_pos (by omega), tag, ok_bind, if_pos (by omega), tagLen, ok_bind, byte,
    if_pos (by omega), val, ok_bind, store_eq_keep, ok_bind, behind]

/-- The walk keeps its records, one after the other, and goes on behind them. -/
theorem storeTlvs_records (front rest : List UInt8) (tlvs : List Tlv) (frame : DlmsBinaryFrame) :
    storeTlvs (front ++ tlvBlock tlvs ++ rest) front.length frame =
      storeTlvs (front ++ tlvBlock tlvs ++ rest) (front ++ tlvBlock tlvs).length
        (tlvs.foldl keep frame) := by
  induction tlvs generalizing front frame with
  | nil =>
    rw [tlvBlock, List.flatMap_nil, List.append_nil]
    rfl
  | cons t tlvs ih =>
    have whole : front ++ tlvBlock (t :: tlvs) = front ++ t.bytes ++ tlvBlock tlvs := by
      rw [tlvBlock, List.flatMap_cons, List.append_assoc]
      rfl
    rw [whole, List.append_assoc, storeTlvs_record, ← List.append_assoc, ih (front ++ t.bytes),
      List.foldl_cons]

/-- The walk over a block keeps its records and nothing else. -/
theorem storeTlvs_encoded (front : List UInt8) (tlvs : List Tlv) (frame : DlmsBinaryFrame) :
    storeTlvs (front ++ tlvBlock tlvs) front.length frame = .ok (tlvs.foldl keep frame) := by
  have walked := storeTlvs_records front [] tlvs frame
  rw [List.append_nil] at walked
  rw [walked, storeTlvs, dif_neg (lt_irrefl _)]

/-- A register that the records with one tag and length set holds the last of them. -/
theorem foldl_keep_register (proj : DlmsBinaryFrame → Option Nat) {tag : UInt8} {length : Nat}
    (writes : ∀ frame t, proj (keep frame t) =
      if t.tag = tag ∧ t.val.length = length then some (beNat t.val) else proj frame)
    (frame : DlmsBinaryFrame) (empty : proj frame = none) (tlvs : List Tlv) :
    proj (tlvs.foldl keep frame) = lastValue tag length tlvs := by
  have last : proj (tlvs.foldl keep frame) =
      ((tlvs.filter fun t => decide (t.tag = tag ∧ t.val.length = length)).getLast?.map
        fun t => some (beNat t.val)).getD (proj frame) :=
    Overwrite.foldl_eq (by simpa using writes) tlvs frame
  rw [last, empty, lastValue]
  cases (tlvs.filter fun t => decide (t.tag = tag ∧ t.val.length = length)).getLast? <;> rfl

theorem foldl_keep_header (tlvs : List Tlv) (frame : DlmsBinaryFrame) :
    (tlvs.foldl keep frame).toDlmsHeader = frame.toDlmsHeader := by
  induction tlvs generalizing frame with
  | nil => rfl
  | cons t tlvs ih =>
    rw [List.foldl_cons, ih]
    rfl

/-- Of each tag the last record of the right length stays. -/
theorem foldl_keep (fields : FrameFields) (tlvs : List Tlv) :
    tlvs.foldl keep (bare fields.header) = decoded fields tlvs := by
  have header := foldl_keep_header tlvs (bare fields.header)
  have importWh := foldl_keep_register (·.activeEnergyImportWh) (fun _ _ => rfl)
    (bare fields.header) rfl tlvs
  have exportWh := foldl_keep_register (·.activeEnergyExportWh) (fun _ _ => rfl)
    (bare fields.header) rfl tlvs
  have voltage := foldl_keep_register (·.voltageCv) (fun _ _ => rfl)
    (bare fields.header) rfl tlvs
  have current := foldl_keep_register (·.currentMa) (fun _ _ => rfl)
    (bare fields.header) rfl tlvs
  have soc := foldl_keep_register (·.batterySocBps) (fun _ _ => rfl)
    (bare fields.header) rfl tlvs
  generalize tlvs.foldl keep (bare fields.header) = frame at *
  obtain ⟨h, _, _, _, _, _⟩ := frame
  simp only at importWh exportWh voltage current soc header
  rw [importWh, exportWh, voltage, current, soc, header]
  rfl

/-! ## The round trip -/

section RoundTrip

variable {α : Type}

/-- A part of a buffer, between what is before it and what is behind it. -/
theorem part_eq {whole part : List α} (front back : List α) {i j : Nat}
    (parts : whole = front ++ part ++ back) (start : front.length = i)
    (end_ : front.length + part.length = j) : (whole.take j).drop i = part := by
  rw [parts, ← end_, ← List.length_append, List.take_left, ← start, List.drop_left]

variable {crypto : FrameCrypto} {encrypt : Encrypt} (fields : FrameFields)

theorem length_ldnBytes : fields.ldnBytes.length = 8 := by
  rw [FrameFields.ldnBytes, List.length_append, List.length_replicate]
  have := fields.ldn_fits
  omega

theorem length_tsBytes : fields.tsBytes.length = 8 :=
  length_beBytes 8 fields.tsSec

theorem length_frameBody (block : List UInt8) :
    (frameBody fields block).length = 21 + block.length := by
  simp only [frameBody, List.length_append, fields.manuf_length, length_ldnBytes, length_tsBytes,
    List.length_cons, List.length_nil]
  omega

/-- The device name is read back: padding decodes to NUL and is trimmed. -/
theorem ldn_read_back :
    String.ofList (trimMatches '\x00' (fromUtf8Lossy fields.ldnBytes)) = fields.ldn := by
  have padding : ∀ n, fromUtf8Lossy (List.replicate n 0) = List.replicate n '\x00' := by
    intro n
    rw [fromUtf8Lossy_ascii_all, List.map_replicate]
    · rfl
    · intro b mem
      rw [List.eq_of_mem_replicate mem]
      decide
  rw [FrameFields.ldnBytes, fromUtf8Lossy_utf8_append, padding,
    trimMatches_padded fields.ldn_start fields.ldn_end, String.ofList_toList]

theorem timestamp_read_back :
    DateTime.timestampOpt (asI64 (beNat fields.tsBytes)) =
      some (DateTime.ofSecs fields.tsSec) := by
  have dated := fields.tsSec_dated
  have start : DateTime.minSecs ≤ 0 := by decide
  have end_ : DateTime.maxSecs < 2 ^ 63 := by decide
  have signed : fields.tsSec < 2 ^ 63 := by omega
  have small : fields.tsSec < 256 ^ 8 := lt_of_lt_of_le signed (by decide)
  rw [FrameFields.tsBytes, beNat_beBytes small, asI64, if_pos signed,
    DateTime.timestampOpt, if_pos ⟨by omega, dated⟩]

theorem declaredLength_frameBody {block : List UInt8} (fits : block.length ≤ 232)
    (rest : List UInt8) :
    declaredLength (frameBody fields block ++ rest) = 23 + block.length := by
  have second : (frameBody fields block ++ rest).getD 1 0 =
      UInt8.ofNat (19 + block.length + 4) := rfl
  rw [declaredLength, second, UInt8.toNat_ofNat', Nat.mod_eq_of_lt (by omega)]
  omega

/-- The parts of a frame are found where they were laid. -/
theorem manuf_part (block rest : List UInt8) :
    ((frameBody fields block ++ rest).take 5).drop 2 = fields.manuf := by
  refine part_eq [protocolVersionV4, UInt8.ofNat (19 + block.length + 4)]
    (fields.ldnBytes ++ (fields.tsBytes ++ (block ++ rest))) ?_ rfl ?_
  · simp only [frameBody, List.append_assoc]
  · rw [fields.manuf_length]
    rfl

theorem ldn_part (block rest : List UInt8) :
    ((frameBody fields block ++ rest).take 13).drop 5 = fields.ldnBytes := by
  refine part_eq ([protocolVersionV4, UInt8.ofNat (19 + block.length + 4)] ++ fields.manuf)
    (fields.tsBytes ++ (block ++ rest)) ?_ ?_ ?_
  · simp only [frameBody, List.append_assoc]
  · rw [List.length_append, fields.manuf_length]
    rfl
  · rw [List.length_append, fields.manuf_length, length_ldnBytes]
    rfl

theorem ts_part (block rest : List UInt8) :
    ((frameBody fields block ++ rest).take 21).drop 13 = fields.tsBytes := by
  refine part_eq ([protocolVersionV4, UInt8.ofNat (19 + block.length + 4)] ++
    (fields.manuf ++ fields.ldnBytes)) (block ++ rest) ?_ ?_ ?_
  · simp only [frameBody, List.append_assoc]
  · rw [List.length_append, List.length_append, fields.manuf_length, length_ldnBytes]
    rfl
  · rw [List.length_append, List.length_append, fields.manuf_length, length_ldnBytes,
      length_tsBytes]
    rfl

theorem block_part (block rest : List UInt8) :
    ((frameBody fields block ++ rest).take (21 + block.length)).drop 21 = block := by
  refine part_eq ([protocolVersionV4, UInt8.ofNat (19 + block.length + 4)] ++
    (fields.manuf ++ (fields.ldnBytes ++ fields.tsBytes))) rest ?_ ?_ ?_
  · simp only [frameBody, List.append_assoc]
  · rw [List.length_append, List.length_append, List.length_append, fields.manuf_length,
      length_ldnBytes, length_tsBytes]
    rfl
  · rw [List.length_append, List.length_append, List.length_append, fields.manuf_length,
      length_ldnBytes, length_tsBytes]
    rfl

/-- A frame with its checksum and what follows it. -/
def framed (crypto : FrameCrypto) (fields : FrameFields) (block trailing : List UInt8) :
    List UInt8 :=
  frameBody fields block ++ (beBytes 4 (crypto.crc32 (frameBody fields block)) ++ trailing)

theorem framed_fits (crypto : FrameCrypto) {block : List UInt8} (fits : block.length ≤ 232)
    (trailing : List UInt8) :
    25 ≤ (framed crypto fields block trailing).length ∧
      declaredLength (framed crypto fields block trailing) = 23 + block.length ∧
      declaredLength (framed crypto fields block trailing) + 2 ≤
        (framed crypto fields block trailing).length := by
  have declared : declaredLength (framed crypto fields block trailing) = 23 + block.length :=
    declaredLength_frameBody fields fits _
  have length : (framed crypto fields block trailing).length =
      25 + block.length + trailing.length := by
    rw [framed, List.length_append, List.length_append, length_frameBody, length_beBytes]
    omega
  rw [declared, length]
  omega

theorem checksum_framed (crc32_lt : ∀ data, crypto.crc32 data < 2 ^ 32) {block : List UInt8}
    (fits : block.length ≤ 232) (trailing : List UInt8) :
    ChecksumMatches crypto (framed crypto fields block trailing) := by
  have bodyLen := length_frameBody fields block
  have small : crypto.crc32 (frameBody fields block) < 256 ^ 4 :=
    lt_of_lt_of_le (crc32_lt _) (by decide)
  have crcLen := length_beBytes 4 (crypto.crc32 (frameBody fields block))
  have whole : frameData (framed crypto fields block trailing) =
      frameBody fields block ++ beBytes 4 (crypto.crc32 (frameBody fields block)) := by
    rw [frameData, (framed_fits fields crypto fits trailing).2.1, framed, ← List.append_assoc,
      List.take_left']
    rw [List.length_append]
    omega
  have middle : (frameBody fields block ++
      beBytes 4 (crypto.crc32 (frameBody fields block))).length - 4 =
        (frameBody fields block).length := by
    rw [List.length_append]
    omega
  rw [ChecksumMatches, whole, middle, List.drop_left, List.take_left, beNat_beBytes small]

/-- The header of a laid out frame is accepted and read back, whatever the block is and
whatever follows the frame. -/
theorem parseHeader_framed (crc32_lt : ∀ data, crypto.crc32 data < 2 ^ 32) {block : List UInt8}
    (fits : block.length ≤ 232) (trailing : List UInt8) :
    parseHeader crypto (framed crypto fields block trailing) = .ok fields.header := by
  obtain ⟨long, declared, within⟩ := framed_fits fields crypto fits trailing
  have version : (framed crypto fields block trailing).getD 0 0 = protocolVersionV4 := rfl
  rw [parseHeader_eq crypto long (by omega) within,
    ensure_of (checksum_framed fields crc32_lt fits trailing), ok_bind, ensure_of version,
    ok_bind, framed, ts_part, timestamp_read_back]
  change Checked.ok (headerAt _ _) = _
  rw [headerAt, manuf_part, ldn_part, ldn_read_back, fromUtf8Lossy_ascii_all fields.manuf_ascii]
  rfl

theorem nonceAt_framed (block trailing : List UInt8) :
    nonceAt (framed crypto fields block trailing) protocolVersionV4 = fields.nonce := by
  rw [nonceAt, framed, manuf_part, ts_part]
  rfl

/-- The block is decrypted to what was encrypted, or was plain. -/
theorem decryptBlock_frameBlock (seals : Seals crypto encrypt) (key : Option AesKey)
    (tlvs : List Tlv) :
    decryptBlock crypto (key.map Subtype.val) fields.nonce
      (frameBlock encrypt key fields tlvs) = .ok (tlvBlock tlvs) := by
  cases key with
  | none => rfl
  | some k =>
    change (exactly 32 k.1 >>= fun key => ofOption _ (crypto.decrypt key fields.nonce
      (encrypt k.1 fields.nonce (tlvBlock tlvs)))) = _
    rw [exactly_of_length k.2, ok_bind, seals.decrypt_encrypt]
    rfl

end RoundTrip

/-- The records of a laid out frame are read back, each tag's last one of the right length. -/
theorem parse_framed {crypto : FrameCrypto} {encrypt : Encrypt} (seals : Seals crypto encrypt)
    (fields : FrameFields) (key : Option AesKey) (tlvs : List Tlv) (trailing : List UInt8)
    (fits : (frameBlock encrypt key fields tlvs).length ≤ 232) :
    parse crypto (framed crypto fields (frameBlock encrypt key fields tlvs) trailing)
      (key.map Subtype.val) = .ok (decoded fields tlvs) := by
  have header := parseHeader_framed fields seals.crc32_lt fits trailing
  obtain ⟨long, declared, within⟩ := framed_fits fields crypto fits trailing
  have block : ((framed crypto fields (frameBlock encrypt key fields tlvs) trailing).take
      (declaredLength (framed crypto fields (frameBlock encrypt key fields tlvs) trailing) +
        2 - 4)).drop 21 = frameBlock encrypt key fields tlvs := by
    rw [declared, show 23 + (frameBlock encrypt key fields tlvs).length + 2 - 4 =
      21 + (frameBlock encrypt key fields tlvs).length by omega]
    exact block_part fields _ _
  have walk := storeTlvs_encoded [] tlvs (bare fields.header)
  rw [List.nil_append, List.length_nil, foldl_keep] at walk
  rw [parse_eq crypto long (by omega) within header, block]
  change (decryptBlock crypto _ (nonceAt _ protocolVersionV4) _ >>= _) = _
  rw [nonceAt_framed, decryptBlock_frameBlock fields seals, ok_bind, walk]

/-- The decoder inverts the encoder: a frame that was laid out with any key or none, with any
records whose block fits the one-byte length and with anything behind it, is read back with its
header and, for each tag, the value of the last record of the right length. -/
theorem frame_round_trips {crypto : FrameCrypto} {encrypt : Encrypt}
    (seals : Seals crypto encrypt) (fields : FrameFields) (key : Option AesKey)
    (tlvs : List Tlv) (trailing : List UInt8)
    (fits : 19 + ((tlvBlock tlvs).length + if key.isSome then 16 else 0) + 4 ≤ 255) :
    parseHeader crypto (frameFromTlv crypto encrypt key fields tlvs ++ trailing) =
        .ok fields.header ∧
      parse crypto (frameFromTlv crypto encrypt key fields tlvs ++ trailing)
        (key.map Subtype.val) = .ok (decoded fields tlvs) := by
  have blockFits : (frameBlock encrypt key fields tlvs).length ≤ 232 := by
    cases key with
    | none =>
      change (tlvBlock tlvs).length ≤ 232
      simp only [Option.isSome_none, Bool.false_eq_true, if_false] at fits
      omega
    | some k =>
      rw [frameBlock, seals.tagged]
      simp only [Option.isSome_some, if_true] at fits
      omega
  have laid : frameFromTlv crypto encrypt key fields tlvs ++ trailing =
      framed crypto fields (frameBlock encrypt key fields tlvs) trailing :=
    List.append_assoc _ _ _
  rw [laid]
  exact ⟨parseHeader_framed fields seals.crc32_lt blockFits trailing,
    parse_framed seals fields key tlvs trailing blockFits⟩

/-! ## A frame -/

/-- One bit of the checksum, and of a byte. -/
def crcBit (crc : BitVec 32) : BitVec 32 :=
  if crc.getLsbD 0 then (crc >>> 1) ^^^ 0xEDB88320#32 else crc >>> 1

/-- Eight rounds of the bit step, with the byte in the low end of the register. -/
def crcByte (crc : BitVec 32) (b : UInt8) : BitVec 32 :=
  crcBit^[8] (crc ^^^ BitVec.ofNat 32 b.toNat)

/-- CRC-32 as `crc32fast` computes it. -/
def crc32Ieee (data : List UInt8) : Nat :=
  (~~~ data.foldl crcByte 0xFFFFFFFF#32).toNat

example : crc32Ieee [0x31, 0x32, 0x33, 0x34, 0x35, 0x36, 0x37, 0x38, 0x39] = 0xCBF43926 := by
  decide +kernel

/-- The checksum of frames, and a cipher that seals nothing. -/
def plainCrypto : FrameCrypto where
  crc32 := crc32Ieee
  decrypt _ _ sealed := some (sealed.take (sealed.length - 16))

/-- A cipher that hides nothing and adds a tag of zeros, of the right lengths for a test. -/
def zeroTag : Encrypt :=
  fun _ _ plain => plain ++ List.replicate 16 0

theorem plainCrypto_seals : Seals plainCrypto zeroTag where
  decrypt_encrypt := by
    intro key nonce plain
    simp [plainCrypto, zeroTag]
  tagged := by
    intro key nonce plain
    simp [zeroTag]
  crc32_lt := fun data => BitVec.isLt _

def incFields : FrameFields where
  manuf := [0x49, 0x4E, 0x43]
  manuf_length := rfl
  manuf_ascii := by simp
  ldn := "M1"
  ldn_fits := by decide +kernel
  ldn_start := by decide
  ldn_end := by decide
  tsSec := 1700000000
  tsSec_dated := by decide

/-- An import, a record nobody knows, a voltage, and a later import. -/
def incTlvs : List Tlv :=
  [⟨1, [0, 0, 0, 0, 0, 0, 0x13, 0x88], by decide⟩, ⟨9, [7], by decide⟩,
    ⟨3, [0, 0, 0x59, 0xE2], by decide⟩, ⟨1, [0, 0, 0, 0, 0, 0, 0x17, 0x70], by decide⟩]

theorem inc_frame_read_back :
    parseHeader plainCrypto (frameFromTlv plainCrypto zeroTag none incFields incTlvs ++ [1, 2]) =
        .ok incFields.header ∧
      parse plainCrypto (frameFromTlv plainCrypto zeroTag none incFields incTlvs ++ [1, 2])
        none = .ok (decoded incFields incTlvs) ∧
      (decoded incFields incTlvs).activeEnergyImportWh = some 6000 ∧
      (decoded incFields incTlvs).voltageCv = some 23010 ∧
      (decoded incFields incTlvs).activeEnergyExportWh = none := by
  obtain ⟨header, frame⟩ := frame_round_trips plainCrypto_seals incFields none incTlvs [1, 2]
    (by decide)
  exact ⟨header, frame, by decide, by decide, by decide⟩

/-! ## Where the header comes from -/

section Protected

variable {crypto : FrameCrypto} {p q : List UInt8} {header : DlmsHeader}

/-- An accepted frame is long enough to be looked at, declares room for its checksum, and is
there as far as it declares. -/
theorem of_parseHeader_ok (accepted : parseHeader crypto p = .ok header) :
    25 ≤ p.length ∧ 2 ≤ declaredLength p ∧ declaredLength p + 2 ≤ p.length := by
  have long : 25 ≤ p.length := by
    by_contra short
    rw [parseHeader_of_short crypto (by omega)] at accepted
    cases accepted
  have covers : 2 ≤ declaredLength p := by
    by_contra tiny
    rw [parseHeader_of_underflow crypto long (by omega)] at accepted
    cases accepted
  refine ⟨long, covers, ?_⟩
  by_contra overrun
  rw [parseHeader_of_overrun crypto long overrun] at accepted
  cases accepted

/-- Two buffers that agree on a prefix agree wherever it reaches. -/
theorem getD_of_take {n i : Nat} (agree : q.take n = p.take n) (within : i < n) :
    q.getD i 0 = p.getD i 0 := by
  have same := congrArg (fun l : List UInt8 => l[i]?) agree
  simp only [List.getElem?_take, if_pos within] at same
  rw [List.getD_eq_getElem?_getD, same, ← List.getD_eq_getElem?_getD]

theorem take_of_take {n m : Nat} (agree : q.take n = p.take n) (within : m ≤ n) :
    q.take m = p.take m := by
  rw [← Nat.min_eq_left within, ← List.take_take, agree, List.take_take]

/-- Everything `parse_header` looks at lies in the frame, if the frame is as long as a header
with its checksum. -/
theorem parseHeader_of_agree (long : 25 ≤ p.length) (fits : declaredLength p + 2 ≤ p.length)
    (full : 23 ≤ declaredLength p)
    (agree : q.take (declaredLength p + 2) = p.take (declaredLength p + 2)) :
    parseHeader crypto q = parseHeader crypto p := by
  have declared : declaredLength q = declaredLength p := by
    unfold declaredLength at agree ⊢
    rw [getD_of_take agree (by omega)]
  have length : declaredLength p + 2 ≤ q.length := by
    have lengths := congrArg List.length agree
    simp only [List.length_take] at lengths
    omega
  have frames : frameData q = frameData p := by
    rw [frameData, frameData, declared, agree]
  have checksum : ChecksumMatches crypto q = ChecksumMatches crypto p := by
    unfold ChecksumMatches
    rw [frames]
  have version : q.getD 0 0 = p.getD 0 0 := getD_of_take agree (by omega)
  have timestamp : (q.take 21).drop 13 = (p.take 21).drop 13 := by
    rw [take_of_take agree (by omega)]
  have same : headerAt q = headerAt p := by
    funext timestamp
    rw [headerAt, headerAt, version, take_of_take agree (by omega : 5 ≤ _),
      take_of_take agree (by omega : 13 ≤ _)]
  rw [parseHeader_eq crypto (by omega) (by omega) (by omega),
    parseHeader_eq crypto long (by omega) fits, version, timestamp, same]
  simp only [checksum]

end Protected

/-- The header of an accepted frame is determined by the bytes its checksum is over, exactly if the
frame declares at least 23 bytes. With fewer, a buffer that ends where the frame does is too short
to be looked at. Nothing is said of how hard it is to find another buffer with the same checksum. -/
theorem header_protected_iff (crypto : FrameCrypto) {p : List UInt8} {header : DlmsHeader}
    (accepted : parseHeader crypto p = .ok header) :
    (∀ q : List UInt8, q.take (declaredLength p + 2) = p.take (declaredLength p + 2) →
      parseHeader crypto q = .ok header) ↔ 23 ≤ declaredLength p := by
  obtain ⟨long, covers, fits⟩ := of_parseHeader_ok accepted
  constructor
  · intro determined
    by_contra short
    have cut := determined (p.take (declaredLength p + 2)) (by rw [List.take_take, min_self])
    have tooShort : (p.take (declaredLength p + 2)).length < 25 := by
      rw [List.length_take]
      omega
    rw [parseHeader_of_short crypto tooShort] at cut
    cases cut
  · intro full q agree
    rw [parseHeader_of_agree long fits full agree, accepted]

/-- A frame that declares all of its 25 bytes, with a byte behind it. -/
theorem declared_frame_protected :
    23 ≤ declaredLength (framed plainCrypto incFields [] [9]) ∧
      ∀ q : List UInt8,
        q.take (declaredLength (framed plainCrypto incFields [] [9]) + 2) =
            (framed plainCrypto incFields [] [9]).take
              (declaredLength (framed plainCrypto incFields [] [9]) + 2) →
          parseHeader plainCrypto q = .ok incFields.header := by
  have accepted : parseHeader plainCrypto (framed plainCrypto incFields [] [9]) =
      .ok incFields.header :=
    parseHeader_framed incFields plainCrypto_seals.crc32_lt (Nat.zero_le _) [9]
  have full : 23 ≤ declaredLength (framed plainCrypto incFields [] [9]) := by
    rw [(framed_fits incFields plainCrypto (Nat.zero_le _) [9]).2.1]
    exact Nat.le_add_right _ _
  exact ⟨full, (header_protected_iff plainCrypto accepted).mpr full⟩

/-- A buffer of 25 bytes whose frame is the first six: two bytes and their checksum, which are
also the manufacturer and the first byte of the device name. -/
private def sixByteFrame (name : UInt8) : List UInt8 :=
  [4, 4, 0x22, 0xD8, 0x13, 0xE2, name] ++ List.replicate 18 0

private theorem sixByteFrame_accepted (name : UInt8) :
    parseHeader plainCrypto (sixByteFrame name) =
      .ok (headerAt (sixByteFrame name) (DateTime.ofSecs 0)) := by
  have length : (sixByteFrame name).length = 25 := rfl
  have declared : declaredLength (sixByteFrame name) = 4 := rfl
  have checksum : ChecksumMatches plainCrypto (sixByteFrame name) := by
    change beNat [0x22, 0xD8, 0x13, 0xE2] = crc32Ieee [4, 4]
    decide +kernel
  have version : (sixByteFrame name).getD 0 0 = protocolVersionV4 := rfl
  have date : DateTime.timestampOpt (asI64 (beNat (((sixByteFrame name).take 21).drop 13))) =
      some (DateTime.ofSecs 0) := by
    change DateTime.timestampOpt (asI64 (beNat (List.replicate 8 0))) = _
    decide +kernel
  rw [parseHeader_eq plainCrypto (by omega) (by omega) (by omega), ensure_of checksum,
    ok_bind, ensure_of version, ok_bind, date]
  rfl

/-- Two buffers with the same checked bytes are accepted with different device names. -/
theorem checked_bytes_name_two_devices :
    ¬ ∀ (crypto : FrameCrypto) (p : List UInt8) (header : DlmsHeader),
      parseHeader crypto p = .ok header →
        ∀ q : List UInt8, q.take (declaredLength p + 2) = p.take (declaredLength p + 2) →
          parseHeader crypto q = .ok header := by
  intro law
  have same := law plainCrypto (sixByteFrame 0x41) _ (sixByteFrame_accepted 0x41)
    (sixByteFrame 0x42) rfl
  rw [sixByteFrame_accepted] at same
  have names := congrArg DlmsHeader.logicalDeviceName (Checked.ok.inj same)
  exact absurd names (by decide +kernel)

end DlmsBinaryFrame

end AggregatorBridge
