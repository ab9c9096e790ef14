import AggregatorBridge.BulkIngest
import AggregatorBridge.Laws.FrameDecoding
import AggregatorBridge.Laws.FrameRoundTrip
import AggregatorBridge.Laws.KeyColumns

/-!
# A frame is verified with its own signature

A bulk request is read four times over: cut into entries, decoded into four vectors, verified
through a vector of keys with holes that are filled later, and walked over by index. Each of the
four is compared here with what it would be on the list of entries itself, and the comparison is
always the same: the vectors are the columns of one list, and an index means the same entry in
all of them. What is skipped is skipped in all of them.

`bulk_framing` is the first step alone. `bulk_handed_on_iff` is all of them: what is handed to
dissemination are the readings of the entries that decode and whose own signature verifies over
their own bytes, under the key registered for the device that their own frame names. The
exception is a request that ends before it hands anything on: one with a negative meter count, with
a frame that the decoder panics on, or with a device whose key in Redis is no text, loses its good
entries with the bad one.

The key of a device is what the verifier knows. That it is the one that was registered last is for
`KeyFreshness`, and nothing here says that a reading that is handed on is accepted by a stream.
-/

namespace AggregatorBridge

open Checked Remote Expiring DlmsBinaryFrame

/-! ## Framing -/

/-- The slices are in range, and the loop pushes what the entries are. -/
theorem splitBulkLoop_eq (payload : List UInt8) (cursor : Nat)
    (out : List (List UInt8 × List UInt8)) :
    splitBulkLoop payload cursor out = .ok (out ++ splitBulkFrames payload cursor) := by
  induction cursor, out using splitBulkLoop.induct payload with
  | case1 cursor out more ih =>
    have len : payload.getD cursor 0 = payload[cursor] := by
      rw [List.getD_eq_getElem?_getD, List.getElem?_eq_getElem more, Option.getD_some]
    rw [splitBulkLoop, dif_pos more, index_of_lt more, ok_bind, splitBulkFrames, dif_pos more]
    simp only [len]
    split
    · next fits =>
      have sigLen : ((payload.take (cursor + 1 + payload[cursor].toNat + 64)).drop
          (cursor + 1 + payload[cursor].toNat)).length = 64 := by
        rw [List.length_drop, List.length_take]
        omega
      rw [slice_of_le (by omega) (by omega), ok_bind, slice_of_le (by omega) fits, ok_bind,
        exactly_of_length sigLen, ok_bind, ih _ fits, List.append_assoc, List.drop_take,
        List.drop_take, Nat.add_sub_cancel_left, Nat.add_sub_cancel_left]
      rfl
    · rw [List.append_nil]
  | case2 cursor out done =>
    rw [splitBulkLoop, dif_neg done, splitBulkFrames, dif_neg done, List.append_nil]

theorem PackedEntry.length_bytes (e : PackedEntry) :
    e.bytes.length = 1 + e.frame.length + 64 := by
  rw [bytes, List.length_cons, List.length_append, e.signature_length]
  omega

private theorem getD_front (front rest : List UInt8) (b : UInt8) :
    (front ++ b :: rest).getD front.length 0 = b := by
  rw [List.getD_eq_getElem?_getD, List.getElem?_append_right le_rfl, Nat.sub_self]
  rfl

/-- One packed entry is cut off the front. -/
theorem splitBulkFrames_entry (front rest : List UInt8) (e : PackedEntry) :
    splitBulkFrames (front ++ e.bytes ++ rest) front.length =
      e.pair :: splitBulkFrames (front ++ e.bytes ++ rest) (front ++ e.bytes).length := by
  have entryLen := e.length_bytes
  have length : (front ++ e.bytes ++ rest).length =
      front.length + (1 + e.frame.length + 64) + rest.length := by
    rw [List.length_append, List.length_append, entryLen]
  have byte : (UInt8.ofNat e.frame.length).toNat = e.frame.length := by
    rw [UInt8.toNat_ofNat', Nat.mod_eq_of_lt (by have := e.frame_fits; omega)]
  have first : ((front ++ e.bytes ++ rest).getD front.length 0).toNat = e.frame.length := by
    rw [List.append_assoc, PackedEntry.bytes, List.cons_append, getD_front, byte]
  have frame : ((front ++ e.bytes ++ rest).drop (front.length + 1)).take e.frame.length =
      e.frame := by
    rw [List.append_assoc, ← List.drop_drop, List.drop_left, PackedEntry.bytes, List.cons_append,
      List.drop_succ_cons, List.drop_zero, List.append_assoc, List.take_left]
  have signature : ((front ++ e.bytes ++ rest).drop (front.length + 1 + e.frame.length)).take 64 =
      e.signature := by
    rw [List.append_assoc, ← List.drop_drop, ← List.drop_drop, List.drop_left, PackedEntry.bytes,
      List.cons_append, List.drop_succ_cons, List.drop_zero, List.append_assoc, List.drop_left,
      ← e.signature_length, List.take_left]
  rw [splitBulkFrames, dif_pos (by omega)]
  simp only [first]
  rw [if_pos (by omega), frame, signature, PackedEntry.pair, List.length_append, entryLen,
    show front.length + 1 + e.frame.length + 64 = front.length + (1 + e.frame.length + 64) by
      omega]

/-- Packed entries are cut off one after the other, and a truncated tail is left alone. -/
theorem splitBulkFrames_packed (entries : List PackedEntry) (front : List UInt8)
    {tail : List UInt8} (truncated : Truncated tail) :
    splitBulkFrames (front ++ packBulk entries ++ tail) front.length =
      entries.map PackedEntry.pair := by
  induction entries generalizing front with
  | nil =>
    rw [packBulk, List.flatMap_nil, List.append_nil, splitBulkFrames]
    cases tail with
    | nil => rw [List.append_nil, dif_neg (lt_irrefl _), List.map_nil]
    | cons len rest =>
      have short := truncated len rest rfl
      have first := getD_front front rest len
      have length : (front ++ len :: rest).length = front.length + (rest.length + 1) := by
        rw [List.length_append, List.length_cons]
      rw [dif_pos (by omega)]
      simp only [first]
      rw [if_neg (by omega), List.map_nil]
  | cons e entries ih =>
    have whole : front ++ packBulk (e :: entries) ++ tail =
        front ++ e.bytes ++ (packBulk entries ++ tail) := by
      simp only [packBulk, List.flatMap_cons, List.append_assoc]
    have rest := ih (front ++ e.bytes)
    rw [List.append_assoc] at rest
    rw [whole, splitBulkFrames_entry, rest, List.map_cons]

/-- Whatever the bytes are: what is cut off are entries, and they lie one behind the other where
they were cut. -/
theorem splitBulkFrames_prefix (payload : List UInt8) (cursor : Nat)
    (within : cursor ≤ payload.length) :
    ∃ entries : List PackedEntry, splitBulkFrames payload cursor = entries.map PackedEntry.pair ∧
      payload.take cursor ++ packBulk entries <+: payload := by
  induction cursor using splitBulkFrames.induct payload with
  | case1 cursor more frameLen fits ih =>
    obtain ⟨entries, cut, packed⟩ := ih (by omega)
    have len : payload.getD cursor 0 = payload[cursor] := by
      rw [List.getD_eq_getElem?_getD, List.getElem?_eq_getElem more, Option.getD_some]
    let e : PackedEntry :=
      { frame := (payload.drop (cursor + 1)).take frameLen
        signature := (payload.drop (cursor + 1 + frameLen)).take 64
        frame_fits := by
          rw [List.length_take]
          have := (payload.getD cursor 0).toNat_lt
          omega
        signature_length := by
          rw [List.length_take, List.length_drop]
          omega }
    have frameLen_ : e.frame.length = frameLen := by
      change ((payload.drop (cursor + 1)).take frameLen).length = frameLen
      rw [List.length_take, List.length_drop]
      omega
    have byte : UInt8.ofNat e.frame.length = payload[cursor] := by
      rw [frameLen_, ← len]
      exact UInt8.ofNat_toNat
    have front : payload.take cursor ++ e.bytes =
        payload.take (cursor + 1 + frameLen + 64) := by
      rw [PackedEntry.bytes, byte, List.append_cons, List.take_append_getElem more]
      change payload.take (cursor + 1) ++ ((payload.drop (cursor + 1)).take frameLen ++
        (payload.drop (cursor + 1 + frameLen)).take 64) = _
      rw [← List.append_assoc, ← List.take_add, ← List.take_add]
    refine ⟨e :: entries, ?_, ?_⟩
    · rw [splitBulkFrames, dif_pos more]
      simp only
      rw [if_pos fits, cut]
      rfl
    · rw [packBulk, List.flatMap_cons, ← List.append_assoc, front]
      exact packed
  | case2 cursor more frameLen overrun =>
    refine ⟨[], ?_, ?_⟩
    · rw [splitBulkFrames, dif_pos more]
      simp only
      rw [if_neg overrun]
      rfl
    · rw [packBulk, List.flatMap_nil, List.append_nil]
      exact List.take_prefix _ _
  | case3 cursor done =>
    refine ⟨[], ?_, ?_⟩
    · rw [splitBulkFrames, dif_neg done]
      rfl
    · rw [packBulk, List.flatMap_nil, List.append_nil]
      exact List.take_prefix _ _

/-- Framing inverts packing, a truncated tail apart; and on any bytes it returns, all slices in
range, with entries whose packing is where the bytes begin. -/
theorem bulk_framing :
    (∀ (entries : List PackedEntry) (tail : List UInt8), Truncated tail →
      splitBulkLoop (packBulk entries ++ tail) 0 [] = .ok (entries.map PackedEntry.pair)) ∧
    ∀ payload : List UInt8, ∃ entries : List PackedEntry,
      splitBulkLoop payload 0 [] = .ok (entries.map PackedEntry.pair) ∧
        packBulk entries <+: payload := by
  constructor
  · intro entries tail truncated
    have cut := splitBulkFrames_packed entries [] truncated
    rw [List.nil_append, List.length_nil] at cut
    rw [splitBulkLoop_eq, cut, List.nil_append]
  · intro payload
    obtain ⟨entries, cut, packed⟩ := splitBulkFrames_prefix payload 0 (Nat.zero_le _)
    refine ⟨entries, ?_, packed⟩
    rw [splitBulkLoop_eq, cut, List.nil_append]

/-- A frame of no bytes, one of two, and a tail that stops inside the frame it declares. -/
theorem packed_then_truncated :
    let entries : List PackedEntry :=
      [⟨[], List.replicate 64 7, by decide, rfl⟩, ⟨[1, 2], List.replicate 64 8, by decide, rfl⟩]
    splitBulkLoop (packBulk entries ++ [3, 1]) 0 [] =
        .ok [([], List.replicate 64 7), ([1, 2], List.replicate 64 8)] ∧
      ∃ cut : List PackedEntry,
        splitBulkLoop [3, 1] 0 [] = .ok (cut.map PackedEntry.pair) ∧ packBulk cut <+: [3, 1] := by
  intro entries
  have truncated : Truncated [3, 1] := by
    intro len rest tail
    cases tail
    decide
  exact ⟨bulk_framing.1 entries [3, 1] truncated, bulk_framing.2 [3, 1]⟩

/-! ## Unpacking -/

section Unpack

variable {F K : Type} (svc : Services F K) (env : Env)

/-- The columns of a list of entries. -/
def columnsOf (entries : List BulkEntry) : BulkColumns where
  meterIds := entries.map fun e => e.frame.logicalDeviceName
  payloadsForSig := entries.map BulkEntry.frameBytes
  signatures := entries.map BulkEntry.signature
  frames := entries.map BulkEntry.frame

theorem columnsOf_push (entries : List BulkEntry) (e : BulkEntry) :
    (columnsOf entries).push e.frame e.frameBytes e.signature = columnsOf (entries ++ [e]) := by
  simp [columnsOf, BulkColumns.push]

/-- An entry with what its frame decodes to, if it does. -/
def decodedEntry (f : List UInt8 × List UInt8) : Option BulkEntry :=
  match decodeSecureFrame svc env f.1 with
  | .ok (some frame) => some ⟨frame, f.1, f.2⟩
  | _ => none

/-- The entries of a payload that decode, each with its own bytes and its own signature. -/
def decodedEntries (payload : List UInt8) : List BulkEntry :=
  (splitBulkFrames payload 0).filterMap (decodedEntry svc env)

/-- Where every frame is decoded or skipped, the vectors are the columns of what is decoded. -/
theorem unpackColumns_of_returns {pairs : List (List UInt8 × List UInt8)}
    (returned : ∀ f ∈ pairs, (decodeSecureFrame svc env f.1).Returns)
    (done : List BulkEntry) :
    unpackColumns svc env pairs (columnsOf done) =
      .ok (columnsOf (done ++ pairs.filterMap (decodedEntry svc env))) := by
  induction pairs generalizing done with
  | nil => rw [unpackColumns, List.filterMap_nil, List.append_nil]
  | cons f pairs ih =>
    obtain ⟨frameBytes, sigBytes⟩ := f
    obtain ⟨first, rest⟩ := List.forall_mem_cons.mp returned
    obtain ⟨decoded?, decoded⟩ := decodeSecureFrame_ok_of_returns svc env first
    simp only at decoded
    rw [unpackColumns, decoded, ok_bind]
    cases decoded? with
    | none =>
      have skipped : decodedEntry svc env (frameBytes, sigBytes) = none := by
        simp only [decodedEntry, decoded]
      rw [List.filterMap_cons_none skipped]
      exact ih rest done
    | some frame =>
      have kept : decodedEntry svc env (frameBytes, sigBytes) =
          some ⟨frame, frameBytes, sigBytes⟩ := by
        simp only [decodedEntry, decoded]
      rw [List.filterMap_cons_some kept, List.append_cons]
      change unpackColumns svc env pairs ((columnsOf done).push frame frameBytes sigBytes) = _
      rw [columnsOf_push done ⟨frame, frameBytes, sigBytes⟩]
      exact ih rest _

/-- A frame that the decoder panics on takes the whole request with it. -/
theorem unpackColumns_of_panic {pairs : List (List UInt8 × List UInt8)}
    (panicked : ¬ ∀ f ∈ pairs, (decodeSecureFrame svc env f.1).Returns) (cols : BulkColumns) :
    unpackColumns svc env pairs cols = .panic := by
  induction pairs generalizing cols with
  | nil => exact absurd (fun f mem => absurd mem List.not_mem_nil) panicked
  | cons f pairs ih =>
    obtain ⟨frameBytes, sigBytes⟩ := f
    rw [unpackColumns]
    by_cases first : (decodeSecureFrame svc env frameBytes).Returns
    · have rest : ¬ ∀ f ∈ pairs, (decodeSecureFrame svc env f.1).Returns :=
        fun all => panicked (List.forall_mem_cons.mpr ⟨first, all⟩)
      obtain ⟨decoded?, decoded⟩ := decodeSecureFrame_ok_of_returns svc env first
      rw [decoded, ok_bind]
      cases decoded? with
      | none => exact ih rest cols
      | some frame => exact ih rest _
    · rw [Returns, not_not] at first
      rw [first, panic_bind]

/-- The frame path gets as far as the block of a frame of this device: there is a key for it, or
none is needed. -/
def Unlocks (name : String) : Prop :=
  (∃ key, svc.getDeviceAesKey name = .ok (some key)) ∨
    svc.getDeviceAesKey name = .ok none ∧ env.isProduction = false ∧
      plaintextDlmsAllowed env.allowPlaintextDlms env.secureModeEnabled = true

/-- The frames that are decoded or skipped: a full buffer declares the two bytes its checksum
needs and, if its header is accepted and its block is looked at, the 23 the block needs. -/
def DecodesUnder (frame : List UInt8) : Prop :=
  25 ≤ frame.length →
    2 ≤ declaredLength frame ∧
      ∀ header, parseHeader svc.crypto frame = .ok header →
        Unlocks svc env header.logicalDeviceName → 23 ≤ declaredLength frame

/-- A frame is decoded or skipped, and does not panic, exactly under these conditions on its length
and on the key of its device. -/
theorem decodeSecureFrame_returns_iff (frame : List UInt8) :
    (decodeSecureFrame svc env frame).Returns ↔ DecodesUnder svc env frame := by
  by_cases long : 25 ≤ frame.length
  · by_cases covers : 2 ≤ declaredLength frame
    · cases read : parseHeader svc.crypto frame with
      | panic =>
        have returned := (parseHeader_returns_iff svc.crypto frame).mpr fun _ => covers
        rw [read] at returned
        exact absurd returned not_returns_panic
      | error e =>
        rw [decodeSecureFrame, read]
        refine iff_of_true (returns_ok _) fun _ => ⟨covers, fun header accepted => ?_⟩
        rw [read] at accepted
        cases accepted
      | ok header =>
        have fits := (of_parseHeader_ok read).2.2
        have parsed (key : Option AesKey) :
            (parse svc.crypto frame (key.map Subtype.val)).Returns ↔
              23 ≤ declaredLength frame :=
          parse_returns_of_header svc.crypto (keyFits_map key) long covers fits read
        have only : DecodesUnder svc env frame ↔
            (Unlocks svc env header.logicalDeviceName → 23 ≤ declaredLength frame) := by
          constructor
          · intro under
            exact (under long).2 header read
          · intro under _
            refine ⟨covers, fun header' accepted => ?_⟩
            rw [read] at accepted
            cases accepted
            exact under
        rw [only]
        simp only [decodeSecureFrame, read, caught, ok_bind]
        unfold Unlocks
        cases svc.getDeviceAesKey header.logicalDeviceName with
        | error e => simp
        | ok key =>
          cases key with
          | some k => simpa [applyDlmsKeyPolicy, returns_caught] using parsed (some k)
          | none =>
            cases env.isProduction with
            | true => simp [applyDlmsKeyPolicy]
            | false =>
              cases plaintextDlmsAllowed env.allowPlaintextDlms env.secureModeEnabled with
              | true => simpa [applyDlmsKeyPolicy, returns_caught] using parsed none
              | false => simp [applyDlmsKeyPolicy]
    · refine iff_of_false ?_ fun under => covers (under long).1
      rw [decodeSecureFrame, parseHeader_of_underflow svc.crypto long (by omega)]
      exact not_returns_panic
  · refine iff_of_true ?_ fun full => absurd full long
    rw [decodeSecureFrame, parseHeader_of_short svc.crypto (by omega)]
    exact returns_ok _

end Unpack

/-! ## Keys -/

namespace KeyServices

variable {K : Type} (svc : KeyServices K) (times : CallTimes)

/-- The key registered for a meter: the text that Redis holds for it, if that is a key. -/
def registered (meterId : String) : Option K :=
  (redisText svc.redis (pubkeyField meterId)).bind fun raw =>
    (svc.pubkeys.kind.parse meterId raw).toOption

/-- The answer of Redis for a meter is its registered key. -/
theorem slotVerdict_registered (meterId : String) :
    (svc.pubkeys.slotVerdict meterId (svc.pubkeys.slotOf meterId)).getD none =
      svc.registered meterId := by
  change (svc.pubkeys.slotVerdict meterId (redisText svc.redis (pubkeyField meterId))).getD none = _
  unfold registered
  cases redisText svc.redis (pubkeyField meterId) with
  | none => rfl
  | some raw =>
    rw [Option.bind_some, KeyReader.slotVerdict]
    cases svc.pubkeys.kind.parse meterId raw with
    | ok vk => rfl
    | error e => rfl

/-- A Redis that does not answer fails the batch, or was not asked. -/
theorem resolveKeys_of_error (e : String) (meterIds : List String) (cache : PubkeyCache K) :
    (svc.pubkeys.resolveKeysGiven times (.error e) meterIds cache).1 = .error e ∨
      (svc.pubkeys.resolveKeysGiven times (.error e) meterIds cache).1 =
        (svc.pubkeys.resolveKeys times meterIds cache).1 := by
  simp only [KeyReader.resolveKeys, KeyReader.resolveKeysGiven]
  split
  · exact .inr rfl
  · exact .inl rfl

/-- The verdict on an entry: its own signature, over its own bytes, under the key of the device
that its own frame names. -/
def accepts (key : Nat → String → Option K) (m : BulkEntry × Nat) : Bool :=
  svc.verifyJob (key m.2 m.1.frame.logicalDeviceName) m.1.frameBytes m.1.signature

/-- On columns, the checks in front of the lookups change nothing. -/
theorem verifyBatch_columnsOf (reply : Except String Unit) (entries : List BulkEntry)
    (cache : PubkeyCache K) :
    (svc.verifyTelemetrySignatureBatchGiven times reply (columnsOf entries).meterIds
        (columnsOf entries).payloadsForSig (columnsOf entries).signatures cache).1 =
      ((svc.pubkeys.resolveKeysGiven times reply (columnsOf entries).meterIds cache).1 >>=
        svc.verifyJobs (columnsOf entries).payloadsForSig (columnsOf entries).signatures 0) := by
  rw [verifyTelemetrySignatureBatchGiven, if_neg (by simp [columnsOf])]
  cases entries with
  | nil => rfl
  | cons e entries => rw [if_neg (by simp [columnsOf])]

/-- The verifier answers, at every index, for the entry at that index. -/
theorem verifyBatch_columns {entries : List BulkEntry} {cache : PubkeyCache K}
    (readable : svc.pubkeys.Readable times cache (columnsOf entries).meterIds) :
    (svc.verifyTelemetrySignatureBatchGiven times (.ok ()) (columnsOf entries).meterIds
        (columnsOf entries).payloadsForSig (columnsOf entries).signatures cache).1 =
      .ok (entries.zipIdx.map (svc.accepts (svc.pubkeys.keyOf times cache))) := by
  have keys : (svc.pubkeys.resolveKeysGiven times (.ok ()) (columnsOf entries).meterIds cache).1 =
      .ok (entries.zipIdx.map fun m =>
        svc.pubkeys.keyOf times cache m.2 m.1.frame.logicalDeviceName) := by
    rw [← KeyReader.resolveKeys, svc.pubkeys.resolveKeys_fst times readable]
    congr 1
    simp [columnsOf, List.zipIdx_map]
  rw [verifyBatch_columnsOf, keys, ok_bind]
  exact svc.verifyJobs_columns BulkEntry.frameBytes BulkEntry.signature
    (fun m => svc.pubkeys.keyOf times cache m.2 m.1.frame.logicalDeviceName) [] entries

/-- With one key to read that is bytes and no text, it answers for none of them. -/
theorem verifyBatch_of_not_readable {entries : List BulkEntry} {cache : PubkeyCache K}
    (unreadable : ¬ svc.pubkeys.Readable times cache (columnsOf entries).meterIds) :
    ∃ e, (svc.verifyTelemetrySignatureBatchGiven times (.ok ()) (columnsOf entries).meterIds
      (columnsOf entries).payloadsForSig (columnsOf entries).signatures cache).1 = .error e := by
  obtain ⟨e, failed⟩ := svc.pubkeys.resolveKeys_of_not_readable times unreadable
  rw [KeyReader.resolveKeys] at failed
  exact ⟨e, by rw [verifyBatch_columnsOf, failed]; rfl⟩

/-- Where Redis does not answer, the batch fails, or it is as if Redis had. -/
theorem verifyBatch_of_error (e : String) (entries : List BulkEntry) (cache : PubkeyCache K) :
    (∃ e', (svc.verifyTelemetrySignatureBatchGiven times (.error e) (columnsOf entries).meterIds
        (columnsOf entries).payloadsForSig (columnsOf entries).signatures cache).1 = .error e') ∨
      (svc.verifyTelemetrySignatureBatchGiven times (.error e) (columnsOf entries).meterIds
          (columnsOf entries).payloadsForSig (columnsOf entries).signatures cache).1 =
        (svc.verifyTelemetrySignatureBatchGiven times (.ok ()) (columnsOf entries).meterIds
          (columnsOf entries).payloadsForSig (columnsOf entries).signatures cache).1 := by
  simp only [verifyBatch_columnsOf]
  obtain failed | same := svc.resolveKeys_of_error times e (columnsOf entries).meterIds cache
  · left
    rw [failed]
    exact ⟨e, rfl⟩
  · right
    rw [same]
    rfl

/-! ### What the cache holds -/

/-- Every entry, live or not, is the registered key of its meter. -/
def Coherent (cache : PubkeyCache K) : Prop :=
  ∀ id e, AList.lookup id cache.map = some e → e.value = svc.registered id

variable {svc} {cache : PubkeyCache K}

theorem Coherent.get (coherent : svc.Coherent cache) (now : Instant) (id : String) :
    svc.Coherent { cache with map := (Expiring.get now id cache.map).2 } := by
  unfold Expiring.get
  split
  · split
    · exact coherent
    · intro other e found
      rw [Hash.lookup_del] at found
      split at found
      · cases found
      · exact coherent other e found
  · exact coherent

theorem Coherent.cachePut (coherent : svc.Coherent cache) (i : Nat) {id : String} {key : Option K}
    (registered : key = svc.registered id) :
    svc.Coherent (svc.pubkeys.cachePut times i cache id key) := by
  intro other e found
  simp only [KeyReader.cachePut, PrunedCache.insertPruned] at found
  rw [Hash.lookup_set] at found
  split at found
  · next same =>
    cases found
    exact same ▸ registered
  · split at found
    · exact coherent other e (Hash.lookup_filter.mp found).1
    · exact coherent other e found

theorem Coherent.consult (coherent : svc.Coherent cache) (meterIds : List String) (i : Nat)
    (cols : KeyColumns K) : svc.Coherent (svc.pubkeys.consult times i meterIds cols cache).2 := by
  induction meterIds generalizing i cols cache with
  | nil => exact coherent
  | cons id rest ih =>
    have dropped := coherent.get (times.look i) id
    simp only [KeyReader.consult]
    split
    · next looked =>
      rw [looked] at dropped
      exact ih dropped _ _
    · next looked =>
      rw [looked] at dropped
      exact ih dropped _ _

theorem Coherent.parseSlot (coherent : svc.Coherent cache) (i : Nat) (id : String) :
    svc.Coherent (svc.pubkeys.parseSlot times i cache id (svc.pubkeys.slotOf id)).2 := by
  have registered := svc.slotVerdict_registered id
  rw [KeyReader.parseSlot_eq]
  cases verdict : svc.pubkeys.slotVerdict id (svc.pubkeys.slotOf id) with
  | none => exact coherent
  | some key =>
    rw [verdict] at registered
    exact coherent.cachePut times i registered

theorem Coherent.backfill (coherent : svc.Coherent cache) {meterIds : List String}
    (holes : List (String × Nat)) (holed : ∀ m ∈ holes, meterIds[m.2]? = some m.1)
    (vks : List (Option K)) :
    svc.Coherent (svc.pubkeys.backfill times meterIds
      (holes.map fun m => (svc.pubkeys.slotOf m.1, m.2)) vks cache).2 := by
  induction holes generalizing vks cache with
  | nil => exact coherent
  | cons m holes ih =>
    have here := holed _ List.mem_cons_self
    have put := coherent.parseSlot times m.2 m.1
    simp only [List.map_cons, KeyReader.backfill, here]
    split
    · exact ih put (fun m mem => holed m (List.mem_cons_of_mem _ mem)) _
    · exact put

theorem Coherent.resolveKeys (coherent : svc.Coherent cache) (reply : Except String Unit)
    (meterIds : List String) :
    svc.Coherent (svc.pubkeys.resolveKeysGiven times reply meterIds cache).2 := by
  have looked := coherent.consult times meterIds 0 KeyColumns.empty
  have found := svc.pubkeys.consult_fst times cache meterIds 0 KeyColumns.empty cache
    fun _ _ _ => rfl
  simp only [KeyColumns.empty, List.nil_append] at found looked
  simp only [KeyReader.resolveKeysGiven, KeyColumns.empty, found]
  split
  · exact looked
  · cases reply with
    | error e => exact looked
    | ok answered =>
      cases asked : redisMget svc.pubkeys.redis
          ((KeyReader.missed times cache 0 meterIds).map fun m => svc.pubkeys.field m.1) with
      | error e =>
        simp only [KeyReader.mgetGiven, KeyReader.mgetWithRetry, asked]
        exact looked
      | ok raw =>
        have slots := eq_of_redisMget asked
        simp only [KeyReader.mgetGiven, KeyReader.mgetWithRetry, asked]
        change svc.Coherent (svc.pubkeys.backfill times meterIds (raw.zip _) _ _).2
        rw [slots, KeyReader.zip_answers]
        exact looked.backfill times _ (fun m mem => ((KeyReader.mem_missed times).mp mem).1) _

theorem Coherent.verifyBatch (coherent : svc.Coherent cache) (reply : Except String Unit)
    (meterIds : List String) (payloads signatures : List (List UInt8)) :
    svc.Coherent (svc.verifyTelemetrySignatureBatchGiven times reply meterIds payloads signatures
      cache).2 := by
  unfold verifyTelemetrySignatureBatchGiven
  split
  · exact coherent
  · split
    · exact coherent
    · exact coherent.resolveKeys times reply meterIds

/-- A single call reads the registered key, or fails. -/
theorem registered_of_readKey {id : String} {key : Option K}
    (read : svc.pubkeys.readKey id = .ok key) : key = svc.registered id := by
  unfold KeyReader.readKey KeyReader.getWithRetry redisGet at read
  change key = (redisText svc.pubkeys.redis (svc.pubkeys.field id)).bind _
  unfold redisText
  cases found : AList.lookup (svc.pubkeys.field id) svc.pubkeys.redis with
  | none =>
    rw [found] at read
    exact (Except.ok.inj read).symm
  | some value =>
    rw [found] at read
    cases value with
    | text raw =>
      simp only [Except.mapError] at read
      cases parsed : svc.pubkeys.kind.parse id raw with
      | error e =>
        rw [parsed] at read
        cases read
      | ok vk =>
        rw [parsed] at read
        rw [Option.bind_some, RedisValue.text?, Option.bind_some, parsed]
        exact (Except.ok.inj read).symm
    | binary => cases read
    | other => cases read

theorem Coherent.resolveKey (coherent : svc.Coherent cache) (reply : Except String Unit) (i : Nat)
    (id : String) : svc.Coherent (svc.pubkeys.resolveKeyGiven times reply i id cache).2 := by
  have dropped := coherent.get (times.look i) id
  cases reply with
  | error e =>
    unfold KeyReader.resolveKeyGiven
    split
    · next looked =>
      rw [looked] at dropped
      exact dropped
    · next looked =>
      rw [looked] at dropped
      exact dropped
  | ok answered =>
    rw [← KeyReader.resolveKey]
    cases known : KeyReader.held (times.look i) cache id with
    | some verdict =>
      rw [svc.pubkeys.resolveKey_of_held times known]
      exact dropped
    | none =>
      rw [svc.pubkeys.resolveKey_of_missed times known]
      cases read : svc.pubkeys.readKey id with
      | error e => exact dropped
      | ok key => exact dropped.cachePut times i (registered_of_readKey read)

variable (svc) in
/-- The caches of a verifier that has worked with this store since it was started. -/
inductive Served : PubkeyCache K → Prop
  | fresh (now : Instant) : Served ⟨∅, now⟩
  | batch {cache : PubkeyCache K} (times : CallTimes) (reply : Except String Unit)
      (meterIds : List String) (payloads signatures : List (List UInt8)) (served : Served cache) :
      Served (svc.verifyTelemetrySignatureBatchGiven times reply meterIds payloads signatures
        cache).2
  | single {cache : PubkeyCache K} (times : CallTimes) (reply : Except String Unit) (i : Nat)
      (meterId : String) (served : Served cache) :
      Served (svc.pubkeys.resolveKeyGiven times reply i meterId cache).2

theorem Served.coherent (served : svc.Served cache) : svc.Coherent cache := by
  induction served with
  | fresh now =>
    intro id e found
    cases found
  | batch times reply meterIds payloads signatures _ ih =>
    exact ih.verifyBatch times reply meterIds payloads signatures
  | single times reply i meterId _ ih => exact ih.resolveKey times reply i meterId

/-- Such a verifier knows nothing but registered keys. -/
theorem Served.keyOf_eq (served : svc.Served cache) (i : Nat) (meterId : String) :
    svc.pubkeys.keyOf times cache i meterId = svc.registered meterId := by
  rw [KeyReader.keyOf, slotVerdict_registered, KeyReader.held, get_fst]
  cases found : AList.lookup meterId cache.map with
  | none => rfl
  | some e =>
    rw [Option.bind_some]
    split
    · exact served.coherent meterId e found
    · rfl

end KeyServices

/-! ## The request -/

section

variable {F K : Type} [Float64 F] (svc : Services F K) (env : Env)

/-- The verified entries, each with its own frame. -/
theorem processVerified_columns (verdict : BulkEntry × Nat → Bool) (done entries : List BulkEntry) :
    processVerified svc (columnsOf (done ++ entries)) done.length
        ((entries.zipIdx done.length).map verdict) =
      .ok ((entries.zipIdx done.length).filterMap fun m =>
        if verdict m then some (bulkReading svc m.2 m.1.frame) else none) := by
  induction entries generalizing done with
  | nil => rfl
  | cons e entries ih =>
    have rest := ih (done ++ [e])
    rw [List.append_assoc, List.singleton_append, List.length_append, List.length_singleton]
      at rest
    rw [List.zipIdx_cons, List.map_cons, List.filterMap_cons, processVerified, columnsOf,
      index_column, ok_bind, index_column, ok_bind]
    change (if verdict (e, done.length) then
      processVerified svc (columnsOf (done ++ e :: entries)) _ _ >>= _
      else processVerified svc (columnsOf (done ++ e :: entries)) _ _) = _
    rw [rest]
    by_cases verified : verdict (e, done.length)
    · rw [if_pos verified, if_pos verified]
      rfl
    · rw [if_neg verified, if_neg verified]

/-- What a request hands to dissemination. -/
def handed {α : Type} : Checked ConnectError (List α × BulkRawResponse) → List α
  | .ok (readings, _) => readings
  | _ => []

/-- The readings that are due: of the entries that decode and whose own signature verifies over
their own bytes, under the key of the device that their own frame names. -/
def dueReadings (keys : KeyServices K) (key : Nat → String → Option K) (payload : List UInt8) :
    List (DeviceReading F) :=
  (decodedEntries svc env payload).zipIdx.filterMap fun m =>
    if keys.accepts key m then some (bulkReading svc m.2 m.1.frame) else none

omit [Float64 F] in
theorem bulkColumns_of_returns {payload : List UInt8} {meterCount : Int} (sized : 0 ≤ meterCount)
    (under : ∀ f ∈ splitBulkFrames payload 0, DecodesUnder svc env f.1) :
    bulkColumns svc env payload meterCount =
      .ok (columnsOf (decodedEntries svc env payload)) := by
  rw [bulkColumns, withCapacity, if_pos sized, ok_bind, splitBulkLoop_eq, ok_bind, List.nil_append]
  exact unpackColumns_of_returns svc env
    (fun f mem => (decodeSecureFrame_returns_iff svc env f.1).mpr (under f mem)) []

omit [Float64 F] in
theorem bulkColumns_of_panic {payload : List UInt8} {meterCount : Int}
    (bad : ¬ (0 ≤ meterCount ∧ ∀ f ∈ splitBulkFrames payload 0, DecodesUnder svc env f.1)) :
    bulkColumns svc env payload meterCount = .panic := by
  by_cases sized : 0 ≤ meterCount
  · rw [bulkColumns, withCapacity, if_pos sized, ok_bind, splitBulkLoop_eq, ok_bind,
      List.nil_append]
    refine unpackColumns_of_panic svc env (fun all => bad ⟨sized, fun f mem => ?_⟩) _
    exact (decodeSecureFrame_returns_iff svc env f.1).mp (all f mem)
  · rw [bulkColumns, withCapacity, if_neg sized, panic_bind]

variable {env} (verifying : bulkSkipVerifyAllowed env.skipSigVerify env.secureModeEnabled = false)
  (keys : KeyServices K) (times : CallTimes) (payload : List UInt8) (meterCount : Int)
  (cache : PubkeyCache K)

include verifying

theorem handed_of_returns (sized : 0 ≤ meterCount)
    (under : ∀ f ∈ splitBulkFrames payload 0, DecodesUnder svc env f.1)
    (readable : keys.pubkeys.Readable times cache
      (columnsOf (decodedEntries svc env payload)).meterIds) :
    handed (bulkRawIngestColumns svc env keys times (.ok ()) payload meterCount cache).1 =
      dueReadings svc env keys (keys.pubkeys.keyOf times cache) payload := by
  have verified := keys.verifyBatch_columns times readable
  have processed := processVerified_columns svc (keys.accepts (keys.pubkeys.keyOf times cache)) []
    (decodedEntries svc env payload)
  rw [List.nil_append, List.length_nil] at processed
  simp only [bulkRawIngestColumns, bulkColumns_of_returns svc env sized under, verifyColumns,
    verifying, Bool.false_eq_true, if_false]
  rw [verified, batchFailed, ok_bind, processed]
  rfl

/-- With one key to read that is bytes and no text, nothing is handed on. -/
theorem handed_of_not_readable (sized : 0 ≤ meterCount)
    (under : ∀ f ∈ splitBulkFrames payload 0, DecodesUnder svc env f.1)
    (unreadable : ¬ keys.pubkeys.Readable times cache
      (columnsOf (decodedEntries svc env payload)).meterIds) :
    handed (bulkRawIngestColumns svc env keys times (.ok ()) payload meterCount cache).1 = [] := by
  obtain ⟨e, failed⟩ := keys.verifyBatch_of_not_readable times unreadable
  simp only [bulkRawIngestColumns, bulkColumns_of_returns svc env sized under, verifyColumns,
    verifying, Bool.false_eq_true, if_false]
  rw [failed]
  rfl

/-- Where Redis does not answer, nothing is handed on, or all that would have been. -/
theorem handed_of_error (e : String) :
    handed (bulkRawIngestColumns svc env keys times (.error e) payload meterCount cache).1 = [] ∨
      handed (bulkRawIngestColumns svc env keys times (.error e) payload meterCount cache).1 =
        handed (bulkRawIngestColumns svc env keys times (.ok ()) payload meterCount cache).1 := by
  by_cases fine : 0 ≤ meterCount ∧ ∀ f ∈ splitBulkFrames payload 0, DecodesUnder svc env f.1
  · simp only [bulkRawIngestColumns, bulkColumns_of_returns svc env fine.1 fine.2, verifyColumns,
      verifying, Bool.false_eq_true, if_false]
    obtain ⟨e', failed⟩ | same :=
      keys.verifyBatch_of_error times e (decodedEntries svc env payload) cache
    · left
      rw [failed]
      rfl
    · right
      rw [same]
  · left
    simp only [bulkRawIngestColumns, bulkColumns_of_panic svc env fine]
    rfl

/-- With verification in effect and a Redis that answers, what is handed to dissemination are the
readings that are due, unless there are such readings and the request ends early: in a panic, as
its meter count is negative or one of its frames is none that is decoded or skipped; or with an
error, as Redis holds bytes that are no text for a device that one of its frames names and whose
key has to be read. The keys are what the verifier knows, which is what is registered as long as
nobody registers anew; and where Redis does not answer, the rule is all or nothing. -/
theorem bulk_handed_on_iff :
    (handed (bulkRawIngestColumns svc env keys times (.ok ()) payload meterCount cache).1 =
        dueReadings svc env keys (keys.pubkeys.keyOf times cache) payload ↔
      dueReadings svc env keys (keys.pubkeys.keyOf times cache) payload = [] ∨
        0 ≤ meterCount ∧ (∀ f ∈ splitBulkFrames payload 0, DecodesUnder svc env f.1) ∧
          keys.pubkeys.Readable times cache
            (columnsOf (decodedEntries svc env payload)).meterIds) ∧
    (keys.Served cache →
      ∀ i meterId, keys.pubkeys.keyOf times cache i meterId = keys.registered meterId) ∧
    ∀ e, handed (bulkRawIngestColumns svc env keys times (.error e) payload meterCount cache).1 =
        [] ∨
      handed (bulkRawIngestColumns svc env keys times (.error e) payload meterCount cache).1 =
        handed (bulkRawIngestColumns svc env keys times (.ok ()) payload meterCount cache).1 := by
  refine ⟨?_, fun served i meterId => served.keyOf_eq times i meterId,
    handed_of_error svc verifying keys times payload meterCount cache⟩
  by_cases fine : 0 ≤ meterCount ∧ (∀ f ∈ splitBulkFrames payload 0, DecodesUnder svc env f.1) ∧
    keys.pubkeys.Readable times cache (columnsOf (decodedEntries svc env payload)).meterIds
  · obtain ⟨sized, under, readable⟩ := fine
    exact iff_of_true
      (handed_of_returns svc verifying keys times payload meterCount cache sized under readable)
      (.inr ⟨sized, under, readable⟩)
  · have nothing : handed
        (bulkRawIngestColumns svc env keys times (.ok ()) payload meterCount cache).1 = [] := by
      by_cases decodes : 0 ≤ meterCount ∧
        ∀ f ∈ splitBulkFrames payload 0, DecodesUnder svc env f.1
      · exact handed_of_not_readable svc verifying keys times payload meterCount cache decodes.1
          decodes.2 fun readable => fine ⟨decodes.1, decodes.2, readable⟩
      · simp only [bulkRawIngestColumns, bulkColumns_of_panic svc env decodes]
        rfl
    rw [nothing]
    constructor
    · exact fun none => .inl none.symm
    · rintro (none | fine')
      · exact none.symm
      · exact absurd fine' fine

end

/-! ## Two requests -/

/-- A deployment without device keys that reads plain frames. Uuids count up. -/
private def plainServices : Services ℚ Unit where
  crypto := plainCrypto
  verifier := ⟨fun _ => .ok none, fun _ => .error "invalid character", fun _ _ _ => false⟩
  getDeviceAesKey _ := .ok none
  now := DateTime.ofSecs 1700000100
  parseUuid _ := none
  newV4 := BitVec.ofNat 128
  disseminate _ := true

private def plainEnv : Env :=
  ⟨false, false, false, true, false⟩

/-- `M1` has a key, under which 64 sevens sign everything. -/
private def sevens : KeyServices Unit where
  codecs := ⟨fun _ => .ok [], fun _ => .ok ()⟩
  bs58Decode _ := .error "invalid character"
  verify _ _ sig := sig == List.replicate 64 7
  pubkeyPositiveTtl := 60000000000
  pubkeyNegativeTtl := 10000000000
  enckeyPositiveTtl := 300000000000
  enckeyNegativeTtl := 10000000000
  redis := AList.insert (pubkeyField "M1") (.text "77777777777777777777777777777777") ∅

private def noTime : CallTimes where
  look _ := 0
  look_mono := monotone_const
  stamp _ := 0
  store _ := 0

private def incFrame : List UInt8 :=
  frameFromTlv plainCrypto zeroTag none incFields incTlvs

private theorem incFrame_decoded :
    decodeSecureFrame plainServices plainEnv incFrame = .ok (some (decoded incFields incTlvs)) := by
  have laid : incFrame =
      framed plainCrypto incFields (frameBlock zeroTag none incFields incTlvs) [] := by
    rw [framed, List.append_nil]
    rfl
  have fits : (frameBlock zeroTag none incFields incTlvs).length ≤ 232 := by decide
  have header := parseHeader_framed incFields plainCrypto_seals.crc32_lt fits []
  have frame := parse_framed plainCrypto_seals incFields none incTlvs [] fits
  rw [← laid] at header frame
  simp only [Option.map_none] at frame
  simp only [decodeSecureFrame, plainServices, header, caught, ok_bind, applyDlmsKeyPolicy]
  rw [frame]
  rfl

private def incEntry : PackedEntry where
  frame := incFrame
  signature := List.replicate 64 7
  frame_fits := by decide +kernel
  signature_length := rfl

/-- Twenty-five zero bytes: long enough to be looked at, and declared to have no length. -/
private def zeroEntry : PackedEntry where
  frame := List.replicate 25 0
  signature := List.replicate 64 7
  frame_fits := by decide
  signature_length := rfl

/-- Too short to be a frame. -/
private def shortEntry : PackedEntry where
  frame := [4]
  signature := List.replicate 64 7
  frame_fits := by decide
  signature_length := rfl

private theorem split_packed (entries : List PackedEntry) :
    splitBulkFrames (packBulk entries) 0 = entries.map PackedEntry.pair := by
  have empty : Truncated [] := fun len rest tail => by cases tail
  have cut := splitBulkFrames_packed entries [] empty
  rw [List.nil_append, List.append_nil] at cut
  exact cut

private theorem due_incEntry {other : PackedEntry}
    (skipped : decodedEntry plainServices plainEnv other.pair = none) :
    dueReadings plainServices plainEnv sevens (fun _ => sevens.registered)
        (packBulk [other, incEntry]) =
      [bulkReading plainServices 0 (decoded incFields incTlvs)] := by
  have kept : decodedEntry plainServices plainEnv incEntry.pair =
      some ⟨decoded incFields incTlvs, incFrame, List.replicate 64 7⟩ := by
    simp only [decodedEntry, PackedEntry.pair, incEntry, incFrame_decoded]
  have one : decodedEntries plainServices plainEnv (packBulk [other, incEntry]) =
      [⟨decoded incFields incTlvs, incFrame, List.replicate 64 7⟩] := by
    simp only [decodedEntries, split_packed, List.map_cons, List.map_nil, List.filterMap_cons,
      skipped, kept, List.filterMap_nil]
  have accepted : sevens.accepts (fun _ => sevens.registered)
      (⟨decoded incFields incTlvs, incFrame, List.replicate 64 7⟩, 0) = true := by
    decide +kernel
  rw [dueReadings, one, List.zipIdx_singleton, List.filterMap_cons]
  simp only [accepted, if_true, List.filterMap_nil]

private theorem zero_frame_panicked :
    ¬ (decodeSecureFrame plainServices plainEnv zeroEntry.frame).Returns := by
  rw [decodeSecureFrame_returns_iff]
  intro under
  exact absurd (under (by decide)).1 (by decide)

/-- A valid entry is lost because another one, which nobody signed, makes the decoder panic. -/
theorem zero_frame_takes_valid_entry :
    ¬ ∀ (svc : Services ℚ Unit) (env : Env) (keys : KeyServices Unit) (times : CallTimes)
      (payload : List UInt8) (meterCount : Int) (cache : PubkeyCache Unit),
      bulkSkipVerifyAllowed env.skipSigVerify env.secureModeEnabled = false → keys.Served cache →
        handed (bulkRawIngestColumns svc env keys times (.ok ()) payload meterCount cache).1 =
          dueReadings svc env keys (fun _ => keys.registered) payload := by
  intro law
  have lost := law plainServices plainEnv sevens noTime (packBulk [zeroEntry, incEntry]) 2 ⟨∅, 0⟩
    rfl (.fresh 0)
  have panicked : bulkColumns plainServices plainEnv (packBulk [zeroEntry, incEntry]) 2 =
      .panic := by
    refine bulkColumns_of_panic _ _ fun fine => zero_frame_panicked ?_
    rw [decodeSecureFrame_returns_iff]
    exact fine.2 zeroEntry.pair (by rw [split_packed]; exact List.mem_cons_self)
  have skipped : decodedEntry plainServices plainEnv zeroEntry.pair = none := by
    have panicked' := zero_frame_panicked
    rw [Returns, not_not] at panicked'
    simp only [decodedEntry, PackedEntry.pair, panicked']
  rw [due_incEntry skipped, bulkRawIngestColumns, panicked] at lost
  cases lost

/-- An entry that is skipped does not shift the signature of the one behind it. -/
theorem skipped_entry_shifts_nothing :
    handed (bulkRawIngestColumns plainServices plainEnv sevens noTime (.ok ())
        (packBulk [shortEntry, incEntry]) 2 ⟨∅, 0⟩).1 =
      [bulkReading plainServices 0 (decoded incFields incTlvs)] := by
  have verifying : bulkSkipVerifyAllowed plainEnv.skipSigVerify plainEnv.secureModeEnabled =
      false := rfl
  obtain ⟨pairs, known, _⟩ := bulk_handed_on_iff plainServices verifying sevens noTime
    (packBulk [shortEntry, incEntry]) 2 ⟨∅, 0⟩
  have keys : sevens.pubkeys.keyOf noTime ⟨∅, 0⟩ = fun _ => sevens.registered := by
    funext i meterId
    exact known (.fresh 0) i meterId
  have skipped : decodedEntry plainServices plainEnv shortEntry.pair = none := by
    simp only [decodedEntry, PackedEntry.pair, shortEntry, decodeSecureFrame, plainServices,
      parseHeader_of_short plainCrypto (by decide : [(4 : UInt8)].length < 25), caught, ok_bind]
  have fine : ∀ f ∈ splitBulkFrames (packBulk [shortEntry, incEntry]) 0,
      DecodesUnder plainServices plainEnv f.1 := by
    rw [split_packed]
    intro f mem
    rw [← decodeSecureFrame_returns_iff]
    simp only [List.map_cons, List.map_nil, List.mem_cons, List.not_mem_nil, or_false] at mem
    obtain rfl | rfl := mem
    · rw [decodeSecureFrame_returns_iff]
      exact fun long => absurd long (by decide)
    · change (decodeSecureFrame plainServices plainEnv incFrame).Returns
      rw [incFrame_decoded]
      exact returns_ok _
  have readable (key : String) : AList.lookup key sevens.redis ≠ some .binary := by
    simp only [sevens, Hash.lookup_set]
    split
    · exact fun is => by cases is
    · exact fun is => by cases is
  rw [pairs.mpr (.inr ⟨by decide, fine, fun _ _ _ _ => readable _⟩), keys, due_incEntry skipped]

end AggregatorBridge
