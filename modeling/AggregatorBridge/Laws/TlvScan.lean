import AggregatorBridge.Laws.FrameRoundTrip
import AggregatorBridge.Lib.PrefixCode

/-!
# The TLV walk on any block

A block need not be one an encoder wrote: without a key it is whatever stands in the frame. The
records are a prefix code, because the second byte of a record says how long it is, so every
block begins with a longest list of complete records and the walk keeps exactly those
(`tlv_scan_exact`). It ends where a record is cut short, be it in its tag, its length or its
value, and what it looked at there leaves no trace.

The law does not say that a record means anything: a tag that nobody knows is kept like any other,
or passed over where its length is wrong.
-/

namespace AggregatorBridge

open Checked PrefixCode

namespace DlmsBinaryFrame

/-- A record starts with its tag and its length, and the value is as long as that says. -/
theorem Tlv.bytes_prefix_iff (t : Tlv) (text : List UInt8) :
    t.bytes <+: text ↔
      ∃ len rest, text = t.tag :: len :: (t.val ++ rest) ∧ len.toNat = t.val.length := by
  have byte : (UInt8.ofNat t.val.length).toNat = t.val.length := by
    rw [UInt8.toNat_ofNat', Nat.mod_eq_of_lt (by have := t.fits; omega)]
  constructor
  · rintro ⟨rest, rfl⟩
    exact ⟨UInt8.ofNat t.val.length, rest, rfl, byte⟩
  · rintro ⟨len, rest, rfl, same⟩
    have spelled : UInt8.ofNat t.val.length = len := by
      apply UInt8.toNat_inj.mp
      rw [byte, same]
    exact ⟨rest, by rw [Tlv.bytes, spelled]; rfl⟩

/-- The length byte keeps a record from being the beginning of another one. -/
theorem tlv_prefixFree : PrefixFree Tlv.bytes where
  ne_nil t := List.cons_ne_nil _ _
  eq_of_prefix s t front := by
    obtain ⟨len, rest, same, length⟩ := (s.bytes_prefix_iff _).mp front
    obtain ⟨len', rest', same', length'⟩ := (t.bytes_prefix_iff _).mp (List.prefix_refl _)
    rw [same'] at same
    obtain ⟨tag, rfl, vals⟩ := by simpa only [List.cons.injEq] using same
    have val : t.val = s.val := (List.append_inj vals (length'.symm.trans length)).1
    obtain ⟨sTag, sVal, _⟩ := s
    obtain ⟨tTag, tVal, _⟩ := t
    cases tag
    cases val
    rfl

/-- A record that is there to its end is at the front of what is left. -/
theorem record_front {rest : List UInt8} (tag : UInt8) {len : UInt8} {behind : List UInt8}
    (here : rest = tag :: len :: behind) (complete : len.toNat ≤ behind.length) :
    ∃ t : Tlv, t.bytes <+: rest := by
  have length : (behind.take len.toNat).length = len.toNat := by
    rw [List.length_take, Nat.min_eq_left complete]
  have fits : (behind.take len.toNat).length ≤ 255 := by
    have := len.toNat_lt
    omega
  refine ⟨⟨tag, behind.take len.toNat, fits⟩, ?_⟩
  rw [Tlv.bytes_prefix_iff]
  refine ⟨len, behind.drop len.toNat, ?_, length.symm⟩
  rw [here, List.take_append_drop]

/-- Where no complete record follows, the walk is over: each of its three exits is a way for a
record to be cut short. -/
theorem storeTlvs_incomplete (front : List UInt8) {rest : List UInt8}
    (stuck : Incomplete Tlv.bytes rest) (frame : DlmsBinaryFrame) :
    storeTlvs (front ++ rest) front.length frame = .ok frame := by
  rw [storeTlvs]
  rcases rest with _ | ⟨tag, _ | ⟨len, behind⟩⟩
  · rw [List.append_nil, dif_neg (lt_irrefl _)]
  · have tagHere : front.length < (front ++ [tag]).length := by simp
    rw [dif_pos tagHere, index_of_lt tagHere, ok_bind, if_neg (by simp)]
  · have length : (front ++ tag :: len :: behind).length = front.length + 2 + behind.length := by
      simp only [List.length_append, List.length_cons]
      omega
    have lenHere : (index (front ++ tag :: len :: behind) (front.length + 1) :
        Checked String UInt8) = .ok len := by
      rw [index_of_lt (by omega)]
      simp
    have short : ¬ len.toNat ≤ behind.length := by
      intro complete
      obtain ⟨t, isFront⟩ := record_front tag rfl complete
      exact stuck t isFront
    rw [dif_pos (by omega), index_of_lt (by omega), ok_bind, if_pos (by omega), lenHere, ok_bind,
      if_neg (by omega)]

/-- The walk keeps the longest list of records at the front of a block. -/
theorem storeTlvs_longest {block : List UInt8} {tlvs : List Tlv}
    (longest : Longest Tlv.bytes block tlvs) (frame : DlmsBinaryFrame) :
    storeTlvs block 0 frame = .ok (tlvs.foldl keep frame) := by
  obtain ⟨rest, rfl, stuck⟩ := (longest_iff tlv_prefixFree).mp longest
  have walked := storeTlvs_records [] rest tlvs frame
  rw [List.nil_append, List.length_nil] at walked
  exact walked.trans (storeTlvs_incomplete _ stuck _)

/-- Every block has one longest prefix of complete records, and the walk over the block ends, in
range of every index, with exactly these records kept, in their order. -/
theorem tlv_scan_exact (block : List UInt8) :
    ∃ tlvs : List Tlv, (∀ others, Longest Tlv.bytes block others ↔ others = tlvs) ∧
      ∀ frame : DlmsBinaryFrame, storeTlvs block 0 frame = .ok (tlvs.foldl keep frame) := by
  obtain ⟨tlvs, rest, read, stuck⟩ := exists_reading tlv_prefixFree block
  have longest : Longest Tlv.bytes block tlvs :=
    (longest_iff tlv_prefixFree).mpr ⟨rest, read, stuck⟩
  refine ⟨tlvs, ?_, storeTlvs_longest longest⟩
  intro others
  constructor
  · exact fun other => longest.unique tlv_prefixFree other
  · rintro rfl
    exact longest

end DlmsBinaryFrame

end AggregatorBridge
