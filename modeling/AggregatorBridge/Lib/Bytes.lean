import Mathlib.Algebra.Ring.Nat
import AggregatorBridge.Lib.Text

/-!
# Text and bytes, read back

What a standard library writes, it reads: an integer from its big-endian bytes, and a text from
its UTF-8 bytes. Decoding is the lossy one of `Text`, which never fails, so the claim is that it
replaces nothing: on the encoding of a character it takes the branch of its length, and what
comes behind does not matter.
-/

namespace Text

/-! ## Big-endian integers -/

/-- `to_be_bytes` of an integer of `width` bytes. -/
def beBytes : Nat → Nat → List UInt8
  | 0, _ => []
  | width + 1, n => beBytes width (n / 256) ++ [UInt8.ofNat n]

@[simp] theorem length_beBytes (width n : Nat) : (beBytes width n).length = width := by
  induction width generalizing n with
  | zero => rfl
  | succ width ih => rw [beBytes, List.length_append, ih, List.length_singleton]

theorem beNat_snoc (bytes : List UInt8) (b : UInt8) :
    beNat (bytes ++ [b]) = beNat bytes * 256 + b.toNat := by
  simp [beNat]

/-- An integer that fits its width is read back. -/
theorem beNat_beBytes {width n : Nat} (fits : n < 256 ^ width) : beNat (beBytes width n) = n := by
  induction width generalizing n with
  | zero =>
    have zero : n = 0 := by simpa using fits
    rw [zero]
    rfl
  | succ width ih =>
    have high : n / 256 < 256 ^ width := by
      rw [Nat.div_lt_iff_lt_mul (by decide), ← Nat.pow_succ]
      exact fits
    rw [beBytes, beNat_snoc, ih high, UInt8.toNat_ofNat']
    omega

/-! ## Lossy decoding of well-formed text -/

theorem isCont_iff {b : UInt8} : isCont b = true ↔ 0x80 ≤ b.toNat ∧ b.toNat ≤ 0xBF := by
  simp [isCont, UInt8.le_iff_toNat_le]

theorem isLead2_iff {b : UInt8} : isLead2 b = true ↔ 0xC2 ≤ b.toNat ∧ b.toNat ≤ 0xDF := by
  simp [isLead2, UInt8.le_iff_toNat_le]

theorem second3_iff {lead b : UInt8} :
    second3 lead b = true ↔
      0xE0 ≤ lead.toNat ∧ lead.toNat ≤ 0xEF ∧ 0x80 ≤ b.toNat ∧ b.toNat ≤ 0xBF ∧
        (lead.toNat = 0xE0 → 0xA0 ≤ b.toNat) ∧ (lead.toNat = 0xED → b.toNat ≤ 0x9F) := by
  unfold second3
  simp only [← UInt8.toNat_inj]
  split
  · next h =>
    simp only [Bool.and_eq_true, decide_eq_true_eq, UInt8.le_iff_toNat_le]
    simp at h ⊢
    omega
  · next h =>
    split
    · next h' =>
      simp only [Bool.and_eq_true, decide_eq_true_eq, UInt8.le_iff_toNat_le]
      simp at h h' ⊢
      omega
    · next h' =>
      simp only [Bool.and_eq_true, decide_eq_true_eq, UInt8.le_iff_toNat_le, isCont_iff]
      simp at h h' ⊢
      omega

theorem second4_iff {lead b : UInt8} :
    second4 lead b = true ↔
      0xF0 ≤ lead.toNat ∧ lead.toNat ≤ 0xF4 ∧ 0x80 ≤ b.toNat ∧ b.toNat ≤ 0xBF ∧
        (lead.toNat = 0xF0 → 0x90 ≤ b.toNat) ∧ (lead.toNat = 0xF4 → b.toNat ≤ 0x8F) := by
  unfold second4
  simp only [← UInt8.toNat_inj]
  split
  · next h =>
    simp only [Bool.and_eq_true, decide_eq_true_eq, UInt8.le_iff_toNat_le]
    simp at h ⊢
    omega
  · next h =>
    split
    · next h' =>
      simp only [Bool.and_eq_true, decide_eq_true_eq, UInt8.le_iff_toNat_le]
      simp at h h' ⊢
      omega
    · next h' =>
      simp only [Bool.and_eq_true, decide_eq_true_eq, UInt8.le_iff_toNat_le, isCont_iff]
      simp at h h' ⊢
      omega

/-- A byte below 0x80 is a character of its own. -/
theorem fromUtf8Lossy_ascii {a : UInt8} (small : a.toNat < 0x80) (rest : List UInt8) :
    fromUtf8Lossy (a :: rest) = Char.ofNat a.toNat :: fromUtf8Lossy rest := by
  have ascii : a < 0x80 := UInt8.lt_iff_toNat_lt.mpr small
  cases rest with
  | nil =>
    rw [fromUtf8Lossy.eq_def [a]]
    exact if_pos ascii
  | cons b rest =>
    rw [fromUtf8Lossy.eq_def (a :: b :: rest)]
    exact if_pos ascii

theorem fromUtf8Lossy_two {a b : UInt8} (lead : isLead2 a = true) (cont : isCont b = true)
    (rest : List UInt8) :
    fromUtf8Lossy (a :: b :: rest) = char (a.toNat % 32) [b] :: fromUtf8Lossy rest := by
  have wide : ¬ a < 0x80 := by
    rw [UInt8.lt_iff_toNat_lt]
    have bounds := isLead2_iff.mp lead
    simp
    omega
  rw [fromUtf8Lossy.eq_def (a :: b :: rest)]
  simp only [wide, lead, cont, if_true, if_false]

theorem fromUtf8Lossy_three {a b c : UInt8} (lead : second3 a b = true) (cont : isCont c = true)
    (rest : List UInt8) :
    fromUtf8Lossy (a :: b :: c :: rest) = char (a.toNat % 16) [b, c] :: fromUtf8Lossy rest := by
  have bounds := second3_iff.mp lead
  have wide : ¬ a < 0x80 := by
    rw [UInt8.lt_iff_toNat_lt]
    simp
    omega
  have not2 : isLead2 a = false := by
    rw [Bool.eq_false_iff, Ne, isLead2_iff]
    omega
  simp [fromUtf8Lossy, wide, not2, lead, cont]

theorem fromUtf8Lossy_four {a b c d : UInt8} (lead : second4 a b = true) (cont : isCont c = true)
    (cont' : isCont d = true) (rest : List UInt8) :
    fromUtf8Lossy (a :: b :: c :: d :: rest) =
      char (a.toNat % 8) [b, c, d] :: fromUtf8Lossy rest := by
  have bounds := second4_iff.mp lead
  have wide : ¬ a < 0x80 := by
    rw [UInt8.lt_iff_toNat_lt]
    simp
    omega
  have not2 : isLead2 a = false := by
    rw [Bool.eq_false_iff, Ne, isLead2_iff]
    omega
  have not3 : second3 a b = false := by
    rw [Bool.eq_false_iff, Ne, second3_iff]
    omega
  simp [fromUtf8Lossy, wide, not2, not3, lead, cont, cont']

/-- Decoding takes a character off the front of its encoding. -/
theorem fromUtf8Lossy_utf8EncodeChar (c : Char) (rest : List UInt8) :
    fromUtf8Lossy (String.utf8EncodeChar c ++ rest) = c :: fromUtf8Lossy rest := by
  have valid : c.toNat < 0xD800 ∨ 0xDFFF < c.toNat ∧ c.toNat < 0x110000 := c.valid
  have whole : c.val.toNat = c.toNat := rfl
  have self : Char.ofNat c.toNat = c := Char.ofNat_toNat c
  have byte : ∀ {n : Nat}, n < 256 → (UInt8.ofNat n).toNat = n := by
    intro n small
    rw [UInt8.toNat_ofNat', Nat.mod_eq_of_lt small]
  unfold String.utf8EncodeChar
  simp only [whole]
  generalize c.toNat = v at valid self
  split
  · next one =>
    rw [List.singleton_append, fromUtf8Lossy_ascii (by rw [byte (by omega)]; omega),
      byte (by omega), self]
  split
  · next one two =>
    have lead : (UInt8.ofNat (v / 64 % 0x20 + 0xc0)).toNat = v / 64 + 0xc0 := by
      rw [byte (by omega)]
      omega
    have cont : (UInt8.ofNat (v % 0x40 + 0x80)).toNat = v % 0x40 + 0x80 := byte (by omega)
    rw [List.cons_append, List.singleton_append,
      fromUtf8Lossy_two (isLead2_iff.mpr (by rw [lead]; omega))
        (isCont_iff.mpr (by rw [cont]; omega)), char, lead]
    simp only [List.foldl_cons, List.foldl_nil, cont]
    rw [show (v / 64 + 0xc0) % 32 * 64 + (v % 0x40 + 0x80) % 64 = v by omega, self]
  split
  · next one two three =>
    have lead : (UInt8.ofNat (v / 4096 % 0x10 + 0xe0)).toNat = v / 4096 + 0xe0 := by
      rw [byte (by omega)]
      omega
    have mid : (UInt8.ofNat (v / 64 % 0x40 + 0x80)).toNat = v / 64 % 0x40 + 0x80 :=
      byte (by omega)
    have cont : (UInt8.ofNat (v % 0x40 + 0x80)).toNat = v % 0x40 + 0x80 := byte (by omega)
    simp only [List.cons_append, List.nil_append]
    rw [fromUtf8Lossy_three (second3_iff.mpr (by rw [lead, mid]; omega))
        (isCont_iff.mpr (by rw [cont]; omega)), char, lead]
    simp only [List.foldl_cons, List.foldl_nil, mid, cont]
    rw [show ((v / 4096 + 0xe0) % 16 * 64 + (v / 64 % 0x40 + 0x80) % 64) * 64 +
      (v % 0x40 + 0x80) % 64 = v by omega, self]
  · next one two three =>
    have lead : (UInt8.ofNat (v / 262144 % 0x08 + 0xf0)).toNat = v / 262144 + 0xf0 := by
      rw [byte (by omega)]
      omega
    have mid : (UInt8.ofNat (v / 4096 % 0x40 + 0x80)).toNat = v / 4096 % 0x40 + 0x80 :=
      byte (by omega)
    have mid' : (UInt8.ofNat (v / 64 % 0x40 + 0x80)).toNat = v / 64 % 0x40 + 0x80 :=
      byte (by omega)
    have cont : (UInt8.ofNat (v % 0x40 + 0x80)).toNat = v % 0x40 + 0x80 := byte (by omega)
    simp only [List.cons_append, List.nil_append]
    rw [fromUtf8Lossy_four (second4_iff.mpr (by rw [lead, mid]; omega))
        (isCont_iff.mpr (by rw [mid']; omega)) (isCont_iff.mpr (by rw [cont]; omega)), char,
      lead]
    simp only [List.foldl_cons, List.foldl_nil, mid, mid', cont]
    rw [show (((v / 262144 + 0xf0) % 8 * 64 + (v / 4096 % 0x40 + 0x80) % 64) * 64 +
      (v / 64 % 0x40 + 0x80) % 64) * 64 + (v % 0x40 + 0x80) % 64 = v by omega, self]

theorem utf8_eq_flatMap (text : String) :
    utf8 text = text.toList.flatMap String.utf8EncodeChar := by
  have bytes : text.toByteArray = (text.toList.flatMap String.utf8EncodeChar).toByteArray := by
    rw [← String.utf8Encode_toList]
    rfl
  have data : (text.toList.flatMap String.utf8EncodeChar).toByteArray.data.toList =
      text.toList.flatMap String.utf8EncodeChar := by
    simp
  exact (congrArg (fun b : ByteArray => b.data.toList) bytes).trans data

/-- Lossy decoding loses nothing of a well-formed text, whatever follows it. -/
theorem fromUtf8Lossy_utf8_append (text : String) (rest : List UInt8) :
    fromUtf8Lossy (utf8 text ++ rest) = text.toList ++ fromUtf8Lossy rest := by
  rw [utf8_eq_flatMap]
  induction text.toList with
  | nil => rfl
  | cons c chars ih =>
    rw [List.flatMap_cons, List.append_assoc, fromUtf8Lossy_utf8EncodeChar, ih, List.cons_append]

theorem fromUtf8Lossy_ascii_all {bytes : List UInt8} (ascii : ∀ b ∈ bytes, b.toNat < 0x80) :
    fromUtf8Lossy bytes = bytes.map fun b => Char.ofNat b.toNat := by
  induction bytes with
  | nil => rfl
  | cons b bytes ih =>
    obtain ⟨first, rest⟩ := List.forall_mem_cons.mp ascii
    rw [fromUtf8Lossy_ascii first, ih rest, List.map_cons]

/-! ## Padding -/

private theorem dropWhile_of_head {c : Char} {text : List Char} (plain : text.head? ≠ some c) :
    text.dropWhile (· == c) = text := by
  cases text with
  | nil => rfl
  | cons d text =>
    have other : ¬ (d == c) = true := by
      intro same
      exact plain (congrArg some (beq_iff_eq.mp same))
    exact List.dropWhile_cons_of_neg other

private theorem dropWhile_replicate_append (c : Char) (n : Nat) (text : List Char) :
    (List.replicate n c ++ text).dropWhile (· == c) = text.dropWhile (· == c) := by
  refine List.dropWhile_append_of_pos ?_
  intro d mem
  exact beq_iff_eq.mpr (List.eq_of_mem_replicate mem)

/-- What a text was padded with is trimmed, and nothing else. -/
theorem trimMatches_padded {c : Char} {text : List Char} (start : text.head? ≠ some c)
    (end_ : text.getLast? ≠ some c) (n : Nat) :
    trimMatches c (text ++ List.replicate n c) = text := by
  unfold trimMatches
  cases text with
  | nil =>
    rw [List.nil_append, ← List.append_nil (List.replicate n c), dropWhile_replicate_append]
    rfl
  | cons d text =>
    have front : (d :: text ++ List.replicate n c).head? ≠ some c := by simpa using start
    have back : (d :: text).reverse.head? ≠ some c := by
      rw [List.head?_reverse]
      exact end_
    rw [dropWhile_of_head front, List.reverse_append, List.reverse_replicate,
      dropWhile_replicate_append, dropWhile_of_head back, List.reverse_reverse]

end Text
