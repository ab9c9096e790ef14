import Mathlib.Algebra.Group.Int.Defs
import Mathlib.Algebra.Ring.Nat
import Mathlib.Data.List.Basic
import Mathlib.Data.List.TakeDrop
import Mathlib.Data.List.TakeWhile

/-!
# Text and bytes

Big-endian integers and lossy UTF-8, as a standard library reads them out of a byte slice.
Decoding is the greedy one that replaces each maximal ill-formed prefix by one U+FFFD: a
lead byte fixes how many continuation bytes may follow and in which range the first of them
must lie, and the first byte that does not fit starts over.

The second half is about texts of the form `{anything}:{integer}`. The part before the colon
may hold colons of its own; an integer holds none, so the last colon is the joint and the
text determines both parts (`joined_inj`). Hexadecimal digits, of a fixed number, determine the
number up to that many (`hexDigits_inj`).
-/

namespace Text

/-- The big-endian integer a byte string spells. -/
def beNat (bytes : List UInt8) : Nat :=
  bytes.foldl (fun acc b => acc * 256 + b.toNat) 0

/-- A byte inside a character. -/
def isCont (b : UInt8) : Bool :=
  0x80 ≤ b && b ≤ 0xBF

/-- A byte that begins a character of two. -/
def isLead2 (b : UInt8) : Bool :=
  0xC2 ≤ b && b ≤ 0xDF

/-- Lead byte of a three-byte sequence, with the range it leaves to the second byte: no
overlong form and no surrogate. -/
def second3 (lead b : UInt8) : Bool :=
  if lead = 0xE0 then 0xA0 ≤ b && b ≤ 0xBF
  else if lead = 0xED then 0x80 ≤ b && b ≤ 0x9F
  else 0xE1 ≤ lead && lead ≤ 0xEF && isCont b

/-- Lead byte of a four-byte sequence, with the range it leaves to the second byte. -/
def second4 (lead b : UInt8) : Bool :=
  if lead = 0xF0 then 0x90 ≤ b && b ≤ 0xBF
  else if lead = 0xF4 then 0x80 ≤ b && b ≤ 0x8F
  else 0xF1 ≤ lead && lead ≤ 0xF3 && isCont b

/-- The character a lead byte with `lead` payload bits and continuation bytes spell. -/
def char (lead : Nat) (conts : List UInt8) : Char :=
  Char.ofNat (conts.foldl (fun acc b => acc * 64 + b.toNat % 64) lead)

/-- What stands for bytes that are no text. -/
def replacement : Char :=
  Char.ofNat 0xFFFD

/-- `String::from_utf8_lossy`, as the list of its characters. -/
def fromUtf8Lossy : List UInt8 → List Char
  | [] => []
  | [a] => if a < 0x80 then [Char.ofNat a.toNat] else [replacement]
  | a :: b :: rest =>
    if a < 0x80 then Char.ofNat a.toNat :: fromUtf8Lossy (b :: rest)
    else if isLead2 a then
      if isCont b then char (a.toNat % 32) [b] :: fromUtf8Lossy rest
      else replacement :: fromUtf8Lossy (b :: rest)
    else if second3 a b then
      match rest with
      | [] => [replacement]
      | c :: rest =>
        if isCont c then char (a.toNat % 16) [b, c] :: fromUtf8Lossy rest
        else replacement :: fromUtf8Lossy (c :: rest)
    else if second4 a b then
      match rest with
      | [] => [replacement]
      | [c] => if isCont c then [replacement] else replacement :: fromUtf8Lossy [c]
      | c :: d :: rest =>
        if isCont c then
          if isCont d then char (a.toNat % 8) [b, c, d] :: fromUtf8Lossy rest
          else replacement :: fromUtf8Lossy (d :: rest)
        else replacement :: fromUtf8Lossy (c :: d :: rest)
    else replacement :: fromUtf8Lossy (b :: rest)

/-- `str::trim_matches(c)`: drops every leading and trailing `c`. -/
def trimMatches (c : Char) (text : List Char) : List Char :=
  ((text.dropWhile (· == c)).reverse.dropWhile (· == c)).reverse

/-- The bytes of a text. -/
def utf8 (text : String) : List UInt8 :=
  text.toUTF8.data.toList

theorem utf8_inj {a b : String} (same : utf8 a = utf8 b) : a = b := by
  have bytes : a.toByteArray = b.toByteArray := by
    apply ByteArray.ext
    exact Array.toList_inj.mp same
  exact String.toByteArray_inj.mp bytes

/-- `String::from_utf8`. -/
def ofUtf8 (bytes : List UInt8) : Option String :=
  String.fromUTF8? ⟨bytes.toArray⟩

theorem ofUtf8_utf8 (text : String) : ofUtf8 (utf8 text) = some text := by
  have bytes : (⟨(utf8 text).toArray⟩ : ByteArray) = text.toByteArray := rfl
  have valid : text.toByteArray.IsValidUTF8 := text.isValidUTF8
  simp only [ofUtf8, String.fromUTF8?, bytes, valid, dite_true]
  rfl

/-! ## Prefixes -/

/-- `text.strip_prefix(head).unwrap_or(text)`. -/
def stripPrefix (head text : String) : String :=
  if head.toList <+: text.toList then String.ofList (text.toList.drop head.toList.length) else text

theorem stripPrefix_append (head text : String) : stripPrefix head (head ++ text) = text := by
  unfold stripPrefix
  rw [String.toList_append, if_pos (List.prefix_append _ _), List.drop_left, String.ofList_toList]

/-- `text.strip_prefix(head)`. -/
def stripPrefixOpt (head text : String) : Option String :=
  if head.toList <+: text.toList then some (String.ofList (text.toList.drop head.toList.length))
  else none

theorem stripPrefixOpt_append (head text : String) :
    stripPrefixOpt head (head ++ text) = some text := by
  unfold stripPrefixOpt
  rw [String.toList_append, if_pos (List.prefix_append _ _), List.drop_left, String.ofList_toList]

theorem eq_of_stripPrefixOpt {head text rest : String}
    (stripped : stripPrefixOpt head text = some rest) : text = head ++ rest := by
  unfold stripPrefixOpt at stripped
  split at stripped
  · next isHead =>
    obtain ⟨tail, whole⟩ := isHead
    rw [← whole, List.drop_left] at stripped
    cases stripped
    apply String.toList_inj.mp
    rw [String.toList_append, String.toList_ofList, whole]
  · cases stripped

/-- `text.split(c).next()`: what is before the first `c`. -/
def splitFirst (c : Char) (text : String) : String :=
  String.ofList (text.toList.takeWhile (· ≠ c))

theorem splitFirst_of_not_mem {c : Char} {text : String} (plain : c ∉ text.toList) :
    splitFirst c text = text := by
  unfold splitFirst
  rw [List.takeWhile_eq_self_iff.mpr, String.ofList_toList]
  intro d mem
  exact decide_eq_true (ne_of_mem_of_not_mem mem plain)

theorem splitFirst_append {c : Char} {head : String} (plain : c ∉ head.toList) (tail : String) :
    splitFirst c (head ++ String.singleton c ++ tail) = head := by
  unfold splitFirst
  have all : ∀ d ∈ head.toList, decide (d ≠ c) = true := by
    intro d mem
    exact decide_eq_true (ne_of_mem_of_not_mem mem plain)
  rw [String.toList_append, String.toList_append, String.toList_singleton, List.append_assoc,
    List.takeWhile_append_of_pos all, List.singleton_append,
    List.takeWhile_cons_of_neg (by simp), List.append_nil, String.ofList_toList]

/-! ## Whitespace and integers -/

/-- The Unicode property `White_Space`. -/
def isWhiteSpace (c : Char) : Bool :=
  let n := c.toNat
  (9 ≤ n && n ≤ 13) || n == 0x20 || n == 0x85 || n == 0xA0 || n == 0x1680 ||
    (0x2000 ≤ n && n ≤ 0x200A) || n == 0x2028 || n == 0x2029 || n == 0x202F || n == 0x205F ||
    n == 0x3000

/-- `str::trim`: the white space of Unicode at both ends. -/
def trim (text : String) : String :=
  String.ofList
    ((text.toList.dropWhile isWhiteSpace).reverse.dropWhile isWhiteSpace).reverse

/-- A text without whitespace is trimmed already. -/
theorem trim_of_plain {text : String} (plain : ∀ c ∈ text.toList, isWhiteSpace c = false) :
    trim text = text := by
  have dropped : ∀ chars : List Char, (∀ c ∈ chars, isWhiteSpace c = false) →
      chars.dropWhile isWhiteSpace = chars := by
    intro chars all
    cases chars with
    | nil => rfl
    | cons c rest => exact List.dropWhile_cons_of_neg (by simp [all c List.mem_cons_self])
  unfold trim
  rw [dropped _ plain, dropped _ fun c mem => plain c (List.mem_reverse.mp mem),
    List.reverse_reverse, String.ofList_toList]

/-- Whitespace around a text does not change what is left of it. -/
theorem trim_surrounded {before after : List Char} (text : List Char)
    (blankBefore : ∀ c ∈ before, isWhiteSpace c = true)
    (blankAfter : ∀ c ∈ after, isWhiteSpace c = true) :
    trim (String.ofList (before ++ (text ++ after))) = trim (String.ofList text) := by
  unfold trim
  simp only [String.toList_ofList]
  rw [List.dropWhile_append_of_pos blankBefore, List.dropWhile_append]
  by_cases blank : ∀ c ∈ text, isWhiteSpace c = true
  · have rest : text.dropWhile isWhiteSpace = [] := List.dropWhile_eq_nil_iff.mpr blank
    have end_ : after.dropWhile isWhiteSpace = [] := List.dropWhile_eq_nil_iff.mpr blankAfter
    simp [rest, end_]
  · have rest : (text.dropWhile isWhiteSpace).isEmpty = false := by
      rw [List.isEmpty_eq_false_iff]
      exact fun none_ => blank (List.dropWhile_eq_nil_iff.mp none_)
    rw [rest, if_neg Bool.false_ne_true, List.reverse_append, List.dropWhile_append_of_pos]
    intro c mem
    exact blankAfter c (List.mem_reverse.mp mem)

/-- A text is trimmed already exactly if it neither starts nor ends with whitespace. -/
theorem trim_eq_self_iff {text : List Char} :
    trim (String.ofList text) = String.ofList text ↔
      (∀ c ∈ text.head?, isWhiteSpace c = false) ∧
        ∀ c ∈ text.getLast?, isWhiteSpace c = false := by
  have whole (chars : List Char) : chars.dropWhile isWhiteSpace = chars ↔
      ∀ c ∈ chars.head?, isWhiteSpace c = false := by
    cases chars with
    | nil => simp
    | cons c rest => simp [List.dropWhile_eq_self_iff]
  unfold trim
  rw [String.ofList_inj, String.toList_ofList]
  constructor
  · intro same
    have front : text.dropWhile isWhiteSpace = text := by
      apply (List.dropWhile_suffix isWhiteSpace).eq_of_length_le
      have shorter := (List.dropWhile_suffix isWhiteSpace
        (l := (text.dropWhile isWhiteSpace).reverse)).length_le
      rw [← List.length_reverse, same, List.length_reverse] at shorter
      exact shorter
    rw [front] at same
    have back : text.reverse.dropWhile isWhiteSpace = text.reverse := by
      simpa using congrArg List.reverse same
    refine ⟨(whole _).mp front, ?_⟩
    rw [← List.head?_reverse]
    exact (whole _).mp back
  · rintro ⟨first, last⟩
    rw [← List.head?_reverse] at last
    rw [(whole _).mpr first, (whole _).mpr last, List.reverse_reverse]

/-- What `trim_matches` drops is that character. -/
theorem exists_trimMatches (c : Char) (text : List Char) :
    ∃ before after, text = before ++ (trimMatches c text ++ after) ∧
      (∀ d ∈ before, d = c) ∧ ∀ d ∈ after, d = c := by
  have only (chars : List Char) : ∀ d ∈ chars.takeWhile (· == c), d = c := by
    intro d mem
    have matched := List.mem_takeWhile_imp mem
    exact beq_iff_eq.mp matched
  generalize rest : text.dropWhile (· == c) = middle
  refine ⟨text.takeWhile (· == c), (middle.reverse.takeWhile (· == c)).reverse, ?_, only _, ?_⟩
  · have back : trimMatches c text ++ (middle.reverse.takeWhile (· == c)).reverse = middle := by
      unfold trimMatches
      rw [rest, ← List.reverse_append, List.takeWhile_append_dropWhile, List.reverse_reverse]
    rw [back, ← rest, List.takeWhile_append_dropWhile]
  · intro d mem
    exact only _ d (List.mem_reverse.mp mem)

/-- A letter for every byte, none of them blank. -/
def letter (b : UInt8) : Char :=
  Char.ofNat (256 + b.toNat)

/-- The byte that a placeholder stands for. -/
def byteOf (c : Char) : UInt8 :=
  (c.toNat - 256).toUInt8

theorem toNat_letter (b : UInt8) : (letter b).toNat = 256 + b.toNat := by
  have codes : ∀ n < 256, (Char.ofNat (256 + n)).toNat = 256 + n := by decide +kernel
  exact codes b.toNat b.toNat_lt

theorem isWhiteSpace_letter (b : UInt8) : isWhiteSpace (letter b) = false := by
  have small := b.toNat_lt
  simp only [isWhiteSpace, toNat_letter, Bool.or_eq_false_iff, Bool.and_eq_false_iff,
    decide_eq_false_iff_not, beq_eq_false_iff_ne]
  omega

theorem map_byteOf_letter (bytes : List UInt8) : (bytes.map letter).map byteOf = bytes := by
  rw [List.map_map, List.map_congr_left (g := id), List.map_id]
  intro b _
  simp [byteOf, toNat_letter]

/-- Decimal digits, at least one and of any number. -/
def parseDigits (digits : List Char) : Option Nat :=
  if digits ≠ [] ∧ digits.all Char.isDigit then some (Nat.ofDigitChars 10 digits 0) else none

/-- `str::parse` of an unsigned integer with the given number of values. -/
def parseUnsigned (bound : Nat) (text : String) : Option Nat :=
  (parseDigits (match text.toList with
    | '+' :: digits => digits
    | digits => digits)).filter (· < bound)

/-- `str::parse::<i64>`. -/
def parseI64 (text : String) : Option Int :=
  let value : Option Int :=
    match text.toList with
    | '-' :: digits => (parseDigits digits).map fun n => -(n : Int)
    | '+' :: digits => (parseDigits digits).map fun n => (n : Int)
    | digits => (parseDigits digits).map fun n => (n : Int)
  value.filter fun n => -2 ^ 63 ≤ n ∧ n < 2 ^ 63

/-- The integer a text spells, with or without a sign. -/
def parseSigned (text : String) : Option Int :=
  match text.toList with
  | '-' :: digits => (parseDigits digits).map fun n => -(n : Int)
  | '+' :: digits => (parseDigits digits).map fun n => (n : Int)
  | digits => (parseDigits digits).map fun n => (n : Int)

/-- `str::parse::<i32>`. -/
def parseI32 (text : String) : Option Int :=
  (parseSigned text).filter fun n => -2 ^ 31 ≤ n ∧ n < 2 ^ 31

private theorem parseDigits_repr (n : Nat) : parseDigits n.repr.toList = some n := by
  have digits : (Nat.toDigits 10 n).all Char.isDigit = true := by
    rw [List.all_eq_true]
    intro c mem
    exact Nat.isDigit_of_mem_toDigits (by decide) (by decide) mem
  rw [Nat.toList_repr, parseDigits, if_pos ⟨Nat.toDigits_ne_nil, digits⟩,
    Nat.ofDigitChars_ten_toDigits]

/-- A printed integer spells itself. -/
theorem parseSigned_toString (i : Int) : parseSigned (toString i) = some i := by
  unfold parseSigned
  cases i with
  | ofNat n =>
    have text : (toString (Int.ofNat n)).toList = n.repr.toList := rfl
    rw [text]
    have digit : ∀ c ∈ n.repr.toList, c.isDigit = true := by
      intro c mem
      rw [Nat.toList_repr] at mem
      exact Nat.isDigit_of_mem_toDigits (by decide) (by decide) mem
    split
    · next eq =>
      rw [eq] at digit
      exact absurd (digit '-' List.mem_cons_self) (by decide)
    · next eq =>
      rw [eq] at digit
      exact absurd (digit '+' List.mem_cons_self) (by decide)
    · rw [parseDigits_repr]
      rfl
  | negSucc n =>
    have text : (toString (Int.negSucc n)).toList = '-' :: (n + 1).repr.toList := by
      change ("-" ++ (n + 1).repr).toList = _
      rw [String.toList_append]
      rfl
    rw [text]
    simp only [parseDigits_repr]
    rfl

/-- A printed integer is read back as itself, where it is read at all. -/
theorem eq_of_parseI64_toString {i j : Int} (parsed : parseI64 (toString i) = some j) : j = i := by
  have value : parseSigned (toString i) = some j := (Option.filter_eq_some_iff.mp parsed).1
  rw [parseSigned_toString] at value
  exact (Option.some.inj value).symm

theorem eq_of_parseI32_toString {i j : Int} (parsed : parseI32 (toString i) = some j) : j = i := by
  have value : parseSigned (toString i) = some j := (Option.filter_eq_some_iff.mp parsed).1
  rw [parseSigned_toString] at value
  exact (Option.some.inj value).symm

/-- A printed 32-bit integer is read back. -/
theorem parseI32_toString {i : Int} (low : -2 ^ 31 ≤ i) (high : i < 2 ^ 31) :
    parseI32 (toString i) = some i := by
  unfold parseI32
  rw [parseSigned_toString, Option.filter_some, if_pos (decide_eq_true ⟨low, high⟩)]

/-- A printed 64-bit integer is read back. -/
theorem parseI64_toString {i : Int} (low : -2 ^ 63 ≤ i) (high : i < 2 ^ 63) :
    parseI64 (toString i) = some i := by
  change (parseSigned (toString i)).filter _ = _
  rw [parseSigned_toString, Option.filter_some, if_pos (decide_eq_true ⟨low, high⟩)]

/-- `text.rsplit_once(':')`. -/
def rsplitOnceColon (text : String) : Option (String × String) :=
  let reversed := text.toList.reverse
  match reversed.dropWhile (· ≠ ':') with
  | [] => none
  | _ :: head =>
    some (String.ofList head.reverse, String.ofList (reversed.takeWhile (· ≠ ':')).reverse)

/-- The split is at the last colon: what is behind it holds none. -/
theorem rsplitOnceColon_eq_some {text head tail : String}
    (split : rsplitOnceColon text = some (head, tail)) :
    text = head ++ ":" ++ tail ∧ ':' ∉ tail.toList := by
  unfold rsplitOnceColon at split
  simp only at split
  have whole := List.takeWhile_append_dropWhile (p := (· ≠ ':')) (l := text.toList.reverse)
  have none_ : ':' ∉ text.toList.reverse.takeWhile (· ≠ ':') := by
    intro mem
    have other := List.all_eq_true.mp List.all_takeWhile ':' mem
    simp at other
  generalize text.toList.reverse.takeWhile (· ≠ ':') = back at split whole none_
  cases dropped : text.toList.reverse.dropWhile (· ≠ ':') with
  | nil =>
    rw [dropped] at split
    cases split
  | cons c front =>
    have colon : c = ':' := by
      have := List.head?_dropWhile_not (· ≠ ':') text.toList.reverse
      rw [dropped] at this
      simpa using this
    subst colon
    rw [dropped] at split whole
    obtain ⟨rfl, rfl⟩ := Prod.mk.inj (Option.some.inj split)
    refine ⟨?_, by simpa using none_⟩
    apply String.toList_inj.mp
    have forwards := congrArg List.reverse whole
    rw [List.reverse_reverse] at forwards
    rw [← forwards]
    simp

/-- A joint whose tail has no colon is split where it was joined. -/
theorem rsplitOnceColon_append {head tail : String} (plain : ':' ∉ tail.toList) :
    rsplitOnceColon (head ++ ":" ++ tail) = some (head, tail) := by
  have reversed : (head ++ ":" ++ tail).toList.reverse =
      tail.toList.reverse ++ ':' :: head.toList.reverse := by
    simp
  have others : ∀ c ∈ tail.toList.reverse, decide (c ≠ ':') = true := by
    intro c mem
    exact decide_eq_true (ne_of_mem_of_not_mem (List.mem_reverse.mp mem) plain)
  unfold rsplitOnceColon
  simp only [reversed]
  rw [List.dropWhile_append_of_pos others, List.takeWhile_append_of_pos others,
    List.dropWhile_cons_of_neg (by simp), List.takeWhile_cons_of_neg (by simp)]
  simp

/-! ## The last colon -/

section Joint

variable {α : Type}

private theorem append_cons_inj_left {c : α} {x y a b : List α} (hx : c ∉ x) (hy : c ∉ y)
    (same : x ++ c :: a = y ++ c :: b) : x = y ∧ a = b := by
  induction x generalizing y with
  | nil =>
    cases y with
    | nil => exact ⟨rfl, (List.cons.inj same).2⟩
    | cons d y => exact absurd (List.cons.inj same).1 fun h => hy (h ▸ List.mem_cons_self)
  | cons d x ih =>
    cases y with
    | nil => exact absurd (List.cons.inj same).1.symm fun h => hx (h ▸ List.mem_cons_self)
    | cons e y =>
      obtain ⟨rfl, rest⟩ := List.cons.inj same
      obtain ⟨rfl, rfl⟩ := ih (fun h => hx (List.mem_cons_of_mem _ h))
        (fun h => hy (List.mem_cons_of_mem _ h)) rest
      exact ⟨rfl, rfl⟩

/-- Where a separator occurs in neither tail, it is the last one of both sides, and the two
sides agree part by part. -/
theorem append_cons_inj_right {c : α} {a b x y : List α} (hx : c ∉ x) (hy : c ∉ y)
    (same : a ++ c :: x = b ++ c :: y) : a = b ∧ x = y := by
  have reversed : x.reverse ++ c :: a.reverse = y.reverse ++ c :: b.reverse := by
    simpa using congrArg List.reverse same
  obtain ⟨tails, heads⟩ := append_cons_inj_left (by simpa using hx) (by simpa using hy) reversed
  exact ⟨List.reverse_injective heads, List.reverse_injective tails⟩

end Joint

/-- A natural number is read back from its digits. -/
private theorem repr_nat_inj {n m : Nat} (same : n.repr = m.repr) : n = m := by
  have digits : Nat.toDigits 10 n = Nat.toDigits 10 m := by
    rw [← Nat.toList_repr, ← Nat.toList_repr, same]
  rw [← Nat.ofDigitChars_ten_toDigits (n := n), digits, Nat.ofDigitChars_ten_toDigits]

/-- A printed integer is digits, after a sign. -/
theorem isDigit_of_mem_int {i : Int} {c : Char} (mem : c ∈ (toString i).toList) :
    c.isDigit = true ∨ c = '-' := by
  have digits {n : Nat} (mem : c ∈ n.repr.toList) : c.isDigit = true := by
    rw [Nat.toList_repr] at mem
    exact Nat.isDigit_of_mem_toDigits (by decide) (by decide) mem
  cases i with
  | ofNat n => exact .inl (digits mem)
  | negSucc n =>
    change c ∈ ("-" ++ (n + 1).repr).toList at mem
    rw [String.toList_append, List.mem_append] at mem
    rcases mem with minus | rest
    · exact .inr (List.mem_singleton.mp minus)
    · exact .inl (digits rest)

theorem toString_int_ne_nil (i : Int) : (toString i).toList ≠ [] := by
  intro empty
  have parsed := parseSigned_toString i
  rw [String.toList_eq_nil_iff.mp empty] at parsed
  exact absurd parsed (by simp [show parseSigned "" = none by decide])

/-- A printed integer holds no colon. -/
theorem colon_not_mem_int (i : Int) : ':' ∉ (toString i).toList := by
  intro mem
  exact absurd (isDigit_of_mem_int mem) (by decide)

/-- Distinct integers print distinctly. -/
theorem toString_int_inj {i j : Int} (same : toString i = toString j) : i = j := by
  have sign (n : Nat) (m : Nat) : n.repr ≠ "-" ++ (m + 1).repr := by
    intro eq
    have mem : '-' ∈ n.repr.toList := by
      rw [eq, String.toList_append]
      exact List.mem_append_left _ (by decide)
    rw [Nat.toList_repr] at mem
    exact absurd (Nat.isDigit_of_mem_toDigits (by decide) (by decide) mem) (by decide)
  cases i with
  | ofNat n =>
    cases j with
    | ofNat m => rw [repr_nat_inj same]
    | negSucc m => exact absurd same (sign n m)
  | negSucc n =>
    cases j with
    | ofNat m => exact absurd same.symm (sign m n)
    | negSucc m =>
      have digits : (n + 1).repr = (m + 1).repr := by
        have lists := congrArg String.toList same
        change ("-" ++ (n + 1).repr).toList = ("-" ++ (m + 1).repr).toList at lists
        rw [String.toList_append, String.toList_append] at lists
        exact String.toList_inj.mp (List.append_cancel_left lists)
      have eq := repr_nat_inj digits
      rw [Nat.succ.inj eq]

/-- `{head}:{tail}` determines the head, colons and all, if the tail has none. -/
theorem colonJoined_inj {a b x y : String} (plain : ':' ∉ x.toList) (plain' : ':' ∉ y.toList)
    (same : a ++ ":" ++ x = b ++ ":" ++ y) : a = b ∧ x = y := by
  have lists := congrArg String.toList same
  simp only [String.toList_append] at lists
  have joint : ":".toList = [':'] := by decide
  rw [joint, List.append_assoc, List.append_assoc] at lists
  obtain ⟨heads, tails⟩ := append_cons_inj_right plain plain' lists
  exact ⟨String.toList_inj.mp heads, String.toList_inj.mp tails⟩

/-- `{head}:{integer}` determines the head and the integer. -/
theorem joined_inj {a b : String} {i j : Int}
    (same : a ++ ":" ++ toString i = b ++ ":" ++ toString j) : a = b ∧ i = j := by
  obtain ⟨heads, tails⟩ := colonJoined_inj (colon_not_mem_int i) (colon_not_mem_int j) same
  exact ⟨heads, toString_int_inj tails⟩

/-! ## Hexadecimal digits -/

/-- The last `len` hexadecimal digits of a number. -/
def hexDigits : Nat → Nat → List Char
  | 0, _ => []
  | len + 1, n => hexDigits len (n / 16) ++ [Nat.digitChar (n % 16)]

theorem length_hexDigits (len n : Nat) : (hexDigits len n).length = len := by
  induction len generalizing n with
  | zero => rfl
  | succ len ih => rw [hexDigits, List.length_append, ih, List.length_singleton]

theorem digitChar_inj {a b : Nat} (small : a < 16) (small' : b < 16)
    (same : Nat.digitChar a = Nat.digitChar b) : a = b := by
  have each : ∀ a < 16, ∀ b < 16, Nat.digitChar a = Nat.digitChar b → a = b := by decide
  exact each a small b small' same

theorem hexDigits_inj {len n m : Nat} (same : hexDigits len n = hexDigits len m) :
    n % 16 ^ len = m % 16 ^ len := by
  induction len generalizing n m with
  | zero => rw [Nat.pow_zero, Nat.mod_one, Nat.mod_one]
  | succ len ih =>
    have lengths : (hexDigits len (n / 16)).length = (hexDigits len (m / 16)).length := by
      rw [length_hexDigits, length_hexDigits]
    obtain ⟨high, low⟩ := List.append_inj same lengths
    have last : n % 16 = m % 16 :=
      digitChar_inj (Nat.mod_lt _ (by decide)) (Nat.mod_lt _ (by decide)) (List.cons.inj low).1
    rw [Nat.pow_succ, Nat.mul_comm, Nat.mod_mul, Nat.mod_mul, last, ih high]

/-! ## Items between separators -/

/-- The text is these items with the separator between them. -/
structure Separated (c : Char) (text : String) (items : List String) : Prop where
  ne_nil : items ≠ []
  plain : ∀ item ∈ items, c ∉ item.toList
  joined : text.toList = [c].intercalate (items.map String.toList)

theorem not_mem_of_mem_splitOn {c : Char} {text part : List Char}
    (mem : part ∈ text.splitOn c) : c ∉ part := by
  induction text generalizing part with
  | nil =>
    rw [List.splitOn_nil] at mem
    cases List.mem_singleton.mp mem
    exact List.not_mem_nil
  | cons d text ih =>
    rw [List.splitOn_cons_eq_if_modifyHead] at mem
    split at mem
    · rcases List.mem_cons.mp mem with rfl | later
      · exact List.not_mem_nil
      · exact ih later
    · next other =>
      cases parts : text.splitOn c with
      | nil => exact absurd parts (List.splitOn_ne_nil c text)
      | cons first rest =>
        rw [parts] at mem ih
        rcases List.mem_cons.mp mem with rfl | later
        · intro here
          rcases List.mem_cons.mp here with rfl | inFirst
          · exact other (beq_self_eq_true c)
          · exact ih List.mem_cons_self inFirst
        · exact ih (List.mem_cons_of_mem _ later)

/-- `text.split(c)`: there is one way to separate a text. -/
theorem separated_iff {c : Char} {text : String} {items : List String} :
    Separated c text items ↔ items = (text.toList.splitOn c).map String.ofList := by
  constructor
  · rintro ⟨ne_nil, plain, joined⟩
    have plain' : ∀ item ∈ items.map String.toList, c ∉ item := by
      simpa only [List.forall_mem_map] using plain
    have ne_nil' : items.map String.toList ≠ [] := by
      rwa [ne_eq, List.map_eq_nil_iff]
    rw [joined, List.splitOn_intercalate c plain' ne_nil', List.map_map]
    simp
  · rintro rfl
    refine ⟨?_, ?_, ?_⟩
    · rw [ne_eq, List.map_eq_nil_iff]
      exact List.splitOn_ne_nil c text.toList
    · simp only [List.forall_mem_map, String.toList_ofList]
      exact fun part mem => not_mem_of_mem_splitOn mem
    · rw [List.map_map]
      simp [List.intercalate_splitOn]

end Text
