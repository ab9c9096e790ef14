import AggregatorBridge.BinStore

/-!
# UUIDs as text

A serial that is a UUID can be spelled in many ways, and it is read in two places: by the `uuid`
crate, and by the `uuid` type of Postgres. Both print a UUID alike. What they read differs, and
`Spelling` is the common form of it: thirty-two digits in eight groups, with or without a hyphen
after each group but the last, with or without braces. Postgres reads every spelling
(`stringToUuid_eq_some`). The crate reads the one without hyphens and, in braces or behind
`urn:uuid:` too, the one that is printed (`tryParse_eq_some`).

The crate counts bytes where characters are counted here. It makes no difference: a text with a
character of more than one byte is refused by both.
-/

namespace AggregatorBridge

/-! ## Digits -/

/-- A hexadecimal digit, in either case. -/
def isHexDigit (c : Char) : Bool :=
  let n := c.toNat
  (48 ≤ n && n ≤ 57) || (65 ≤ n && n ≤ 70) || (97 ≤ n && n ≤ 102)

/-- What a hexadecimal digit is worth. -/
def hexValue (c : Char) : Nat :=
  let n := c.toNat
  if n ≤ 57 then n - 48 else if n ≤ 70 then n - 55 else n - 87

/-- The number that 32 digits write. -/
def uuidOfHex (digits : List Char) : Uuid :=
  BitVec.ofNat 128 (digits.foldl (fun n c => n * 16 + hexValue c) 0)

theorem isWhiteSpace_of_isHexDigit {c : Char} (hex : isHexDigit c = true) :
    Text.isWhiteSpace c = false := by
  simp only [isHexDigit, Bool.or_eq_true, Bool.and_eq_true, decide_eq_true_eq] at hex
  simp only [Text.isWhiteSpace, Bool.or_eq_false_iff, Bool.and_eq_false_iff,
    decide_eq_false_iff_not, beq_eq_false_iff_ne]
  omega

theorem isHexDigit_of_mem_hexDigits {len n : Nat} {c : Char} (mem : c ∈ Text.hexDigits len n) :
    isHexDigit c = true := by
  induction len generalizing n with
  | zero => cases mem
  | succ len ih =>
    rw [Text.hexDigits, List.mem_append] at mem
    rcases mem with high | low
    · exact ih high
    · have each : ∀ d < 16, isHexDigit (Nat.digitChar d) = true := by decide
      rw [List.mem_singleton.mp low]
      exact each (n % 16) (Nat.mod_lt _ (by decide))

/-! ## The `uuid` crate -/

/-- `parse_simple`: the digits. -/
def parseSimple (s : List Char) : Option (List Char) :=
  if s.length = 32 ∧ s.all isHexDigit then some s else none

/-- Where the groups of a hyphenated UUID start. -/
def groupPositions : List Nat := [0, 4, 9, 14, 19, 24, 28, 32]

/-- `parse_hyphenated`: the hyphens first, then the digits of the groups. -/
def parseHyphenated (s : List Char) : Option (List Char) :=
  if s.length = 36 ∧ s[8]? = some '-' ∧ s[13]? = some '-' ∧ s[18]? = some '-' ∧
      s[23]? = some '-' then
    let digits := groupPositions.flatMap fun p => (s.drop p).take 4
    if digits.all isHexDigit then some digits else none
  else none

/-- What stands before a UUID in a URN. -/
def urnPrefix : List Char :=
  ['u', 'r', 'n', ':', 'u', 'u', 'i', 'd', ':']

/-- `try_parse`: the digits of a UUID, by the length of its text. -/
def tryParse (s : List Char) : Option (List Char) :=
  if s.length = 32 then parseSimple s
  else if s.length = 36 then parseHyphenated s
  else if s.length = 38 ∧ s.head? = some '{' ∧ s.getLast? = some '}' then
    parseHyphenated (s.drop 1).dropLast
  else if s.length = 45 ∧ urnPrefix <+: s then parseHyphenated (s.drop 9)
  else none

/-- `Uuid::parse_str` and `Uuid::to_string`. -/
def rustUuid : UuidCodec where
  parseStr text := (tryParse text.toList).map uuidOfHex
  display := hyphenated

/-! ## The `uuid` type of Postgres -/

/-- The loop of `string_to_uuid`, with the number of bytes to go: the digits, and what is left of
the text. A hyphen is skipped after every second byte but the last. -/
def readUuidBytes : Nat → List Char → Option (List Char × List Char)
  | 0, src => some ([], src)
  | left + 1, a :: b :: src =>
    if isHexDigit a && isHexDigit b then
      let src := if src.head? = some '-' ∧ left % 2 = 0 ∧ 0 < left then src.tail else src
      (readUuidBytes left src).map fun r => (a :: b :: r.1, r.2)
    else none
  | _ + 1, _ => none

/-- `string_to_uuid`: the digits of a UUID. -/
def stringToUuid (source : List Char) : Option (List Char) :=
  let braces : Bool := source.head? = some '{'
  let src := if braces then source.tail else source
  match readUuidBytes 16 src with
  | some (digits, rest) => if rest = (if braces then ['}'] else []) then some digits else none
  | none => none

/-- The casts between `text` and `uuid`. -/
def pgUuid : UuidCodec where
  parseStr text := (stringToUuid text.toList).map uuidOfHex
  display := hyphenated

/-! ## Spellings -/

/-- Digits in groups of four, with a hyphen after some of them. -/
def grouped : List Bool → List Char → List Char
  | [], digits => digits
  | hyphen :: hyphens, digits =>
    digits.take 4 ++ (if hyphen then ['-'] else []) ++ grouped hyphens (digits.drop 4)

/-- A spelling of a UUID. -/
structure Spelling where
  digits : List Char
  /-- Whether a hyphen follows, for each group but the last. -/
  hyphens : List Bool
  braces : Bool
  hex : ∀ c ∈ digits, isHexDigit c = true
  length_digits : digits.length = 32
  length_hyphens : hyphens.length = 7

/-- The hyphens of the form that is printed. -/
def usualHyphens : List Bool :=
  [false, true, true, true, true, false, false]

/-- A spelling in one group. -/
def noHyphens : List Bool :=
  List.replicate 7 false

namespace Spelling

/-- The text of a spelling. -/
def text (s : Spelling) : List Char :=
  if s.braces then '{' :: (grouped s.hyphens s.digits ++ ['}']) else grouped s.hyphens s.digits

/-- The crate knows this spelling. -/
def Usual (s : Spelling) : Prop :=
  s.hyphens = usualHyphens ∨ s.hyphens = noHyphens ∧ s.braces = false

end Spelling

theorem mem_grouped {c : Char} {hyphens : List Bool} {digits : List Char}
    (mem : c ∈ grouped hyphens digits) : c ∈ digits ∨ c = '-' := by
  induction hyphens generalizing digits with
  | nil => exact .inl mem
  | cons hyphen hyphens ih =>
    rw [grouped, List.append_assoc, List.mem_append, List.mem_append] at mem
    rcases mem with group | here | later
    · exact .inl (List.mem_of_mem_take group)
    · split at here
      · exact .inr (List.mem_singleton.mp here)
      · cases here
    · exact (ih later).imp_left List.mem_of_mem_drop

/-- There is no whitespace in a spelling. -/
theorem Spelling.isWhiteSpace_of_mem {s : Spelling} {c : Char} (mem : c ∈ s.text) :
    Text.isWhiteSpace c = false := by
  have inner : c ∈ grouped s.hyphens s.digits → Text.isWhiteSpace c = false := by
    intro inside
    rcases mem_grouped inside with digit | rfl
    · exact isWhiteSpace_of_isHexDigit (s.hex c digit)
    · decide
  unfold text at mem
  split at mem
  · rcases List.mem_cons.mp mem with rfl | mem
    · decide
    · rcases List.mem_append.mp mem with inside | last
      · exact inner inside
      · rw [List.mem_singleton.mp last]
        decide
  · exact inner mem

/-- The form that is printed, by its five parts. -/
theorem grouped_usualHyphens (digits : List Char) :
    grouped usualHyphens digits = digits.take 8 ++ '-' :: ((digits.drop 8).take 4 ++ '-' ::
      ((digits.drop 12).take 4 ++ '-' :: ((digits.drop 16).take 4 ++ '-' :: digits.drop 20))) := by
  have first : digits.take 4 ++ (digits.drop 4).take 4 = digits.take 8 :=
    (List.take_add (i := 4) (j := 4)).symm
  have last : (digits.drop 20).take 4 ++ ((digits.drop 24).take 4 ++ digits.drop 28) =
      digits.drop 20 := by
    have later : (digits.drop 24).take 4 ++ digits.drop 28 = digits.drop 24 := by
      simpa using List.take_append_drop 4 (digits.drop 24)
    rw [later]
    simpa using List.take_append_drop 4 (digits.drop 20)
  simp only [usualHyphens, grouped, List.drop_drop, Bool.false_eq_true, if_false, if_true,
    List.append_nil, List.append_assoc, List.singleton_append]
  rw [last, ← List.append_assoc, first]

/-- What is printed is a spelling. -/
def printed (u : Uuid) : Spelling where
  digits := Text.hexDigits 8 (u.toNat / 16 ^ 24) ++ (Text.hexDigits 4 (u.toNat / 16 ^ 20) ++
    (Text.hexDigits 4 (u.toNat / 16 ^ 16) ++ (Text.hexDigits 4 (u.toNat / 16 ^ 12) ++
      Text.hexDigits 12 u.toNat)))
  hyphens := usualHyphens
  braces := false
  hex c mem := by
    simp only [List.mem_append] at mem
    rcases mem with mem | mem | mem | mem | mem <;> exact isHexDigit_of_mem_hexDigits mem
  length_digits := by simp only [List.length_append, Text.length_hexDigits]
  length_hyphens := rfl

theorem text_printed (u : Uuid) : (printed u).text = (hyphenated u).toList := by
  have parts (a b c d e : List Char) (ha : a.length = 8) (hb : b.length = 4) (hc : c.length = 4)
      (hd : d.length = 4) : grouped usualHyphens (a ++ (b ++ (c ++ (d ++ e)))) =
        a ++ '-' :: (b ++ '-' :: (c ++ '-' :: (d ++ '-' :: e))) := by
    have drop8 : (a ++ (b ++ (c ++ (d ++ e)))).drop 8 = b ++ (c ++ (d ++ e)) := List.drop_left' ha
    have drop12 : (a ++ (b ++ (c ++ (d ++ e)))).drop 12 = c ++ (d ++ e) := by
      rw [show 12 = 8 + 4 from rfl, ← List.drop_drop, drop8, List.drop_left' hb]
    have drop16 : (a ++ (b ++ (c ++ (d ++ e)))).drop 16 = d ++ e := by
      rw [show 16 = 12 + 4 from rfl, ← List.drop_drop, drop12, List.drop_left' hc]
    have drop20 : (a ++ (b ++ (c ++ (d ++ e)))).drop 20 = e := by
      rw [show 20 = 16 + 4 from rfl, ← List.drop_drop, drop16, List.drop_left' hd]
    rw [grouped_usualHyphens, drop8, drop12, drop16, drop20, List.take_left' ha, List.take_left' hb,
      List.take_left' hc, List.take_left' hd]
  change grouped usualHyphens _ = _
  rw [hyphenated, String.toList_ofList]
  exact parts _ _ _ _ _ (Text.length_hexDigits ..) (Text.length_hexDigits ..)
    (Text.length_hexDigits ..) (Text.length_hexDigits ..)

/-! ## What Postgres reads -/

/-- Two bytes are a group of four digits, and a hyphen behind it if another group follows. -/
theorem readUuidBytes_group {k : Nat} {src digits rest : List Char} :
    readUuidBytes (2 * k + 2) src = some (digits, rest) ↔
      ∃ group more later, group.length = 4 ∧ (∀ c ∈ group, isHexDigit c = true) ∧
        src = group ++ more ∧ digits = group ++ later ∧
        readUuidBytes (2 * k) (if more.head? = some '-' ∧ 0 < k then more.tail else more) =
          some (later, rest) := by
  constructor
  · intro read
    match src with
    | [] | [_] => cases read
    | a :: b :: [] | a :: b :: [_] => simp [readUuidBytes] at read
    | a :: b :: c :: d :: more =>
      have odd : (2 * k + 1) % 2 ≠ 0 := by omega
      have even : 2 * k % 2 = 0 := by omega
      have positive : 0 < 2 * k ↔ 0 < k := by omega
      simp only [readUuidBytes, odd, even, positive, false_and, and_false, if_false, true_and]
        at read
      split at read
      · next first =>
        split at read
        · next second =>
          obtain ⟨⟨_, _⟩, inner, whole⟩ := Option.map_eq_some_iff.mp read
          obtain ⟨⟨later, _⟩, last, parts⟩ := Option.map_eq_some_iff.mp inner
          cases parts
          cases whole
          refine ⟨[a, b, c, d], more, later, rfl, ?_, rfl, rfl, last⟩
          simp only [Bool.and_eq_true] at first second
          simp [first, second]
        · cases read
      · cases read
  · rintro ⟨group, more, later, length, hex, rfl, rfl, read⟩
    match group, length with
    | [a, b, c, d], _ =>
      have odd : (2 * k + 1) % 2 ≠ 0 := by omega
      have even : 2 * k % 2 = 0 := by omega
      have positive : 0 < 2 * k ↔ 0 < k := by omega
      simp only [List.mem_cons, forall_eq_or_imp, List.not_mem_nil, false_imp_iff, implies_true,
        and_true] at hex
      obtain ⟨ha, hb, hc, hd⟩ := hex
      simp only [List.cons_append, List.nil_append, readUuidBytes, ha, hb, hc, hd, Bool.and_self,
        if_true, odd, even, positive, false_and, and_false, if_false, true_and, read,
        Option.map_some]

/-- A group in front of the others, with a hyphen or without. -/
theorem group_append_grouped {group later more rest : List Char} {hyphen : Bool}
    {hyphens : List Bool} (length : group.length = 4)
    (tail : more = (if hyphen then ['-'] else []) ++ (grouped hyphens later ++ rest)) :
    group ++ more = grouped (hyphen :: hyphens) (group ++ later) ++ rest := by
  rw [grouped, List.take_left' length, List.drop_left' length, tail]
  simp only [List.append_assoc]

/-- A group starts with a digit. -/
theorem head?_grouped_ne_hyphen {digits : List Char} (long : 4 ≤ digits.length)
    (hex : ∀ c ∈ digits, isHexDigit c = true) (hyphens : List Bool) (rest : List Char) :
    (grouped hyphens digits ++ rest).head? ≠ some '-' := by
  have head : (grouped hyphens digits ++ rest).head? = digits.head? := by
    cases hyphens <;> cases first : digits <;> simp_all [grouped]
  rw [head]
  intro hyphen
  have digit := hex '-' (List.mem_of_mem_head? (by rw [hyphen]; rfl))
  exact absurd digit (by decide)

theorem readUuidBytes_eq_some {k : Nat} {src digits rest : List Char} :
    readUuidBytes (2 * (k + 1)) src = some (digits, rest) ↔
      digits.length = 4 * (k + 1) ∧ (∀ c ∈ digits, isHexDigit c = true) ∧
        ∃ hyphens : List Bool, hyphens.length = k ∧ src = grouped hyphens digits ++ rest := by
  induction k generalizing src digits with
  | zero =>
    rw [show 2 * (0 + 1) = 2 * 0 + 2 from rfl, readUuidBytes_group]
    simp only [Nat.lt_irrefl, and_false, if_false, readUuidBytes]
    constructor
    · rintro ⟨group, more, later, length, hex, rfl, rfl, read⟩
      cases read
      rw [List.append_nil]
      exact ⟨length, hex, [], rfl, rfl⟩
    · rintro ⟨length, hex, hyphens, none_, rfl⟩
      rw [List.length_eq_zero_iff.mp none_]
      exact ⟨digits, rest, [], length, hex, rfl, (List.append_nil _).symm, rfl⟩
  | succ k ih =>
    rw [show 2 * (k + 1 + 1) = 2 * (k + 1) + 2 from rfl, readUuidBytes_group]
    simp only [ih]
    constructor
    · rintro ⟨group, more, later, length, hex, rfl, rfl, lengths, hexes, hyphens, count, read⟩
      refine ⟨by rw [List.length_append, length, lengths]; omega, ?_, ?_⟩
      · intro c mem
        exact (List.mem_append.mp mem).elim (hex c) (hexes c)
      · by_cases hyphen : more.head? = some '-'
        · rw [if_pos ⟨hyphen, Nat.succ_pos k⟩] at read
          obtain ⟨tail, rfl⟩ := List.head?_eq_some_iff.mp hyphen
          rw [List.tail_cons] at read
          refine ⟨true :: hyphens, by rw [List.length_cons, count],
            group_append_grouped length ?_⟩
          rw [if_pos rfl, List.singleton_append, read]
        · rw [if_neg fun both => hyphen both.1] at read
          refine ⟨false :: hyphens, by rw [List.length_cons, count],
            group_append_grouped length ?_⟩
          rw [if_neg Bool.false_ne_true, List.nil_append, read]
    · rintro ⟨length, hex, hyphens, count, rfl⟩
      match hyphens, count with
      | hyphen :: hyphens, count =>
        have groupLength : (digits.take 4).length = 4 := by
          rw [List.length_take, length]
          omega
        refine ⟨digits.take 4, (if hyphen then ['-'] else []) ++
          (grouped hyphens (digits.drop 4) ++ rest), digits.drop 4, groupLength,
          fun c mem => hex c (List.mem_of_mem_take mem), ?_, (List.take_append_drop 4 digits).symm,
          by rw [List.length_drop, length]; omega, fun c mem => hex c (List.mem_of_mem_drop mem),
          hyphens, Nat.succ.inj count, ?_⟩
        · simp only [grouped, List.append_assoc]
        · cases hyphen with
          | true => simp
          | false =>
            -- The next group starts with a digit, so no hyphen is skipped.
            have digit := head?_grouped_ne_hyphen
              (show 4 ≤ (digits.drop 4).length by rw [List.length_drop, length]; omega)
              (fun c mem => hex c (List.mem_of_mem_drop mem)) hyphens rest
            simp only [Bool.false_eq_true, if_false, List.nil_append, digit, false_and]

/-- Postgres reads every spelling, and nothing else. -/
theorem stringToUuid_eq_some {source digits : List Char} :
    stringToUuid source = some digits ↔ ∃ s : Spelling, s.digits = digits ∧ s.text = source := by
  unfold stringToUuid
  constructor
  · intro read
    simp only at read
    split at read
    · next found rest inner =>
      obtain ⟨ends, same⟩ := (Option.ite_none_right_eq_some ..).mp read
      cases same
      obtain ⟨length, hex, hyphens, count, src⟩ := (readUuidBytes_eq_some (k := 7)).mp inner
      refine ⟨⟨digits, hyphens, decide (source.head? = some '{'), hex, length, count⟩, rfl, ?_⟩
      by_cases braces : source.head? = some '{'
      · obtain ⟨tail, rfl⟩ := List.head?_eq_some_iff.mp braces
        simp only [List.head?_cons, decide_true, if_true, List.tail_cons] at src ends
        simp [Spelling.text, src, ends]
      · simp only [braces, decide_false, Bool.false_eq_true, if_false] at src ends
        rw [Spelling.text, if_neg (by simpa using braces), src, ends, List.append_nil]
    · cases read
  · rintro ⟨s, rfl, rfl⟩
    have inner (rest : List Char) : readUuidBytes 16 (grouped s.hyphens s.digits ++ rest) =
        some (s.digits, rest) :=
      readUuidBytes_eq_some.mpr ⟨s.length_digits, s.hex, s.hyphens, s.length_hyphens, rfl⟩
    unfold Spelling.text
    by_cases braces : s.braces = true
    · simp [braces, inner]
    · have head : (grouped s.hyphens s.digits).head? ≠ some '{' := by
        intro brace
        rcases mem_grouped (List.mem_of_mem_head? (by rw [brace]; rfl)) with digit | eq
        · exact absurd (s.hex '{' digit) (by decide)
        · exact absurd eq (by decide)
      have whole := inner []
      rw [List.append_nil] at whole
      simp [braces, head, whole]

/-! ## What the crate reads -/

private theorem exists_four {n : Nat} {l : List Char} (length : l.length = n + 4) :
    ∃ a b c d rest, l = a :: b :: c :: d :: rest ∧ rest.length = n := by
  match l, length with
  | a :: b :: c :: d :: rest, length =>
    exact ⟨a, b, c, d, rest, rfl, by simpa using length⟩

private theorem exists_one {n : Nat} {l : List Char} (length : l.length = n + 1) :
    ∃ a rest, l = a :: rest ∧ rest.length = n := by
  match l, length with
  | a :: rest, length => exact ⟨a, rest, rfl, by simpa using length⟩

/-- A hyphenated UUID is the form that is printed, in either case of its letters. -/
theorem parseHyphenated_eq_some {s digits : List Char} :
    parseHyphenated s = some digits ↔
      digits.length = 32 ∧ (∀ c ∈ digits, isHexDigit c = true) ∧
        s = grouped usualHyphens digits := by
  constructor
  · intro read
    unfold parseHyphenated at read
    obtain ⟨⟨length, hyphens⟩, read⟩ := (Option.ite_none_right_eq_some ..).mp read
    obtain ⟨hex, same⟩ := (Option.ite_none_right_eq_some ..).mp read
    obtain ⟨a₀, a₁, a₂, a₃, rest, rfl, length₁⟩ := exists_four length
    obtain ⟨b₀, b₁, b₂, b₃, rest, rfl, length₂⟩ := exists_four length₁
    obtain ⟨h₁, rest, rfl, length₃⟩ := exists_one length₂
    obtain ⟨c₀, c₁, c₂, c₃, rest, rfl, length₄⟩ := exists_four length₃
    obtain ⟨h₂, rest, rfl, length₅⟩ := exists_one length₄
    obtain ⟨d₀, d₁, d₂, d₃, rest, rfl, length₆⟩ := exists_four length₅
    obtain ⟨h₃, rest, rfl, length₇⟩ := exists_one length₆
    obtain ⟨e₀, e₁, e₂, e₃, rest, rfl, length₈⟩ := exists_four length₇
    obtain ⟨h₄, rest, rfl, length₉⟩ := exists_one length₈
    obtain ⟨f₀, f₁, f₂, f₃, rest, rfl, length₁₀⟩ := exists_four length₉
    obtain ⟨g₀, g₁, g₂, g₃, rest, rfl, length₁₁⟩ := exists_four length₁₀
    obtain ⟨i₀, i₁, i₂, i₃, rest, rfl, length₁₂⟩ := exists_four length₁₁
    cases List.length_eq_zero_iff.mp length₁₂
    obtain ⟨hyphen₁, hyphen₂, hyphen₃, hyphen₄⟩ := hyphens
    cases hyphen₁
    cases hyphen₂
    cases hyphen₃
    cases hyphen₄
    cases same
    exact ⟨rfl, List.all_eq_true.mp hex, rfl⟩
  · rintro ⟨length, hex, rfl⟩
    obtain ⟨a₀, a₁, a₂, a₃, rest, rfl, length₁⟩ := exists_four length
    obtain ⟨b₀, b₁, b₂, b₃, rest, rfl, length₂⟩ := exists_four length₁
    obtain ⟨c₀, c₁, c₂, c₃, rest, rfl, length₃⟩ := exists_four length₂
    obtain ⟨d₀, d₁, d₂, d₃, rest, rfl, length₄⟩ := exists_four length₃
    obtain ⟨e₀, e₁, e₂, e₃, rest, rfl, length₅⟩ := exists_four length₄
    obtain ⟨f₀, f₁, f₂, f₃, rest, rfl, length₆⟩ := exists_four length₅
    obtain ⟨g₀, g₁, g₂, g₃, rest, rfl, length₇⟩ := exists_four length₆
    obtain ⟨i₀, i₁, i₂, i₃, rest, rfl, length₈⟩ := exists_four length₇
    cases List.length_eq_zero_iff.mp length₈
    exact if_pos (List.all_eq_true.mpr hex)

theorem length_grouped_usualHyphens {digits : List Char} (length : digits.length = 32) :
    (grouped usualHyphens digits).length = 36 := by
  rw [grouped_usualHyphens]
  simp [length]

theorem grouped_noHyphens (digits : List Char) : grouped noHyphens digits = digits := by
  have without (count : Nat) (digits : List Char) :
      grouped (List.replicate count false) digits = digits := by
    induction count generalizing digits with
    | zero => rfl
    | succ count ih =>
      rw [List.replicate_succ, grouped, ih, if_neg Bool.false_ne_true, List.append_nil,
        List.take_append_drop]
  exact without 7 digits

/-- The form that is printed, behind the crate's third prefix. -/
def urnText (digits : List Char) : List Char :=
  urnPrefix ++ grouped usualHyphens digits

/-- A text between braces. -/
theorem braced_of_ends {s : List Char} (first : s.head? = some '{') (last : s.getLast? = some '}') :
    '{' :: ((s.drop 1).dropLast ++ ['}']) = s := by
  obtain ⟨tail, rfl⟩ := List.head?_eq_some_iff.mp first
  obtain ⟨front, back⟩ := List.getLast?_eq_some_iff.mp last
  cases front with
  | nil => cases back
  | cons c front =>
    rw [List.cons_append, List.cons.injEq] at back
    rw [back.2, List.drop_one, List.tail_cons, List.dropLast_concat]

/-- The crate reads the usual spellings, and the printed form as a URN. -/
theorem tryParse_eq_some {s digits : List Char} :
    tryParse s = some digits ↔
      (∃ spelling : Spelling, spelling.Usual ∧ spelling.digits = digits ∧ spelling.text = s) ∨
        (digits.length = 32 ∧ (∀ c ∈ digits, isHexDigit c = true) ∧ s = urnText digits) := by
  constructor
  · intro read
    unfold tryParse at read
    split at read
    · unfold parseSimple at read
      obtain ⟨⟨length, hex⟩, same⟩ := (Option.ite_none_right_eq_some ..).mp read
      cases same
      refine .inl ⟨⟨s, noHyphens, false, List.all_eq_true.mp hex, length, rfl⟩, .inr ⟨rfl, rfl⟩,
        rfl, ?_⟩
      exact grouped_noHyphens s
    · split at read
      · obtain ⟨length, hex, rfl⟩ := parseHyphenated_eq_some.mp read
        exact .inl ⟨⟨digits, usualHyphens, false, hex, length, rfl⟩, .inl rfl, rfl, rfl⟩
      · split at read
        · next braces =>
          obtain ⟨length, hex, inner⟩ := parseHyphenated_eq_some.mp read
          refine .inl ⟨⟨digits, usualHyphens, true, hex, length, rfl⟩, .inl rfl, rfl, ?_⟩
          rw [Spelling.text, if_pos rfl, ← inner]
          exact braced_of_ends braces.2.1 braces.2.2
        · obtain ⟨⟨_, urn⟩, read⟩ := (Option.ite_none_right_eq_some ..).mp read
          obtain ⟨length, hex, inner⟩ := parseHyphenated_eq_some.mp read
          obtain ⟨tail, rfl⟩ := urn
          refine .inr ⟨length, hex, ?_⟩
          rw [urnText, ← inner]
          rfl
  · rintro (⟨spelling, usual, rfl, rfl⟩ | ⟨length, hex, rfl⟩)
    · have length := length_grouped_usualHyphens spelling.length_digits
      have inner : parseHyphenated (grouped usualHyphens spelling.digits) = some spelling.digits :=
        parseHyphenated_eq_some.mpr ⟨spelling.length_digits, spelling.hex, rfl⟩
      unfold Spelling.text
      rcases usual with hyphens | ⟨hyphens, plain⟩
      · rw [hyphens]
        cases spelling.braces with
        | true =>
          have last : ('{' :: (grouped usualHyphens spelling.digits ++ ['}'])).getLast? =
              some '}' := by
            rw [← List.cons_append, List.getLast?_concat]
          simp [tryParse, length, inner, last]
        | false => simp [tryParse, length, inner]
      · have hex : spelling.digits.all isHexDigit = true := List.all_eq_true.mpr spelling.hex
        rw [hyphens, plain, grouped_noHyphens]
        simp only [Bool.false_eq_true, if_false, tryParse, parseSimple, spelling.length_digits, hex,
          and_self, if_true]
    · have inner : parseHyphenated (grouped usualHyphens digits) = some digits :=
        parseHyphenated_eq_some.mpr ⟨length, hex, rfl⟩
      have whole : (urnText digits).length = 45 := by
        rw [urnText, List.length_append, length_grouped_usualHyphens length]
        rfl
      have behind : (urnText digits).drop 9 = grouped usualHyphens digits := rfl
      have headed : urnPrefix <+: urnText digits := List.prefix_append _ _
      simp [tryParse, whole, behind, inner, headed]

end AggregatorBridge
