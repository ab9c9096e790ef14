import AggregatorBridge.Serde
import Mathlib.Data.List.TakeWhile
import Mathlib.Logic.Function.Basic

/-!
# JSON texts

The compact texts of `serde_json`: what `to_string` writes for a document, over doubles whose finite
texts are numerals with a fraction or an exponent. Two documents that are written alike are read back
alike (`text_inj`), so the texts that it writes have a reader, and there is a `SerdeJson` of them.

The reader here reads what the writer writes and nothing else; JSON has more texts, with blanks and
other escapes.
-/

namespace AggregatorBridge

namespace JsonText

/-! ## Strings -/

/-- The characters that are escaped, with what follows the backslash. -/
def escapes : List (Char × List Char) :=
  [('"', ['"']), ('\\', ['\\']), (Char.ofNat 8, ['b']), ('\t', ['t']), ('\n', ['n']),
    (Char.ofNat 12, ['f']), ('\r', ['r'])] ++
  ((List.range 32).filter (· ∉ [8, 9, 10, 12, 13])).map fun n =>
    (Char.ofNat n, ['u', '0', '0', Nat.digitChar (n / 16), Nat.digitChar (n % 16)])

/-- How a character is written in a string. -/
def escape (c : Char) : List Char :=
  match escapes.lookup c with
  | some rest => '\\' :: rest
  | none => [c]

/-- A string as it stands in a document. -/
def quoted (s : String) : List Char :=
  '"' :: (s.toList.flatMap escape ++ ['"'])

/-- No escape begins another. -/
theorem escapes_apart : ∀ a ∈ escapes, ∀ b ∈ escapes, a.2 <+: b.2 → a.1 = b.1 := by
  decide +kernel

theorem mem_escapes {c : Char} {rest : List Char} (found : escapes.lookup c = some rest) :
    (c, rest) ∈ escapes := by
  obtain ⟨before, after, split, -⟩ := List.lookup_eq_some_iff.mp found
  simp [split]

/-- A character that stands for itself is no backslash and no quote. -/
theorem plain_of_not_escaped {c : Char} (plain : escapes.lookup c = none) : c ≠ '\\' ∧ c ≠ '"' := by
  constructor
  · rintro rfl
    exact absurd plain (by decide)
  · rintro rfl
    exact absurd plain (by decide)

theorem escape_apart {c d : Char} (within : escape c <+: escape d) : c = d := by
  unfold escape at within
  cases one : escapes.lookup c with
  | some rest =>
    cases other : escapes.lookup d with
    | some rest' =>
      simp only [one, other, List.cons_prefix_cons, true_and] at within
      exact escapes_apart _ (mem_escapes one) _ (mem_escapes other) within
    | none =>
      simp only [one, other, List.cons_prefix_cons] at within
      exact absurd within.1.symm (plain_of_not_escaped other).1
  | none =>
    cases other : escapes.lookup d with
    | some rest' =>
      simp only [one, other, List.cons_prefix_cons] at within
      exact absurd within.1 (plain_of_not_escaped one).1
    | none =>
      simp only [one, other, List.cons_prefix_cons] at within
      exact within.1

/-- A quote ends the string: no escape begins with one. -/
theorem escape_append_ne (c : Char) (x y : List Char) : escape c ++ x ≠ '"' :: y := by
  unfold escape
  cases one : escapes.lookup c with
  | some rest => simp
  | none =>
    intro same
    exact (plain_of_not_escaped one).2 (List.cons.inj same).1

theorem escaped_inj {s t r r' : List Char}
    (same : s.flatMap escape ++ '"' :: r = t.flatMap escape ++ '"' :: r') : s = t ∧ r = r' := by
  induction s generalizing t with
  | nil =>
    cases t with
    | nil => exact ⟨rfl, (List.cons.inj same).2⟩
    | cons d t =>
      simp only [List.flatMap_cons, List.append_assoc] at same
      exact absurd same.symm (escape_append_ne d _ _)
  | cons c s ih =>
    cases t with
    | nil =>
      simp only [List.flatMap_cons, List.append_assoc] at same
      exact absurd same (escape_append_ne c _ _)
    | cons d t =>
      simp only [List.flatMap_cons, List.append_assoc] at same
      have begins : escape c <+: escape d ∨ escape d <+: escape c :=
        List.prefix_or_prefix_of_prefix (List.prefix_append (escape c) _)
          (same ▸ List.prefix_append (escape d) _)
      obtain rfl : c = d := begins.elim escape_apart fun within => (escape_apart within).symm
      obtain ⟨rfl, rest⟩ := ih (List.append_cancel_left same)
      exact ⟨rfl, rest⟩

theorem quoted_append_inj {s t : String} {r r' : List Char}
    (same : quoted s ++ r = quoted t ++ r') : s = t ∧ r = r' := by
  simp only [quoted, List.cons_append, List.append_assoc, List.cons.injEq, true_and] at same
  obtain ⟨chars, rest⟩ := escaped_inj same
  exact ⟨String.toList_inj.mp chars, rest⟩

/-! ## Words -/

/-- The characters of literals and numerals. -/
def isPlain (c : Char) : Bool :=
  c.isAlphanum || c == '-' || c == '+' || c == '.'

/-- A value ends with the text, or where a separator or a bracket follows. -/
def Ends (rest : List Char) : Prop :=
  ∀ c ∈ rest.head?, isPlain c = false

theorem word_append_inj {a b r r' : List Char} (left : a.all isPlain = true)
    (right : b.all isPlain = true) (ends : Ends r) (ends' : Ends r') (same : a ++ r = b ++ r') :
    a = b ∧ r = r' := by
  have word {x rest : List Char} (plain : x.all isPlain = true) (ends : Ends rest) :
      (x ++ rest).takeWhile isPlain = x := by
    rw [List.takeWhile_append_of_pos (List.all_eq_true.mp plain)]
    cases rest with
    | nil => simp
    | cons c rest => simp [ends c (by simp)]
  have words : a = b := by rw [← word left ends, same, word right ends']
  subst words
  exact ⟨rfl, List.append_cancel_left same⟩

variable {F : Type}

/-- What `ryu` writes for doubles: numerals with a point or an exponent, each read back as it was. -/
structure Numerals (finite : F → Bool) (shown : F → String) : Prop where
  inj : ∀ x y, finite x = true → finite y = true → shown x = shown y → x = y
  plain : ∀ x, (shown x).toList.all isPlain = true
  starts : ∀ x, ∃ c ∈ (shown x).toList.head?, c.isDigit = true ∨ c = '-'
  marked : ∀ x, ∃ c ∈ (shown x).toList, ¬ (c.isDigit = true ∨ c = '-')

variable (finite : F → Bool) (shown : F → String)

/-- An infinite double or one that is no number is written as `null`, and is not read back as a
number. -/
def number : JsonNumber F → String
  | .posInt n => toString (n : Int)
  | .negInt n => toString n
  | .float x => if finite x then shown x else "null"

variable {finite shown}

theorem toString_int_plain (i : Int) : (toString i).toList.all isPlain = true := by
  refine List.all_eq_true.mpr fun c mem => ?_
  rcases Text.isDigit_of_mem_int mem with digit | rfl
  · simp [isPlain, Char.isAlphanum, digit]
  · decide

theorem toString_int_starts (i : Int) :
    ∃ c ∈ (toString i).toList.head?, c.isDigit = true ∨ c = '-' := by
  cases chars : (toString i).toList with
  | nil => exact absurd chars (Text.toString_int_ne_nil i)
  | cons c rest =>
    refine ⟨c, rfl, Text.isDigit_of_mem_int (i := i) ?_⟩
    rw [chars]
    exact List.mem_cons_self

theorem number_plain (numerals : Numerals finite shown) (n : JsonNumber F) :
    (number finite shown n).toList.all isPlain = true := by
  cases n with
  | posInt n => exact toString_int_plain n
  | negInt n => exact toString_int_plain n
  | float x =>
    simp only [number]
    split
    · exact numerals.plain x
    · decide

/-- A number is a numeral, unless it is a double that is not finite. -/
theorem number_starts (numerals : Numerals finite shown) (n : JsonNumber F) :
    (∃ c ∈ (number finite shown n).toList.head?, c.isDigit = true ∨ c = '-') ∨
      number finite shown n = "null" ∧ (Json.num n).written finite = .null := by
  cases n with
  | posInt n => exact .inl (toString_int_starts n)
  | negInt n => exact .inl (toString_int_starts n)
  | float x =>
    by_cases ok : finite x = true
    · simp only [number, if_pos ok]
      exact .inl (numerals.starts x)
    · exact .inr ⟨by rw [number, if_neg ok], by rw [Json.written, if_neg ok]⟩

/-- A numeral is none of the literals. -/
theorem number_eq_literal (numerals : Numerals finite shown) {n : JsonNumber F} {literal : String}
    (known : literal ∈ ["null", "true", "false"]) (same : number finite shown n = literal) :
    literal = "null" ∧ (Json.num n).written finite = .null := by
  rcases number_starts numerals n with ⟨c, begins, numeral⟩ | ⟨null, written⟩
  · rw [same] at begins
    simp only [List.mem_cons, List.not_mem_nil, or_false] at known
    -- each literal begins with a letter
    rcases known with rfl | rfl | rfl <;> cases begins <;> exact absurd numeral (by decide)
  · exact ⟨same.symm.trans null, written⟩

theorem float_ne_int (numerals : Numerals finite shown) (x : F) (i : Int) :
    number finite shown (.float x) ≠ toString i := by
  intro same
  by_cases ok : finite x = true
  · rw [number, if_pos ok] at same
    obtain ⟨c, mem, other⟩ := numerals.marked x
    rw [same] at mem
    exact other (Text.isDigit_of_mem_int mem)
  · rw [number, if_neg ok] at same
    obtain ⟨c, begins, numeral⟩ := toString_int_starts i
    rw [← same] at begins
    cases begins
    exact absurd numeral (by decide)

theorem number_inj (numerals : Numerals finite shown) {m n : JsonNumber F}
    (fits : (Json.num m).fits = true) (fits' : (Json.num n).fits = true)
    (same : number finite shown m = number finite shown n) :
    (Json.num m).written finite = (Json.num n).written finite := by
  have negative {k : Int} (fits : (Json.num (.negInt k) : Json F).fits = true) : k < 0 := by
    simp only [Json.fits, Bool.and_eq_true, decide_eq_true_eq] at fits
    exact fits.2
  cases m with
  | posInt i =>
    cases n with
    | posInt j => rw [Int.ofNat_inj.mp (Text.toString_int_inj same)]
    | negInt j =>
      have ints : (i : Int) = j := Text.toString_int_inj same
      have below := negative fits'
      omega
    | float y => exact absurd same.symm (float_ne_int numerals y i)
  | negInt i =>
    cases n with
    | posInt j =>
      have ints : i = (j : Int) := Text.toString_int_inj same
      have below := negative fits
      omega
    | negInt j => rw [Text.toString_int_inj same]
    | float y => exact absurd same.symm (float_ne_int numerals y i)
  | float x =>
    cases n with
    | posInt j => exact absurd same (float_ne_int numerals x j)
    | negInt j => exact absurd same (float_ne_int numerals x j)
    | float y =>
      by_cases ok : finite x = true
      · by_cases ok' : finite y = true
        · rw [number, if_pos ok, number, if_pos ok'] at same
          rw [numerals.inj x y ok ok' same]
        · have null : number finite shown (.float y) = "null" := by rw [number, if_neg ok']
          rw [(number_eq_literal numerals (by simp) (same.trans null)).2,
            (number_eq_literal numerals (by simp) null).2]
      · have null : number finite shown (.float x) = "null" := by rw [number, if_neg ok]
        rw [(number_eq_literal numerals (by simp) null).2,
          (number_eq_literal numerals (by simp) (same.symm.trans null)).2]

/-! ## Documents -/

/-- The comma in front of every element but the first. -/
def separator (first : Bool) : List Char :=
  if first then [] else [',']

section

variable (finite : F → Bool) (shown : F → String)

mutual

/-- `serde_json::to_string`. -/
def text : Json F → List Char
  | .null => "null".toList
  | .bool b => (if b then "true" else "false").toList
  | .num n => (number finite shown n).toList
  | .str s => quoted s
  | .arr items => '[' :: itemsText true items
  | .obj members => '{' :: membersText true members

/-- The rest of an array, up to its closing bracket. -/
def itemsText (first : Bool) : List (Json F) → List Char
  | [] => [']']
  | v :: items => separator first ++ (text v ++ itemsText false items)

/-- The rest of an object, members in the order of the map and no blanks. -/
def membersText (first : Bool) : List (String × Json F) → List Char
  | [] => ['}']
  | (key, v) :: members =>
    separator first ++ (quoted key ++ ':' :: (text v ++ membersText false members))

end

end

/-- Neither a string nor a bracket. -/
def isScalar : Json F → Bool
  | .null => true
  | .bool _ => true
  | .num _ => true
  | _ => false

theorem scalar_plain (numerals : Numerals finite shown) {v : Json F} (scalar : isScalar v = true) :
    (text finite shown v).all isPlain = true := by
  cases v with
  | null => rw [text]; decide
  | bool b => cases b <;> rw [text] <;> decide
  | num n =>
    rw [text]
    exact number_plain numerals n
  | str _ => cases scalar
  | arr _ => cases scalar
  | obj _ => cases scalar

theorem bool_ne_null (b : Bool) : (if b then "true" else "false") ≠ "null" := by
  cases b <;> decide

theorem scalar_inj (numerals : Numerals finite shown) {v w : Json F} (scalar : isScalar v = true)
    (scalar' : isScalar w = true) (fits : v.fits = true) (fits' : w.fits = true)
    (same : text finite shown v = text finite shown w) : v.written finite = w.written finite := by
  -- a number is written as a literal only if it is read back as `null`
  have literal {n : JsonNumber F} {b : Bool}
      (same : number finite shown n = if b then "true" else "false") : False := by
    have known : (if b then "true" else "false") ∈ ["null", "true", "false"] := by cases b <;> simp
    exact bool_ne_null b (number_eq_literal numerals known same).1
  cases v with
  | null =>
    cases w with
    | null => rfl
    | bool b => exact absurd (String.toList_inj.mp same).symm (bool_ne_null b)
    | num n =>
      exact (number_eq_literal numerals (by simp) (String.toList_inj.mp same).symm).2.symm
    | _ => cases scalar'
  | bool b =>
    cases w with
    | null => exact absurd (String.toList_inj.mp same) (bool_ne_null b)
    | bool b' =>
      cases b <;> cases b'
      · rfl
      · exact absurd (String.toList_inj.mp same) (by decide)
      · exact absurd (String.toList_inj.mp same) (by decide)
      · rfl
    | num n => exact (literal (String.toList_inj.mp same).symm).elim
    | _ => cases scalar'
  | num m =>
    cases w with
    | null => exact (number_eq_literal numerals (by simp) (String.toList_inj.mp same)).2
    | bool b => exact (literal (String.toList_inj.mp same)).elim
    | num n => exact number_inj numerals fits fits' (String.toList_inj.mp same)
    | _ => cases scalar'
  | _ => cases scalar

/-- The first character tells a scalar from a string and a bracket. -/
theorem text_begins (numerals : Numerals finite shown) (v : Json F) :
    ∃ c rest, text finite shown v = c :: rest ∧ isPlain c = isScalar v ∧ c ≠ ']' := by
  cases v with
  | null => exact ⟨'n', _, rfl, rfl, by decide⟩
  | bool b =>
    cases b
    · exact ⟨'f', _, rfl, rfl, by decide⟩
    · exact ⟨'t', _, rfl, rfl, by decide⟩
  | num n =>
    have plain := number_plain numerals n
    cases chars : (number finite shown n).toList with
    | nil =>
      rcases number_starts numerals n with ⟨c, begins, -⟩ | ⟨null, -⟩
      · rw [chars] at begins
        cases begins
      · rw [null] at chars
        exact absurd chars (by decide)
    | cons c rest =>
      rw [chars, List.all_cons, Bool.and_eq_true] at plain
      refine ⟨c, rest, chars, plain.1, ?_⟩
      rintro rfl
      exact absurd plain.1 (by decide)
  | str s => exact ⟨'"', _, rfl, rfl, by decide⟩
  | arr items => exact ⟨'[', _, rfl, rfl, by decide⟩
  | obj members => exact ⟨'{', _, rfl, rfl, by decide⟩

theorem scalar_append_inj (numerals : Numerals finite shown) {v w : Json F}
    (scalar : isScalar v = true) (fits : v.fits = true) (fits' : w.fits = true) {r r' : List Char}
    (ends : Ends r) (ends' : Ends r')
    (same : text finite shown v ++ r = text finite shown w ++ r') :
    v.written finite = w.written finite ∧ r = r' := by
  cases scalar' : isScalar w with
  | true =>
    obtain ⟨texts, rest⟩ := word_append_inj (scalar_plain numerals scalar)
      (scalar_plain numerals scalar') ends ends' same
    exact ⟨scalar_inj numerals scalar scalar' fits fits' texts, rest⟩
  | false =>
    obtain ⟨c, rest, begins, plain, -⟩ := text_begins numerals v
    obtain ⟨d, rest', begins', special, -⟩ := text_begins numerals w
    rw [begins, begins'] at same
    rw [(List.cons.inj same).1, special, scalar, scalar'] at plain
    cases plain

theorem append_inj_scalar (numerals : Numerals finite shown) {v w : Json F}
    (scalar : isScalar w = true) (fits : v.fits = true) (fits' : w.fits = true) {r r' : List Char}
    (ends : Ends r) (ends' : Ends r')
    (same : text finite shown v ++ r = text finite shown w ++ r') :
    v.written finite = w.written finite ∧ r = r' := by
  obtain ⟨texts, rest⟩ := scalar_append_inj numerals scalar fits' fits ends' ends same.symm
  exact ⟨texts.symm, rest.symm⟩

/-! ### What follows a value -/

theorem ends_items (items : List (Json F)) (r : List Char) :
    Ends (itemsText finite shown false items ++ r) := by
  intro c mem
  cases items <;> cases mem <;> decide

theorem ends_members (members : List (String × Json F)) (r : List Char) :
    Ends (membersText finite shown false members ++ r) := by
  intro c mem
  cases members <;> cases mem <;> decide

theorem item_not_end (numerals : Numerals finite shown) (first : Bool) (v : Json F)
    (x y : List Char) : separator first ++ (text finite shown v ++ x) ≠ ']' :: y := by
  intro same
  cases first with
  | true =>
    obtain ⟨c, rest, begins, -, other⟩ := text_begins numerals v
    rw [begins] at same
    exact other (List.cons.inj same).1
  | false => exact absurd (List.cons.inj same).1 (by decide)

theorem member_not_end (first : Bool) (key : String) (x y : List Char) :
    separator first ++ (quoted key ++ x) ≠ '}' :: y := by
  intro same
  cases first <;> exact absurd (List.cons.inj same).1 (by decide)

/-! ### Reading back -/

mutual

theorem text_append_inj (numerals : Numerals finite shown) : ∀ (v w : Json F),
    v.fits = true → w.fits = true → ∀ r r', Ends r → Ends r' →
    text finite shown v ++ r = text finite shown w ++ r' →
      v.written finite = w.written finite ∧ r = r'
  | .null, w, fits, fits', _, _, ends, ends', same =>
    scalar_append_inj numerals rfl fits fits' ends ends' same
  | .bool _, w, fits, fits', _, _, ends, ends', same =>
    scalar_append_inj numerals rfl fits fits' ends ends' same
  | .num _, w, fits, fits', _, _, ends, ends', same =>
    scalar_append_inj numerals rfl fits fits' ends ends' same
  | .str s, w, fits, fits', _, _, ends, ends', same => by
    cases w with
    | str t =>
      obtain ⟨rfl, rest⟩ := quoted_append_inj same
      exact ⟨rfl, rest⟩
    | arr _ => exact absurd (List.cons.inj same).1 (by decide)
    | obj _ => exact absurd (List.cons.inj same).1 (by decide)
    | _ => exact append_inj_scalar numerals rfl fits fits' ends ends' same
  | .arr items, w, fits, fits', _, _, ends, ends', same => by
    cases w with
    | str t => exact absurd (List.cons.inj same).1 (by decide)
    | arr others =>
      obtain ⟨texts, rest⟩ := itemsText_append_inj numerals true items others fits fits' _ _
        (List.cons.inj same).2
      exact ⟨congrArg Json.arr texts, rest⟩
    | obj _ => exact absurd (List.cons.inj same).1 (by decide)
    | _ => exact append_inj_scalar numerals rfl fits fits' ends ends' same
  | .obj members, w, fits, fits', _, _, ends, ends', same => by
    cases w with
    | str t => exact absurd (List.cons.inj same).1 (by decide)
    | arr others => exact absurd (List.cons.inj same).1 (by decide)
    | obj others =>
      obtain ⟨texts, rest⟩ := membersText_append_inj numerals true members others fits fits' _ _
        (List.cons.inj same).2
      exact ⟨congrArg Json.obj texts, rest⟩
    | _ => exact append_inj_scalar numerals rfl fits fits' ends ends' same

theorem itemsText_append_inj (numerals : Numerals finite shown) (first : Bool) :
    ∀ vs ws : List (Json F), Json.fitsItems vs = true → Json.fitsItems ws = true → ∀ r r',
    itemsText finite shown first vs ++ r = itemsText finite shown first ws ++ r' →
      Json.writtenItems finite vs = Json.writtenItems finite ws ∧ r = r'
  | [], ws, fits, fits', _, _, same => by
    cases ws with
    | nil => exact ⟨rfl, (List.cons.inj same).2⟩
    | cons w ws =>
      simp only [itemsText, List.append_assoc] at same
      exact absurd same.symm (item_not_end numerals first w _ _)
  | v :: vs, ws, fits, fits', _, _, same => by
    cases ws with
    | nil =>
      simp only [itemsText, List.append_assoc] at same
      exact absurd same (item_not_end numerals first v _ _)
    | cons w ws =>
      simp only [Json.fitsItems, Bool.and_eq_true] at fits fits'
      simp only [itemsText, List.append_assoc] at same
      obtain ⟨head, tail⟩ := text_append_inj numerals v w fits.1 fits'.1 _ _ (ends_items vs _)
        (ends_items ws _) (List.append_cancel_left same)
      obtain ⟨rest, after⟩ := itemsText_append_inj numerals false vs ws fits.2 fits'.2 _ _ tail
      exact ⟨by rw [Json.writtenItems, Json.writtenItems, head, rest], after⟩

theorem membersText_append_inj (numerals : Numerals finite shown) (first : Bool) :
    ∀ ms ns : List (String × Json F), Json.fitsMembers ms = true → Json.fitsMembers ns = true →
    ∀ r r', membersText finite shown first ms ++ r = membersText finite shown first ns ++ r' →
      Json.writtenMembers finite ms = Json.writtenMembers finite ns ∧ r = r'
  | [], ns, fits, fits', _, _, same => by
    cases ns with
    | nil => exact ⟨rfl, (List.cons.inj same).2⟩
    | cons n ns =>
      simp only [membersText, List.append_assoc] at same
      exact absurd same.symm (member_not_end first n.1 _ _)
  | (key, v) :: ms, ns, fits, fits', _, _, same => by
    cases ns with
    | nil =>
      simp only [membersText, List.append_assoc] at same
      exact absurd same (member_not_end first key _ _)
    | cons n ns =>
      simp only [Json.fitsMembers, Bool.and_eq_true] at fits fits'
      simp only [membersText, List.append_assoc, List.cons_append] at same
      obtain ⟨rfl, tail⟩ := quoted_append_inj (List.append_cancel_left same)
      obtain ⟨head, tail⟩ := text_append_inj numerals v n.2 fits.1 fits'.1 _ _ (ends_members ms _)
        (ends_members ns _) (List.cons.inj tail).2
      obtain ⟨rest, after⟩ := membersText_append_inj numerals false ms ns fits.2 fits'.2 _ _ tail
      exact ⟨by rw [Json.writtenMembers, Json.writtenMembers, head, rest], after⟩

end

/-- Documents that are written alike are read back alike. -/
theorem text_inj (numerals : Numerals finite shown) {v w : Json F} (fits : v.fits = true)
    (fits' : w.fits = true) (same : text finite shown v = text finite shown w) :
    v.written finite = w.written finite :=
  (text_append_inj numerals v w fits fits' [] [] nofun nofun (by rw [same])).1

open Classical in
/-- The reader of what is written. -/
noncomputable def read (finite : F → Bool) (shown : F → String) (chars : List Char) :
    Option (Json F) :=
  if wrote : ∃ v : Json F, v.fits = true ∧ text finite shown v = chars then
    some (wrote.choose.written finite)
  else none

theorem read_text (numerals : Numerals finite shown) {v : Json F} (fits : v.fits = true) :
    read finite shown (text finite shown v) = some (v.written finite) := by
  have wrote : ∃ w : Json F, w.fits = true ∧ text finite shown w = text finite shown v :=
    ⟨v, fits, rfl⟩
  rw [read, dif_pos wrote]
  exact congrArg some (text_inj numerals wrote.choose_spec.1 fits wrote.choose_spec.2)

end JsonText

/-! ## Whole doubles -/

/-- Doubles that are whole, and one that is not finite. -/
abbrev WholeDouble := Option Int

namespace WholeDouble

instance : Float64 WholeDouble where
  ofInt n := some n
  mul x y := do some ((← x) * (← y))
  div x y := do some ((← x) / (← y))
  sub x y := do some ((← x) - (← y))
  parse s := if s = "NaN" then some none else (Text.parseSigned s).map some
  display x := match x with | some n => toString n | none => "NaN"

/-- Every whole double but the missing one. -/
def finite (x : WholeDouble) : Bool :=
  x.isSome

/-- `ryu` writes a whole double with one zero after the point. -/
def shown (x : WholeDouble) : String :=
  toString (x.getD 0) ++ ".0"

theorem numerals : JsonText.Numerals finite shown where
  inj x y ok ok' same := by
    obtain ⟨i, rfl⟩ := Option.isSome_iff_exists.mp ok
    obtain ⟨j, rfl⟩ := Option.isSome_iff_exists.mp ok'
    have lists := congrArg String.toList same
    simp only [shown, Option.getD_some, String.toList_append] at lists
    rw [Text.toString_int_inj (String.toList_inj.mp (List.append_cancel_right lists))]
  plain x := by
    rw [shown, String.toList_append, List.all_append, JsonText.toString_int_plain]
    decide
  starts x := by
    obtain ⟨c, begins, digit⟩ := JsonText.toString_int_starts (x.getD 0)
    refine ⟨c, ?_, digit⟩
    rw [shown, String.toList_append, List.head?_append, Option.mem_def.mp begins]
    rfl
  marked x := ⟨'.', by simp [shown], by decide⟩

end WholeDouble

/-! ## A deployment's texts -/

/-- The nil identifier as it is displayed, and numbers for the others. -/
def uuidText (id : Uuid) : String :=
  if id = 0 then "00000000-0000-0000-0000-000000000000" else toString (id.toNat : Int)

theorem uuidText_injective : Function.Injective uuidText := by
  have number (n : Int) : "00000000-0000-0000-0000-000000000000" ≠ toString n := by
    intro same
    have parsed := Text.parseSigned_toString n
    rw [← same] at parsed
    exact absurd parsed (by rw [show Text.parseSigned _ = none by decide]; nofun)
  intro a b same
  unfold uuidText at same
  split_ifs at same with nil nil'
  · rw [nil, nil']
  · exact absurd same (number _)
  · exact absurd same.symm (number _)
  · exact BitVec.eq_of_toNat_eq (Int.ofNat_inj.mp (Text.toString_int_inj same))

/-- One instant as it is displayed, and numbers for the others. -/
def timeText (t : DateTime) : String :=
  if t = .ofSecs 1700000000 then "2023-11-14T22:13" ++ ":" ++ "20Z"
  else toString t.secs ++ ":" ++ toString (t.nanos : Int)

theorem timeText_injective : Function.Injective timeText := by
  have number (text : String) (n : Int) :
      "2023-11-14T22:13" ++ ":" ++ "20Z" ≠ text ++ ":" ++ toString n := by
    intro same
    have seconds := (Text.colonJoined_inj (by decide) (Text.colon_not_mem_int n) same).2
    have parsed := Text.parseSigned_toString n
    rw [← seconds] at parsed
    exact absurd parsed (by rw [show Text.parseSigned _ = none by decide]; nofun)
  intro a b same
  unfold timeText at same
  split_ifs at same with known known'
  · rw [known, known']
  · exact absurd same (number _ _)
  · exact absurd same.symm (number _ _)
  · obtain ⟨secs, nanos⟩ := Text.joined_inj same
    exact DateTime.ext (Text.toString_int_inj secs) (Int.ofNat_inj.mp nanos)

/-- What is written over whole doubles, and its reader. -/
noncomputable def compactJson : SerdeJson WholeDouble where
  isFinite := WholeDouble.finite
  fromStr s := JsonText.read WholeDouble.finite WholeDouble.shown s.toList
  toString v := String.ofList (JsonText.text WholeDouble.finite WholeDouble.shown v)
  uuid := ⟨Function.partialInv uuidText, uuidText⟩
  parseTime := Function.partialInv timeText
  displayTime := timeText

/-- The compact writer and the parser satisfy what the laws ask of `serde_json`, so none of them is
about nothing. -/
theorem compactJson_roundTrips : compactJson.RoundTrips where
  texts v fits := by
    show JsonText.read _ _ (String.ofList _).toList = _
    rw [String.toList_ofList, JsonText.read_text WholeDouble.numerals fits]
    rfl
  uuids id := Function.partialInv_left uuidText_injective id
  times t := Function.partialInv_left timeText_injective t

end AggregatorBridge
