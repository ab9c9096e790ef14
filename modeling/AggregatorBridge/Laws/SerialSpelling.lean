import AggregatorBridge.UuidText
import AggregatorBridge.PgReadings
import AggregatorBridge.MeterRegistry

/-!
# One canonical serial in Rust and in SQL

The rows of a meter are stored under what `canonicalize_serial` makes of its serial, in Rust. Its
owner is looked up under what the SQL function `canonicalize_meter_serial` makes of it. They do the
same in the same order: trim, read as a UUID and print, or keep what was trimmed. The trims and
the two readers of UUIDs are not the same.

So the two agree on a serial exactly if there is nothing but spaces to trim from it, and what is
left is not a spelling that only one of them reads: a URN, which only the crate reads, or hyphens
in other places and braces without hyphens, which only Postgres does
(`canonicalize_alike_iff`).

The law is about the two functions. It does not say which of them a serial has gone through that is
in a table already.
-/

namespace AggregatorBridge

/-- A serial without the spaces around it. -/
def spacesTrimmed (raw : String) : List Char :=
  Text.trimMatches ' ' raw.toList

/-- What Rust and SQL have in common: only spaces around the serial, and of the spellings of a
UUID only those that both of them read. -/
structure SpelledAlike (raw : String) : Prop where
  starts : ∀ c ∈ (spacesTrimmed raw).head?, Text.isWhiteSpace c = false
  ends : ∀ c ∈ (spacesTrimmed raw).getLast?, Text.isWhiteSpace c = false
  usual : (∃ s : Spelling, s.text = spacesTrimmed raw) →
    ∃ s : Spelling, s.text = spacesTrimmed raw ∧ s.Usual
  not_urn : ∀ digits : List Char, digits.length = 32 → (∀ c ∈ digits, isHexDigit c = true) →
    spacesTrimmed raw ≠ urnText digits

/-- `str::trim` drops the spaces too. -/
theorem trim_spacesTrimmed (raw : String) :
    Text.trim raw = Text.trim (String.ofList (spacesTrimmed raw)) := by
  obtain ⟨before, after, whole, spaces, spaces'⟩ := Text.exists_trimMatches ' ' raw.toList
  have blank : ∀ chars : List Char, (∀ c ∈ chars, c = ' ') →
      ∀ c ∈ chars, Text.isWhiteSpace c = true := by
    intro chars all c mem
    rw [all c mem]
    decide
  rw [spacesTrimmed, ← Text.trim_surrounded _ (blank _ spaces) (blank _ spaces'), ← whole,
    String.ofList_toList]

theorem Spelling.trim_text (s : Spelling) :
    Text.trim (String.ofList s.text) = String.ofList s.text := by
  apply Text.trim_of_plain
  intro c mem
  rw [String.toList_ofList] at mem
  exact s.isWhiteSpace_of_mem mem

/-- What is printed is read back by the crate. -/
theorem tryParse_hyphenated (u : Uuid) : tryParse (hyphenated u).toList = some (printed u).digits :=
  tryParse_eq_some.mpr (.inl ⟨printed u, .inl rfl, rfl, text_printed u⟩)

/-- A URN is no spelling. -/
theorem Spelling.text_ne_urnText (s : Spelling) (digits : List Char) :
    s.text ≠ urnText digits := by
  intro same
  have first : s.text.head? = some 'u' := by
    rw [same]
    rfl
  unfold Spelling.text at first
  split at first
  · cases first
  · rcases mem_grouped (List.mem_of_mem_head? (by rw [first]; rfl)) with digit | eq
    · exact absurd (s.hex 'u' digit) (by decide)
    · exact absurd eq (by decide)

section Canonical

variable {raw : String}

/-- The printed form of what was read, or the text as it is. -/
def canonicalOr (text : List Char) (digits : Option (List Char)) : String :=
  (digits.map fun d => hyphenated (uuidOfHex d)).getD (String.ofList text)

/-- The function in Rust: trim, parse, and print what was parsed. -/
theorem canonicalizeSerial_eq (raw : String) :
    canonicalizeSerial rustUuid raw =
      canonicalOr (Text.trim raw).toList (tryParse (Text.trim raw).toList) := by
  unfold canonicalizeSerial canonicalOr
  rw [String.ofList_toList]
  cases read : tryParse (Text.trim raw).toList <;> simp [rustUuid, read]

/-- The function in SQL: the same, with other blanks and another parser. -/
theorem canonicalizeMeterSerial_eq (raw : String) :
    canonicalizeMeterSerial pgUuid raw =
      canonicalOr (spacesTrimmed raw) (stringToUuid (spacesTrimmed raw)) := by
  unfold canonicalizeMeterSerial canonicalOr spacesTrimmed
  cases read : stringToUuid (Text.trimMatches ' ' raw.toList) <;> simp [pgUuid, read]

/-- Whitespace other than spaces stays in SQL and is gone in Rust. -/
theorem trims_of_alike
    (alike : canonicalizeSerial rustUuid raw = canonicalizeMeterSerial pgUuid raw) :
    Text.trim raw = String.ofList (spacesTrimmed raw) := by
  -- A text that is a spelling has nothing left to trim.
  have spelled (s : Spelling) (same : s.text = spacesTrimmed raw) :
      Text.trim raw = String.ofList (spacesTrimmed raw) := by
    rw [trim_spacesTrimmed, ← same, s.trim_text]
  rw [canonicalizeSerial_eq, canonicalizeMeterSerial_eq] at alike
  cases sql : stringToUuid (spacesTrimmed raw) with
  | some digits =>
    obtain ⟨s, _, same⟩ := stringToUuid_eq_some.mp sql
    exact spelled s same
  | none =>
    rw [sql] at alike
    cases rust : tryParse (Text.trim raw).toList with
    | none =>
      rw [rust] at alike
      simpa [canonicalOr] using alike
    | some digits =>
      rw [rust] at alike
      refine spelled (printed (uuidOfHex digits)) ?_
      rw [text_printed]
      simpa [canonicalOr] using congrArg String.toList alike

/-- The two functions agree on a serial exactly if both trim the same from it and either both read
what is left as a UUID or neither does. -/
theorem canonicalize_alike_iff (raw : String) :
    canonicalizeSerial rustUuid raw = canonicalizeMeterSerial pgUuid raw ↔ SpelledAlike raw := by
  constructor
  · intro alike
    have trims := trims_of_alike alike
    have blanks := trims
    rw [trim_spacesTrimmed] at blanks
    obtain ⟨starts, ends⟩ := Text.trim_eq_self_iff.mp blanks
    rw [canonicalizeSerial_eq, canonicalizeMeterSerial_eq, trims, String.toList_ofList] at alike
    refine ⟨starts, ends, ?_, ?_⟩
    · rintro ⟨s, same⟩
      have sql : stringToUuid (spacesTrimmed raw) = some s.digits :=
        stringToUuid_eq_some.mpr ⟨s, rfl, same⟩
      cases rust : tryParse (spacesTrimmed raw) with
      | none =>
        -- Then the text is what is printed, which the crate reads.
        rw [sql, rust] at alike
        have text : spacesTrimmed raw = (hyphenated (uuidOfHex s.digits)).toList := by
          simpa [canonicalOr] using congrArg String.toList alike
        rw [text, tryParse_hyphenated] at rust
        cases rust
      | some digits =>
        rcases tryParse_eq_some.mp rust with ⟨usual, known, _, text⟩ | ⟨_, _, urn⟩
        · exact ⟨usual, text, known⟩
        · rw [urn] at same
          exact absurd same (s.text_ne_urnText digits)
    · intro digits length hex urn
      have rust : tryParse (spacesTrimmed raw) = some digits :=
        tryParse_eq_some.mpr (.inr ⟨length, hex, urn⟩)
      have sql : stringToUuid (spacesTrimmed raw) = none := by
        rw [Option.eq_none_iff_forall_ne_some]
        intro found read
        obtain ⟨s, _, text⟩ := stringToUuid_eq_some.mp read
        exact s.text_ne_urnText digits (text.trans urn)
      rw [sql, rust] at alike
      have text : (hyphenated (uuidOfHex digits)).toList = spacesTrimmed raw := by
        simpa [canonicalOr] using congrArg String.toList alike
      rw [← text_printed] at text
      exact (printed _).text_ne_urnText digits (text.trans urn)
  · intro alike
    have trims : Text.trim raw = String.ofList (spacesTrimmed raw) := by
      rw [trim_spacesTrimmed]
      exact Text.trim_eq_self_iff.mpr ⟨alike.starts, alike.ends⟩
    rw [canonicalizeSerial_eq, canonicalizeMeterSerial_eq, trims, String.toList_ofList]
    congr 1
    cases sql : stringToUuid (spacesTrimmed raw) with
    | some digits =>
      obtain ⟨s, _, text⟩ := stringToUuid_eq_some.mp sql
      obtain ⟨s, text, known⟩ := alike.usual ⟨s, text⟩
      have same : s.digits = digits := by
        have read := stringToUuid_eq_some.mpr ⟨s, rfl, text⟩
        rw [sql] at read
        exact (Option.some.inj read).symm
      exact tryParse_eq_some.mpr (.inl ⟨s, known, same, text⟩)
    | none =>
      rw [Option.eq_none_iff_forall_ne_some]
      intro digits rust
      rcases tryParse_eq_some.mp rust with ⟨s, _, _, text⟩ | ⟨length, hex, urn⟩
      · rw [stringToUuid_eq_some.mpr ⟨s, rfl, text⟩] at sql
        cases sql
      · exact alike.not_urn digits length hex urn

end Canonical

/-- A tab before a serial stays there in SQL. -/
theorem tab_splits_a_serial :
    canonicalizeSerial rustUuid "\tMTR-1" = "MTR-1" ∧
      canonicalizeMeterSerial pgUuid "\tMTR-1" = "\tMTR-1" ∧
      canonicalizeSerial rustUuid "\tMTR-1" ≠ canonicalizeMeterSerial pgUuid "\tMTR-1" := by
  have rust : canonicalizeSerial rustUuid "\tMTR-1" = "MTR-1" := by decide +kernel
  have sql : canonicalizeMeterSerial pgUuid "\tMTR-1" = "\tMTR-1" := by decide +kernel
  rw [rust, sql]
  exact ⟨rfl, rfl, by decide⟩

end AggregatorBridge
