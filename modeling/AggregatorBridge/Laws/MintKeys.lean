import AggregatorBridge.MintInFlight
import AggregatorBridge.PgReadings

/-!
# Mint keys

A mint is known by its meter and its window, in four places: the outbox field, the key of
`MintInFlight`, the idempotency key that goes to the bridge, and what is parsed back out of that
key when the mint is confirmed. Serials are any text, with colons and prefixes of their own. The
window is printed last and holds no colon, so the last colon is always the joint, and of two
prefixes only the first is stripped.

It is about texts alone. That a key is known to the bridge, or that a window was minted once, does
not follow from it.
-/

namespace AggregatorBridge

open Remote MachineInt

/-- Two mints that do not know of each other: neither their fields nor their keys are the same, and
removing, claiming or giving back one leaves the other as it is. -/
structure Apart (p q : PendingMint) : Prop where
  field : p.field ≠ q.field
  key : mintIdempotencyKey p ≠ mintIdempotencyKey q
  removed : ∀ {τ : Type} (s : Outbox τ) (call : OutboxCall τ) (reply : Reply),
    call = .removeOutbox p.field ∨ call = .removeParked p.field →
      (s.execute call reply).outbox.lookup q.field = s.outbox.lookup q.field ∧
        (s.execute call reply).parked.lookup q.field = s.parked.lookup q.field
  claimed : ∀ keys taken, MintInFlight.tryBegin keys p.field = some taken →
    (q.field ∈ taken ↔ q.field ∈ keys)
  released : ∀ keys : List String, q.field ∈ keys.erase p.field ↔ q.field ∈ keys

/-- An entry is determined by its field. -/
theorem PendingMint.field_inj {p q : PendingMint} (same : p.field = q.field) :
    (p.meterSerial, p.windowStartMs) = (q.meterSerial, q.windowStartMs) := by
  obtain ⟨serial, window⟩ := Text.joined_inj same
  rw [serial, window]

/-- A deletion leaves the other fields alone, whether it is executed or not. -/
theorem lookup_erase_other {τ : Type} {field other : String} (apart : field ≠ other)
    (reply : Reply) (hash : Hash String (Owed τ)) :
    (reply.effect (AList.erase field) hash).lookup other = hash.lookup other := by
  rcases reply.effect_cases (AList.erase field) hash with same | erased
  · rw [same]
  · rw [erased, AList.lookup_erase_ne apart.symm]

theorem apart_of_field {p q : PendingMint} (other : p.field ≠ q.field) : Apart p q where
  field := other
  key := by
    intro same
    apply other
    rw [← fieldOfKey_mintIdempotencyKey, same, fieldOfKey_mintIdempotencyKey]
  removed s call reply remove := by
    rcases remove with rfl | rfl
    · exact ⟨lookup_erase_other other reply s.outbox, rfl⟩
    · exact ⟨rfl, lookup_erase_other other reply s.parked⟩
  claimed keys taken begun := by
    unfold MintInFlight.tryBegin at begun
    split at begun
    · cases begun
    · cases begun
      rw [List.mem_cons, or_iff_right other.symm]
  released keys := List.mem_erase_of_ne other.symm

/-- The key of a mint is taken apart into what it was made of. -/
theorem parseMintField_mintIdempotencyKey {p : PendingMint} (window : IsI64 p.windowStartMs) :
    parseMintField (mintIdempotencyKey p) = some (p.meterSerial, p.windowStartMs) := by
  unfold parseMintField
  rw [fieldOfKey_mintIdempotencyKey, PendingMint.field,
    Text.rsplitOnceColon_append (Text.colon_not_mem_int _)]
  simp only [Option.bind_eq_bind, Option.bind_some,
    Text.parseI64_toString window.1 window.2]

/-- A confirmed item is removed under the field of its entry, wherever it stands in the reply. -/
theorem confirmedFields_of_success {p : PendingMint} {r : MintBatchItemResult}
    (success : r.success = true) (key : r.idempotencyKey = mintIdempotencyKey p)
    (before after : List MintBatchItemResult) :
    confirmedFields (before ++ r :: after) =
      confirmedFields before ++ p.field :: confirmedFields after := by
  unfold confirmedFields
  rw [List.filter_append, List.filter_cons_of_pos success, List.map_append, List.map_cons, key,
    fieldOfKey_mintIdempotencyKey]

/-- Whatever the serial: a key is taken apart into serial and window, a success is filed under the
entry's own field, and two mints of different meters or windows are apart. -/
theorem mint_keys_round_trip {p : PendingMint} (window : IsI64 p.windowStartMs) :
    parseMintField (mintIdempotencyKey p) = some (p.meterSerial, p.windowStartMs) ∧
    (∀ (r : MintBatchItemResult) (before after : List MintBatchItemResult), r.success = true →
      r.idempotencyKey = mintIdempotencyKey p →
      confirmedFields (before ++ r :: after) =
        confirmedFields before ++ p.field :: confirmedFields after) ∧
    ∀ q : PendingMint, (p.meterSerial, p.windowStartMs) ≠ (q.meterSerial, q.windowStartMs) →
      Apart p q := by
  refine ⟨parseMintField_mintIdempotencyKey window, ?_, ?_⟩
  · intro r before after success key
    exact confirmedFields_of_success success key before after
  · intro q other
    exact apart_of_field fun same => other (PendingMint.field_inj same)

/-- A serial with colons that starts like a key, in a window before the epoch. -/
def colonMint : PendingMint :=
  ⟨"mint:7:A:", 1, -900000, 5, 0⟩

theorem colons_round_trip :
    mintIdempotencyKey colonMint = "mint:mint:7:A::-900000" ∧
      parseMintField (mintIdempotencyKey colonMint) =
        some (colonMint.meterSerial, colonMint.windowStartMs) :=
  ⟨by decide +kernel, (mint_keys_round_trip (by decide)).1⟩

end AggregatorBridge
