import AggregatorBridge.Lib.Remote
import Mathlib.Algebra.Ring.Nat

/-!
# Entries that expire

A cache whose entries carry the moment from which on they no longer count. A lookup refuses an
expired entry and drops it; a scan may drop the others, at whatever times it likes, because
the lookup does not rely on it.

What makes such a cache worth trusting is where its entries came from: `Backed` says that each
of them was stored at some moment, by somebody who had a reason to, and expires its lifetime
after that moment. Then a hit is a value stored less than its lifetime ago (`Backed.of_get`),
whatever happened to the cache in between.
-/

namespace Expiring

open Remote

/-- A moment of a monotonic clock, in nanoseconds. Durations are in nanoseconds, too. -/
abbrev Instant := Nat

/-- `Instant + Duration`, which panics when 63 bits of seconds do not suffice. -/
def after (now : Instant) (duration : Nat) : Option Instant :=
  if now + duration < 2 ^ 63 * 1000000000 then some (now + duration) else none

theorem eq_of_after {now expires : Instant} {duration : Nat}
    (fits : after now duration = some expires) : expires = now + duration := by
  unfold after at fits
  split at fits
  · cases fits
    rfl
  · cases fits

/-- A value with the time from which on it no longer counts. -/
structure Entry (V : Type) where
  value : V
  expires : Instant
  deriving DecidableEq

/-- A map whose entries expire. -/
abbrev Cache (K V : Type) := Hash K (Entry V)

variable {K V : Type} [DecidableEq K]

/-- The value of an entry that has not expired; one that has is dropped. -/
def get (now : Instant) (k : K) (cache : Cache K V) : Option V × Cache K V :=
  match AList.lookup k cache with
  | some e => if now < e.expires then (some e.value, cache) else (none, AList.erase k cache)
  | none => (none, cache)

theorem get_fst (now : Instant) (k : K) (cache : Cache K V) :
    (get now k cache).1 =
      (AList.lookup k cache).bind fun e => if now < e.expires then some e.value else none := by
  unfold get
  cases AList.lookup k cache with
  | none => rfl
  | some e => by_cases fresh : now < e.expires <;> simp [fresh]

/-- What a lookup drops is of no use to a later one. -/
theorem get_after_get {now later : Instant} (passed : now ≤ later) (k l : K) (cache : Cache K V) :
    (get later l (get now k cache).2).1 = (get later l cache).1 := by
  rw [get_fst, get_fst]
  cases found : AList.lookup k cache with
  | none => simp only [get, found]
  | some e =>
    by_cases fresh : now < e.expires
    · simp only [get, found, if_pos fresh]
    · have expired : ¬ later < e.expires := fun live => fresh (lt_of_le_of_lt passed live)
      simp only [get, found, if_neg fresh, Hash.lookup_del]
      split
      · next same => rw [same, found, Option.bind_some, Option.bind_none, if_neg expired]
      · rfl

/-- The entries that have not expired. -/
def prune (now : Instant) (cache : Cache K V) : Cache K V :=
  Hash.filter (fun _ e => decide (now < e.expires)) cache

/-- Nor is what a scan drops. -/
theorem get_prune {now later : Instant} (passed : now ≤ later) (k : K) (cache : Cache K V) :
    (get later k (prune now cache)).1 = (get later k cache).1 := by
  rw [get_fst, get_fst]
  cases kept : AList.lookup k (prune now cache) with
  | some e => rw [(Hash.lookup_filter.mp kept).1]
  | none =>
    cases found : AList.lookup k cache with
    | none => rfl
    | some e =>
      have expired : ¬ later < e.expires := by
        intro live
        have survives := decide_eq_true (lt_of_le_of_lt passed live)
        have there : AList.lookup k (prune now cache) = some e :=
          Hash.lookup_filter.mpr ⟨found, survives⟩
        rw [kept] at there
        cases there
      rw [Option.bind_none, Option.bind_some, if_neg expired]

theorem get_insert (now : Instant) (k l : K) (e : Entry V) (cache : Cache K V) :
    (get now l (AList.insert k e cache)).1 =
      if l = k then (if now < e.expires then some e.value else none) else (get now l cache).1 := by
  rw [get_fst, get_fst, Hash.lookup_set]
  split
  · rw [Option.bind_some]
  · rfl

/-- Every entry was stored at a moment for which there is a reason, and expires its lifetime
after it. -/
def Backed (stored : K → V → Instant → Prop) (ttl : V → Nat) (cache : Cache K V) : Prop :=
  ∀ k e, AList.lookup k cache = some e →
    ∃ since, stored k e.value since ∧ e.expires = since + ttl e.value

namespace Backed

variable {stored later : K → V → Instant → Prop} {ttl : V → Nat} {cache : Cache K V}

theorem empty : Backed stored ttl (∅ : Cache K V) := by
  intro k e found
  cases found

/-- Reasons may be added. -/
theorem mono (backed : Backed stored ttl cache)
    (more : ∀ k v since, stored k v since → later k v since) : Backed later ttl cache := by
  intro k e found
  obtain ⟨since, reason, expires⟩ := backed k e found
  exact ⟨since, more _ _ _ reason, expires⟩

theorem erase (backed : Backed stored ttl cache) (k : K) :
    Backed stored ttl (AList.erase k cache) := by
  intro l e found
  rw [Hash.lookup_del] at found
  split at found
  · cases found
  · exact backed l e found

theorem get (backed : Backed stored ttl cache) (now : Instant) (k : K) :
    Backed stored ttl (Expiring.get now k cache).2 := by
  unfold Expiring.get
  split
  · split
    · exact backed
    · exact backed.erase k
  · exact backed

theorem prune (backed : Backed stored ttl cache) (now : Instant) :
    Backed stored ttl (Expiring.prune now cache) := by
  intro k e found
  exact backed k e (Hash.lookup_filter.mp found).1

theorem insert (backed : Backed stored ttl cache) {k : K} {v : V} {now expires : Instant}
    (reason : stored k v now) (fits : after now (ttl v) = some expires) :
    Backed stored ttl (AList.insert k ⟨v, expires⟩ cache) := by
  intro l e found
  rw [Hash.lookup_set] at found
  split at found
  · next same =>
    cases found
    exact ⟨now, same ▸ reason, eq_of_after fits⟩
  · exact backed l e found

/-- A hit was stored less than its lifetime ago. -/
theorem of_get (backed : Backed stored ttl cache) {now : Instant} {k : K} {v : V}
    (hit : (Expiring.get now k cache).1 = some v) :
    ∃ since, stored k v since ∧ now < since + ttl v := by
  unfold Expiring.get at hit
  split at hit
  · next e found =>
    split at hit
    · next fresh =>
      cases hit
      obtain ⟨since, reason, expires⟩ := backed k e found
      exact ⟨since, reason, expires ▸ fresh⟩
    · cases hit
  · cases hit

end Backed

end Expiring
