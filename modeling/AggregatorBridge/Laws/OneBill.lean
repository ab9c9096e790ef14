import AggregatorBridge.Laws.EnergyBalance
import AggregatorBridge.Laws.SettlementRuns
import AggregatorBridge.PgReadings
import AggregatorBridge.UuidText

/-!
# One bill for one meter

Ownership and the rows of a meter go by its canonical serial. Billing does not: the meter id is a
hash of the serial as it was sent, the bin is filed under that id, and the outbox field and the
idempotency key are made of the serial in the bin. So two spellings of one serial have one bill
exactly if they have one hash (`oneBill_iff`), which two different texts do not have but by
accident.

The law does not say which spelling is the right one, and nothing here says that a meter does not
send both.
-/

namespace AggregatorBridge

variable {F : Type} [Float64 F]

/-- A reading on its way to billing, with the time it comes in and the user it was resolved to. -/
structure Arrival (F : Type) where
  now : DateTime
  userId : Uuid
  reading : DeviceReading F

namespace Arrival

variable (codec : DecimalCodec F) (newV5 : String → Uuid)

/-- The reading as the biller gets it, with the identifier of the meter made from its serial. -/
def billing (a : Arrival F) : BillingReading :=
  .ofDevice codec newV5 a.userId a.reading

/-- The aggregator after some readings. -/
def billed (arrivals : List (Arrival F)) : Aggregator :=
  Aggregator.new.after (arrivals.map fun a => .reading a.now (a.billing codec newV5))

/-- What a reading adds to the net of its bin. -/
def net (a : Arrival F) : ℚ :=
  (billedEnergies codec a.reading.metrics).1 - (billedEnergies codec a.reading.metrics).2

/-- The reading is of one of two serials and of a window. -/
def Of (s s' : String) (window : DateTime) (a : Arrival F) : Prop :=
  (a.reading.serialNumber = s ∨ a.reading.serialNumber = s') ∧
    windowStart a.reading.timestamp = window

instance (s s' : String) (window : DateTime) (a : Arrival F) : Decidable (a.Of s s' window) :=
  inferInstanceAs (Decidable (_ ∧ _))

end Arrival

open Arrival

/-- The readings of two serials in a window are all in one bin, whose net is the net over all of
them, and whatever is minted for the bin is minted under one key. Other readings may come in
between, as long as they have bins of their own. -/
def OneBill (codec : DecimalCodec F) (newV5 : String → Uuid) (s s' : String) : Prop :=
  ∀ (arrivals : List (Arrival F)) (window : DateTime),
    (∀ a ∈ arrivals, a.Of s s' window ∨ a.reading.binKey newV5 ≠ (newV5 s, window) ∧
      a.reading.binKey newV5 ≠ (newV5 s', window)) →
    (∃ a ∈ arrivals, a.Of s s' window) →
    ∃ bin key,
      (∀ a ∈ arrivals, a.Of s s' window →
        (billed codec newV5 arrivals).activeBins.lookup (a.reading.binKey newV5) = some bin) ∧
      bin.net = ((arrivals.filter fun a => a.Of s s' window).map (Arrival.net codec)).sum ∧
      ∀ known nowMs p, (planned bin known nowMs).pending? = some p →
        mintIdempotencyKey p = key ∧ p.energyKwh = bin.net

namespace Aggregator

/-- Without a sweep nothing is late: a key holds the bin of all its readings. -/
theorem lookup_after_readings (arrivals : List (DateTime × BillingReading)) (key : BinKey) :
    (new.after (arrivals.map fun a => .reading a.1 a.2)).activeBins.lookup key =
      (Parts.mk none ((arrivals.map Prod.snd).filter fun r => r.key = key)).bin ∧
    (new.after (arrivals.map fun a => .reading a.1 a.2)).settled = ∅ := by
  induction arrivals using List.reverseRecOn generalizing key with
  | nil => exact ⟨rfl, rfl⟩
  | append_singleton before last ih =>
    obtain ⟨now, r⟩ := last
    have split : new.after ((before ++ [(now, r)]).map fun a => .reading a.1 a.2) =
        ((new.after (before.map fun a => .reading a.1 a.2)).handleReading now r).1 := by
      rw [List.map_append, after, List.foldl_append]
      rfl
    rw [split]
    generalize new.after (before.map fun a => .reading a.1 a.2) = agg at ih
    have open_ : ¬ agg.IsSettled r.key := by
      unfold IsSettled
      rw [(ih key).2]
      exact List.not_mem_nil
    refine ⟨?_, by rw [handleReading_settled, (ih key).2]⟩
    rw [lookup_handleReading_accepted open_, List.map_append, List.filter_append]
    by_cases here : key = r.key
    · subst here
      have added := Parts.bin_add ⟨none, (before.map Prod.snd).filter fun x => x.key = r.key⟩ r
      rw [if_pos rfl, nextBin, (ih r.key).1, ← added]
      simp [Parts.add]
    · rw [if_neg here, (ih key).1]
      simp [Ne.symm here]

end Aggregator

section Spellings

variable (codec : DecimalCodec F) (newV5 : String → Uuid) {s s' : String}

theorem keyed_billed (arrivals : List (Arrival F)) : (billed codec newV5 arrivals).Keyed :=
  (Aggregator.Keyed.restoreBins []).after _

theorem lookup_billed (arrivals : List (Arrival F)) (key : BinKey) :
    (billed codec newV5 arrivals).activeBins.lookup key =
      (Parts.mk none ((arrivals.filter fun a => a.reading.binKey newV5 = key).map
        (Arrival.billing codec newV5))).bin := by
  have found := (Aggregator.lookup_after_readings
    (arrivals.map fun a => (a.now, a.billing codec newV5)) key).1
  rw [List.map_map, List.map_map, List.filter_map] at found
  exact found

variable {codec newV5} in
/-- With one hash there is one bin for both serials. -/
theorem oneBill_of_hash (hash : newV5 s = newV5 s') : OneBill codec newV5 s s' := by
  intro arrivals window apart ⟨first, firstMem, firstOf⟩
  have keyOf (a : Arrival F) (mine : a.Of s s' window) :
      a.reading.binKey newV5 = (newV5 s, window) := by
    obtain ⟨serial, rfl⟩ := mine
    unfold DeviceReading.binKey
    rcases serial with eq | eq
    · rw [eq]
    · rw [eq, hash]
  have mine : (arrivals.filter fun a => a.reading.binKey newV5 = (newV5 s, window)) =
      arrivals.filter fun a => a.Of s s' window := by
    apply List.filter_congr
    intro a mem
    rw [decide_eq_decide]
    refine ⟨fun key => ?_, keyOf a⟩
    rcases apart a mem with mine | ⟨other, _⟩
    · exact mine
    · exact absurd key other
  have found := lookup_billed codec newV5 arrivals (newV5 s, window)
  have adds (bin : BillingBin) (r : BillingReading) :
      (Aggregator.accumulate bin r).net = bin.net + (r.generated - r.consumed) := by
    simp only [BillingBin.net, Aggregator.accumulate_generated, Aggregator.accumulate_consumed]
    abel
  have sums := Parts.measure (fun _ => sub_self _) adds
    ⟨none, (arrivals.filter fun a => a.reading.binKey newV5 = (newV5 s, window)).map
      (Arrival.billing codec newV5)⟩
  rw [← found] at sums
  cases bin : (billed codec newV5 arrivals).activeBins.lookup (newV5 s, window) with
  | none =>
    rw [bin, mine] at found
    have listed : first ∈ arrivals.filter fun a => a.Of s s' window :=
      List.mem_filter.mpr ⟨firstMem, decide_eq_true firstOf⟩
    cases rest : arrivals.filter fun a => a.Of s s' window with
    | nil =>
      rw [rest] at listed
      cases listed
    | cons a more =>
      rw [rest] at found
      cases found
  | some bin' =>
    refine ⟨bin', "mint:" ++ bin'.mintField, ?_, ?_, ?_⟩
    · intro a _ of
      rw [keyOf a of, bin]
    · rw [bin, mine, List.map_map] at sums
      simp only [Option.toList_some, Option.toList_none, List.map_cons, List.map_nil, List.sum_cons,
        List.sum_nil, add_zero, zero_add] at sums
      exact sums
    · intro known nowMs p pending
      have fits := matches_planned pending
      rw [← fits.field]
      exact ⟨rfl, fits.energy⟩

/-- Two readings of a window at the epoch, one of each serial. -/
def oneOfEach (s s' : String) : List (Arrival F) :=
  [s, s'].map fun serial => ⟨.ofSecs 0, 0, ⟨0, serial, .smartMeter, serial, none, .ofSecs 0,
    .energy (Float64.ofInt 0) (Float64.ofInt 0) (Float64.ofInt 0), []⟩⟩

/-- Two spellings have one bill exactly if their meter ids are one. The hash is the name-based UUID
of the serial as it was sent, so in practice only equal texts have one. -/
theorem oneBill_iff (s s' : String) :
    OneBill codec newV5 s s' ↔ newV5 s = newV5 s' := by
  constructor
  · intro one
    have epoch : windowStart (.ofSecs 0) = .ofSecs 0 := by decide
    have all : ∀ a ∈ oneOfEach (F := F) s s', a.Of s s' (.ofSecs 0) := by
      intro a mem
      obtain ⟨serial, listed, rfl⟩ := List.mem_map.mp mem
      refine ⟨?_, epoch⟩
      rcases List.mem_cons.mp listed with eq | eq
      · exact .inl eq
      · exact .inr (List.mem_singleton.mp eq)
    obtain ⟨bin, _, inBin, _⟩ := one (oneOfEach s s') (.ofSecs 0)
      (fun a mem => .inl (all a mem)) ⟨_, List.mem_cons_self, all _ List.mem_cons_self⟩
    have keyed := keyed_billed codec newV5 (oneOfEach s s')
    have first := keyed _ _ (inBin _ List.mem_cons_self (all _ List.mem_cons_self))
    have second := keyed _ _ (inBin _ (List.mem_cons_of_mem _ List.mem_cons_self)
      (all _ (List.mem_cons_of_mem _ List.mem_cons_self)))
    exact (Prod.mk.inj (first.symm.trans second)).1
  · exact oneBill_of_hash

end Spellings

/-- `Uuid::new_v5` on the serial `MTR-1`, and on the same serial behind a space. -/
def serialHash (serial : String) : Uuid :=
  if serial = "MTR-1" then 0xf9f81f06fcc855deafeaa10e51078ea2
  else 0x7d68914b74325ddda134c2891a1f12ba

/-- A meter that sends its serial with a space before it has two bills. -/
theorem spaced_serial_has_two_bills :
    canonicalizeSerial rustUuid " MTR-1" = canonicalizeSerial rustUuid "MTR-1" ∧
      ¬ OneBill exactCodec serialHash " MTR-1" "MTR-1" := by
  refine ⟨by decide +kernel, ?_⟩
  rw [oneBill_iff]
  decide

end AggregatorBridge
