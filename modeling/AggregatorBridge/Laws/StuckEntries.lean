import AggregatorBridge.JsonText
import AggregatorBridge.StreamConsumer

/-!
# Entries that nobody acknowledges

An entry is settled if its reading was handed to billing and the entry acknowledged, or if there was
no reading and it was acknowledged. Both consumers acknowledge what does not decode, and neither
acknowledges what decodes to a text that is no event, so JSON that is no event stays pending for
good. The zone loop leaves an entry without an event as well, and a field that is no text ends a
pass of the redelivery loop for everything that was claimed with it.

The law is about one reply and one pass. It does not say that an entry that can be settled ever is:
the loop may die before it comes to it, and `MAXLEN` may trim it before it is claimed.
-/

namespace AggregatorBridge

open Checked

namespace StreamIngester

variable {F : Type} [Float64 F] (ing : StreamIngester F)

/-- A reading was handed to billing and its entry acknowledged, or there was none and the entry was
acknowledged. -/
def Settles (met : Meeting) : EntryPayload F → Fate → Prop
  | .reading reading, fate => ∃ agg bin,
      met.agg.checkedHandleReading met.now (ing.billing met reading) = .ok (agg, bin) ∧
        fate = .billed agg
  | _, fate => fate = .acknowledged

/-- The entry, in a reply to the zone loop. -/
def SettledInReply (before : List (RawEntry × Meeting)) (entry : RawEntry) (met : Meeting)
    (later : List (RawEntry × Meeting)) : Prop :=
  ∃ fate, (ing.processReply (before ++ (entry, met) :: later))[before.length]? = some fate ∧
    ing.Settles met (ing.payloadOf entry) fate

/-- The entry, in a pass of the redelivery loop. -/
def SettledInPass (before : List (RawEntry × Meeting)) (entry : RawEntry) (met : Meeting)
    (later : List (RawEntry × Meeting)) : Prop :=
  ∃ fate, (ing.reclaimClaimed (before ++ (entry, met) :: later))[before.length]? = some fate ∧
    ing.Settles met (ing.payloadOf entry) fate

/-- Billing can take the reading, if it is one. -/
def Bills (met : Meeting) (entry : RawEntry) : Prop :=
  ∀ reading, ing.payloadOf entry = .reading reading → met.agg.Takes (ing.billing met reading)

variable {ing} {met : Meeting} {entry : RawEntry} {before later : List (RawEntry × Meeting)}

theorem settles_handleIotReading {reading : DeviceReading F} :
    ing.Settles met (.reading reading) (ing.handleIotReading met reading) ↔
      met.agg.Takes (ing.billing met reading) := by
  rw [← @Aggregator.returns_iff_takes _ met.now, handleIotReading]
  cases handled : met.agg.checkedHandleReading met.now (ing.billing met reading) with
  | ok result => exact iff_of_true ⟨result.1, result.2, handled, rfl⟩ (returns_ok _)
  | error e => exact e.elim
  | panic =>
    refine iff_of_false ?_ not_returns_panic
    rintro ⟨agg, bin, taken, -⟩
    rw [handled] at taken
    cases taken

theorem settles_spawned (p : EntryPayload F) :
    ing.Settles met p (ing.carryOut met p p.spawned) ↔ p ≠ .noEvent ∧ p ≠ .unparsable ∧
      ∀ reading, p = .reading reading → met.agg.Takes (ing.billing met reading) := by
  cases p with
  | reading reading => simpa [carryOut, EntryPayload.spawned] using settles_handleIotReading
  | _ => simp [Settles, carryOut, EntryPayload.spawned]

theorem settles_reclaimed (p : EntryPayload F) :
    ing.Settles met p (ing.carryOut met p p.reclaimed) ↔ p ≠ .unparsable ∧
      ∀ reading, p = .reading reading → met.agg.Takes (ing.billing met reading) := by
  cases p with
  | reading reading => simpa [carryOut, EntryPayload.reclaimed] using settles_handleIotReading
  | _ => simp [Settles, carryOut, EntryPayload.reclaimed]

theorem not_settles_left (p : EntryPayload F) : ¬ ing.Settles met p .left := by
  cases p with
  | reading reading =>
    rintro ⟨agg, bin, -, other⟩
    cases other
  | _ => exact nofun

theorem not_settles_panicked (p : EntryPayload F) : ¬ ing.Settles met p .panicked := by
  cases p with
  | reading reading =>
    rintro ⟨agg, bin, -, other⟩
    cases other
  | _ => exact nofun

/-! ## The zone loop -/

/-- The names of a whole reply are texts, or none of its entries is processed. -/
theorem processReply_eq (reply : List (RawEntry × Meeting)) :
    ing.processReply reply = if ∀ e ∈ reply, e.1.named.isSome = true then
      reply.map fun e => ing.processEntry e.2 (e.1.named.getD [])
    else reply.map fun _ => .left := by
  have converts : (reply.mapM fun e => e.1.named.map (·, e.2)) =
      if ∀ e ∈ reply, e.1.named.isSome = true then
        some (reply.map fun e => (e.1.named.getD [], e.2)) else none := by
    induction reply with
    | nil => rfl
    | cons e reply ih =>
      rw [List.mapM_cons, ih]
      cases named : e.1.named with
      | none => simp [named]
      | some fields =>
        simp only [List.forall_mem_cons, named, Option.isSome_some, true_and]
        split <;> simp [named]
  rw [processReply, converts]
  by_cases all : ∀ e ∈ reply, e.1.named.isSome = true
  · rw [if_pos all, if_pos all]
    simp only [List.map_map, Function.comp_def]
  · rw [if_neg all, if_neg all]

/-- The zone loop comes to an entry if every field of its reply has a name, and settles it unless it
has no event or one that cannot be parsed, or its billing panics. -/
theorem settledInReply_iff :
    ing.SettledInReply before entry met later ↔
      (∀ e ∈ before ++ (entry, met) :: later, e.1.named.isSome = true) ∧
        ing.payloadOf entry ≠ .noEvent ∧ ing.payloadOf entry ≠ .unparsable ∧
        ing.Bills met entry := by
  unfold SettledInReply
  rw [processReply_eq]
  split
  · next named =>
    obtain ⟨fields, converted⟩ := Option.isSome_iff_exists.mp (named (entry, met) (by simp))
    have fate : ing.processEntry met (entry.named.getD []) =
        ing.carryOut met (ing.payloadOf entry) (ing.payloadOf entry).spawned := by
      rw [show entry.named = some fields from converted, Option.getD_some]
      exact processEntry_eq converted
    simp only [List.getElem?_map, List.getElem?_append_right le_rfl, Nat.sub_self,
      List.getElem?_cons_zero, Option.map_some, Option.some.injEq, exists_eq_left', fate]
    rw [settles_spawned]
    exact (and_iff_right named).symm
  · next unnamed =>
    refine iff_of_false ?_ fun settled => unnamed settled.1
    rintro ⟨fate, found, settles⟩
    simp only [List.getElem?_map, List.getElem?_append_right le_rfl, Nat.sub_self,
      List.getElem?_cons_zero, Option.map_some, Option.some.injEq] at found
    exact not_settles_left _ (found ▸ settles)

/-! ## The redelivery loop -/

variable (ing) in
/-- The pass goes on after the entry. -/
def GoesOn (e : RawEntry × Meeting) : Prop :=
  e.1.texts.isSome = true ∧ ing.Bills e.2 e.1

theorem handleIotReading_eq_panicked {reading : DeviceReading F} :
    ing.handleIotReading met reading = .panicked ↔
      ¬ met.agg.Takes (ing.billing met reading) := by
  rw [← @Aggregator.returns_iff_takes _ met.now, handleIotReading]
  cases met.agg.checkedHandleReading met.now (ing.billing met reading) with
  | ok result => simp
  | error e => exact e.elim
  | panic => simp

theorem reclaimEntry_eq_panicked {fields : List (String × String)}
    (converted : entry.texts = some fields) :
    ing.reclaimEntry met fields = .panicked ↔ ¬ ing.Bills met entry := by
  rw [reclaimEntry_eq converted, Bills]
  cases ing.payloadOf entry with
  | reading reading => simpa [carryOut, EntryPayload.reclaimed] using handleIotReading_eq_panicked
  | _ => simp [carryOut, EntryPayload.reclaimed]

theorem reclaimClaimed_of_goesOn (goes : ing.GoesOn (entry, met))
    (rest : List (RawEntry × Meeting)) :
    ∃ fate, ing.reclaimClaimed ((entry, met) :: rest) = fate :: ing.reclaimClaimed rest ∧
      (ing.Settles met (ing.payloadOf entry) fate ↔ ing.payloadOf entry ≠ .unparsable) := by
  obtain ⟨fields, converted⟩ := Option.isSome_iff_exists.mp goes.1
  have calm : ing.reclaimEntry met fields ≠ .panicked :=
    fun panics => (reclaimEntry_eq_panicked converted).mp panics goes.2
  refine ⟨ing.reclaimEntry met fields, ?_, ?_⟩
  · rw [reclaimClaimed, show entry.texts = some fields from converted]
    cases fate : ing.reclaimEntry met fields with
    | panicked => exact absurd fate calm
    | _ => simp only [fate]
  · rw [reclaimEntry_eq converted, settles_reclaimed]
    exact and_iff_left goes.2

/-- The pass ends with the entry, which stays pending, and so do those after it. -/
theorem reclaimClaimed_of_stops (stops : ¬ ing.GoesOn (entry, met))
    (rest : List (RawEntry × Meeting)) :
    ∃ fate, ing.reclaimClaimed ((entry, met) :: rest) = fate :: rest.map (fun _ => .left) ∧
      (fate = .left ∨ fate = .panicked) := by
  rw [reclaimClaimed]
  cases converted : entry.texts with
  | none => exact ⟨_, rfl, .inl rfl⟩
  | some fields =>
    have panics : ing.reclaimEntry met fields = .panicked := by
      refine (reclaimEntry_eq_panicked converted).mpr fun bills => stops ⟨?_, bills⟩
      rw [converted]
      rfl
    simp only [panics]
    exact ⟨_, rfl, .inr rfl⟩

/-- A pass comes to an entry if nothing before it ends the pass. -/
theorem settledInPass_iff :
    ing.SettledInPass before entry met later ↔
      (∀ e ∈ before, ing.GoesOn e) ∧ ing.GoesOn (entry, met) ∧
        ing.payloadOf entry ≠ .unparsable := by
  unfold SettledInPass
  induction before with
  | nil =>
    by_cases goes : ing.GoesOn (entry, met)
    · obtain ⟨fate, passed, settles⟩ := reclaimClaimed_of_goesOn goes later
      simp [passed, settles, goes]
    · obtain ⟨fate, passed, stays⟩ := reclaimClaimed_of_stops goes later
      refine iff_of_false ?_ fun settled => goes settled.2.1
      rintro ⟨other, found, settles⟩
      simp only [List.nil_append, passed, List.length_nil, List.getElem?_cons_zero,
        Option.some.injEq] at found
      subst found
      rcases stays with rfl | rfl
      · exact not_settles_left _ settles
      · exact not_settles_panicked _ settles
  | cons e before ih =>
    obtain ⟨first, found⟩ := e
    by_cases goes : ing.GoesOn (first, found)
    · obtain ⟨fate, passed, -⟩ :=
        reclaimClaimed_of_goesOn goes (before ++ (entry, met) :: later)
      simp only [List.cons_append, passed, List.length_cons, List.getElem?_cons_succ, ih,
        List.forall_mem_cons, goes, true_and]
    · obtain ⟨fate, passed, -⟩ :=
        reclaimClaimed_of_stops goes (before ++ (entry, met) :: later)
      refine iff_of_false ?_ fun settled => goes (settled.1 _ List.mem_cons_self)
      rintro ⟨other, here, settles⟩
      simp only [List.cons_append, passed, List.length_cons, List.getElem?_cons_succ,
        List.getElem?_map, List.getElem?_append_right le_rfl, Nat.sub_self,
        List.getElem?_cons_zero, Option.map_some, Option.some.injEq] at here
      exact not_settles_left _ (here ▸ settles)

/-- Exactly when an entry is settled, by the loop that reads it and by the loop that claims it. Each
side says for an entry, at any place among any others, what its names, its texts and its billing
have to be like. -/
theorem entry_settled_iff (ing : StreamIngester F) (before later : List (RawEntry × Meeting))
    (entry : RawEntry) (met : Meeting) :
    (ing.SettledInReply before entry met later ↔
      (∀ e ∈ before ++ (entry, met) :: later, e.1.named.isSome = true) ∧
        ing.payloadOf entry ≠ .noEvent ∧ ing.payloadOf entry ≠ .unparsable ∧
        ing.Bills met entry) ∧
    (ing.SettledInPass before entry met later ↔
      (∀ e ∈ before, ing.GoesOn e) ∧ ing.GoesOn (entry, met) ∧
        ing.payloadOf entry ≠ .unparsable) :=
  ⟨settledInReply_iff, settledInPass_iff⟩

end StreamIngester

/-! ## An object without members -/

def wholeCodec : DecimalCodec WholeDouble where
  fromF64Retain x := x.map fun n => (n : ℚ)
  abs x := x.map fun n => (n.natAbs : Int)
  isPositive x := x.any fun n => decide (0 < n)

/-- Streams in the clear. -/
noncomputable def clearIngester : StreamIngester WholeDouble where
  json := compactJson
  crypto := idleCrypto
  streamCipher := none
  codec := wholeCodec
  newV5 _ := 1

/-- `XADD … event {}`. -/
def emptyObject : RawEntry :=
  [(Text.utf8 "event", Text.utf8 "\x7b\x7d")]

theorem fromStr_empty : compactJson.fromStr "\x7b\x7d" = some (.obj []) :=
  compactJson_roundTrips.texts (.obj []) rfl

theorem payloadOf_emptyObject : clearIngester.payloadOf emptyObject = .unparsable := by
  have named : emptyObject.named = some [("event", Text.utf8 "\x7b\x7d")] := by
    simp [RawEntry.named, emptyObject, Text.ofUtf8_utf8]
  have decoded : decodeEntry clearIngester.json clearIngester.crypto clearIngester.streamCipher
      "\x7b\x7d" = some "\x7b\x7d" := by
    simp [decodeEntry, clearIngester, fromStr_empty, Json.value, Json.valueMembers, Json.lastWins,
      Json.get]
  have parsed : StreamEvent.fromStr clearIngester.json "\x7b\x7d" = none := by
    simp [StreamEvent.fromStr, clearIngester, fromStr_empty, StreamEvent.fromJson, Json.single]
  rw [StreamIngester.payloadOf, named, Option.bind_some]
  simp only [lastOf, StreamIngester.payload, Option.none_or, if_true, Text.ofUtf8_utf8,
    Option.bind_some, decoded, StreamIngester.textPayload, parsed]

/-- It decodes, and it is no event: neither loop acknowledges it. -/
theorem empty_object_stays_pending :
    ¬ ∀ (entry : RawEntry) (met : Meeting), clearIngester.SettledInReply [] entry met [] ∨
      clearIngester.SettledInPass [] entry met [] := by
  intro settled
  rcases settled emptyObject ⟨.new, .ofSecs 0, 7⟩ with read | claimed
  · exact (StreamIngester.settledInReply_iff.mp read).2.2.1 payloadOf_emptyObject
  · exact (StreamIngester.settledInPass_iff.mp claimed).2.2 payloadOf_emptyObject

end AggregatorBridge
