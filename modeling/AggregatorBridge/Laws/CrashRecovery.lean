import AggregatorBridge.BinStore

/-!
# What a crash leaves

The lock makes the updates a sequence, and the channel and its one writer keep to it: what is
written is a subsequence of what was updated, and what is still on its way comes behind it
(`Recoverable.order`). So the field of a window holds the bin of the last update of that window
which was written, and nothing older can come after it.

A field is a text. That it stands for one window rests on the hyphenated form of a UUID, on the
colon, which no integer has, and on windows that start at whole seconds (`binFieldText_inj`).

`latest written key` is that last update, and what a start restores under `key` is the bin that
the aggregator held after it. An entry that does not parse is its window's alone.

The law says nothing of an update that was not written when the process died: its reading is lost to
billing unless its stream entry is delivered again.
-/

namespace AggregatorBridge

open Transition Remote Text

/-! ## One field for each window -/

/-- A group of digits and what comes behind its hyphen. -/
theorem group_inj {len n m : Nat} {rest rest' : List Char}
    (same : hexDigits len n ++ '-' :: rest = hexDigits len m ++ '-' :: rest') :
    n % 16 ^ len = m % 16 ^ len ∧ rest = rest' := by
  have lengths : (hexDigits len n).length = (hexDigits len m).length := by
    rw [length_hexDigits, length_hexDigits]
  obtain ⟨digits, behind⟩ := List.append_inj same lengths
  exact ⟨hexDigits_inj digits, (List.cons.inj behind).2⟩

theorem hyphenated_inj {u v : Uuid} (same : hyphenated u = hyphenated v) : u = v := by
  have lists := congrArg String.toList same
  simp only [hyphenated, String.toList_ofList] at lists
  obtain ⟨a, lists⟩ := group_inj lists
  obtain ⟨b, lists⟩ := group_inj lists
  obtain ⟨c, lists⟩ := group_inj lists
  obtain ⟨d, lists⟩ := group_inj lists
  have e := hexDigits_inj lists
  have small := u.isLt
  have small' := v.isLt
  refine BitVec.eq_of_toNat_eq ?_
  norm_num at a b c d e small small'
  omega

/-- The text of a field determines its window. -/
theorem binFieldText_inj {k k' : BinKey} (whole : WholeKey k) (whole' : WholeKey k')
    (same : binFieldText k = binFieldText k') : k = k' := by
  obtain ⟨meters, windows⟩ := Text.joined_inj same
  exact binField_inj whole whole' (Prod.ext (hyphenated_inj meters) windows)

example : binFieldText (0x12345678#128, DateTime.ofSecs 1767261600) =
    "00000000-0000-0000-0000-000012345678:1767261600000" := by
  decide +kernel

/-- The bin is the one that the aggregator held after the update. -/
structure SentBin.Snapshot (sent : SentBin) : Prop where
  key : sent.bin.key = sent.update.key
  held : sent.update.after.activeBins.lookup sent.update.key = some sent.bin

namespace DurableBins

variable {codec : BinCodec} {s t : DurableBins}

/-! ## The last update of a window -/

/-- The last write to a bin, in the order in which the writes were made. -/
def latest (updates : List BinUpdate) (key : BinKey) : Option BinUpdate :=
  (updates.filter fun u => u.key = key).getLast?

theorem latest_append (updates : List BinUpdate) (u : BinUpdate) (key : BinKey) :
    latest (updates ++ [u]) key = if u.key = key then some u else latest updates key := by
  unfold latest
  rw [List.filter_append]
  by_cases here : u.key = key
  · simp [here]
  · simp [here]

theorem mem_of_latest {updates : List BinUpdate} {u : BinUpdate} {key : BinKey}
    (found : latest updates key = some u) : u ∈ updates ∧ u.key = key := by
  have mem := List.mem_filter.mp (List.mem_of_getLast? found)
  exact ⟨mem.1, of_decide_eq_true mem.2⟩

/-! ## The invariant -/

/-- What the task in the locked section has to send. -/
def toSend : Option LockedSection → List SentBin
  | some (.updated sent) => sent.toList
  | _ => []

/-- The bins on their way to the hash, in their order. -/
def pending (s : DurableBins) : List SentBin :=
  s.writing.toList ++ s.channel ++ toSend s.lock

/-- The entry of the window does not parse. -/
def Spoiled (codec : BinCodec) (bins : Hash String String) (key : BinKey) : Prop :=
  ∃ text, AList.lookup (binFieldText key) bins = some text ∧ codec.parse text = none

/-- What the field of a window holds. -/
inductive Holds (codec : BinCodec) (bins : Hash String String) (written : List BinUpdate)
    (key : BinKey) : Prop
  | nothing (absent : AList.lookup (binFieldText key) bins = none)
      (unwritten : latest written key = none)
  | junk (spoiled : Spoiled codec bins key)
  | bin {u : BinUpdate} {bin : BillingBin} {text : String}
      (last : latest written key = some u) (held : u.after.activeBins.lookup key = some bin)
      (there : AList.lookup (binFieldText key) bins = some text)
      (parsed : codec.parse text = some bin)

/-- Every entry that parses is a bin in its own field. -/
def Filed (codec : BinCodec) (bins : Hash String String) : Prop :=
  ∀ field text bin, AList.lookup field bins = some text → codec.parse text = some bin →
    field = binFieldText bin.key ∧ WholeKey bin.key

/-- What holds of every state between two crashes. `order` is the heart of it: writes reach the
store in the order in which the bins changed, however many of them are never sent. -/
structure Recoverable (codec : BinCodec) (s : DurableBins) : Prop where
  keyed : s.agg.Keyed
  order : (s.written ++ s.pending.map SentBin.update).Sublist s.updates
  whole : ∀ u ∈ s.updates, WholeKey u.key
  snapshots : ∀ sent ∈ s.pending, sent.Snapshot
  binned : ∀ u ∈ s.written, ∃ bin, u.after.activeBins.lookup u.key = some bin
  filed : Filed codec s.bins
  durable : ∀ key, WholeKey key → Holds codec s.bins s.written key

theorem recoverable_start : Recoverable codec start where
  keyed := fun _ _ found => nomatch found
  order := List.Sublist.refl _
  whole := fun _ mem => absurd mem List.not_mem_nil
  snapshots := fun _ mem => absurd mem List.not_mem_nil
  binned := fun _ mem => absurd mem List.not_mem_nil
  filed := fun _ _ _ found => nomatch found
  durable := fun _ _ => .nothing rfl rfl

/-! ## The moves -/

/-- Nothing that is kept outside of memory has changed, and nothing is on its way that was
not. -/
theorem Recoverable.of_pending (recoverable : Recoverable codec s) (keyed : t.agg.Keyed)
    (pending : t.pending.Sublist s.pending) (updates : t.updates = s.updates)
    (written : t.written = s.written) (bins : t.bins = s.bins) : Recoverable codec t where
  keyed := keyed
  order := by
    rw [updates, written]
    exact ((List.Sublist.refl _).append (pending.map _)).trans recoverable.order
  whole := updates ▸ recoverable.whole
  snapshots := fun sent mem => recoverable.snapshots sent (pending.subset mem)
  binned := written ▸ recoverable.binned
  filed := bins ▸ recoverable.filed
  durable := by
    rw [bins, written]
    exact recoverable.durable

theorem keyed_insert {agg agg' : Aggregator} {key : BinKey} {bin : BillingBin}
    (keyed : agg.Keyed) (own : bin.key = key)
    (stored : agg'.activeBins = agg.activeBins.insert key bin) : agg'.Keyed := by
  intro k b found
  rw [stored, Hash.lookup_set] at found
  split at found
  · next here =>
    cases found
    rw [own, here]
  · exact keyed k b found

/-- An update, and the bin that the task is about to send, if there is one. -/
theorem Recoverable.updated (recoverable : Recoverable codec s) (bin : Option BillingBin)
    {agg : Aggregator} {key : BinKey} {lock : Option LockedSection} (keyed : agg.Keyed)
    (whole : WholeKey key) (silent : toSend s.lock = [])
    (own : ∀ b ∈ bin, b.key = key ∧ agg.activeBins.lookup key = some b)
    (next : toSend lock = (bin.map fun b => ⟨⟨key, agg⟩, b⟩).toList) :
    Recoverable codec
      { s with agg := agg, updates := s.updates ++ [⟨key, agg⟩], lock := lock } := by
  have before : s.pending = s.writing.toList ++ s.channel := by
    rw [pending, silent, List.append_nil]
  have after : ∀ sent ∈ toSend lock, sent.update = ⟨key, agg⟩ ∧ sent.Snapshot := by
    rw [next]
    cases bin with
    | none => exact fun _ mem => absurd mem List.not_mem_nil
    | some b =>
      intro sent mem
      cases List.mem_singleton.mp mem
      obtain ⟨same, held⟩ := own b rfl
      exact ⟨rfl, same, held⟩
  have last : ((toSend lock).map SentBin.update).Sublist [⟨key, agg⟩] := by
    rw [next]
    cases bin with
    | none => exact List.nil_sublist _
    | some b => exact List.Sublist.refl _
  refine ⟨keyed, ?_, ?_, ?_, recoverable.binned, recoverable.filed, recoverable.durable⟩
  · have order := recoverable.order
    rw [before] at order
    rw [pending, List.map_append, ← List.append_assoc]
    exact order.append last
  · intro u mem
    obtain old | new := List.mem_append.mp mem
    · exact recoverable.whole u old
    · cases List.mem_singleton.mp new
      exact whole
  · intro sent mem
    obtain old | new := List.mem_append.mp mem
    · exact recoverable.snapshots sent (before ▸ old)
    · exact (after sent new).2

/-- The entry of the window and its last update are what they were. -/
theorem Holds.of_same {bins bins' : Hash String String} {written written' : List BinUpdate}
    {key : BinKey}
    (entry : AList.lookup (binFieldText key) bins' = AList.lookup (binFieldText key) bins)
    (update : latest written' key = latest written key) (holds : Holds codec bins written key) :
    Holds codec bins' written' key := by
  cases holds with
  | nothing absent unwritten => exact .nothing (entry.trans absent) (update.trans unwritten)
  | junk spoiled =>
    obtain ⟨junk, there, unparsable⟩ := spoiled
    exact .junk ⟨junk, entry.trans there, unparsable⟩
  | bin last held there parsed => exact .bin (update.trans last) held (entry.trans there) parsed

theorem Recoverable.wrote (recoverable : Recoverable codec s) {sent : SentBin}
    (busy : s.writing = some sent)
    (roundTrip : codec.parse (codec.json sent.bin) = some sent.bin) :
    Recoverable codec { s with
      bins := BinStore.write codec s.bins sent.bin
      written := s.written ++ [sent.update]
      writing := none } := by
  have first : s.pending = sent :: (s.channel ++ toSend s.lock) := by
    rw [pending, busy]
    rfl
  have snapshot := recoverable.snapshots sent (first ▸ List.mem_cons_self)
  have order := recoverable.order
  rw [first, List.map_cons, ← List.singleton_append, ← List.append_assoc] at order
  have whole : WholeKey sent.update.key := by
    refine recoverable.whole _ (order.subset ?_)
    exact List.mem_append_left _ (List.mem_append_right _ List.mem_cons_self)
  refine ⟨recoverable.keyed, order, recoverable.whole, ?_, ?_, ?_, ?_⟩
  · exact fun later mem => recoverable.snapshots later (first ▸ List.mem_cons_of_mem _ mem)
  · intro u mem
    obtain old | new := List.mem_append.mp mem
    · exact recoverable.binned u old
    · cases List.mem_singleton.mp new
      exact ⟨sent.bin, snapshot.held⟩
  · intro field text bin there parsed
    simp only [BinStore.write, Hash.lookup_set] at there
    split at there
    · next here =>
      cases there
      rw [roundTrip] at parsed
      cases parsed
      exact ⟨here, snapshot.key ▸ whole⟩
    · exact recoverable.filed field text bin there parsed
  · intro key wholeKey
    by_cases here : sent.update.key = key
    · subst here
      refine .bin (u := sent.update) ?_ snapshot.held ?_ roundTrip
      · rw [latest_append, if_pos rfl]
      · rw [BinStore.write, snapshot.key, AList.lookup_insert]
    · have other : binFieldText key ≠ binFieldText sent.bin.key := by
        rw [snapshot.key]
        exact fun same => here (binFieldText_inj whole wholeKey same.symm)
      refine (recoverable.durable key wholeKey).of_same (AList.lookup_insert_ne other) ?_
      rw [latest_append, if_neg here]

theorem Recoverable.spoiled (recoverable : Recoverable codec s) {field text : String}
    (unparsable : codec.parse text = none) :
    Recoverable codec { s with bins := AList.insert field text s.bins } := by
  refine ⟨recoverable.keyed, recoverable.order, recoverable.whole, recoverable.snapshots,
    recoverable.binned, ?_, ?_⟩
  · intro f entry bin there parsed
    rw [Hash.lookup_set] at there
    split at there
    · cases there
      rw [unparsable] at parsed
      cases parsed
    · exact recoverable.filed f entry bin there parsed
  · intro key whole
    by_cases here : binFieldText key = field
    · refine .junk ⟨text, ?_, unparsable⟩
      rw [here, AList.lookup_insert]
    · exact (recoverable.durable key whole).of_same (AList.lookup_insert_ne here) rfl

/-- One step of anybody, a crash among them, keeps the writes in the order of the updates. -/
theorem Recoverable.step {e : BinEvent} (recoverable : Recoverable codec s)
    (roundTrips : s.RoundTrips codec e) (moved : DurableBins.step codec s e = some t) :
    Recoverable codec t := by
  cases moves_of_step moved with
  | locked now r free =>
    refine recoverable.of_pending recoverable.keyed ?_ rfl rfl rfl
    rw [pending, pending, free]
    exact List.Sublist.refl _
  | @handled now r agg updated held handled =>
    have silent : toSend s.lock = [] := by
      rw [held]
      rfl
    obtain ⟨rfl, same⟩ | ⟨bin, rfl, own, stored⟩ :=
      Aggregator.bins_checkedHandleReading recoverable.keyed handled
    · have keyed : agg.Keyed := fun key bin found => recoverable.keyed key bin (same ▸ found)
      refine recoverable.updated none keyed (wholeKey_of_reading r) silent ?_ rfl
      exact fun bin mem => absurd mem (Option.not_mem_none bin)
    · have keyed := keyed_insert recoverable.keyed own stored
      refine recoverable.updated (some bin) keyed (wholeKey_of_reading r) silent ?_ rfl
      rintro _ ⟨⟩
      exact ⟨own, by rw [stored, AList.lookup_insert]⟩
  | @panicked now r held =>
    have silent : toSend s.lock = [] := by
      rw [held]
      rfl
    have keyed : (s.agg.afterPanic now r).Keyed := by
      obtain same | ⟨bin, own, stored⟩ := Aggregator.bins_afterPanic recoverable.keyed
      · exact fun key bin found => recoverable.keyed key bin (same ▸ found)
      · exact keyed_insert recoverable.keyed own stored
    refine recoverable.updated none keyed (wholeKey_of_reading r) silent ?_ rfl
    exact fun bin mem => absurd mem (Option.not_mem_none bin)
  | @sent sent held =>
    refine recoverable.of_pending recoverable.keyed ?_ rfl rfl rfl
    simp only [pending, held, toSend, List.append_assoc, List.append_nil]
    exact List.Sublist.refl _
  | received idle next =>
    refine recoverable.of_pending recoverable.keyed ?_ rfl rfl rfl
    rw [pending, pending, idle, next]
    exact List.Sublist.refl _
  | wrote busy => exact recoverable.wrote busy (roundTrips _ busy)
  | crashed order =>
    refine recoverable.of_pending (Aggregator.Keyed.restoreBins _) ?_ rfl rfl rfl
    exact List.nil_sublist _
  | spoiled unparsable => exact recoverable.spoiled unparsable

/-- So they are in that order after every run. -/
theorem recoverable_of_run (run : Steps (step codec) (RoundTrips codec) start s) :
    Recoverable codec s :=
  run.invariant (fun _ _ _ recoverable roundTrips moved => recoverable.step roundTrips moved)
    recoverable_start

/-! ## The restored bins -/

theorem mem_loadAll {bins : Hash String String} {bin : BillingBin} :
    bin ∈ BinStore.loadAll codec bins ↔
      ∃ field text, AList.lookup field bins = some text ∧ codec.parse text = some bin := by
  unfold BinStore.loadAll
  rw [List.mem_filterMap]
  constructor
  · rintro ⟨text, mem, parsed⟩
    obtain ⟨field, there⟩ := Hash.mem_values.mp mem
    exact ⟨field, text, there, parsed⟩
  · rintro ⟨field, text, there, parsed⟩
    exact ⟨text, Hash.mem_values.mpr ⟨field, there⟩, parsed⟩

/-- A start restores under a key what its field holds, whatever the order. -/
theorem lookup_restored {bins : Hash String String} (filed : Filed codec bins)
    {loaded : List BillingBin} (order : loaded.Perm (BinStore.loadAll codec bins)) {key : BinKey}
    {bin : BillingBin} :
    (Aggregator.new.restoreBins loaded).activeBins.lookup key = some bin ↔
      WholeKey key ∧ ∃ text, AList.lookup (binFieldText key) bins = some text ∧
        codec.parse text = some bin := by
  constructor
  · intro found
    obtain before | ⟨mem, rfl⟩ := Aggregator.mem_of_lookup_restoreBins found
    · cases before
    · obtain ⟨field, text, there, parsed⟩ := mem_loadAll.mp (order.mem_iff.mp mem)
      obtain ⟨rfl, whole⟩ := filed field text bin there parsed
      exact ⟨whole, text, there, parsed⟩
  · rintro ⟨whole, text, there, parsed⟩
    obtain ⟨same, wholeBin⟩ := filed _ text bin there parsed
    obtain rfl := binFieldText_inj whole wholeBin same
    refine Aggregator.lookup_restoreBins_of_mem
      (order.mem_iff.mpr (mem_loadAll.mpr ⟨_, text, there, parsed⟩)) ?_
    -- A second bin of the window would be in the same field.
    intro other mem own
    obtain ⟨field, text', there', parsed'⟩ := mem_loadAll.mp (order.mem_iff.mp mem)
    obtain ⟨rfl, _⟩ := filed field text' other there' parsed'
    rw [own, there] at there'
    cases there'
    rw [parsed] at parsed'
    exact (Option.some.inj parsed').symm

/-- After every run, and wherever it is cut off by a crash: the writes are in the order of the
updates, each of them of a bin; the next start restores under each key the bin that the aggregator
held after the last update of that key which was written, but nothing where the entry does not
parse; and no two windows share a field. -/
theorem crash_restores_latest_written {loaded : List BillingBin}
    (run : Steps (step codec) (RoundTrips codec) start s)
    (order : loaded.Perm (BinStore.loadAll codec s.bins)) :
    s.written.Sublist s.updates ∧
    (∀ u ∈ s.written, ∃ bin, u.after.activeBins.lookup u.key = some bin) ∧
    (∀ key, ¬ Spoiled codec s.bins key →
      (Aggregator.new.restoreBins loaded).activeBins.lookup key =
        (latest s.written key).bind fun u => u.after.activeBins.lookup key) ∧
    (∀ key, Spoiled codec s.bins key →
      (Aggregator.new.restoreBins loaded).activeBins.lookup key = none) ∧
    (∀ u ∈ s.updates, ∀ u' ∈ s.updates, binFieldText u.key = binFieldText u'.key →
      u.key = u'.key) := by
  have recoverable := recoverable_of_run run
  have written : s.written.Sublist s.updates :=
    (List.sublist_append_left _ _).trans recoverable.order
  refine ⟨written, recoverable.binned, ?_, ?_, ?_⟩
  · intro key unspoiled
    by_cases whole : WholeKey key
    · cases recoverable.durable key whole with
      | nothing absent unwritten =>
        rw [unwritten, Option.bind_none, Option.eq_none_iff_forall_ne_some]
        intro bin found
        obtain ⟨_, text, there, _⟩ := (lookup_restored recoverable.filed order).mp found
        rw [absent] at there
        cases there
      | junk spoiled => exact absurd spoiled unspoiled
      | bin last held there parsed =>
        rw [last, Option.bind_some, held]
        exact (lookup_restored recoverable.filed order).mpr ⟨whole, _, there, parsed⟩
    · have unwritten : latest s.written key = none := by
        rw [Option.eq_none_iff_forall_ne_some]
        intro u found
        obtain ⟨mem, own⟩ := mem_of_latest found
        exact whole (own ▸ recoverable.whole u (written.subset mem))
      rw [unwritten, Option.bind_none, Option.eq_none_iff_forall_ne_some]
      exact fun bin found => whole ((lookup_restored recoverable.filed order).mp found).1
  · rintro key ⟨text, there, unparsable⟩
    rw [Option.eq_none_iff_forall_ne_some]
    intro bin found
    obtain ⟨_, text', there', parsed⟩ := (lookup_restored recoverable.filed order).mp found
    rw [there] at there'
    cases there'
    rw [unparsable] at parsed
    cases parsed
  · intro u mem u' mem' same
    exact binFieldText_inj (recoverable.whole u mem) (recoverable.whole u' mem') same

/-- Five past ten of a window that starts at ten. -/
private def metered (kwh : ℚ) : BillingReading :=
  ⟨1#128, 2#128, "MTR-001", kwh, 0, DateTime.ofSecs 1767261900, none, none, none⟩

private def meteredBin (kwh : ℚ) (count : Nat) : BillingBin where
  meterId := 1#128
  userId := 2#128
  meterSerial := "MTR-001"
  startTime := DateTime.ofSecs 1767261600
  endTime := DateTime.ofSecs 1767262500
  energyGenerated := kwh
  energyConsumed := 0
  readingCount := count
  energyGeneratedPeak := 0
  energyGeneratedOffpeak := 0
  energyConsumedPeak := 0
  energyConsumedOffpeak := 0
  maxDemandKw := 0
  zoneCode := none

/-- The JSON of the two bins of that window: after a reading of 1.5, and after another of 1. -/
private def meteredJson (kwh count : String) : String :=
  "\x7b\"meter_id\":\"00000000-0000-0000-0000-000000000001\"," ++
    "\"user_id\":\"00000000-0000-0000-0000-000000000002\",\"meter_serial\":\"MTR-001\"," ++
    "\"start_time\":\"2026-01-01T10:00:00Z\",\"end_time\":\"2026-01-01T10:15:00Z\"," ++
    "\"energy_generated\":" ++ kwh ++ ",\"energy_consumed\":0.0,\"reading_count\":" ++ count ++
    ",\"energy_generated_peak\":0.0,\"energy_generated_offpeak\":0.0," ++
    "\"energy_consumed_peak\":0.0,\"energy_consumed_offpeak\":0.0,\"max_demand_kw\":0.0," ++
    "\"zone_code\":null\x7d"

private def meteredCodec : BinCodec where
  json := fun bin => if bin = meteredBin (3 / 2) 1 then meteredJson "1.5" "1" else
    if bin = meteredBin (5 / 2) 2 then meteredJson "2.5" "2" else "null"
  parse := fun text => if text = meteredJson "1.5" "1" then some (meteredBin (3 / 2) 1) else
    if text = meteredJson "2.5" "2" then some (meteredBin (5 / 2) 2) else none

/-- The first bin is written while the second reading is handled, and the process is gone before
the second bin is. -/
private def cutOff : List BinEvent :=
  [.lock (DateTime.ofSecs 1767261901) (metered (3 / 2)), .handleReading, .send,
    .lock (DateTime.ofSecs 1767261902) (metered 1), .recv, .handleReading, .hset, .send, .recv,
    .foreign "0:0" "\x7bnot valid json"]

private theorem cutOff_run :
    (Transition.run (step meteredCodec) (RoundTrips meteredCodec) cutOff start).isSome := by
  decide +kernel

/-- The first bin is restored. -/
theorem cut_off_restored :
    ∃ s, Steps (step meteredCodec) (RoundTrips meteredCodec) start s ∧ s.updates[1]?.isSome ∧
      s.written.length = 1 ∧ BinStore.loadAll meteredCodec s.bins = [meteredBin (3 / 2) 1] ∧
      s.written.Sublist s.updates ∧
      ∀ key, ¬ Spoiled meteredCodec s.bins key →
        (Aggregator.new.restoreBins (BinStore.loadAll meteredCodec s.bins)).activeBins.lookup key =
          (latest s.written key).bind fun u => u.after.activeBins.lookup key := by
  obtain ⟨written, _, restored, _, _⟩ :=
    crash_restores_latest_written (Steps.of_run_get cutOff_run) (List.Perm.refl _)
  exact ⟨_, Steps.of_run_get cutOff_run, by decide +kernel, by decide +kernel, by decide +kernel,
    written, restored⟩

end DurableBins

end AggregatorBridge
