import AggregatorBridge.PgReadings
import AggregatorBridge.Laws.SettlementRuns

/-!
# A row is marked minted only if its energy was minted

A write-back selects rows by serial and time when the mint is confirmed. A reading that came
after its window was settled is not billed, but it has a row like any other, and the
confirmation, whenever it comes, marks that row too. So does a reading that a restart lost
before the sweep took its bin.

The law is about every run of the two paths. If a sweep takes a surplus only together with
every reading whose row waits for a mark in the window, and no row of a window is queued after
such a sweep (`readingsInTime`), then every marked row is of a reading in the bin that was minted
under the signature on it. What the bridge mints, and when it says so, is up to it: a mint can be
confirmed by the first attempt or by any later one.

That a mint marks the rows of its bin is not part of the law: a write-back can fail.

Nor does it say that a marked row has the energy that was minted, only that its reading is in the
bin.
-/

namespace AggregatorBridge

open Remote Transition

variable {F : Type} {cfg : HistoryConfig F}

/-! ## Marks -/

/-- A row says that it was minted only if its reading is in a bin of the row's window that was
minted under the signature the row shows. -/
def TruthfulRow (codec : UuidCodec) (chain : Chain) (row : StoredRow) : Prop :=
  ∀ outcome ∈ row.minted, ∃ field y, AList.lookup field chain = some (outcome.signature, y) ∧
    row.within codec y.bin.meterSerial y.bin.windowStartMs = true ∧ row.reading ∈ entriesOf y

/-- A write-back is about a bin that was minted under its signature. -/
def TruthfulStamp (chain : Chain) (stamp : Stamp) : Prop :=
  ∃ y, AList.lookup y.bin.mintField chain = some (stamp.outcome.signature, y) ∧
    stamp.meterSerial = y.bin.meterSerial ∧ stamp.windowStartMs = y.bin.windowStartMs

namespace Chain

variable {chain : Chain}

/-- Nothing is minted twice: what a key was minted under stays. -/
theorem lookup_mint_of_some {p : Owed (ReadingSnapshot Nat)} {signature field : String}
    {found : String × ReadingSnapshot Nat} (before : AList.lookup field chain = some found) :
    AList.lookup field (chain.mint p signature) = some found := by
  unfold Chain.mint
  split
  · exact before
  · next fresh =>
    have other : field ≠ p.field := by
      rintro rfl
      rw [fresh] at before
      cases before
    rw [AList.lookup_insert_ne other]
    exact before

/-- What is minted is what was minted before or the request at hand. -/
theorem lookup_mint {p : Owed (ReadingSnapshot Nat)} {signature field : String}
    {found : String × ReadingSnapshot Nat}
    (minted : AList.lookup field (chain.mint p signature) = some found) :
    AList.lookup field chain = some found ∨ field = p.field ∧ found = (signature, p.origin) := by
  unfold Chain.mint at minted
  split at minted
  · exact .inl minted
  · by_cases here : field = p.field
    · subst here
      rw [AList.lookup_insert] at minted
      cases minted
      exact .inr ⟨rfl, rfl⟩
    · rw [AList.lookup_insert_ne here] at minted
      exact .inl minted

end Chain

theorem TruthfulRow.mint {codec : UuidCodec} {chain : Chain} {row : StoredRow}
    (truthful : TruthfulRow codec chain row) (p : Owed (ReadingSnapshot Nat))
    (signature : String) : TruthfulRow codec (chain.mint p signature) row := by
  intro outcome marked
  obtain ⟨field, y, minted, here⟩ := truthful outcome marked
  exact ⟨field, y, Chain.lookup_mint_of_some minted, here⟩

theorem TruthfulStamp.mint {chain : Chain} {stamp : Stamp} (truthful : TruthfulStamp chain stamp)
    (p : Owed (ReadingSnapshot Nat)) (signature : String) :
    TruthfulStamp (chain.mint p signature) stamp := by
  obtain ⟨y, minted, here⟩ := truthful
  exact ⟨y, Chain.lookup_mint_of_some minted, here⟩

/-! ## What is written back -/

/-- A key was minted under its own field. -/
def KeyedByField (chain : Chain) : Prop :=
  ∀ field signature y, AList.lookup field chain = some (signature, y) → field = y.bin.mintField

theorem exists_of_signatureOf {chain : Chain} {field signature : String}
    (minted : chain.signatureOf field = some signature) :
    ∃ y, AList.lookup field chain = some (signature, y) := by
  obtain ⟨⟨_, y⟩, found, rfl⟩ := Option.map_eq_some_iff.mp minted
  exact ⟨y, found⟩

theorem parseMintResult_ok {result : MintEnergyResultMessage} {outcome : MintOutcome}
    (parsed : parseMintResult result = .ok outcome) :
    result.success = true ∧ result.signature = some outcome.signature := by
  unfold parseMintResult at parsed
  split at parsed
  · next success =>
    split at parsed
    · next signature found =>
      cases parsed
      exact ⟨success, found⟩
    · cases parsed
  · cases parsed

/-- The confirmation of a single mint is written back to the window it was for. -/
theorem truthful_single {chain : Chain} (keyed : KeyedByField chain) {p : PendingMint}
    {outcome : MintOutcome} (minted : chain.signatureOf p.field = some outcome.signature) :
    TruthfulStamp chain ⟨p.meterSerial, p.windowStartMs, outcome⟩ := by
  obtain ⟨y, found⟩ := exists_of_signatureOf minted
  have same : p.field = y.bin.mintField := keyed _ _ _ found
  rw [same] at found
  exact ⟨y, found, Text.joined_inj same⟩

/-- The confirmation of an item of a batch is written back to the window of its key. -/
theorem truthful_writeBack {chain : Chain} (keyed : KeyedByField chain)
    {r : MintBatchItemResult} {stamp : Stamp} (written : writeBack r = some stamp)
    (minted : r.success = true → ∀ signature ∈ r.signature,
      chain.signatureOf (fieldOfKey r.idempotencyKey) = some signature) :
    TruthfulStamp chain stamp := by
  unfold writeBack at written
  split at written
  · next success =>
    obtain ⟨signature, signed, written⟩ := Option.bind_eq_some_iff.mp written
    obtain ⟨⟨serial, windowStartMs⟩, parsed, written⟩ := Option.bind_eq_some_iff.mp written
    cases written
    obtain ⟨y, found⟩ := exists_of_signatureOf (minted success signature signed)
    have same : fieldOfKey r.idempotencyKey = y.bin.mintField := keyed _ _ _ found
    rw [same] at found
    exact ⟨y, found, eq_of_parseMintField parsed same⟩
  · cases written

/-- Where the bridge answers truly, everything that is written back is truthful. -/
theorem truthful_stampsOf {chain : Chain} (keyed : KeyedByField chain)
    {attempt : MintAttempt (ReadingSnapshot Nat)} {answer : BridgeReply}
    (truly : answersTruly chain attempt answer = true) :
    ∀ stamp ∈ stampsOf attempt answer, TruthfulStamp chain stamp := by
  intro stamp mem
  unfold stampsOf at mem
  split at mem
  · next p result =>
    have truly := of_decide_eq_true truly
    split at mem
    · next outcome parsed =>
      rw [List.mem_singleton.mp mem]
      obtain ⟨success, signed⟩ := parseMintResult_ok parsed
      exact truthful_single keyed (truly success _ signed)
    · cases mem
  · next ps results =>
    have truly := of_decide_eq_true truly
    obtain ⟨r, listed, written⟩ := List.mem_filterMap.mp mem
    exact truthful_writeBack keyed written (truly r listed)
  · cases mem

/-! ## The invariant -/

namespace History

variable {h t : History F}

/-- The rows that are in the table or on their way to it. -/
def allRows (cfg : HistoryConfig F) (h : History F) : List StoredRow :=
  h.rowQueue.map (ReadingRow.stored cfg.serials) ++ h.rows

/-- The bin has a surplus, and a write-back of its window would mark the row. -/
def claimsRow (cfg : HistoryConfig F) (y : ReadingSnapshot Nat) (row : StoredRow) : Bool :=
  decide (0 < y.bin.net) && row.selected cfg.serials y.bin.meterSerial y.bin.windowStartMs

/-- No row is queued for a surplus that was taken, and no surplus is taken without a reading
whose row it would mark. -/
def readingsInTime (cfg : HistoryConfig F) (h : History F) : Event F → Bool
  | .disseminate reading true =>
    match readingToRow h.disseminated.length reading with
    | some row => h.taken.all fun y => !claimsRow cfg y (row.stored cfg.serials)
    | none => true
  | .settle (.take now) =>
    (h.world.core.completed now cfg.settlement.grace).all fun y =>
      (h.allRows cfg).all fun row => !claimsRow cfg y row || (entriesOf y).contains row.reading
  | _ => true

structure Honest (cfg : HistoryConfig F) (h : History F) : Prop where
  sound : h.world.Sound cfg.settlement
  inHand : ∀ y, h.world.InHand y → y ∈ h.taken
  owed : ∀ p, h.world.ob.Holds p → p.origin ∈ h.taken
  minted : ∀ field signature y, AList.lookup field h.chain = some (signature, y) →
    y ∈ h.taken ∧ 0 < y.bin.net ∧ field = y.bin.mintField
  stamps : ∀ stamp ∈ h.stamps, TruthfulStamp h.chain stamp
  covered : ∀ y ∈ h.taken, ∀ row ∈ h.allRows cfg, claimsRow cfg y row = true →
    row.reading ∈ entriesOf y
  rows : ∀ row ∈ h.rows, TruthfulRow cfg.serials h.chain row

theorem honest_init : (init : History F).Honest cfg where
  sound := World.sound_init
  inHand := by
    rintro y ⟨item, mem, _⟩
    cases mem
  owed := fun p held => absurd held (World.not_owed_init p)
  minted := by
    intro field signature y found
    cases found
  stamps := by
    intro stamp mem
    cases mem
  covered := by
    intro y mem
    cases mem
  rows := by
    intro row mem
    cases mem

/-- Who holds what after a move of the parties of settlement: every bin in a hand, and every
bin behind a pending mint, was taken by a sweep. -/
theorem taken_of_step {w u : World Nat} {cfg : SettlementConfig} {e : World.Event Nat}
    {taken : List (ReadingSnapshot Nat)} (moved : w.step cfg e = some u)
    (inHand : ∀ y, w.InHand y → y ∈ taken) (owed : ∀ p, w.ob.Holds p → p.origin ∈ taken)
    (new : ∀ now, e = .take now → ∀ y ∈ w.core.completed now cfg.grace, y ∈ taken) :
    (∀ y, u.InHand y → y ∈ taken) ∧ ∀ p, u.ob.Holds p → p.origin ∈ taken := by
  have moves := World.moves_of_step moved
  constructor
  · intro y hand
    rcases World.inHand_of_moves moves hand with before | ⟨now, same, completed⟩
    · exact inHand y before
    · exact new now same y completed
  · intro p held
    rcases World.owed_of_moves moves held with before | ⟨stage, rest, head, _⟩
    · exact owed p before
    · exact inHand p.origin ⟨_, head ▸ List.mem_cons_self, rfl⟩

/-- The parties of settlement move, and no sweep begins. -/
theorem Honest.move (honest : h.Honest cfg) {e : World.Event Nat} {world : World Nat}
    (moved : h.world.step cfg.settlement e = some world) (begins : ∀ now, e ≠ .take now)
    (stamps : List Stamp) (truthful : ∀ stamp ∈ stamps, TruthfulStamp h.chain stamp) :
    Honest cfg { h with world := world, stamps := stamps } := by
  obtain ⟨inHand, owed⟩ := taken_of_step moved honest.inHand honest.owed
    fun now same => absurd same (begins now)
  exact ⟨World.sound_step honest.sound moved, inHand, owed, honest.minted, truthful,
    honest.covered, honest.rows⟩

theorem Honest.keyed (honest : h.Honest cfg) : KeyedByField h.chain :=
  fun field signature y found => (honest.minted field signature y found).2.2

theorem honest_hear (honest : h.Honest cfg) {attempt : MintAttempt (ReadingSnapshot Nat)}
    {answer : BridgeReply} {e : World.Event Nat} (begins : ∀ now, e ≠ .take now)
    (moved : hear cfg h attempt answer e = some t) : t.Honest cfg := by
  unfold hear at moved
  split at moved
  · next truly =>
    obtain ⟨world, stepped, rfl⟩ := Option.map_eq_some_iff.mp moved
    refine honest.move stepped begins _ ?_
    intro stamp mem
    rcases List.mem_append.mp mem with before | new
    · exact honest.stamps stamp before
    · exact truthful_stampsOf honest.keyed truly stamp new
  · cases moved

/-- A sweep takes bins that hold every reading whose row they would mark. -/
theorem honest_take (honest : h.Honest cfg) {now : DateTime} {world : World Nat}
    (meets : readingsInTime cfg h (.settle (.take now)) = true)
    (moved : h.world.step cfg.settlement (.take now) = some world) :
    Honest cfg { h with
      world := world
      taken := h.taken ++ h.world.core.completed now cfg.settlement.grace } := by
  have new : ∀ later, (World.Event.take now : World.Event Nat) = .take later →
      ∀ y ∈ h.world.core.completed later cfg.settlement.grace,
        y ∈ h.taken ++ h.world.core.completed now cfg.settlement.grace := by
    intro later same y completed
    cases same
    exact List.mem_append_right _ completed
  obtain ⟨inHand, owed⟩ := taken_of_step moved
    (fun y hand => List.mem_append_left _ (honest.inHand y hand))
    (fun p held => List.mem_append_left _ (honest.owed p held)) new
  refine ⟨World.sound_step honest.sound moved, inHand, owed, ?_, honest.stamps, ?_, honest.rows⟩
  · intro field signature y found
    obtain ⟨mem, rest⟩ := honest.minted field signature y found
    exact ⟨List.mem_append_left _ mem, rest⟩
  · intro y mem row listed claims
    rcases List.mem_append.mp mem with before | new
    · exact honest.covered y before row listed claims
    · have all := List.all_eq_true.mp (List.all_eq_true.mp meets y new) row listed
      rw [claims] at all
      exact List.contains_iff_mem.mp all

theorem honest_settle (honest : h.Honest cfg) {e : World.Event Nat}
    (meets : readingsInTime cfg h (.settle e) = true) (moved : settle cfg h e = some t) :
    t.Honest cfg := by
  unfold settle at moved
  split at moved
  · cases moved
  · obtain ⟨world, stepped, rfl⟩ := Option.map_eq_some_iff.mp moved
    exact honest_take honest meets stepped
  · split at moved
    · exact honest_hear honest (by intro now same; cases same) moved
    · cases moved
  · split at moved
    · exact honest_hear honest (by intro now same; cases same) moved
    · cases moved
  · obtain ⟨world, stepped, rfl⟩ := Option.map_eq_some_iff.mp moved
    have kept := honest.move stepped (by intro now same; cases same) []
      (by intro stamp mem; cases mem)
    refine ⟨kept.sound, kept.inHand, kept.owed, kept.minted, kept.stamps, ?_, kept.rows⟩
    -- the queue dies with the process, so there are only fewer rows to cover
    intro y mem row listed
    exact honest.covered y mem row (List.mem_append_right _ listed)
  · next handles takes replies lastReplies restarts =>
    obtain ⟨world, stepped, rfl⟩ := Option.map_eq_some_iff.mp moved
    exact honest.move stepped takes _ honest.stamps

/-- A request that is minted stands for a bin that was taken. -/
theorem honest_mint (honest : h.Honest cfg) {i : Nat} {p : Owed (ReadingSnapshot Nat)}
    (published : h.world.ob.published[i]? = some p) (signature : String) :
    Honest cfg { h with chain := h.chain.mint p signature } := by
  have held : h.world.ob.Holds p :=
    .hand (h.world.ob.published_subset_hands (List.mem_of_getElem? published))
  have fits := honest.sound.owed p held
  refine ⟨honest.sound, honest.inHand, honest.owed, ?_, ?_, honest.covered, ?_⟩
  · intro field signature' y found
    rcases Chain.lookup_mint found with before | ⟨rfl, same⟩
    · exact honest.minted field signature' y before
    · cases same
      exact ⟨honest.owed p held, fits.surplus, fits.field⟩
  · intro stamp mem
    exact (honest.stamps stamp mem).mint p signature
  · intro row mem
    exact (honest.rows row mem).mint p signature

/-- A write-back marks only rows of readings in the minted bin. -/
theorem truthful_markMinted (honest : h.Honest cfg) {stamp : Stamp}
    (truthful : TruthfulStamp h.chain stamp) :
    ∀ row ∈ markMinted cfg.serials stamp h.rows, TruthfulRow cfg.serials h.chain row := by
  intro row mem
  obtain ⟨old, listed, rfl⟩ := List.mem_map.mp mem
  split
  · next selected =>
    -- The write-back is about a bin that was taken, and that bin has the readings of every row
    -- it would mark.
    obtain ⟨y, minted, serial, window⟩ := truthful
    rw [serial, window] at selected
    obtain ⟨taken, surplus, _⟩ := honest.minted _ _ _ minted
    have claims : claimsRow cfg y old = true := by
      rw [claimsRow, decide_eq_true surplus, selected]
      rfl
    have within : old.within cfg.serials y.bin.meterSerial y.bin.windowStartMs = true := by
      rw [StoredRow.selected, Bool.and_eq_true] at selected
      exact selected.1
    intro outcome marked
    cases marked
    exact ⟨_, y, minted, within,
      honest.covered y taken old (List.mem_append_right _ listed) claims⟩
  · exact honest.rows old listed

/-- Marking rows makes none that a later write-back would select. -/
theorem covered_markMinted (honest : h.Honest cfg) (stamp : Stamp) {y : ReadingSnapshot Nat}
    (taken : y ∈ h.taken) {row : StoredRow} (mem : row ∈ markMinted cfg.serials stamp h.rows)
    (claims : claimsRow cfg y row = true) : row.reading ∈ entriesOf y := by
  obtain ⟨old, listed, rfl⟩ := List.mem_map.mp mem
  split at claims
  · simp [claimsRow, StoredRow.selected] at claims
  · next other =>
    rw [if_neg other]
    exact honest.covered y taken old (List.mem_append_right _ listed) claims

theorem honest_writeBack (honest : h.Honest cfg) {i : Nat} {stamp : Stamp}
    (at_ : h.stamps[i]? = some stamp) (reply : Reply) :
    Honest cfg { h with
      stamps := h.stamps.eraseIdx i
      rows := reply.effect (markMinted cfg.serials stamp) h.rows } := by
  have truthful := honest.stamps stamp (List.mem_of_getElem? at_)
  have left : ∀ stamp ∈ h.stamps.eraseIdx i, TruthfulStamp h.chain stamp :=
    fun stamp mem => honest.stamps stamp (List.mem_of_mem_eraseIdx mem)
  rcases reply.effect_cases (markMinted cfg.serials stamp) h.rows with same | marked
  · rw [same]
    exact { honest with stamps := left }
  · rw [marked]
    refine ⟨honest.sound, honest.inHand, honest.owed, honest.minted, left, ?_,
      truthful_markMinted honest truthful⟩
    intro y taken row listed claims
    rcases List.mem_append.mp listed with queued | stored
    · exact honest.covered y taken row (List.mem_append_left _ queued) claims
    · exact covered_markMinted honest stamp taken stored claims

theorem honest_disseminate (honest : h.Honest cfg) {reading : DeviceReading F} {queued : Bool}
    (meets : readingsInTime cfg h (.disseminate reading queued) = true) :
    Honest cfg (h.disseminate reading queued) := by
  refine ⟨honest.sound, honest.inHand, honest.owed, honest.minted, honest.stamps, ?_,
    honest.rows⟩
  intro y taken row listed claims
  rw [allRows, disseminate, List.map_append, List.append_assoc] at listed
  simp only [List.mem_append] at listed
  rcases listed with before | new | stored
  · exact honest.covered y taken row (List.mem_append_left _ before) claims
  · obtain ⟨fresh, mem, rfl⟩ := List.mem_map.mp new
    split at mem
    · next sent =>
      subst sent
      have made : readingToRow h.disseminated.length reading = some fresh :=
        Option.mem_toList.mp mem
      simp only [readingsInTime, made] at meets
      have unclaimed := List.all_eq_true.mp meets y taken
      rw [claims] at unclaimed
      cases unclaimed
    · cases mem
  · exact honest.covered y taken row (List.mem_append_right _ stored) claims

theorem honest_insert (honest : h.Honest cfg) {stored : Bool}
    (moved : insert cfg h stored = some t) : t.Honest cfg := by
  unfold insert at moved
  split at moved
  · cases moved
  next row rest queue =>
  cases moved
  have known (row' : StoredRow)
      (mem : row' ∈ rest.map (ReadingRow.stored cfg.serials) ∨ row' ∈ h.rows ∨
        row' = row.stored cfg.serials) : row' ∈ h.allRows cfg := by
    simp only [allRows, queue, List.map_cons, List.mem_append, List.mem_cons]
    tauto
  refine ⟨honest.sound, honest.inHand, honest.owed, honest.minted, honest.stamps, ?_, ?_⟩
  · intro y taken row' listed claims
    refine honest.covered y taken row' (known row' ?_) claims
    simp only [allRows, List.mem_append] at listed
    rcases listed with waiting | before | new
    · exact .inl waiting
    · exact .inr (.inl before)
    · split at new
      · exact .inr (.inr (List.mem_singleton.mp new))
      · cases new
  · intro row' listed
    rcases List.mem_append.mp listed with before | new
    · exact honest.rows row' before
    · split at new
      · rw [List.mem_singleton.mp new]
        intro outcome marked
        cases marked
      · cases new

section Steps

variable [Float64 F] {e : Event F}

/-- A step whose readings are in time marks no row but those of the bin that was minted. -/
theorem honest_step (honest : h.Honest cfg) (meets : readingsInTime cfg h e = true)
    (moved : step cfg h e = some t) : t.Honest cfg := by
  cases e with
  | disseminate reading queued =>
    cases moved
    exact honest_disseminate honest meets
  | insert stored => exact honest_insert honest moved
  | handle now id userId =>
    obtain ⟨reading, _, moved⟩ := Option.bind_eq_some_iff.mp moved
    obtain ⟨world, handled, moved⟩ := Option.bind_eq_some_iff.mp moved
    cases moved
    refine honest.move (e := .handle now id _) handled ?_ _ honest.stamps
    intro later same
    cases same
  | mint i signature =>
    obtain ⟨p, published, rfl⟩ := Option.map_eq_some_iff.mp moved
    exact honest_mint honest published signature
  | writeBack i reply =>
    obtain ⟨stamp, at_, rfl⟩ := Option.map_eq_some_iff.mp moved
    exact honest_writeBack honest at_ reply
  | settle e => exact honest_settle honest meets moved

/-! ## The law -/

/-- In every run in which readings are in time, every row that is marked minted is of a reading in
the bin that was minted under the signature the row shows. Whether the bridge has minted what it
confirms is not part of it. -/
theorem marked_row_was_minted (cfg : HistoryConfig F) {h : History F}
    (chain : Steps (step cfg) (fun h e => readingsInTime cfg h e = true) init h) :
    ∀ row ∈ h.rows, TruthfulRow cfg.serials h.chain row := by
  have honest : h.Honest cfg := by
    refine chain.invariant ?_ honest_init
    intro h e t before meets moved
    exact honest_step before meets moved
  exact honest.rows

end Steps

/-! ## A reading after its window -/

/-- A process with one meter whose serial is no UUID. -/
private def plainMeter : HistoryConfig ℚ where
  serials := ⟨fun _ => none, fun _ => ""⟩
  decimals := exactCodec
  settlement := World.oneMeter

/-- Five kilowatt hours are settled, enqueued, published and minted. -/
private def mintedOnChain : List (Event ℚ) :=
  [.disseminate (generatedAt 0 5) true, .insert true, .handle (DateTime.ofSecs 1) 0 7,
    .settle (.take (DateTime.ofSecs 2000)), .settle (.plan .found .missing 2000000),
    .settle (.enqueue .ok), .settle (.evict .ok),
    .settle (.drain (.publish 0 fun _ => true)), .mint 0 "sig-1"]

/-- A straggler of the window is rejected as late, and its row is inserted all the same. -/
private def lateReading : List (Event ℚ) :=
  [.disseminate (generatedAt 10 1) true, .insert true, .handle (DateTime.ofSecs 2010) 1 7]

private def confirmedAndMarked : List (Event ℚ) :=
  [.settle (.drain (.reply 0 (.single ⟨true, some "sig-1", 7, none⟩))), .writeBack 0 .ok]

private theorem lateReading_runs :
    (run (step plainMeter) Always (mintedOnChain ++ lateReading ++ confirmedAndMarked)
      init).isSome := by
  decide +kernel

/-- The confirmation of a mint marks the row of a reading that was never billed. -/
theorem late_reading_marked_minted :
    ¬ ∀ h : History ℚ, Steps (step plainMeter) Always init h →
      ∀ row ∈ h.rows, TruthfulRow plainMeter.serials h.chain row := by
  intro law
  have truthful := law _ (Steps.of_run_get lateReading_runs)
  have marked : (((run (step plainMeter) Always
      (mintedOnChain ++ lateReading ++ confirmedAndMarked) init).get lateReading_runs).rows.any
        fun row => decide (row.reading = 1 ∧ row.minted.isSome)) = true := by
    decide +kernel
  have unbilled : ∀ entry ∈ ((run (step plainMeter) Always
      (mintedOnChain ++ lateReading ++ confirmedAndMarked) init).get
        lateReading_runs).chain.entries, 1 ∉ entriesOf entry.2.2 := by
    decide +kernel
  obtain ⟨row, mem, here⟩ := List.any_eq_true.mp marked
  obtain ⟨same, some_⟩ := of_decide_eq_true here
  obtain ⟨outcome, isMarked⟩ := Option.isSome_iff_exists.mp some_
  obtain ⟨field, y, found, _, counted⟩ := truthful row mem outcome isMarked
  refine unbilled ⟨field, _⟩ (AList.mem_lookup_iff.mp found) ?_
  rw [← same]
  exact counted

private theorem inTime_runs :
    (run (step plainMeter) (fun h e => readingsInTime plainMeter h e = true)
      (mintedOnChain ++ confirmedAndMarked) init).isSome := by
  decide +kernel

/-- Without the straggler, the one row is marked, and truthfully. -/
theorem billed_reading_marked_minted :
    ∃ row ∈ ((run (step plainMeter) (fun h e => readingsInTime plainMeter h e = true)
        (mintedOnChain ++ confirmedAndMarked) init).get inTime_runs).rows,
      row.minted = some ⟨"sig-1", 7⟩ ∧
      TruthfulRow plainMeter.serials ((run (step plainMeter)
        (fun h e => readingsInTime plainMeter h e = true)
        (mintedOnChain ++ confirmedAndMarked) init).get inTime_runs).chain row := by
  have chain := Steps.of_run_get inTime_runs
  have marked : (((run (step plainMeter) (fun h e => readingsInTime plainMeter h e = true)
      (mintedOnChain ++ confirmedAndMarked) init).get inTime_runs).rows.any fun row =>
        decide (row.minted = some ⟨"sig-1", 7⟩)) = true := by
    decide +kernel
  obtain ⟨row, mem, here⟩ := List.any_eq_true.mp marked
  exact ⟨row, mem, of_decide_eq_true here, marked_row_was_minted plainMeter chain row mem⟩

end History

end AggregatorBridge
