import AggregatorBridge.PgReadings

/-!
# A batch confirms what single attempts would

A batch of mints is answered by a list of results, in any order, with whatever keys the bridge
puts there. `classify_batch_results` turns the successful ones into outbox fields to be removed;
`write_back_confirmed` goes over the same list with a filter of its own; and the single attempt
has its reply read by `parse_mint_result`, which wants a signature. `batch_agrees_iff` compares
the three. They agree on a reply exactly if every success in it is about an entry of the batch
and comes with a signature, its own or that of another result for the same entry.

What the three are compared on is what the bridge says. Whether it has minted what it says is not
part of the law, nor what becomes of the entries that are left.
-/

namespace AggregatorBridge

/-- A result of a batch, as the reply to a single attempt. -/
def MintBatchItemResult.alone (r : MintBatchItemResult) : MintEnergyResultMessage :=
  ⟨r.success, r.signature, r.slot, none⟩

/-- The outbox field a result is about. -/
def MintBatchItemResult.field (r : MintBatchItemResult) : String :=
  fieldOfKey r.idempotencyKey

/-- `attempt_mint` takes the result for a confirmation. -/
def MintBatchItemResult.Confirms (r : MintBatchItemResult) : Prop :=
  ∃ outcome, parseMintResult r.alone = .ok outcome

/-- What is removed is what was submitted and confirmed, and only that is written back. -/
structure BatchAgrees (submitted : List PendingMint) (results : List MintBatchItemResult)
    (outcome : List String × List Stamp) : Prop where
  removed : ∀ field, field ∈ outcome.1 ↔
    ∃ p ∈ submitted, p.field = field ∧ ∃ r ∈ results, r.field = field ∧ r.Confirms
  writtenBack : ∀ stamp ∈ outcome.2, ∃ p ∈ submitted, p.field ∈ outcome.1 ∧
    stamp.meterSerial = p.meterSerial ∧ stamp.windowStartMs = p.windowStartMs

/-- No success is about an entry that was not submitted. -/
def NoneStray (submitted : List PendingMint) (results : List MintBatchItemResult) : Prop :=
  ∀ r ∈ results, r.success = true → r.field ∈ submitted.map PendingMint.field

/-- No entry's successes all lack a signature. -/
def NoneUnsigned (results : List MintBatchItemResult) : Prop :=
  ∀ r ∈ results, r.success = true →
    ∃ r' ∈ results, r'.field = r.field ∧ r'.success = true ∧ r'.signature.isSome

instance (submitted : List PendingMint) (results : List MintBatchItemResult) :
    Decidable (NoneStray submitted results) :=
  inferInstanceAs (Decidable (∀ r ∈ results, _))

instance (results : List MintBatchItemResult) : Decidable (NoneUnsigned results) :=
  inferInstanceAs (Decidable (∀ r ∈ results, _))

/-- A single attempt is confirmed by a success that is signed, and by nothing else. -/
theorem confirms_iff {r : MintBatchItemResult} :
    r.Confirms ↔ r.success = true ∧ r.signature.isSome := by
  obtain ⟨key, success, signature, slot⟩ := r
  unfold MintBatchItemResult.Confirms parseMintResult MintBatchItemResult.alone
  cases success with
  | false => simp
  | true =>
    cases signature with
    | none => simp
    | some signature => simp

theorem mem_confirmedFields {results : List MintBatchItemResult} {field : String} :
    field ∈ confirmedFields results ↔ ∃ r ∈ results, r.success = true ∧ r.field = field := by
  rw [confirmedFields, List.mem_map]
  constructor
  · rintro ⟨r, mem, same⟩
    obtain ⟨listed, success⟩ := List.mem_filter.mp mem
    exact ⟨r, listed, success, same⟩
  · rintro ⟨r, listed, success, same⟩
    exact ⟨r, List.mem_filter.mpr ⟨listed, success⟩, same⟩

/-- What is written back is a signed success, and where its field is that of an entry, it is
written back to the rows of that entry. -/
theorem of_writeBack {r : MintBatchItemResult} {stamp : Stamp} (written : writeBack r = some stamp) :
    r.Confirms ∧ ∀ p : PendingMint, p.field = r.field →
      stamp.meterSerial = p.meterSerial ∧ stamp.windowStartMs = p.windowStartMs := by
  unfold writeBack at written
  split at written
  · next success =>
    obtain ⟨signature, signed, written⟩ := Option.bind_eq_some_iff.mp written
    obtain ⟨⟨serial, windowStartMs⟩, parsed, written⟩ := Option.bind_eq_some_iff.mp written
    cases written
    refine ⟨confirms_iff.mpr ⟨success, by rw [signed]; rfl⟩, fun p same => ?_⟩
    exact eq_of_parseMintField parsed same.symm
  · cases written

/-- A reply that is looked at is agreed upon exactly if it holds no stray and no unsigned
success. -/
theorem batchAgrees_results_iff (submitted : List PendingMint) (results : List MintBatchItemResult) :
    BatchAgrees submitted results (confirmedFields results, results.filterMap writeBack) ↔
      NoneStray submitted results ∧ NoneUnsigned results := by
  constructor
  · intro agrees
    have confirmed {r : MintBatchItemResult} (listed : r ∈ results) (success : r.success = true) :=
      (agrees.removed r.field).mp (mem_confirmedFields.mpr ⟨r, listed, success, rfl⟩)
    constructor
    · intro r listed success
      obtain ⟨p, mem, same, _⟩ := confirmed listed success
      exact List.mem_map.mpr ⟨p, mem, same⟩
    · intro r listed success
      obtain ⟨_, _, _, r', listed', same, confirms⟩ := confirmed listed success
      exact ⟨r', listed', same, confirms_iff.mp confirms⟩
  · rintro ⟨noneStray, noneUnsigned⟩
    have removed (field : String) : field ∈ confirmedFields results ↔
        ∃ p ∈ submitted, p.field = field ∧ ∃ r ∈ results, r.field = field ∧ r.Confirms := by
      rw [mem_confirmedFields]
      constructor
      · rintro ⟨r, listed, success, rfl⟩
        obtain ⟨p, mem, same⟩ := List.mem_map.mp (noneStray r listed success)
        obtain ⟨r', listed', same', signed⟩ := noneUnsigned r listed success
        exact ⟨p, mem, same, r', listed', same', confirms_iff.mpr signed⟩
      · rintro ⟨_, _, _, r, listed, same, confirms⟩
        exact ⟨r, listed, (confirms_iff.mp confirms).1, same⟩
    refine ⟨removed, fun stamp mem => ?_⟩
    obtain ⟨r, listed, written⟩ := List.mem_filterMap.mp mem
    obtain ⟨confirms, rows⟩ := of_writeBack written
    obtain ⟨p, mem, same⟩ := List.mem_map.mp (noneStray r listed (confirms_iff.mp confirms).1)
    refine ⟨p, mem, ?_, rows p same⟩
    exact (removed p.field).mpr ⟨p, mem, rfl, r, listed, same.symm, confirms⟩

/-- A batch removes exactly the submitted entries that single attempts would have confirmed by the
same reply, and writes back only those, if and only if nothing was submitted or the reply holds no
stray and no unsigned success; and to be confirmed by a single attempt is what `Confirms` says. A
batch in which some items failed is no exception. -/
theorem batch_agrees_iff (answers : ClaimAnswers) (pending : List PendingMint)
    (reply : Option (List MintBatchItemResult)) :
    (BatchAgrees (answers.submitted pending) (reply.getD [])
        (answers.attemptMintBatch pending reply) ↔
      answers.submitted pending = [] ∨
        NoneStray (answers.submitted pending) (reply.getD []) ∧ NoneUnsigned (reply.getD [])) ∧
    ∀ (single : ClaimAnswers) (p : PendingMint) (r : MintBatchItemResult), single.usable 0 = true →
      ((single.attemptMint p (some r.alone)).1 = true ↔ r.Confirms) := by
  constructor
  · by_cases empty : answers.submitted pending = []
    · refine iff_of_true ⟨fun field => ?_, fun stamp mem => ?_⟩ (.inl empty)
      · simp [ClaimAnswers.attemptMintBatch, empty]
      · simp [ClaimAnswers.attemptMintBatch, empty] at mem
    · have looked : answers.attemptMintBatch pending reply =
          (confirmedFields (reply.getD []), (reply.getD []).filterMap writeBack) := by
        unfold ClaimAnswers.attemptMintBatch
        rw [if_neg (by simpa using empty)]
        cases reply with
        | none => rfl
        | some results => rfl
      rw [looked, batchAgrees_results_iff]
      exact ⟨.inr, fun fine => fine.resolve_left empty⟩
  · intro single p r usable
    simp only [ClaimAnswers.attemptMint, if_pos usable, MintBatchItemResult.Confirms]
    cases parseMintResult r.alone with
    | ok outcome => simp
    | error e => simp

/-! ## Two replies -/

private def oneEntry : PendingMint :=
  ⟨"m1", 1, 900000, 5, 0⟩

/-- Every key is free, and every meter has a wallet. -/
private def allUsable : ClaimAnswers :=
  ⟨fun _ => true, fun _ => .ok (some "w"), fun _ => true⟩

/-- A success without a signature is removed from the outbox, and no single attempt would have
confirmed it. -/
theorem unsigned_success_removed :
    ¬ ∀ (answers : ClaimAnswers) (pending : List PendingMint)
      (results : List MintBatchItemResult),
      BatchAgrees (answers.submitted pending) results
        (answers.attemptMintBatch pending (some results)) := by
  intro law
  have agrees := law allUsable [oneEntry] [⟨"mint:m1:900000", true, none, 0⟩]
  obtain ⟨_, _, _, r, listed, _, confirms⟩ :=
    (agrees.removed "m1:900000").mp (by decide +kernel)
  rw [List.mem_singleton] at listed
  subst listed
  exact absurd (confirms_iff.mp confirms).2 (by decide)

/-- A signed success and a failure about entries of the batch are agreed upon. -/
theorem signed_success_agrees :
    BatchAgrees [oneEntry] [⟨"mint:m1:900000", true, some "sig", 7⟩, ⟨"mint:m2:0", false, none, 0⟩]
        (["m1:900000"], [⟨"m1", 900000, ⟨"sig", 7⟩⟩]) ∧
      (allUsable.attemptMint oneEntry (some ⟨true, some "sig", 7, none⟩)).1 = true := by
  obtain ⟨agrees, single⟩ := batch_agrees_iff allUsable [oneEntry]
    (some [⟨"mint:m1:900000", true, some "sig", 7⟩, ⟨"mint:m2:0", false, none, 0⟩])
  refine ⟨agrees.mpr (.inr ⟨?_, ?_⟩), ?_⟩
  · decide +kernel
  · decide +kernel
  · exact (single allUsable oneEntry ⟨"mint:m1:900000", true, some "sig", 7⟩ rfl).mpr
      ⟨⟨"sig", 7⟩, rfl⟩

end AggregatorBridge
