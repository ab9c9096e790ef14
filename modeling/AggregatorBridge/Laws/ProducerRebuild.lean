import Mathlib.Data.List.Nodup
import Mathlib.Data.List.TakeWhile
import AggregatorBridge.KafkaProducer

/-!
# A rebuild for ten failures

A call that rebuilds decides so by the number of failures, with the lock, and sets the number back
at the end. In between others may count failures or mark a delivery, but nobody else decides. So a
rebuild is decided after ten failures in a row, and no failure is counted for two rebuilds.

The law does not say that a rebuild helps, or that one comes after ten failures: the lock may not be
had, and the build may fail.
-/

namespace AggregatorBridge

/-- The lock is with this call. -/
def PublishCall.held : PublishCall → List Unit
  | checking => [()]
  | building => [()]
  | storing => [()]
  | releasing => [()]
  | _ => []

namespace AggregatorKafkaProducer

open Pool System Transition

variable {s t : AggregatorKafkaProducer} {call after : PublishCall} {move : Move}

/-- The failures since a delivery or a rebuild was marked. -/
def inRow (s : AggregatorKafkaProducer) : Nat :=
  (s.marks.takeWhile (· = .failed)).length

/-- The failures that were ever marked. -/
def failures (s : AggregatorKafkaProducer) : Nat :=
  s.marks.count .failed

@[simp] theorem inRow_markFailure : s.markFailure.inRow = s.inRow + 1 := rfl

@[simp] theorem inRow_markSuccess : s.markSuccess.inRow = 0 := rfl

@[simp] theorem failures_markFailure : s.markFailure.failures = s.failures + 1 :=
  List.count_cons_self

@[simp] theorem failures_markSuccess : s.markSuccess.failures = s.failures :=
  List.count_cons_of_ne (by decide)

/-! ## The lock -/

/-- The lock, if somebody has it. -/
def given (s : AggregatorKafkaProducer) : List Unit :=
  if s.locked then [()] else []

/-- The lock passes from the state to one call and back. -/
theorem given_of_acts (acts : Acts s call move t after) {rest : List Unit}
    (owned : (given s).Perm (call.held ++ rest)) : (given t).Perm (after.held ++ rest) := by
  cases acts with
  | cloned => exact owned
  | sent producer ok =>
    cases ok with
    | false => exact owned
    | true => exact owned
  | locked unlocked =>
    rw [given, unlocked] at owned
    exact owned.cons ()
  | released =>
    unfold given at owned
    split at owned
    · exact (List.perm_cons ()).mp owned
    · exact absurd owned.length_eq (by simp [PublishCall.held])
  | dropped call waits =>
    rcases waits with rfl | ⟨producer, rfl⟩
    · exact owned
    · exact owned
  | _ => exact owned

variable {pool : State AggregatorKafkaProducer PublishCall}

theorem owns_lock (chain : Steps system.step Always ⟨init, []⟩ pool) :
    Owns given PublishCall.held pool := by
  refine owns ?_ ?_ ?_ chain (List.Perm.refl _)
  · intro call admitted
    rw [of_decide_eq_true admitted]
    rfl
  · intro s call move t after rest acted owned
    exact given_of_acts (acts_of_act acted) owned
  · intro _ e
    exact e.elim

/-- So no two calls hold it. -/
theorem nodup_lock (chain : Steps system.step Always ⟨init, []⟩ pool) :
    (pool.procs.flatMap PublishCall.held).Nodup := by
  refine (owns_lock chain).nodup ?_
  unfold given
  split
  · exact List.nodup_singleton _
  · exact List.nodup_nil

/-! ## What was paid -/

/-- The number is that of the failures in a row, and every rebuild was paid for by ten. While nobody
has the lock, those in a row are not spent. -/
structure Paid (s : AggregatorKafkaProducer) : Prop where
  counts : s.consecutiveFailures = s.inRow % 2 ^ 32
  spent : 10 * s.producer ≤ s.failures
  saved : s.locked = false → 10 * s.producer + s.inRow ≤ s.failures

/-- What the call with the lock knows. -/
def Knows (s : AggregatorKafkaProducer) : PublishCall → Prop
  | .checking => s.locked = true ∧ 10 * s.producer + s.inRow ≤ s.failures
  | .building => s.locked = true ∧ 10 * (s.producer + 1) ≤ s.failures ∧
      10 * s.producer + s.inRow ≤ s.failures
  | .releasing => 10 * s.producer + s.inRow ≤ s.failures
  | _ => True

/-- Another call without the lock only marks. -/
theorem knows_of_mark {other : PublishCall} (knows : Knows s other)
    (producer : t.producer = s.producer) (locked : s.locked = true → t.locked = true)
    (marked : t.inRow ≤ s.inRow ∧ t.failures = s.failures ∨
      t.inRow = s.inRow + 1 ∧ t.failures = s.failures + 1) : Knows t other := by
  cases other with
  | checking =>
    refine ⟨locked knows.1, ?_⟩
    have saved := knows.2
    rw [producer]
    omega
  | building =>
    obtain ⟨isLocked, paid, saved⟩ := knows
    refine ⟨locked isLocked, ?_, ?_⟩
    · rw [producer]
      omega
    · rw [producer]
      omega
  | releasing =>
    have saved : 10 * s.producer + s.inRow ≤ s.failures := knows
    show 10 * t.producer + t.inRow ≤ t.failures
    rw [producer]
    omega
  | _ => trivial

/-- Enough failures were counted, so there were as many in a row. -/
theorem ten_in_row (paid : Paid s) (many : ¬ s.consecutiveFailures < rebuildAfterFailures) :
    10 ≤ s.inRow := by
  have counts := paid.counts
  have below := Nat.mod_le s.inRow (2 ^ 32)
  unfold rebuildAfterFailures at many
  omega

theorem paid_of_mark {next : AggregatorKafkaProducer} (paid : Paid s)
    (producer : next.producer = s.producer) (locked : next.locked = s.locked)
    (counts : next.consecutiveFailures = next.inRow % 2 ^ 32)
    (marked : next.inRow ≤ s.inRow ∧ next.failures = s.failures ∨
      next.inRow = s.inRow + 1 ∧ next.failures = s.failures + 1) : Paid next where
  counts := counts
  spent := by
    have spent := paid.spent
    rw [producer]
    omega
  saved unlocked := by
    have saved := paid.saved (locked ▸ unlocked)
    rw [producer]
    omega

theorem counts_markFailure (paid : Paid s) :
    s.markFailure.consecutiveFailures = s.markFailure.inRow % 2 ^ 32 := by
  rw [inRow_markFailure]
  simp only [markFailure, paid.counts, Nat.mod_add_mod]

theorem paid_markSuccess (paid : Paid s) : Paid s.markSuccess :=
  paid_of_mark paid rfl rfl rfl (.inl ⟨Nat.zero_le _, failures_markSuccess⟩)

theorem paid_markFailure (paid : Paid s) : Paid s.markFailure :=
  paid_of_mark paid rfl rfl (counts_markFailure paid)
    (.inr ⟨inRow_markFailure, failures_markFailure⟩)

/-- A move keeps what is paid, and what the call that made it knows. -/
theorem paid_of_acts (paid : Paid s) (knows : Knows s call) (acts : Acts s call move t after) :
    Paid t ∧ Knows t after := by
  cases acts with
  | cloned => exact ⟨paid, trivial⟩
  | sent producer ok =>
    cases ok with
    | false => exact ⟨paid, trivial⟩
    | true => exact ⟨paid, trivial⟩
  | succeeded => exact ⟨paid_markSuccess paid, trivial⟩
  | counted => exact ⟨paid_markFailure paid, trivial⟩
  | crossed => exact ⟨paid_markFailure paid, trivial⟩
  | locked unlocked =>
    exact ⟨⟨paid.counts, paid.spent, fun locked => by cases locked⟩, rfl, paid.saved unlocked⟩
  | skipped => exact ⟨paid, trivial⟩
  | reset => exact ⟨paid, knows.2⟩
  | decided many =>
    have enough := ten_in_row paid many
    obtain ⟨locked, saved⟩ := knows
    exact ⟨paid, locked, by omega, saved⟩
  | built =>
    obtain ⟨locked, enough, -⟩ := knows
    refine ⟨⟨paid.counts, enough, fun unlocked => ?_⟩, trivial⟩
    exact absurd (locked.symm.trans unlocked) Bool.false_ne_true.symm
  | unbuilt => exact ⟨paid, knows.2.2⟩
  | stored =>
    -- the ten are spent, and there is none in a row
    have same : failures ⟨s.producer, s.locked, 0, .rebuilt :: s.marks⟩ = s.failures :=
      List.count_cons_of_ne (by decide)
    have spent : 10 * s.producer ≤ failures ⟨s.producer, s.locked, 0, .rebuilt :: s.marks⟩ :=
      paid.spent.trans_eq same.symm
    exact ⟨⟨rfl, spent, fun _ => spent⟩, spent⟩
  | released => exact ⟨⟨paid.counts, paid.spent, fun _ => knows⟩, trivial⟩
  | dropped => exact ⟨paid, trivial⟩

/-- A move of another call, where only one has the lock. -/
theorem knows_of_acts {other : PublishCall} (knows : Knows s other)
    (apart : call.held.Disjoint other.held) (acts : Acts s call move t after) : Knows t other := by
  -- with the lock elsewhere the other call knows nothing
  have elsewhere (mine : call.held = [()]) {u : AggregatorKafkaProducer} : Knows u other := by
    rw [mine] at apart
    cases other with
    | checking => exact (apart List.mem_cons_self List.mem_cons_self).elim
    | building => exact (apart List.mem_cons_self List.mem_cons_self).elim
    | releasing => exact (apart List.mem_cons_self List.mem_cons_self).elim
    | _ => trivial
  cases acts with
  | cloned => exact knows
  | sent => exact knows
  | succeeded => exact knows_of_mark knows rfl id (.inl ⟨Nat.zero_le _, failures_markSuccess⟩)
  | counted => exact knows_of_mark knows rfl id (.inr ⟨inRow_markFailure, failures_markFailure⟩)
  | crossed => exact knows_of_mark knows rfl id (.inr ⟨inRow_markFailure, failures_markFailure⟩)
  | locked => exact knows_of_mark knows rfl (fun _ => rfl) (.inl ⟨Nat.le_refl _, rfl⟩)
  | skipped => exact knows
  | reset => exact knows
  | decided => exact knows
  | built => exact elsewhere rfl
  | unbuilt => exact knows
  | stored => exact elsewhere rfl
  | released => exact elsewhere rfl
  | dropped => exact knows

/-- In every run all rebuilds are paid. -/
theorem paid_run (chain : Steps system.step Always ⟨init, []⟩ pool) : Holds Paid Knows pool := by
  have initially : Paid init := ⟨rfl, Nat.le_refl _, fun _ => Nat.le_refl _⟩
  refine invariant_apart (fun _ prior => nodup_lock prior) ?_ ?_ ?_ ?_ chain (holds_nil initially)
  · intro s call admitted _
    rw [of_decide_eq_true admitted]
    trivial
  · intro s i move call t after here _ holds acted
    exact paid_of_acts holds.1 (holds.2 call (List.mem_of_getElem? here)) (acts_of_act acted)
  · intro s call move t after other _ _ knows apart acted
    exact knows_of_acts knows apart (acts_of_act acted)
  · intro _ e
    exact e.elim

/-- The latest marks are failures, as many as there are in a row. -/
theorem take_inRow : s.marks.take s.inRow = List.replicate s.inRow .failed := by
  refine List.eq_replicate_iff.mpr ⟨?_, ?_⟩
  · exact List.length_take_of_le (List.takeWhile_prefix _).length_le
  · intro mark mem
    have among : s.marks.take s.inRow = s.marks.takeWhile (· = .failed) :=
      List.prefix_iff_eq_take.mp (List.takeWhile_prefix _) |>.symm
    rw [among] at mem
    simpa using List.mem_takeWhile_imp mem

/-- However the calls overlap: the producer was replaced at most once for every ten failures, by one
call at a time, and whenever a call decides to replace it, the last ten marks were failures. -/
theorem rebuilds_are_paid_for (chain : Steps system.step Always ⟨init, []⟩ pool) :
    10 * pool.shared.producer ≤ pool.shared.failures ∧
      (pool.procs.flatMap PublishCall.held).length ≤ 1 ∧
      ∀ i later, pool.procs[i]? = some .checking → system.step pool (.move i .load) = some later →
        later.procs[i]? = some .building →
        pool.shared.marks.take 10 = List.replicate 10 .failed := by
  have paid := (paid_run chain).1
  refine ⟨paid.spent, ?_, ?_⟩
  · rw [← (owns_lock chain).length_eq]
    unfold given
    split
    · exact Nat.le_refl 1
    · exact Nat.zero_le 1
  · intro i later here moved decided
    cases moves_of_step moved with
    | @move _ _ _ next _ there acted =>
      cases here.symm.trans there
      have becomes : next = .building := by
        rw [List.getElem?_set_self (List.getElem?_eq_some_iff.mp here).1] at decided
        exact Option.some.inj decided
      have many : ¬ pool.shared.consecutiveFailures < rebuildAfterFailures := by
        have acts : Acts pool.shared .checking .load _ next := acts_of_act acted
        cases acts with
        | reset => cases becomes
        | decided many => exact many
      have enough := ten_in_row paid many
      calc pool.shared.marks.take 10
          = (pool.shared.marks.take pool.shared.inRow).take 10 := by
            rw [List.take_take, Nat.min_eq_left enough]
        _ = List.replicate 10 .failed := by
            rw [take_inRow, List.take_replicate, Nat.min_eq_left enough]

/-- Ten calls in turn that fail, of which the last replaces the producer. -/
private def tenFailures : List (Event PublishCall Move Empty) :=
  (List.range 10).flatMap (fun i =>
      [.start .cloning, .move i .clone, .move i (.send false), .move i .mark]) ++
    [.move 9 (.tryWrite true), .move 9 .load, .move 9 (.build true), .move 9 .store,
      .move 9 .release]

private theorem tenFailures_run : (run system.step Always tenFailures ⟨init, []⟩).isSome := by
  decide +kernel

theorem ten_failures_rebuild :
    let pool := (run system.step Always tenFailures ⟨init, []⟩).get tenFailures_run
    pool.shared.producer = 1 ∧ pool.shared.consecutiveFailures = 0 ∧
      10 * pool.shared.producer ≤ pool.shared.failures :=
  ⟨by decide +kernel, by decide +kernel,
    (rebuilds_are_paid_for (Steps.of_run_get tenFailures_run)).1⟩

end AggregatorKafkaProducer

end AggregatorBridge
