import AggregatorBridge.MintInFlight

/-!
# One publish per key

The set of `MintInFlight` is at all times the keys of the guards that the calls hold, taken
together: a claim adds a key and a guard, and dropping a guard removes its key. A set holds a
key once, so no two guards have one key, and a publish goes out for keys that are guarded. When
nobody holds a guard any more, the set is empty.

A batch drops its guards one after another before it returns, and another call may publish a key
that has been dropped. So a publish counts as outstanding until the guard of its key is dropped;
counted until its call returns, a key may have two (`key_published_before_batch_returned`). Nor
does the law say anything of two processes, whose sets are apart.

The drain loop of `MintOutbox` takes the claims of an attempt for one step. `claims_alone` says
that it may: a call that nobody interrupts claims what it claims there.
-/

namespace AggregatorBridge

open Transition Pool.System

namespace MintCall

theorem published_sublist_held (call : MintCall) : call.published.Sublist call.held := by
  unfold published
  split
  · exact List.nil_sublist _
  · exact List.Sublist.refl _

theorem held_eq_nil_of_ended {call : MintCall} (ended : call.ended = true) : call.held = [] := by
  unfold MintCall.ended at ended
  split at ended
  · rfl
  · cases ended

end MintCall

namespace MintInFlight

variable {keys later : List String} {call next : MintCall} {m : Move}

/-- A move changes the set as it changes the guards of the call. -/
theorem perm_held_of_acts {rest : List String} (acts : Acts keys call m later next)
    (owned : keys.Perm (call.held ++ rest)) : later.Perm (next.held ++ rest) := by
  -- a key that is dropped is the first of those the call holds, so it is in the set
  have erased {key : String} {others : List String} (owned : keys.Perm (key :: others)) :
      (keys.erase key).Perm others := by
    simpa only [List.erase_cons_head] using owned.erase key
  cases acts with
  | taken _ => exact owned
  | claimed _ => exact owned.cons _
  | @resolved p _ inputs =>
    refine owned.trans (List.Perm.append_right rest ?_)
    simp only [MintCall.held, MintCall.guards, List.map_append, List.map_cons, List.map_nil]
    exact (List.perm_append_singleton p.field (inputs.map PendingMint.field)).symm
  | unresolved => exact owned
  | skipped => exact erased owned
  | sent _ => exact owned
  | unsent => exact owned
  | answered => exact owned
  | dropped => exact erased owned
  | panicked => exact owned

theorem nodup_of_acts (acts : Acts keys call m later next) (nodup : keys.Nodup) :
    later.Nodup := by
  cases acts with
  | claimed free => exact List.nodup_cons.mpr ⟨free, nodup⟩
  | skipped => exact nodup.erase _
  | dropped => exact nodup.erase _
  | _ => exact nodup

variable {s : Pool.State (List String) MintCall}

/-- The set is what the guards hold. -/
theorem owns_held (chain : Steps system.step Always ⟨[], []⟩ s) :
    Owns id MintCall.held s := by
  refine owns ?_ ?_ ?_ chain (List.Perm.refl _)
  · intro call admitted
    simp only [system] at admitted
    split at admitted
    · rfl
    · cases admitted
  · intro keys call m later next rest acted owned
    exact perm_held_of_acts (acts_of_act acted) owned
  · intro _ e
    exact e.elim

theorem nodup_shared (chain : Steps system.step Always ⟨[], []⟩ s) : s.shared.Nodup := by
  refine shared_invariant ?_ ?_ chain List.nodup_nil
  · intro s _ _ _ _ _ _ _ nodup acted
    exact nodup_of_acts (acts_of_act acted) nodup
  · intro _ e
    exact e.elim

/-- However the calls overlap, no key has two publishes whose guards are still held, within one
call or in two, and when all calls have ended no key is taken. -/
theorem one_publish_per_key (chain : Steps system.step Always ⟨[], []⟩ s) :
    (s.procs.flatMap MintCall.published).Nodup ∧
      ((∀ call ∈ s.procs, call.ended = true) → s.shared = []) := by
  have owned : s.shared.Perm (s.procs.flatMap MintCall.held) := owns_held chain
  constructor
  · have held : (s.procs.flatMap MintCall.held).Nodup := owned.nodup (nodup_shared chain)
    refine held.sublist ?_
    induction s.procs with
    | nil => exact List.Sublist.refl _
    | cons call procs ih =>
      simp only [List.flatMap_cons]
      exact call.published_sublist_held.append ih
  · intro ended
    have none_held : s.procs.flatMap MintCall.held = [] :=
      List.flatMap_eq_nil_iff.mpr fun call mem => MintCall.held_eq_nil_of_ended (ended call mem)
    exact (none_held ▸ owned).eq_nil

/-- The sweep mints an entry. While the answer is awaited, a batch leaves it alone, gives up an
entry without a wallet, and publishes one that it has twice. -/
private def sweepAndDrain : List (Pool.Event MintCall Move Empty) :=
  let swept : PendingMint := ⟨"m", 0, 900, 1, 0⟩
  let orphan : PendingMint := ⟨"n", 0, 900, 1, 0⟩
  let twice : PendingMint := ⟨"m", 0, 1800, 1, 0⟩
  [.start (.attemptMint swept), .move 0 .claim, .move 0 (.wallet true),
    .start (.attemptMintBatch [swept, orphan, twice, twice]), .move 0 .send, .move 1 .claim,
    .move 1 .claim, .move 1 (.wallet false), .move 1 .release, .move 1 .claim,
    .move 1 (.wallet true), .move 1 .claim, .move 1 .send]

/-- Then the sweep hears from the bridge, and the batch panics. -/
private def sweepAndPanic : List (Pool.Event MintCall Move Empty) :=
  sweepAndDrain ++ [.move 0 .finish, .move 0 .release, .move 1 .panic, .move 1 .release]

private theorem sweepAndDrain_run :
    (Transition.run system.step Always sweepAndDrain ⟨[], []⟩).isSome := by
  decide +kernel

private theorem sweepAndPanic_run :
    (Transition.run system.step Always sweepAndPanic ⟨[], []⟩).isSome := by
  decide +kernel

private theorem sweepAndDrain_published :
    ((Transition.run system.step Always sweepAndDrain ⟨[], []⟩).get
      sweepAndDrain_run).procs.flatMap MintCall.published = ["m:900", "m:1800"] := by
  decide +kernel

/-- Both calls have a publish outstanding, for different keys, and at the end no key is taken. -/
theorem sweep_and_drain_exclusive :
    ["m:900", "m:1800"].Nodup ∧
      ((Transition.run system.step Always sweepAndPanic ⟨[], []⟩).get
        sweepAndPanic_run).shared = [] := by
  constructor
  · have halfway := (one_publish_per_key (Steps.of_run_get sweepAndDrain_run)).1
    rwa [sweepAndDrain_published] at halfway
  · exact (one_publish_per_key (Steps.of_run_get sweepAndPanic_run)).2 (by decide +kernel)

/-- A batch has published two keys and heard of both. It has dropped the guard of the first when
the sweep attempts the same mint again. -/
private def batchStillDropping : List (Pool.Event MintCall Move Empty) :=
  let first : PendingMint := ⟨"m", 0, 900, 1, 0⟩
  let second : PendingMint := ⟨"m", 0, 1800, 1, 0⟩
  [.start (.attemptMintBatch [first, second]), .move 0 .claim, .move 0 (.wallet true),
    .move 0 .claim, .move 0 (.wallet true), .move 0 .send, .move 0 .finish, .move 0 .release,
    .start (.attemptMint first), .move 1 .claim, .move 1 (.wallet true), .move 1 .send]

private theorem batchStillDropping_run :
    (Transition.run system.step Always batchStillDropping ⟨[], []⟩).isSome := by
  decide +kernel

private theorem batchStillDropping_unreturned :
    ((Transition.run system.step Always batchStillDropping ⟨[], []⟩).get
      batchStillDropping_run).procs.flatMap MintCall.unreturned = ["m:900", "m:1800", "m:900"] := by
  decide +kernel

/-- Of the calls that have not returned, two have published one key. -/
theorem key_published_before_batch_returned :
    ¬ ∀ s : Pool.State (List String) MintCall, Steps system.step Always ⟨[], []⟩ s →
      (s.procs.flatMap MintCall.unreturned).Nodup ∧
        ((∀ call ∈ s.procs, call.ended = true) → s.shared = []) := by
  intro law
  have nodup := (law _ (Steps.of_run_get batchStillDropping_run)).1
  rw [batchStillDropping_unreturned] at nodup
  revert nodup
  decide

/-! ## A call that nobody interrupts -/

variable {τ : Type}

/-- One call, moving alone, ends its claims with the entries that `Outbox.claim` picks. -/
theorem claims_alone (resolved : String → Bool) (ps : List (Owed τ)) {keys : List String}
    {calls : List MintCall} {i : Nat} {inputs : List PendingMint}
    (here : calls[i]? = some (.claiming (ps.map Owed.mint) inputs)) :
    Steps system.step Always ⟨keys, calls⟩
      ⟨((Outbox.claim resolved keys ps).map Owed.field).reverse ++ keys,
        calls.set i (.claiming [] (inputs ++ (Outbox.claim resolved keys ps).map Owed.mint))⟩ := by
  have inside : i < calls.length := (List.getElem?_eq_some_iff.mp here).1
  -- one move of the call, and what follows it
  have move {keys later : List String} {calls : List MintCall} {call next : MintCall} {m : Move}
      {s : Pool.State (List String) MintCall} (here : calls[i]? = some call)
      (acted : act keys call m = some (later, next))
      (rest : Steps system.step Always ⟨later, calls.set i next⟩ s) :
      Steps system.step Always ⟨keys, calls⟩ s :=
    (Steps.single (e := .move i m) trivial (step_move here acted)).trans rest
  induction ps generalizing keys calls inputs with
  | nil =>
    have same : calls.set i (.claiming [] inputs) = calls := by
      obtain ⟨_, now⟩ := List.getElem?_eq_some_iff.mp here
      simp only [List.map_nil] at now
      rw [← now, List.set_getElem_self]
    simp only [Outbox.claim, List.map_nil, List.reverse_nil, List.nil_append, List.append_nil, same]
    exact .refl _
  | cons p ps ih =>
    have reached {next : MintCall} : (calls.set i next)[i]? = some next :=
      List.getElem?_set_self inside
    have again {first next : MintCall} : (calls.set i first).set i next = calls.set i next :=
      List.set_set ..
    by_cases free : p.field ∉ keys
    · cases found : resolved p.mint.meterSerial with
      | true =>
        have claims : Outbox.claim resolved keys (p :: ps) =
            p :: Outbox.claim resolved (p.field :: keys) ps := by
          simp only [Outbox.claim, free, found, not_false_eq_true, and_self, if_true]
        rw [claims]
        refine move (m := .claim) here (act_claim_free free) ?_
        refine move (m := .wallet true) reached rfl ?_
        have rest := @ih (p.field :: keys)
          (calls.set i (.claiming (ps.map Owed.mint) (inputs ++ [p.mint]))) _ reached
          (by simpa using inside)
        simpa [again, Owed.field] using rest
      | false =>
        have claims : Outbox.claim resolved keys (p :: ps) = Outbox.claim resolved keys ps := by
          simp only [Outbox.claim, found, Bool.false_eq_true, and_false, if_false]
        rw [claims]
        refine move (m := .claim) here (act_claim_free free) ?_
        refine move (m := .wallet false) reached rfl ?_
        rw [again]
        refine move (m := .release) reached rfl ?_
        have rest := @ih keys (calls.set i (.claiming (ps.map Owed.mint) inputs)) _ reached
          (by simpa using inside)
        simpa [again, Owed.field] using rest
    · have claims : Outbox.claim resolved keys (p :: ps) = Outbox.claim resolved keys ps := by
        simp only [Outbox.claim, free, false_and, if_false]
      rw [claims]
      refine move (m := .claim) here (act_claim_taken (not_not.mp free)) ?_
      have rest := @ih keys (calls.set i (.claiming (ps.map Owed.mint) inputs)) _ reached
        (by simpa using inside)
      simpa [again] using rest

end MintInFlight

end AggregatorBridge
