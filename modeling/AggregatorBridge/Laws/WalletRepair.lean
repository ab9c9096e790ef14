import AggregatorBridge.Lib.Run
import AggregatorBridge.Laws.OwnerConvergence

/-!
# Repaired wallets

A wallet in the tables is right if the events about its user that are still to be applied turn
it into the wallet IAM holds (`Leads`). The feed keeps that up for every wallet it finds, and a
null may stay behind only while the pass has not settled its user. What the pass writes was right
when it looked it up. It is not right any more when IAM has moved on and the feed has already
applied what it said, because then nothing is left to put the row straight.

The law is about the state in which the feed has caught up. It does not say when that is, and before
then a wallet may be behind.
-/

namespace AggregatorBridge

open Remote Transition
open Register (Op)
open OwnerReadModel

/-- The wallet of an assignment is the one the event carries. -/
theorem UserEvent.walletOp_assign {event : UserEvent} {wallet : Option String}
    (assigns : event.walletOp = some (.assign wallet)) :
    wallet = walletOrNone event.data.walletAddress := by
  unfold UserEvent.walletOp at assigns
  simp only at assigns
  split at assigns
  · obtain ⟨_, _, other⟩ := Option.map_eq_some_iff.mp assigns
    cases other
  · split at assigns
    · cases assigns
    · split at assigns
      · cases assigns
      · cases assigns
        rfl

/-- IAM does to its wallet what it says in the event. -/
theorem UserEvent.walletOrNone_iamWallet (event : UserEvent) (held : Option String) :
    walletOrNone (event.iamWallet held) =
      Register.run event.walletOp.toList (walletOrNone held) := by
  unfold UserEvent.iamWallet
  cases write : event.walletOp with
  | none => rfl
  | some op =>
    cases op with
    | assign wallet => exact (UserEvent.walletOp_assign write).symm
    | clear wallet =>
      show walletOrNone (if _ then none else held) = (Op.clear wallet).apply (walletOrNone held)
      simp only [Op.apply]
      split
      · rfl
      · rfl

namespace RepairWorld

/-- The writes to the wallet of a user that are still to be applied. -/
def writesTo (w : RepairWorld) (user : Uuid) : List (Op String) :=
  walletOpsOf user (w.pending user)

/-- What is still to be applied turns the wallet into the one IAM holds. -/
def Leads (w : RepairWorld) (user : Uuid) (wallet : Option String) : Prop :=
  Register.run (w.writesTo user) wallet = walletOrNone (w.iam user)

instance (w : RepairWorld) (user : Uuid) (wallet : Option String) :
    Decidable (w.Leads user wallet) :=
  inferInstanceAs (Decidable (_ = _))

/-- A wallet the tables may hold: a right one, or none while the user is not settled. -/
def Sound (w : RepairWorld) (user : Uuid) (wallet : Option String) : Prop :=
  w.Leads user wallet ∨ wallet = none ∧ user ∉ w.repaired

/-- No wallet of the tables contradicts IAM. -/
structure Consistent (w : RepairWorld) : Prop where
  own : ∀ user, ∀ event ∈ w.pending user, event.userId = user
  /-- What is pending is how IAM came to its wallet. -/
  source : ∀ user, ∃ earlier, w.Leads user earlier
  edge : ∀ user, w.Sound user (w.db.edge user)
  row : ∀ serialNumber user wallet,
    w.db.row serialNumber = some (user, wallet) → w.Sound user wallet

/-- A wallet that comes from outside the user topic is written only if it still leads to the one
IAM holds: the one the pass looked up, and the snapshot of a meter event whose row has none. -/
def StillRight (pgUuid : UuidCodec) (w : RepairWorld) : Event → Prop
  | .write _ =>
    match w.stage with
    | .writing user wallet _ => w.Leads user (some wallet)
    | _ => True
  | .applyMeter event =>
    event.snapshot = none ∨ w.Leads event.userId event.snapshot ∨
      (w.db.row (event.serialNumber pgUuid)).any fun row =>
        row.1 = event.userId ∧ row.2.isSome
  | _ => True

instance (pgUuid : UuidCodec) (w : RepairWorld) (event : Event) :
    Decidable (w.StillRight pgUuid event) := by
  cases event with
  | write reply =>
    show Decidable (match w.stage with
      | .writing user wallet _ => w.Leads user (some wallet)
      | _ => True)
    split <;> infer_instance
  | applyMeter event => exact inferInstanceAs (Decidable (_ ∨ _ ∨ _))
  | iamChanges event => exact inferInstanceAs (Decidable True)
  | applyUser user => exact inferInstanceAs (Decidable True)
  | scan users => exact inferInstanceAs (Decidable True)
  | scanFails => exact inferInstanceAs (Decidable True)
  | resolve => exact inferInstanceAs (Decidable True)
  | resolveFails => exact inferInstanceAs (Decidable True)

section Steps

variable {pgUuid : UuidCodec} {w : RepairWorld} {user : Uuid} {wallet : Option String}

theorem consistent_iamChanges (consistent : Consistent w) (event : UserEvent) :
    Consistent { w with
      iam := Function.update w.iam event.userId (event.iamWallet (w.iam event.userId))
      pending := Function.update w.pending event.userId (w.pending event.userId ++ [event]) } := by
  set next : RepairWorld := { w with
    iam := Function.update w.iam event.userId (event.iamWallet (w.iam event.userId))
    pending := Function.update w.pending event.userId (w.pending event.userId ++ [event]) }
  have leads : ∀ user wallet, w.Leads user wallet → next.Leads user wallet := by
    intro user wallet right
    by_cases mine : user = event.userId
    · subst mine
      show Register.run (walletOpsOf _ (Function.update w.pending event.userId _ event.userId)) wallet
        = walletOrNone (Function.update w.iam event.userId _ event.userId)
      rw [Function.update_self, Function.update_self, UserEvent.walletOrNone_iamWallet, walletOpsOf,
        List.flatMap_append, Register.run_append, List.flatMap_singleton, UserEvent.walletOpsFor,
        if_pos rfl]
      exact congrArg _ right
    · show Register.run (walletOpsOf user (Function.update w.pending event.userId _ user)) wallet
        = walletOrNone (Function.update w.iam event.userId _ user)
      rw [Function.update_of_ne mine, Function.update_of_ne mine]
      exact right
  have sound : ∀ user wallet, w.Sound user wallet → next.Sound user wallet :=
    fun user wallet => Or.imp_left (leads user wallet)
  refine ⟨?_, ?_, ?_, ?_⟩
  · intro user other mem
    by_cases mine : user = event.userId
    · subst mine
      rw [show next.pending event.userId = _ from Function.update_self ..] at mem
      rcases List.mem_append.mp mem with before | now
      · exact consistent.own _ other before
      · rw [List.mem_singleton.mp now]
    · rw [show next.pending user = _ from Function.update_of_ne mine ..] at mem
      exact consistent.own user other mem
  · intro user
    obtain ⟨earlier, right⟩ := consistent.source user
    exact ⟨earlier, leads user earlier right⟩
  · exact fun user => sound user _ (consistent.edge user)
  · exact fun serialNumber user wallet found =>
      sound user wallet (consistent.row serialNumber user wallet found)

theorem consistent_applyUser (consistent : Consistent w) {event : UserEvent}
    {rest : List UserEvent} (first : w.pending user = event :: rest) :
    Consistent { w with
      db := w.db.dispatch pgUuid (.user event)
      pending := Function.update w.pending user rest } := by
  set next : RepairWorld := { w with
    db := w.db.dispatch pgUuid (.user event)
    pending := Function.update w.pending user rest }
  have mine : event.userId = user :=
    consistent.own user event (first ▸ List.mem_cons_self)
  -- what is applied now was pending before, for every user
  have writes : ∀ other, w.writesTo other = event.walletOpsFor other ++ next.writesTo other := by
    intro other
    by_cases same : other = user
    · subst same
      show walletOpsOf other (w.pending other) =
        _ ++ walletOpsOf other (Function.update w.pending other rest other)
      rw [Function.update_self, first]
      rfl
    · show walletOpsOf other (w.pending other) =
        _ ++ walletOpsOf other (Function.update w.pending user rest other)
      rw [Function.update_of_ne same, UserEvent.walletOpsFor,
        if_neg fun theirs => same (theirs.symm.trans mine), List.nil_append]
  have leads : ∀ other wallet, w.Leads other wallet →
      next.Leads other (Register.run (event.walletOpsFor other) wallet) := by
    intro other wallet right
    unfold Leads at right
    rw [writes, Register.run_append] at right
    exact right
  have sound : ∀ other wallet, w.Sound other wallet →
      next.Sound other (Register.run (event.walletOpsFor other) wallet) := by
    rintro other wallet (right | ⟨rfl, unsettled⟩)
    · exact .inl (leads other wallet right)
    · by_cases assigns : Register.Assigns (event.walletOpsFor other)
      · obtain ⟨earlier, right⟩ := consistent.source other
        rw [Register.run_eq_of_assigns assigns none earlier]
        exact .inl (leads other earlier right)
      · exact .inr ⟨Register.run_none assigns, unsettled⟩
  refine ⟨?_, ?_, ?_, ?_⟩
  · intro other pending mem
    by_cases same : other = user
    · subst same
      rw [show next.pending other = rest from Function.update_self ..] at mem
      exact consistent.own other pending (first ▸ List.mem_cons_of_mem _ mem)
    · rw [show next.pending other = _ from Function.update_of_ne same ..] at mem
      exact consistent.own other pending mem
  · intro other
    obtain ⟨earlier, right⟩ := consistent.source other
    exact ⟨_, leads other earlier right⟩
  · intro other
    show next.Sound other ((w.db.dispatch pgUuid (.user event)).edge other)
    rw [edge_dispatch_user]
    exact sound other _ (consistent.edge other)
  · intro serialNumber other wallet found
    rw [show next.db.row serialNumber = _ from row_dispatch_user pgUuid w.db event serialNumber]
      at found
    obtain ⟨⟨owner, held⟩, before, now⟩ := Option.map_eq_some_iff.mp found
    obtain ⟨rfl, rfl⟩ := Prod.mk.inj now
    exact sound owner held (consistent.row serialNumber owner held before)

/-- What a meter event leaves in a row is as good as what it is made of. -/
theorem sound_mergedWallet {held : Option (Uuid × Option String)} {excluded : Option String}
    (before : ∀ owner wallet, held = some (owner, wallet) → w.Sound owner wallet)
    (used : (∀ wallet, held ≠ some (user, some wallet)) → w.Sound user excluded) :
    w.Sound user (mergedWallet held user excluded) := by
  match held with
  | none => exact used nofun
  | some (owner, wallet) =>
    by_cases same : owner = user
    · subst same
      rw [mergedWallet_same]
      cases wallet with
      | none => exact used nofun
      | some wallet => exact before owner (some wallet) rfl
    · rw [mergedWallet_other same]
      refine used fun wallet theirs => same ?_
      exact congrArg Prod.fst (Option.some.inj theirs)

theorem consistent_applyMeter (consistent : Consistent w) {event : MeterEvent}
    (right : w.StillRight pgUuid (.applyMeter event)) :
    Consistent { w with db := w.db.dispatch pgUuid (.meter event) } := by
  refine ⟨consistent.own, consistent.source, consistent.edge, ?_⟩
  intro serialNumber user wallet found
  rw [show ({ w with db := w.db.dispatch pgUuid (.meter event) } : RepairWorld).db.row serialNumber
    = _ from row_dispatch_meter pgUuid w.db event serialNumber] at found
  split at found
  · next here =>
    obtain ⟨rfl, rfl⟩ := Prod.mk.inj (Option.some.inj found)
    subst here
    have edge : w.Sound event.userId (w.db.edge event.userId) := consistent.edge event.userId
    show w.Sound event.userId (mergedWallet _ event.userId _)
    apply sound_mergedWallet (consistent.row _)
    intro missing
    rcases right with empty | leads | filled
    · rw [empty, Option.none_or]
      exact edge
    · cases carried : event.snapshot with
      | none => exact edge
      | some snapshot =>
        rw [carried] at leads
        exact .inl leads
    · obtain ⟨⟨owner, held⟩, before, kept⟩ := (Option.any_eq_true _ _).mp filled
      obtain ⟨rfl, full⟩ := of_decide_eq_true kept
      obtain ⟨wallet, rfl⟩ := Option.isSome_iff_exists.mp full
      exact absurd before (missing wallet)
  · exact consistent.row serialNumber user wallet found

/-- The pass moves on. -/
theorem Consistent.at_stage (consistent : Consistent w) (stage : RepairStage) :
    Consistent { w with stage := stage } :=
  ⟨consistent.own, consistent.source, consistent.edge, consistent.row⟩

/-- IAM has no wallet for a user: then what is pending leaves a null a null. -/
theorem consistent_resolve_none (consistent : Consistent w) (blank : walletOrNone (w.iam user) = none)
    (stage : RepairStage) :
    Consistent { w with stage := stage, repaired := user :: w.repaired } := by
  have leads : w.Leads user none := by
    obtain ⟨earlier, right⟩ := consistent.source user
    unfold Leads at right ⊢
    by_cases assigns : Register.Assigns (w.writesTo user)
    · rw [Register.run_eq_of_assigns assigns none earlier, right]
    · rw [Register.run_none assigns, blank]
  have sound : ∀ other wallet, w.Sound other wallet →
      Sound { w with stage := stage, repaired := user :: w.repaired } other wallet := by
    rintro other wallet (right | ⟨rfl, unsettled⟩)
    · exact .inl right
    · by_cases same : other = user
      · subst same
        exact .inl leads
      · exact .inr ⟨rfl, List.not_mem_cons_of_ne_of_not_mem same unsettled⟩
  exact ⟨consistent.own, consistent.source, fun other => sound other _ (consistent.edge other),
    fun serialNumber other wallet found =>
      sound other wallet (consistent.row serialNumber other wallet found)⟩

theorem consistent_write (consistent : Consistent w) {wallet : String}
    (right : w.Leads user (some wallet)) (stage : RepairStage) (repaired : List Uuid)
    (others : ∀ other, other ≠ user → other ∉ w.repaired → other ∉ repaired) :
    Consistent { w with
      db := w.db.updateWalletByUser user (some wallet)
      stage := stage
      repaired := repaired } := by
  set next : RepairWorld := { w with
    db := w.db.updateWalletByUser user (some wallet)
    stage := stage
    repaired := repaired }
  have written := written_update w.db user (some wallet)
  have sound : ∀ other wallet, other ≠ user → w.Sound other wallet → next.Sound other wallet := by
    rintro other wallet theirs (leads | ⟨rfl, unsettled⟩)
    · exact .inl leads
    · exact .inr ⟨rfl, others other theirs unsettled⟩
  refine ⟨consistent.own, consistent.source, ?_, ?_⟩
  · intro other
    show next.Sound other ((w.db.updateWalletByUser user (some wallet)).edge other)
    rw [written.edge]
    split
    · next mine => exact .inl (mine ▸ right)
    · next theirs => exact sound other _ (Ne.symm theirs) (consistent.edge other)
  · intro serialNumber other held found
    rw [show next.db.row serialNumber = _ from written.row serialNumber] at found
    obtain ⟨⟨owner, before⟩, was, now⟩ := Option.map_eq_some_iff.mp found
    split at now
    · next mine =>
      obtain ⟨rfl, rfl⟩ := Prod.mk.inj now
      exact .inl (mine ▸ right)
    · next theirs =>
      obtain ⟨rfl, rfl⟩ := Prod.mk.inj now
      exact sound owner before theirs (consistent.row serialNumber owner before was)

/-- Every step keeps the tables on the way to what IAM holds, as long as what comes from outside the
user topic is still right when it is written. -/
theorem consistent_step {w next : RepairWorld} {event : Event} (consistent : Consistent w)
    (right : w.StillRight pgUuid event) (moved : w.step pgUuid event = some next) :
    Consistent next := by
  cases event with
  | iamChanges event =>
    cases moved
    exact consistent_iamChanges consistent event
  | applyUser user =>
    simp only [step] at moved
    split at moved
    · cases moved
    · next event rest first =>
      cases moved
      exact consistent_applyUser consistent first
  | applyMeter event =>
    cases moved
    exact consistent_applyMeter consistent right
  | scan users =>
    simp only [step] at moved
    split at moved
    · cases moved
      exact consistent.at_stage _
    · cases moved
  | scanFails =>
    simp only [step] at moved
    split at moved
    · cases moved
      exact consistent.at_stage _
    · cases moved
  | resolve =>
    simp only [step] at moved
    split at moved
    · next user users stage =>
      split at moved
      · cases moved
        exact consistent.at_stage _
      · next blank =>
        cases moved
        exact consistent_resolve_none consistent blank _
    · cases moved
  | resolveFails =>
    simp only [step] at moved
    split at moved
    · cases moved
      exact consistent.at_stage _
    · cases moved
  | write reply =>
    simp only [step] at moved
    split at moved
    · next user wallet users stage =>
      cases moved
      have leads : w.Leads user (some wallet) := by
        simp only [StillRight, stage] at right
        exact right
      cases reply with
      | ok =>
        apply consistent_write consistent leads
        exact fun other theirs unsettled => List.not_mem_cons_of_ne_of_not_mem theirs unsettled
      | lost => exact consistent_write consistent leads _ _ fun other _ unsettled => unsettled
      | failed => exact consistent.at_stage _
    · cases moved

end Steps

/-- Once the feed has applied everything IAM emitted about a user, the tables hold the wallet IAM
holds if the pass has settled the user, and no other wallet in any case, as long as every wallet
that was written from outside the user topic was still right. Nothing is said of when the feed has
caught up. -/
theorem repaired_wallets_are_current (pgUuid : UuidCodec) {start w : RepairWorld}
    (consistent : Consistent start)
    (steps : Steps (step pgUuid) (StillRight pgUuid) start w)
    {user : Uuid} (drained : w.pending user = []) :
    (w.db.edge user = walletOrNone (w.iam user) ∨
      w.db.edge user = none ∧ user ∉ w.repaired) ∧
    ∀ serialNumber wallet, w.db.row serialNumber = some (user, wallet) →
      wallet = walletOrNone (w.iam user) ∨ wallet = none ∧ user ∉ w.repaired := by
  have ends : Consistent w :=
    steps.invariant (fun _ _ _ before right moved => consistent_step before right moved) consistent
  have leads : ∀ wallet, w.Sound user wallet →
      wallet = walletOrNone (w.iam user) ∨ wallet = none ∧ user ∉ w.repaired := by
    rintro wallet (right | unsettled)
    · unfold Leads writesTo at right
      rw [drained] at right
      exact .inl right
    · exact .inr unsettled
  exact ⟨leads _ (ends.edge user), fun serialNumber wallet found =>
    leads wallet (ends.row serialNumber user wallet found)⟩

/-- A meter whose owner has a wallet at IAM that the tables do not know. -/
def missingWallet : RepairWorld where
  db := empty.feed noUuids [.meter ⟨.meterRegistered, ⟨"M1", 1, none⟩⟩]
  iam := fun user => if user = 1 then some "first" else none
  pending := fun _ => []
  stage := .notStarted
  repaired := []

theorem consistent_missingWallet : Consistent missingWallet where
  own := nofun
  source user := ⟨walletOrNone (missingWallet.iam user), rfl⟩
  edge user := .inr ⟨rfl, List.not_mem_nil⟩
  row serialNumber user wallet found := by
    rw [show missingWallet.db.row serialNumber = _ from row_dispatch_meter noUuids empty _ _] at found
    split at found
    · obtain ⟨_, null⟩ := Prod.mk.inj (Option.some.inj found)
      exact .inr ⟨null.symm, List.not_mem_nil⟩
    · cases found

/-- IAM moves the wallet after the lookup, and the feed is faster than the write. -/
def overtaken : List Event :=
  [.scan [1], .resolve, .iamChanges (linked 1 "second"), .applyUser 1, .write .ok]

theorem overtaken_runs : (run (step noUuids) Always overtaken missingWallet).isSome := by
  decide +kernel

/-- The pass then puts the older wallet back, with nothing left to correct it. -/
theorem repair_undoes_newer_wallet :
    ∃ w, Steps (step noUuids) Always missingWallet w ∧ w.stage = .resolving [] ∧
      (∀ user, w.pending user = []) ∧ w.iam 1 = some "second" ∧
      w.db.edge 1 = some "first" ∧ w.db.row "M1" = some (1, some "first") := by
  refine ⟨_, Steps.of_run_get overtaken_runs, by decide +kernel, ?_, by decide +kernel,
    by decide +kernel, by decide +kernel⟩
  intro user
  by_cases mine : user = 1
  · subst mine
    decide +kernel
  · show Function.update (Function.update (fun _ => []) 1 _) 1 [] user = []
    rw [Function.update_of_ne mine, Function.update_of_ne mine]

/-- The same change, but the write comes before the feed. -/
def inTime : List Event :=
  [.scan [1], .resolve, .iamChanges (linked 1 "second"), .write .ok, .applyUser 1]

theorem inTime_runs : (run (step noUuids) (StillRight noUuids) inTime missingWallet).isSome := by
  decide +kernel

theorem repair_before_newer_wallet :
    ∃ w, Steps (step noUuids) (StillRight noUuids) missingWallet w ∧ w.iam 1 = some "second" ∧
      1 ∈ w.repaired ∧ w.db.edge 1 = walletOrNone (w.iam 1) := by
  refine ⟨_, Steps.of_run_get inTime_runs, by decide +kernel, by decide +kernel, ?_⟩
  have current := repaired_wallets_are_current noUuids consistent_missingWallet
    (Steps.of_run_get inTime_runs) (show RepairWorld.pending _ 1 = [] by decide +kernel)
  rcases current.1 with same | ⟨_, unsettled⟩
  · exact same
  · exact absurd (by decide +kernel) unsettled

end RepairWorld

end AggregatorBridge
