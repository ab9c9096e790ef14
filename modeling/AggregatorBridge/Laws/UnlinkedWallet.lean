import AggregatorBridge.Laws.OwnerConvergence

/-!
# Unlinked wallets

An unlink clears the wallet from the rows of its user and from the user edge, where it matches.
A cleared row looks like one that never had a wallet, and a meter event fills such a row from its
own snapshot. The edge is safe: nothing but IAM writes it. So the wallet comes back exactly with
a meter event that still carries it, delivered again to a row without a wallet or about a serial
the user has no row for.

The law is about the rows. What a cache or a lookup in progress still holds of the wallet is for
`FreshWallet`.
-/

namespace AggregatorBridge

open Register (Op)

namespace OwnerReadModel

variable {pgUuid : UuidCodec} {db : OwnerReadModel}

/-- Neither a row of the user nor the user edge holds the wallet. -/
structure Gone (db : OwnerReadModel) (user : Uuid) (wallet : String) : Prop where
  edge : db.edge user ≠ some wallet
  row : ∀ serialNumber, db.row serialNumber ≠ some (user, some wallet)

/-- IAM makes the wallet the primary one of the user. -/
def Relinks (user : Uuid) (wallet : String) (event : FeedEvent) : Prop :=
  ∃ userEvent, event = .user userEvent ∧ userEvent.userId = user ∧
    userEvent.walletOp = some (.assign (some wallet))

/-- A meter event that still carries the wallet finds another one in its row. -/
def Harmless (pgUuid : UuidCodec) (db : OwnerReadModel) (user : Uuid) (wallet : String)
    (event : FeedEvent) : Prop :=
  ∀ meterEvent, event = .meter meterEvent → meterEvent.userId = user →
    meterEvent.snapshot = some wallet →
    ∃ held, db.row (meterEvent.serialNumber pgUuid) = some (user, some held)

section Unlinked

variable {user : Uuid} {wallet : String}

theorem gone_unlink (db : OwnerReadModel) (event : UserEvent) (mine : event.userId = user)
    (unlinks : event.walletOp = some (.clear wallet)) :
    Gone (db.dispatch pgUuid (.user event)) user wallet := by
  have ops : event.walletOpsFor user = [.clear wallet] := by
    rw [UserEvent.walletOpsFor, if_pos mine, unlinks]
    rfl
  constructor
  · rw [edge_dispatch_user, ops]
    exact Op.apply_clear_ne wallet _
  · intro serialNumber found
    rw [row_dispatch_user] at found
    obtain ⟨⟨owner, held⟩, _, now⟩ := Option.map_eq_some_iff.mp found
    obtain ⟨rfl, cleared⟩ := Prod.mk.inj now
    rw [ops] at cleared
    exact Op.apply_clear_ne wallet held cleared

theorem relinks_of_assign {event : UserEvent}
    (mem : Op.assign (some wallet) ∈ event.walletOpsFor user) :
    Relinks user wallet (.user event) := by
  unfold UserEvent.walletOpsFor at mem
  split at mem
  · next mine => exact ⟨event, rfl, mine, Option.mem_toList.mp mem⟩
  · cases mem

theorem Gone.dispatch_user (gone : Gone db user wallet) {event : UserEvent}
    (no_relink : ¬ Relinks user wallet (.user event)) :
    Gone (db.dispatch pgUuid (.user event)) user wallet := by
  have none_assigns : Op.assign (some wallet) ∉ event.walletOpsFor user :=
    mt relinks_of_assign no_relink
  constructor
  · rw [edge_dispatch_user]
    exact Register.run_ne_of_no_assign gone.edge none_assigns
  · intro serialNumber found
    rw [row_dispatch_user] at found
    obtain ⟨⟨owner, held⟩, before, now⟩ := Option.map_eq_some_iff.mp found
    obtain ⟨rfl, brought⟩ := Prod.mk.inj now
    have absent : held ≠ some wallet := by
      rintro rfl
      exact gone.row serialNumber before
    exact Register.run_ne_of_no_assign absent none_assigns brought

/-- A meter event brings the wallet back exactly when it carries it to a row that has none. -/
theorem Gone.dispatch_meter_iff (gone : Gone db user wallet) (event : MeterEvent) :
    Gone (db.dispatch pgUuid (.meter event)) user wallet ↔
      db.Harmless pgUuid user wallet (.meter event) := by
  constructor
  · rintro still _ ⟨rfl⟩ mine carried
    have stored := still.row (event.serialNumber pgUuid)
    rw [row_dispatch_meter, if_pos rfl, mine, carried, Option.some_or] at stored
    cases found : db.row (event.serialNumber pgUuid) with
    | none =>
      rw [found] at stored
      exact absurd rfl stored
    | some row =>
      obtain ⟨owner, held⟩ := row
      rw [found] at stored
      by_cases same : owner = user
      · subst same
        rw [mergedWallet_same] at stored
        cases held with
        | none => exact absurd rfl stored
        | some held => exact ⟨held, rfl⟩
      · rw [mergedWallet_other same] at stored
        exact absurd rfl stored
  · intro harmless
    refine ⟨gone.edge, fun serialNumber found => ?_⟩
    rw [row_dispatch_meter] at found
    split at found
    · next here =>
      obtain ⟨mine, merged⟩ := Prod.mk.inj (Option.some.inj found)
      -- the wallet would have to come from the row, the snapshot or the edge
      have excluded : event.snapshot ≠ some wallet →
          event.snapshot.or (db.edge event.userId) ≠ some wallet := by
        intro other stored
        rw [Option.or_eq_some_iff] at stored
        rcases stored with carried | ⟨_, kept⟩
        · exact other carried
        · exact gone.edge (mine ▸ kept)
      by_cases carried : event.snapshot = some wallet
      · obtain ⟨held, row⟩ := harmless event rfl mine carried
        rw [here, row, mine, mergedWallet_same, Option.some_or] at merged
        cases merged
        exact gone.row _ row
      · unfold mergedWallet at merged
        split at merged
        · next owner held row =>
          split at merged
          · next same =>
            rw [Option.or_eq_some_iff] at merged
            rcases merged with kept | ⟨_, stored⟩
            · rw [kept, same, mine] at row
              exact gone.row _ row
            · exact excluded carried stored
          · exact excluded carried merged
        · exact excluded carried merged
    · exact gone.row _ found

/-- The user edge cannot bring the wallet back. -/
theorem Gone.edge_feed (gone : Gone db user wallet) {events : List FeedEvent}
    (no_relink : ∀ event ∈ events, ¬ Relinks user wallet event) :
    (db.feed pgUuid events).edge user ≠ some wallet := by
  rw [OwnerReadModel.edge_feed]
  apply Register.run_ne_of_no_assign gone.edge
  intro mem
  obtain ⟨event, listed, assigns⟩ := List.mem_flatMap.mp mem
  obtain ⟨fed, inFeed, isUser⟩ := List.mem_filterMap.mp listed
  cases fed with
  | user fed =>
    cases isUser
    exact no_relink _ inFeed (relinks_of_assign assigns)
  | meter fed => cases isUser
  | skipped => cases isUser

theorem Gone.of_harmless (gone : Gone db user wallet) {events : List FeedEvent}
    (no_relink : ∀ event ∈ events, ¬ Relinks user wallet event)
    (harmless : ∀ before event, before ++ [event] <+: events →
      (db.feed pgUuid before).Harmless pgUuid user wallet event) :
    Gone (db.feed pgUuid events) user wallet := by
  induction events using List.reverseRecOn with
  | nil => exact gone
  | append_singleton events event ih =>
    have before : Gone (db.feed pgUuid events) user wallet := by
      apply ih
      · exact fun event mem => no_relink event (List.mem_append_left _ mem)
      · exact fun before event initial => harmless before event
          (initial.trans (List.prefix_append events _))
    have last := harmless events event (List.prefix_refl _)
    rw [feed_append]
    cases event with
    | meter event => exact (before.dispatch_meter_iff event).mpr last
    | user event =>
      have mem : .user event ∈ events ++ [.user event] :=
        List.mem_append_right _ (List.mem_singleton_self _)
      show Gone ((db.feed pgUuid events).dispatch pgUuid (.user event)) user wallet
      exact before.dispatch_user (no_relink (.user event) mem)
    | skipped => exact before

/-- Once a wallet is unlinked, no row of its user holds it again before IAM makes it primary
again, exactly when every meter event of the user that still carries it is applied to a row of
that user which has a wallet. -/
theorem unlinked_wallet_stays_gone_iff (pgUuid : UuidCodec) (db : OwnerReadModel) (user : Uuid)
    (wallet : String) (unlink : UserEvent) (mine : unlink.userId = user)
    (unlinks : unlink.walletOp = some (.clear wallet)) (events : List FeedEvent)
    (no_relink : ∀ event ∈ events, ¬ Relinks user wallet event) :
    (∀ before, before <+: events → ∀ serialNumber,
      ((db.dispatch pgUuid (.user unlink)).feed pgUuid before).row serialNumber ≠
        some (user, some wallet)) ↔
    ∀ before event, before ++ [event] <+: events →
      ((db.dispatch pgUuid (.user unlink)).feed pgUuid before).Harmless pgUuid user wallet
        event := by
  have gone : Gone (db.dispatch pgUuid (.user unlink)) user wallet := gone_unlink db unlink mine
    unlinks
  constructor
  · intro never before event initial
    have gone_after : ∀ earlier, earlier <+: events →
        Gone ((db.dispatch pgUuid (.user unlink)).feed pgUuid earlier) user wallet :=
      fun earlier shorter =>
        ⟨gone.edge_feed fun event mem => no_relink event (shorter.subset mem), never earlier shorter⟩
    cases event with
    | meter event =>
      rw [← (gone_after before ((List.prefix_append before _).trans initial)).dispatch_meter_iff]
      have after := gone_after _ initial
      rw [feed_append] at after
      exact after
    | user event => exact nofun
    | skipped => exact nofun
  · intro harmless before initial serialNumber
    have still : Gone ((db.dispatch pgUuid (.user unlink)).feed pgUuid before) user wallet := by
      apply gone.of_harmless
      · exact fun event mem => no_relink event (initial.subset mem)
      · exact fun earlier event shorter => harmless earlier event (shorter.trans initial)
    exact still.row serialNumber

/-- The event that registered a meter is delivered again after its owner unlinked the wallet. -/
theorem redelivery_resurrects_wallet :
    ((empty.feed noUuids [.meter (registered "M1" 1 "w")]).dispatch noUuids
        (.user (unlinked 1 "w"))).row "M1" = some (1, none) ∧
    (((empty.feed noUuids [.meter (registered "M1" 1 "w")]).dispatch noUuids
        (.user (unlinked 1 "w"))).feed noUuids [.meter (registered "M1" 1 "w")]).row "M1" =
      some (1, some "w") := by
  decide +kernel

/-- A user with a new wallet; the old registration is delivered again. -/
theorem replaced_wallet_stays_gone :
    (((empty.feed noUuids [.meter (registered "M1" 1 "w")]).dispatch noUuids
        (.user (unlinked 1 "w"))).feed noUuids
      [.user (linked 1 "v"), .meter (registered "M1" 1 "w")]).row "M1" ≠ some (1, some "w") := by
  refine (unlinked_wallet_stays_gone_iff noUuids _ 1 "w" (unlinked 1 "w") rfl (by decide +kernel)
    [.user (linked 1 "v"), .meter (registered "M1" 1 "w")] ?_).mpr ?_ _ (List.prefix_refl _) "M1"
  · rintro event mem ⟨linking, rfl, _, assigns⟩
    rcases List.mem_cons.mp mem with now | now
    · cases now
      exact absurd assigns (by decide +kernel)
    · cases List.mem_singleton.mp now
  · rintro before event ⟨after, order⟩ again rfl _ _
    match before, order with
    | [], order => cases order
    | [_], order =>
      cases order
      exact ⟨"v", by decide +kernel⟩
    | _ :: _ :: _, order => simp at order

end Unlinked

end OwnerReadModel

end AggregatorBridge
