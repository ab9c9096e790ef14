import AggregatorBridge.Lib.Register
import AggregatorBridge.MeterRegistry

/-!
# The owner read model

Two Kafka topics feed two tables of the bridge. The meter service says whom a meter belongs to,
with the wallet its owner had when it was registered; IAM says which wallet a user has now.
`meter_owner_read_model` merges both by serial, and `user_wallet_read_model` keeps what IAM said
for users whose meters are not known yet. The topics are not ordered against each other.

A statement of the code is one step here, and so is a transaction. Decoding is left to `serde`:
an event is what it makes of a payload, and a payload it cannot decode, or an event of another
type, is `skipped`. Both tables also have an `updated_at`, which none of these statements reads.

The repair pass asks IAM for the wallets that are missing. It runs beside the feed, with an
await between its lookup and its write, so it is a state machine (`RepairWorld`).
-/

namespace AggregatorBridge

open Remote

/-! ## Events -/

/-- Blank wallets are no wallets. -/
def walletOrNone (raw : Option String) : Option String :=
  (raw.map Text.trim).filter (· ≠ "")

/-- What an event says of a meter. A wallet in it is the one its sender knew. -/
structure MeterEventData where
  serialNumber : String
  userId : Uuid
  walletAddress : Option String
  deriving DecidableEq

/-- What an event says of a user's wallet. -/
structure UserEventData where
  userId : Uuid
  walletAddress : Option String
  /-- Missing means primary. -/
  isPrimary : Option Bool
  deriving DecidableEq

/-- The two kinds of meter events, which are applied alike. -/
inductive MeterEventType where
  | meterRegistered
  | meterUpdated
  deriving DecidableEq, Repr

/-- The kinds of user events; not all of them change the read model. -/
inductive UserEventType where
  | emailVerified
  | userWalletLinked
  | userOnboarded
  | userWalletPrimaryChanged
  | userWalletUnlinked
  deriving DecidableEq, Repr

/-- A meter event as it was read from its topic. -/
structure MeterEvent where
  eventType : MeterEventType
  data : MeterEventData
  deriving DecidableEq

/-- A user event as it was read from its topic. -/
structure UserEvent where
  eventType : UserEventType
  data : UserEventData
  deriving DecidableEq

/-- What the feed is given; of what is skipped nothing is known. -/
inductive FeedEvent where
  | meter (event : MeterEvent)
  | user (event : UserEvent)
  | skipped
  deriving DecidableEq

/-- The meter events of a feed, as they stand in their topic. -/
def FeedEvent.meter? : FeedEvent → Option MeterEvent
  | meter event => some event
  | user _ => none
  | skipped => none

/-- The user events of a feed. -/
def FeedEvent.user? : FeedEvent → Option UserEvent
  | meter _ => none
  | user event => some event
  | skipped => none

/-! ## Tables -/

/-- The two tables that answer for owners and wallets once the cutover is made. -/
structure OwnerReadModel where
  /-- `meter_owner_read_model`: `serial_number` to `user_id` and `wallet_address`. -/
  meterOwner : Hash String (Uuid × Option String)
  /-- `user_wallet_read_model`: `user_id` to `wallet_address`. -/
  userWallet : Hash Uuid (Option String)

namespace OwnerReadModel

/-- The tables as the migrations create them. -/
def empty : OwnerReadModel :=
  ⟨∅, ∅⟩

/-- The row of a serial in its canonical spelling. -/
def row (db : OwnerReadModel) (serialNumber : String) : Option (Uuid × Option String) :=
  AList.lookup serialNumber db.meterOwner

/-- The wallet of a user; a missing row is as good as a null. -/
def edge (db : OwnerReadModel) (userId : Uuid) : Option String :=
  (AList.lookup userId db.userWallet).join

/-- The wallet an upsert leaves in the row of its serial: the same owner keeps a wallet. -/
def mergedWallet (held : Option (Uuid × Option String)) (userId : Uuid)
    (excluded : Option String) : Option String :=
  match held with
  | some (owner, wallet) => if owner = userId then wallet.or excluded else excluded
  | none => excluded

/-- `upsert_by_serial`: the wallet of the event, or else that of the user, as the source has it. -/
def upsertBySerial (pgUuid : UuidCodec) (db : OwnerReadModel) (serial : String) (userId : Uuid)
    (wallet : Option String) : OwnerReadModel :=
  let serialNumber := canonicalizeMeterSerial pgUuid serial
  let excluded := wallet.or (db.edge userId)
  { db with
    meterOwner := AList.insert serialNumber
      (userId, mergedWallet (db.row serialNumber) userId excluded) db.meterOwner }

/-- `update_wallet_by_user`: the user and every meter of the user get one wallet. -/
def updateWalletByUser (db : OwnerReadModel) (userId : Uuid) (wallet : Option String) :
    OwnerReadModel where
  userWallet := AList.insert userId wallet db.userWallet
  meterOwner := Hash.mapValues
    (fun row => if row.1 = userId then (row.1, wallet) else row) db.meterOwner

/-- `clear_wallet_if_matches`: only where that very wallet is held. -/
def clearWalletIfMatches (db : OwnerReadModel) (userId : Uuid) (wallet : String) :
    OwnerReadModel where
  userWallet :=
    match AList.lookup userId db.userWallet with
    | some (some held) =>
      if held = wallet then AList.insert userId none db.userWallet else db.userWallet
    | _ => db.userWallet
  meterOwner := Hash.mapValues
    (fun row => if row.1 = userId ∧ row.2 = some wallet then (row.1, none) else row) db.meterOwner

/-- `OwnerReadModelConsumer::dispatch`. -/
def dispatch (pgUuid : UuidCodec) (db : OwnerReadModel) : FeedEvent → OwnerReadModel
  | .meter event =>
    db.upsertBySerial pgUuid event.data.serialNumber event.data.userId
      (walletOrNone event.data.walletAddress)
  | .user event =>
    let wallet := walletOrNone event.data.walletAddress
    match event.eventType with
    | .userWalletUnlinked =>
      match wallet with
      | some wallet => db.clearWalletIfMatches event.data.userId wallet
      | none => db
    | eventType =>
      if event.data.isPrimary = some false then db
      -- there the wallet may just not have been provisioned yet
      else if wallet = none ∧ eventType = .emailVerified then db
      else db.updateWalletByUser event.data.userId wallet
  | .skipped => db

/-- The tables after some events. -/
def feed (pgUuid : UuidCodec) (db : OwnerReadModel) (events : List FeedEvent) : OwnerReadModel :=
  events.foldl (dispatch pgUuid) db

end OwnerReadModel

/-! ## What an event does to a wallet -/

namespace MeterEvent

/-- The key of the row that the event is about. -/
def serialNumber (pgUuid : UuidCodec) (event : MeterEvent) : String :=
  canonicalizeMeterSerial pgUuid event.data.serialNumber

/-- Whom the event makes the owner. -/
def userId (event : MeterEvent) : Uuid :=
  event.data.userId

/-- The wallet the owner had when the event was made. -/
def snapshot (event : MeterEvent) : Option String :=
  walletOrNone event.data.walletAddress

end MeterEvent

namespace UserEvent

/-- Whose wallet the event is about. -/
def userId (event : UserEvent) : Uuid :=
  event.data.userId

/-- The write of an event to everything that holds the wallet of its user. -/
def walletOp (event : UserEvent) : Option (Register.Op String) :=
  let wallet := walletOrNone event.data.walletAddress
  match event.eventType with
  | .userWalletUnlinked => wallet.map .clear
  | eventType =>
    if event.data.isPrimary = some false then none
    else if wallet = none ∧ eventType = .emailVerified then none
    else some (.assign wallet)

/-- The writes of an event to the wallet of a user. -/
def walletOpsFor (user : Uuid) (event : UserEvent) : List (Register.Op String) :=
  if event.userId = user then event.walletOp.toList else []

end UserEvent

namespace OwnerReadModel

variable (pgUuid : UuidCodec) (db : OwnerReadModel)

@[simp] theorem row_empty (serialNumber : String) : empty.row serialNumber = none := rfl

@[simp] theorem edge_empty (user : Uuid) : empty.edge user = none := rfl

@[simp] theorem mergedWallet_same (userId : Uuid) (wallet excluded : Option String) :
    mergedWallet (some (userId, wallet)) userId excluded = wallet.or excluded :=
  if_pos rfl

theorem mergedWallet_other {owner userId : Uuid} (other : owner ≠ userId)
    (wallet excluded : Option String) :
    mergedWallet (some (owner, wallet)) userId excluded = excluded :=
  if_neg other

theorem mergedWallet_or (held : Option (Uuid × Option String)) (userId : Uuid)
    (excluded further : Option String) :
    (mergedWallet held userId excluded).or further =
      mergedWallet held userId (excluded.or further) := by
  unfold mergedWallet
  split
  · split
    · exact Option.or_assoc
    · rfl
  · rfl

theorem row_dispatch_meter (event : MeterEvent) (serialNumber : String) :
    (db.dispatch pgUuid (.meter event)).row serialNumber =
      if serialNumber = event.serialNumber pgUuid then
        some (event.userId, mergedWallet (db.row serialNumber) event.userId
          (event.snapshot.or (db.edge event.userId)))
      else db.row serialNumber := by
  show AList.lookup serialNumber (AList.insert (event.serialNumber pgUuid) _ db.meterOwner) = _
  rw [Hash.lookup_set]
  split
  · next same =>
    subst same
    rfl
  · rfl

@[simp] theorem edge_dispatch_meter (event : MeterEvent) (user : Uuid) :
    (db.dispatch pgUuid (.meter event)).edge user = db.edge user := rfl

theorem edge_updateWalletByUser (userId user : Uuid) (wallet : Option String) :
    (db.updateWalletByUser userId wallet).edge user =
      if userId = user then wallet else db.edge user := by
  show (AList.lookup user (AList.insert userId wallet db.userWallet)).join = _
  rw [Hash.lookup_set]
  by_cases same : userId = user
  · rw [if_pos same.symm, if_pos same]
    rfl
  · rw [if_neg (Ne.symm same), if_neg same]
    rfl

theorem row_updateWalletByUser (userId : Uuid) (wallet : Option String) (serialNumber : String) :
    (db.updateWalletByUser userId wallet).row serialNumber =
      (db.row serialNumber).map fun row => if row.1 = userId then (row.1, wallet) else row :=
  Hash.lookup_mapValues _ _ _

theorem edge_clearWalletIfMatches (userId user : Uuid) (wallet : String) :
    (db.clearWalletIfMatches userId wallet).edge user =
      if userId = user then (Register.Op.clear wallet).apply (db.edge user) else db.edge user := by
  unfold edge
  show (AList.lookup user (match AList.lookup userId db.userWallet with
    | some (some held) =>
      if held = wallet then AList.insert userId none db.userWallet else db.userWallet
    | _ => db.userWallet)).join = _
  by_cases same : userId = user
  · subst same
    rw [if_pos rfl]
    split
    · next held found =>
      rw [found]
      show _ = (Register.Op.clear wallet).apply (some held)
      rw [Register.Op.apply_clear_some]
      split
      · rw [AList.lookup_insert]
        rfl
      · rw [found]
        rfl
    · next other =>
      cases found : AList.lookup userId db.userWallet with
      | none => rfl
      | some held =>
        cases held with
        | none => rfl
        | some held => exact absurd found (other held)
  · rw [if_neg same]
    split
    · split
      · rw [AList.lookup_insert_ne (Ne.symm same)]
      · rfl
    · rfl

theorem row_clearWalletIfMatches (userId : Uuid) (wallet : String) (serialNumber : String) :
    (db.clearWalletIfMatches userId wallet).row serialNumber =
      (db.row serialNumber).map fun row =>
        if row.1 = userId then (row.1, (Register.Op.clear wallet).apply row.2) else row := by
  show AList.lookup serialNumber (Hash.mapValues _ db.meterOwner) = _
  rw [Hash.lookup_mapValues]
  apply congrArg (Option.map · (AList.lookup serialNumber db.meterOwner))
  funext ⟨owner, held⟩
  by_cases mine : owner = userId
  · by_cases matches_ : held = some wallet
    · simp [mine, matches_, Register.Op.apply]
    · simp [mine, matches_, Register.Op.apply]
  · simp [mine]

/-- Some writes reach the edge of a user and the rows of the user, and nothing else. -/
structure Written (before after : OwnerReadModel) (userId : Uuid)
    (ops : List (Register.Op String)) : Prop where
  edge : ∀ user, after.edge user =
    if userId = user then Register.run ops (before.edge user) else before.edge user
  row : ∀ serialNumber, after.row serialNumber =
    (before.row serialNumber).map fun row =>
      if row.1 = userId then (row.1, Register.run ops row.2) else row

theorem written_nothing (userId : Uuid) : Written db db userId [] where
  edge user := by
    rw [Register.run_nil, ite_self]
  row serialNumber := by
    have same : (fun row : Uuid × Option String =>
        if row.1 = userId then (row.1, Register.run [] row.2) else row) = id := by
      funext row
      exact ite_self row
    rw [same, Option.map_id]
    rfl

theorem written_update (userId : Uuid) (wallet : Option String) :
    Written db (db.updateWalletByUser userId wallet) userId [.assign wallet] where
  edge user := edge_updateWalletByUser db userId user wallet
  row serialNumber := row_updateWalletByUser db userId wallet serialNumber

theorem written_clear (userId : Uuid) (wallet : String) :
    Written db (db.clearWalletIfMatches userId wallet) userId [.clear wallet] where
  edge user := edge_clearWalletIfMatches db userId user wallet
  row serialNumber := row_clearWalletIfMatches db userId wallet serialNumber

/-- Every event of IAM does to the rows of its user what it does to the user edge. -/
theorem written_dispatch (event : UserEvent) :
    Written db (db.dispatch pgUuid (.user event)) event.userId event.walletOp.toList := by
  obtain ⟨eventType, data⟩ := event
  have primary : ∀ eventType : UserEventType,
      Written db
        (if data.isPrimary = some false then db
          else if walletOrNone data.walletAddress = none ∧ eventType = .emailVerified then db
          else db.updateWalletByUser data.userId (walletOrNone data.walletAddress))
        data.userId
        (if data.isPrimary = some false then none
          else if walletOrNone data.walletAddress = none ∧ eventType = .emailVerified then none
          else some (Register.Op.assign (walletOrNone data.walletAddress))).toList := by
    intro eventType
    split
    · exact written_nothing db data.userId
    · split
      · exact written_nothing db data.userId
      · exact written_update db data.userId _
  cases eventType with
  | emailVerified => exact primary .emailVerified
  | userWalletLinked => exact primary .userWalletLinked
  | userOnboarded => exact primary .userOnboarded
  | userWalletPrimaryChanged => exact primary .userWalletPrimaryChanged
  | userWalletUnlinked =>
    simp only [dispatch, UserEvent.walletOp, UserEvent.userId]
    cases walletOrNone data.walletAddress with
    | none => exact written_nothing db data.userId
    | some wallet => exact written_clear db data.userId wallet

theorem edge_dispatch_user (event : UserEvent) (user : Uuid) :
    (db.dispatch pgUuid (.user event)).edge user =
      Register.run (event.walletOpsFor user) (db.edge user) := by
  rw [(written_dispatch pgUuid db event).edge]
  unfold UserEvent.walletOpsFor
  split
  · rfl
  · rfl

theorem row_dispatch_user (event : UserEvent) (serialNumber : String) :
    (db.dispatch pgUuid (.user event)).row serialNumber =
      (db.row serialNumber).map fun row =>
        (row.1, Register.run (event.walletOpsFor row.1) row.2) := by
  rw [(written_dispatch pgUuid db event).row]
  apply congrArg (Option.map · (db.row serialNumber))
  funext row
  by_cases mine : row.1 = event.userId
  · rw [if_pos mine, UserEvent.walletOpsFor, if_pos mine.symm]
  · rw [if_neg mine, UserEvent.walletOpsFor, if_neg (Ne.symm mine)]
    rfl

@[simp] theorem feed_cons (event : FeedEvent) (events : List FeedEvent) :
    db.feed pgUuid (event :: events) = (db.dispatch pgUuid event).feed pgUuid events := rfl

theorem feed_append (before after : List FeedEvent) :
    db.feed pgUuid (before ++ after) = (db.feed pgUuid before).feed pgUuid after :=
  List.foldl_append

/-- Users with a row that has no wallet. -/
def missingWallet (db : OwnerReadModel) : List Uuid :=
  ((Hash.values db.meterOwner).filter fun row => row.2 = none).map Prod.fst

/-- `users_missing_wallet`, at most a thousand of them in no particular order. -/
def UsersMissingWallet (db : OwnerReadModel) (users : List Uuid) : Prop :=
  users.Nodup ∧ users ⊆ db.missingWallet ∧ users.length ≤ 1000 ∧
    (users.length < 1000 → db.missingWallet ⊆ users)

instance (users : List Uuid) : Decidable (db.UsersMissingWallet users) := by
  unfold UsersMissingWallet
  infer_instance

end OwnerReadModel

/-! ## The repair pass beside the feed -/

/-- Where `repair_missing_wallets` stands. -/
inductive RepairStage where
  | notStarted
  /-- The first user is looked up next. -/
  | resolving (users : List Uuid)
  /-- IAM answered with a wallet for a user. -/
  | writing (userId : Uuid) (wallet : String) (users : List Uuid)
  deriving DecidableEq

/-- The read model beside IAM: what IAM holds, what of it the feed has yet to apply, and where a
repair pass is. -/
structure RepairWorld where
  db : OwnerReadModel
  /-- The primary wallets that IAM holds. -/
  iam : Uuid → Option String
  /-- What IAM has done to a user and the feed has not applied yet, oldest first: its event may
  not even be emitted. -/
  pending : Uuid → List UserEvent
  stage : RepairStage
  /-- Users the pass has settled: IAM has no wallet for them, or it was written. -/
  repaired : List Uuid

/-- What an event says about the primary wallet IAM holds. -/
def UserEvent.iamWallet (event : UserEvent) (held : Option String) : Option String :=
  match event.walletOp with
  | none => held
  | some (.assign _) => event.data.walletAddress
  | some (.clear wallet) => if walletOrNone held = some wallet then none else held

namespace RepairWorld

/-- A change in IAM, an event that is applied, or an await of the repair pass. -/
inductive Event where
  /-- IAM changes a wallet, and the event that says so will follow. -/
  | iamChanges (event : UserEvent)
  /-- The feed applies the next event about a user. -/
  | applyUser (user : Uuid)
  /-- The feed applies a meter event. -/
  | applyMeter (event : MeterEvent)
  | scan (users : List Uuid)
  | scanFails
  | resolve
  | resolveFails
  | write (reply : Reply)

/-- IAM and the feed move while a repair pass is under way. -/
def step (pgUuid : UuidCodec) (w : RepairWorld) : Event → Option RepairWorld
  | .iamChanges event =>
    some { w with
      iam := Function.update w.iam event.userId (event.iamWallet (w.iam event.userId))
      pending := Function.update w.pending event.userId (w.pending event.userId ++ [event]) }
  | .applyUser user =>
    match w.pending user with
    | [] => none
    | event :: rest =>
      some { w with
        db := w.db.dispatch pgUuid (.user event)
        pending := Function.update w.pending user rest }
  | .applyMeter event => some { w with db := w.db.dispatch pgUuid (.meter event) }
  | .scan users =>
    if w.stage = .notStarted ∧ w.db.UsersMissingWallet users then
      some { w with stage := .resolving users }
    else none
  | .scanFails =>
    if w.stage = .notStarted then some { w with stage := .resolving [] } else none
  | .resolve =>
    match w.stage with
    | .resolving (user :: users) =>
      match walletOrNone (w.iam user) with
      | some wallet => some { w with stage := .writing user wallet users }
      | none => some { w with stage := .resolving users, repaired := user :: w.repaired }
    | _ => none
  | .resolveFails =>
    match w.stage with
    | .resolving (_ :: users) => some { w with stage := .resolving users }
    | _ => none
  | .write reply =>
    match w.stage with
    | .writing user wallet users =>
      some { w with
        db := reply.effect (fun db => db.updateWalletByUser user (some wallet)) w.db
        stage := .resolving users
        repaired := if reply = .ok then user :: w.repaired else w.repaired }
    | _ => none

end RepairWorld

end AggregatorBridge
