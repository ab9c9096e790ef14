import AggregatorBridge.Lib.Table
import AggregatorBridge.OwnerReadModel

/-!
# Seeding the owner read model

Before the feed starts, `backfill` fills both of its tables from what the database has. With a
`users` table next to `meters` that is their join; without one the first statement fails, and the
owners come from `meters` alone, with the wallets that are known already. Then the wallets of the
serial rows are copied to the users that have no row yet.

The tables are those of `OwnerReadModel` with the columns the statements read, so `updated_at`,
in microseconds, is here, too. A serial or a wallet of the source fits the column it goes to. The
only failure that is modelled is the missing table: any other leaves `backfill` where it is, with
the statements before it done.
-/

namespace AggregatorBridge

open Remote Table

/-- A row of `meters`. -/
structure MeterRow where
  serialNumber : String
  userId : Uuid
  deriving DecidableEq

/-- What `backfill` reads and never writes. -/
structure OwnerSource where
  meters : List MeterRow
  /-- `users`: `id` to `wallet_address`, if there is such a table. -/
  users : Option (Hash Uuid (Option String))

/-- A row of `meter_owner_read_model`. -/
structure OwnerRow where
  userId : Uuid
  walletAddress : Option String
  updatedAt : Int
  deriving DecidableEq

/-- A row of `user_wallet_read_model`. -/
structure UserWalletRow where
  walletAddress : Option String
  updatedAt : Int
  deriving DecidableEq

/-- The two tables of the read model, with the time of each row. -/
structure OwnerTables where
  meterOwner : Hash String OwnerRow
  userWallet : Hash Uuid UserWalletRow

/-- The tables as the feed sees them. -/
def OwnerTables.readModel (db : OwnerTables) : OwnerReadModel where
  meterOwner := Hash.filterMapValues (fun row => some (row.userId, row.walletAddress)) db.meterOwner
  userWallet := Hash.filterMapValues (fun row => some row.walletAddress) db.userWallet

/-- How the database answers the statements of a backfill. -/
structure BackfillAnswers where
  /-- Where a query leaves the order of its rows open. -/
  order : RowOrder
  /-- `now()` of the first `INSERT` that succeeds. -/
  seededAt : Int
  /-- `now()` of the second one. -/
  copiedAt : Int

namespace OwnerTables

variable (pgUuid : UuidCodec) (answers : BackfillAnswers) (source : OwnerSource)

/-- SQLSTATE of an undefined table. -/
def undefinedTable : String := "42P01"

/-- The one error of Postgres that stands for a source without users. -/
def isUndefinedTable (code : String) : Bool :=
  code = undefinedTable

/-- The rows of `meters ⋈ users`. -/
def legacyRows (users : Hash Uuid (Option String)) : List (String × OwnerRow) :=
  source.meters.filterMap fun m =>
    (AList.lookup m.userId users).map fun wallet =>
      (canonicalizeMeterSerial pgUuid m.serialNumber, ⟨m.userId, wallet, answers.seededAt⟩)

/-- The rows of `meters`, with the wallets of `user_wallet_read_model`. -/
def localRows (db : OwnerTables) : List (String × OwnerRow) :=
  source.meters.map fun m =>
    (canonicalizeMeterSerial pgUuid m.serialNumber,
      ⟨m.userId, (AList.lookup m.userId db.userWallet).bind UserWalletRow.walletAddress,
        answers.seededAt⟩)

/-- `INSERT INTO meter_owner_read_model … ON CONFLICT (serial_number) DO NOTHING`. -/
def insertOwners (rows : List (String × OwnerRow)) (db : OwnerTables) : Nat × OwnerTables :=
  let (seeded, meterOwner) := insertRows (answers.order.visit rows) db.meterOwner
  (seeded, { db with meterOwner := meterOwner })

/-- The join of meters and users, where there are users. -/
def insertLegacy (db : OwnerTables) : Except String (Nat × OwnerTables) :=
  match source.users with
  | some users => .ok (insertOwners answers (legacyRows pgUuid answers source users) db)
  | none => .error undefinedTable

/-- The meters of this service, with the wallets that the read model knows already. -/
def backfillLocal (db : OwnerTables) : Except String (Nat × OwnerTables) :=
  .ok (insertOwners answers (localRows pgUuid answers source db) db)

/-- `wallet_address IS NOT NULL AND wallet_address <> ''`. -/
def hasWallet (row : OwnerRow) : Bool :=
  match row.walletAddress with
  | some wallet => wallet ≠ ""
  | none => false

/-- `ORDER BY user_id, updated_at DESC`. -/
def userThenLatest (a b : OwnerRow) : Bool :=
  a.userId < b.userId || a.userId = b.userId && b.updatedAt ≤ a.updatedAt

/-- The serial rows that the user edge is copied from: of each user the latest with a wallet. -/
def edgeSources (db : OwnerTables) : List OwnerRow :=
  let rows := (answers.order.visit (Hash.values db.meterOwner)).filter hasWallet
  distinctOn OwnerRow.userId (rows.mergeSort userThenLatest)

/-- One row for each user with a wallet, never over one that is there. -/
def backfillUserEdge (db : OwnerTables) : Except String (Nat × OwnerTables) :=
  let rows := (edgeSources answers db).map fun row =>
    (row.userId, (⟨row.walletAddress, answers.copiedAt⟩ : UserWalletRow))
  let (copied, userWallet) := insertRows rows db.userWallet
  .ok (copied, { db with userWallet := userWallet })

/-- `backfill`: the number of serial rows it added, and the tables. -/
def backfill (db : OwnerTables) : Except String (Nat × OwnerTables) := do
  let (seeded, db) ←
    match insertLegacy pgUuid answers source db with
    | .ok res => .ok res
    | .error code =>
      if isUndefinedTable code then backfillLocal pgUuid answers source db else .error code
  let (_, db) ← backfillUserEdge answers db
  .ok (seeded, db)

end OwnerTables

end AggregatorBridge
