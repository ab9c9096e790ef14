import AggregatorBridge.MintOutbox

/-!
# The meter registry

Whom a meter belongs to, and which wallet its owner has, is looked up in three tiers: maps in
memory, keys in Redis, and Postgres. A hit in Postgres is written to the other two. The maps
live as long as the process and the keys have no expiry, so what they hold is what Postgres held
when they were filled.

A lookup awaits every tier and every write, so it is a state machine here (`LookupStage`), and
`Registry` runs any number of lookups and mint attempts side by side, with other services
changing Postgres in between. An attempt resolves the wallets of its entries one after the other
and sends them all at once; a single mint is an attempt for one entry. Which entries an attempt
is for, and what happens to its reply, is the business of the outbox.

`register_meter` is left out: nothing in the repository calls it.
-/

namespace AggregatorBridge

open Remote

/-! ## Postgres -/

/-- The tables about owners. Serials are stored in canonical form. -/
structure OwnerDb where
  /-- `meters`: `serial_number` to `user_id`. -/
  meters : Hash String (Option Uuid)
  /-- `users`: `id` to `wallet_address`. -/
  users : Hash Uuid (Option String)
  /-- `meter_owner_read_model`: `serial_number` to `user_id` and `wallet_address`. -/
  readModel : Hash String (Uuid × Option String)

/-- The SQL function `canonicalize_meter_serial`. Its `trim` drops spaces only. -/
def canonicalizeMeterSerial (pgUuid : UuidCodec) (raw : String) : String :=
  let trimmed := String.ofList (Text.trimMatches ' ' raw.toList)
  match pgUuid.parseStr trimmed with
  | some uuid => pgUuid.display uuid
  | none => trimmed

/-- Which tiers there are, and which tables Postgres is asked for an owner. -/
structure RegistryConfig where
  redis : Bool
  pg : Bool
  /-- Postgres is asked through the read model. -/
  useReadModel : Bool
  /-- `METER_REGISTRY_NEG_CACHE_TTL_SECS`, in milliseconds. -/
  negCacheTtl : Nat
  /-- `uuid::Uuid` as text. -/
  uuid : UuidCodec
  /-- The `uuid` type of Postgres as text. -/
  pgUuid : UuidCodec
  /-- `wallet_is_valid`: the text is Base58 for 32 bytes. -/
  walletIsValid : String → Bool

/-- The owner of a meter and the owner's wallet, as Postgres holds them. -/
def OwnerDb.ownerOf (cfg : RegistryConfig) (db : OwnerDb) (meterSerial : String) :
    Option (Uuid × Option String) :=
  let serialNumber := canonicalizeMeterSerial cfg.pgUuid meterSerial
  if cfg.useReadModel then AList.lookup serialNumber db.readModel
  else do
    let userId ← (← AList.lookup serialNumber db.meters)
    let walletAddress ← AList.lookup userId db.users
    some (userId, walletAddress)

/-- Without Postgres nobody has an owner; that is not an error. -/
def OwnerDb.fetchOwnerFromDb (cfg : RegistryConfig) (db : OwnerDb) (meterSerial : String) :
    Option (Uuid × Option String) :=
  if cfg.pg then db.ownerOf cfg meterSerial else none

/-- The wallet Postgres holds for the owner of a meter. -/
def OwnerDb.heldWallet (cfg : RegistryConfig) (db : OwnerDb) (meterSerial : String) :
    Option String :=
  (db.ownerOf cfg meterSerial).bind Prod.snd

/-! ## The tiers -/

/-- The maps of the process, the keys in Redis and the tables behind them, and the time. -/
structure Tiers where
  localCache : Hash String Uuid
  walletCache : Hash String String
  /-- When a serial that was found nowhere is looked up again. -/
  negCache : Hash String Int
  /-- The keys `gridtokenx:meters:{serial}:user_id`. -/
  userIds : Hash String String
  /-- The keys `gridtokenx:meters:{serial}:wallet`. -/
  wallets : Hash String String
  db : OwnerDb
  now : Int

/-- Something a lookup has yet to write. -/
inductive TierWrite where
  | clearNegative
  | cacheNegative
  | cacheOwner (userId : Uuid)
  | cacheWallet (wallet : String)
  /-- `SET` of the owner key. -/
  | setOwner (userId : Uuid)
  /-- `SET` of the wallet key. -/
  | setWallet (wallet : String)

/-- The wallet that a write leaves behind, wherever it is written. -/
def TierWrite.wallet? : TierWrite → Option String
  | clearNegative => none
  | cacheNegative => none
  | cacheOwner _ => none
  | cacheWallet wallet => some wallet
  | setOwner _ => none
  | setWallet wallet => some wallet

/-- One write. A `SET` that failed is logged and forgotten. -/
def Tiers.write (cfg : RegistryConfig) (tiers : Tiers) (meterSerial : String) (reply : Reply) :
    TierWrite → Tiers
  | .clearNegative => { tiers with negCache := AList.erase meterSerial tiers.negCache }
  | .cacheNegative =>
    -- the expired ones are dropped first
    let live := tiers.negCache.entries.filter fun entry => tiers.now < entry.2
    { tiers with
      negCache := AList.insert meterSerial (tiers.now + cfg.negCacheTtl) live.toAList }
  | .cacheOwner userId =>
    { tiers with localCache := AList.insert meterSerial userId tiers.localCache }
  | .cacheWallet wallet =>
    { tiers with walletCache := AList.insert meterSerial wallet tiers.walletCache }
  | .setOwner userId =>
    { tiers with
      userIds := reply.effect (AList.insert meterSerial (cfg.uuid.display userId)) tiers.userIds }
  | .setWallet wallet =>
    { tiers with wallets := reply.effect (AList.insert meterSerial wallet) tiers.wallets }

/-- A wallet that is more than white space. -/
def walletIsSet (wallet : String) : Bool :=
  Text.trim wallet ≠ ""

/-- What `backfill` writes. -/
def backfill (cfg : RegistryConfig) (userId : Uuid) (wallet : Option String) : List TierWrite :=
  let wallet := wallet.filter walletIsSet
  [.clearNegative, .cacheOwner userId] ++ wallet.toList.map .cacheWallet ++
    if cfg.redis then .setOwner userId :: wallet.toList.map .setWallet else []

/-! ## Lookups -/

/-- Where a lookup is in its three tiers. -/
inductive LookupStage (α : Type) where
  | cache
  | redis
  | postgres
  /-- The answer is known, and this is left to write. -/
  | write (writes : List TierWrite) (answer : Option α)

/-- What one await of a lookup comes to. -/
inductive LookupOutcome (α : Type) where
  | goesOn (stage : LookupStage α)
  | returns (answer : Option α)
  | fails

namespace Tiers

variable (cfg : RegistryConfig) (tiers : Tiers) (meterSerial : String) (reply : Reply)

/-- `resolve_user_id`, up to its next await. -/
def resolveUserId : LookupStage Uuid → Tiers × LookupOutcome Uuid
  | .cache =>
    match AList.lookup meterSerial tiers.localCache with
    | some userId => (tiers, .returns (some userId))
    | none =>
      match AList.lookup meterSerial tiers.negCache with
      | some expiry =>
        if tiers.now < expiry then (tiers, .returns none)
        else
          ({ tiers with negCache := AList.erase meterSerial tiers.negCache }, .goesOn .redis)
      | none => (tiers, .goesOn .redis)
  | .redis =>
    if cfg.redis then
      if reply = .ok then
        -- a key that is no UUID is as good as none
        match (AList.lookup meterSerial tiers.userIds).bind cfg.uuid.parseStr with
        | some userId => (tiers, .goesOn (.write [.cacheOwner userId] (some userId)))
        | none => (tiers, .goesOn .postgres)
      else (tiers, .fails)
    else (tiers, .goesOn .postgres)
  | .postgres =>
    if cfg.pg ∧ reply ≠ .ok then (tiers, .fails)
    else
      match tiers.db.fetchOwnerFromDb cfg meterSerial with
      | some (userId, wallet) =>
        (tiers, .goesOn (.write (backfill cfg userId wallet) (some userId)))
      | none =>
        -- without a backend there is only the nil user
        if ¬ cfg.redis ∧ ¬ cfg.pg then (tiers, .returns (some 0))
        else (tiers, .goesOn (.write [.cacheNegative] none))
  | .write [] answer => (tiers, .returns answer)
  | .write (w :: ws) answer => (tiers.write cfg meterSerial reply w, .goesOn (.write ws answer))

/-- `resolve_wallet`, up to its next await. -/
def resolveWallet : LookupStage String → Tiers × LookupOutcome String
  | .cache =>
    match AList.lookup meterSerial tiers.walletCache with
    | some wallet => (tiers, .returns (some wallet))
    | none => (tiers, .goesOn .redis)
  | .redis =>
    if cfg.redis then
      if reply = .ok then
        match (AList.lookup meterSerial tiers.wallets).filter walletIsSet with
        | some wallet => (tiers, .goesOn (.write [.cacheWallet wallet] (some wallet)))
        | none => (tiers, .goesOn .postgres)
      else (tiers, .fails)
    else (tiers, .goesOn .postgres)
  | .postgres =>
    if cfg.pg ∧ reply ≠ .ok then (tiers, .fails)
    else
      match tiers.db.fetchOwnerFromDb cfg meterSerial with
      | some (userId, wallet) =>
        (tiers, .goesOn (.write (backfill cfg userId wallet) (wallet.filter walletIsSet)))
      | none => (tiers, .returns none)
  | .write [] answer => (tiers, .returns answer)
  | .write (w :: ws) answer => (tiers.write cfg meterSerial reply w, .goesOn (.write ws answer))

end Tiers

/-! ## Lookups and attempts side by side -/

/-- A call of `resolve_user_id` in progress. -/
structure OwnerQuery where
  meterSerial : String
  stage : LookupStage Uuid

/-- An attempt that is resolving its wallets. The first entry is being looked up. -/
structure WalletAttempt where
  entries : List PendingMint
  stage : LookupStage String
  inputs : List (PendingMint × String)

/-- The next entry is looked up from the start. An entry without a valid wallet is left out. -/
def WalletAttempt.next (cfg : RegistryConfig) (a : WalletAttempt) (p : PendingMint)
    (rest : List PendingMint) : LookupOutcome String → WalletAttempt
  | .goesOn stage => { a with stage := stage }
  | .returns (some wallet) =>
    if cfg.walletIsValid wallet then ⟨rest, .cache, a.inputs ++ [(p, wallet)]⟩
    else ⟨rest, .cache, a.inputs⟩
  | .returns none => ⟨rest, .cache, a.inputs⟩
  | .fails => ⟨rest, .cache, a.inputs⟩

/-- A wallet that went to the bridge, and what Postgres held at that time. -/
structure SentMint where
  mint : PendingMint
  recipientWallet : String
  held : Option String

/-- The tiers with all that goes on over them: lookups of owners, and mints that need a wallet
before they are sent. -/
structure Registry where
  tiers : Tiers
  queries : List OwnerQuery
  attempts : List WalletAttempt
  /-- What was sent, with what should have been. -/
  sent : List SentMint

namespace Registry

/-- A fresh process, and nobody has registered a meter. -/
def init : Registry :=
  ⟨⟨∅, ∅, ∅, ∅, ∅, ⟨∅, ∅, ∅⟩, 0⟩, [], [], []⟩

/-- A transaction of whatever service, the clock, the caches of Redis, the process, and the moves of
lookups and mints. -/
inductive Event where
  /-- A transaction on the tables commits, of whatever service. -/
  | commit (db : OwnerDb)
  | tick (ms : Nat)
  /-- Redis drops an owner key. -/
  | dropOwner (meterSerial : String)
  /-- Redis drops a wallet key. -/
  | dropWallet (meterSerial : String)
  | restart
  | query (meterSerial : String)
  | advance (query : Nat) (reply : Reply)
  | attempt (entries : List PendingMint)
  | resolve (attempt : Nat) (reply : Reply)
  /-- An attempt that has resolved its wallets sends them. -/
  | send (attempt : Nat)

/-- The next await of a lookup of an owner. -/
def advance (cfg : RegistryConfig) (r : Registry) (i : Nat) (reply : Reply) :
    Option Registry := do
  let q ← r.queries[i]?
  match r.tiers.resolveUserId cfg q.meterSerial reply q.stage with
  | (tiers, .goesOn stage) =>
    some { r with tiers := tiers, queries := r.queries.set i { q with stage := stage } }
  | (tiers, _) => some { r with tiers := tiers, queries := r.queries.eraseIdx i }

/-- An attempt resolves the wallet of its first entry. -/
def resolve (cfg : RegistryConfig) (r : Registry) (j : Nat) (reply : Reply) :
    Option Registry := do
  let a ← r.attempts[j]?
  match a.entries with
  | [] => none
  | p :: rest =>
    let out := r.tiers.resolveWallet cfg p.meterSerial reply a.stage
    some { r with
      tiers := out.1
      attempts := r.attempts.set j (a.next cfg p rest out.2) }

/-- A mint has its wallets and is sent. What should have been sent is read off the tables at this
moment, for comparison. -/
def send (cfg : RegistryConfig) (r : Registry) (j : Nat) : Option Registry := do
  let a ← r.attempts[j]?
  if a.entries.isEmpty then
    some { r with
      attempts := r.attempts.eraseIdx j
      sent := r.sent ++ a.inputs.map fun input =>
        ⟨input.1, input.2, r.tiers.db.heldWallet cfg input.1.meterSerial⟩ }
  else none

/-- Tables change only by commits, and commits tell neither Redis nor the process. -/
def step (cfg : RegistryConfig) (r : Registry) : Event → Option Registry
  | .commit db => some { r with tiers := { r.tiers with db := db } }
  | .tick ms => some { r with tiers := { r.tiers with now := r.tiers.now + ms } }
  | .dropOwner meterSerial =>
    some { r with tiers := { r.tiers with userIds := AList.erase meterSerial r.tiers.userIds } }
  | .dropWallet meterSerial =>
    some { r with tiers := { r.tiers with wallets := AList.erase meterSerial r.tiers.wallets } }
  | .restart =>
    some { r with
      tiers := { r.tiers with localCache := ∅, walletCache := ∅, negCache := ∅ }
      queries := []
      attempts := [] }
  | .query meterSerial => some { r with queries := r.queries ++ [⟨meterSerial, .cache⟩] }
  | .advance i reply => advance cfg r i reply
  | .attempt entries => some { r with attempts := r.attempts ++ [⟨entries, .cache, []⟩] }
  | .resolve j reply => resolve cfg r j reply
  | .send j => send cfg r j

end Registry

end AggregatorBridge
