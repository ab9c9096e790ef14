import AggregatorBridge.OwnerBackfill

/-!
# The backfill adds and never overwrites

Both statements of a backfill insert rows whose key is free, so nothing that was there changes.
The first one leaves a row for every serial of the source, the second a row for every user that
has a wallet on a serial by then, and a second backfill finds all of these keys taken, in
whatever order it looks (`backfill_once`).

A wallet that a user gets this way is the one of the user's latest serial row that has one. The
feed, which does not look at `updated_at`, starts from what it then sees (`readModel`).

Each of the two statements is one step here. The law does not say what comes of a feed that applies
events between them.
-/

namespace AggregatorBridge

open Remote Table

namespace OwnerTables

variable (pgUuid : UuidCodec) (source : OwnerSource)

/-- The meters of the source: those whose owner is among the users, if there is such a table. -/
def offeredMeters : List MeterRow :=
  match source.users with
  | some users => source.meters.filter fun m => (AList.lookup m.userId users).isSome
  | none => source.meters

/-- Their canonical serials. -/
def offeredSerials : List String :=
  (offeredMeters source).map fun m => canonicalizeMeterSerial pgUuid m.serialNumber

/-- The wallet the source has for the owner of a meter. -/
def offeredWallet (db : OwnerTables) (m : MeterRow) : Option String :=
  match source.users with
  | some users => (AList.lookup m.userId users).join
  | none => (AList.lookup m.userId db.userWallet).bind UserWalletRow.walletAddress

/-- A row with a wallet that is not empty. -/
def HasWallet (row : OwnerRow) (wallet : String) : Prop :=
  row.walletAddress = some wallet ∧ wallet ≠ ""

/-- What a backfill makes of the tables. -/
structure Backfilled (before after : OwnerTables) (count : Nat) : Prop where
  keepsOwner : ∀ serial row, AList.lookup serial before.meterOwner = some row →
    AList.lookup serial after.meterOwner = some row
  keepsEdge : ∀ user row, AList.lookup user before.userWallet = some row →
    AList.lookup user after.userWallet = some row
  /-- One row more for every serial of the source that had none, and no other. -/
  serials : after.meterOwner.keys.Perm
    (newKeys (offeredSerials pgUuid source) before.meterOwner ++ before.meterOwner.keys)
  counted : count = (newKeys (offeredSerials pgUuid source) before.meterOwner).length
  /-- A new row says what the source says about a meter with its serial. -/
  fromSource : ∀ serial row, AList.lookup serial before.meterOwner = none →
    AList.lookup serial after.meterOwner = some row →
      ∃ m ∈ offeredMeters source, canonicalizeMeterSerial pgUuid m.serialNumber = serial ∧
        m.userId = row.userId ∧ offeredWallet source before m = row.walletAddress
  /-- Every user with a wallet on a serial has an edge. -/
  edges : ∀ serial row wallet, AList.lookup serial after.meterOwner = some row →
    HasWallet row wallet → AList.lookup row.userId after.userWallet ≠ none
  /-- A new edge has a wallet of its user, one of those that were updated last. -/
  fromWallet : ∀ user edge, AList.lookup user before.userWallet = none →
    AList.lookup user after.userWallet = some edge →
      ∃ serial row wallet, AList.lookup serial after.meterOwner = some row ∧ row.userId = user ∧
        HasWallet row wallet ∧ edge.walletAddress = some wallet ∧
        ∀ serial' row' wallet', AList.lookup serial' after.meterOwner = some row' →
          row'.userId = user → HasWallet row' wallet' → row'.updatedAt ≤ row.updatedAt

variable {pgUuid source}

theorem hasWallet_iff {row : OwnerRow} :
    hasWallet row = true ↔ ∃ wallet, HasWallet row wallet := by
  unfold hasWallet HasWallet
  cases row.walletAddress with
  | none => simp
  | some wallet => simp

/-! ## The serial rows -/

section Serials

variable (pgUuid source) (answers : BackfillAnswers) (db : OwnerTables)

/-- The rows that are offered to `meter_owner_read_model`. -/
def ownerRows : List (String × OwnerRow) :=
  match source.users with
  | some users => legacyRows pgUuid answers source users
  | none => localRows pgUuid answers source db

/-- There is one for each meter of the source, under its canonical serial. -/
theorem ownerRows_eq :
    ownerRows pgUuid source answers db = (offeredMeters source).map fun m =>
      (canonicalizeMeterSerial pgUuid m.serialNumber,
        ⟨m.userId, offeredWallet source db m, answers.seededAt⟩) := by
  unfold ownerRows offeredMeters offeredWallet
  cases source.users with
  | none => rfl
  | some users =>
    simp only [legacyRows]
    induction source.meters with
    | nil => rfl
    | cons m meters ih =>
      cases owner : AList.lookup m.userId users with
      | none =>
        rw [List.filterMap_cons_none (by rw [owner]; rfl), ih,
          List.filter_cons_of_neg (by simp [owner])]
      | some wallet =>
        rw [List.filterMap_cons_some (by rw [owner]; rfl), ih,
          List.filter_cons_of_pos (by simp [owner]), List.map_cons, owner]
        rfl

theorem serials_ownerRows :
    (ownerRows pgUuid source answers db).map Prod.fst = offeredSerials pgUuid source := by
  rw [ownerRows_eq, List.map_map]
  rfl

/-- `meter_owner_read_model` when it is seeded. -/
def seededOwners : Nat × Hash String OwnerRow :=
  insertRows (answers.order.visit (ownerRows pgUuid source answers db)) db.meterOwner

theorem mem_serials_visit {serial : String} :
    serial ∈ (answers.order.visit (ownerRows pgUuid source answers db)).map Prod.fst ↔
      serial ∈ offeredSerials pgUuid source := by
  rw [← serials_ownerRows pgUuid source answers db]
  exact ((answers.order.perm _).map Prod.fst).mem_iff

theorem newSerials_perm :
    (newKeys ((answers.order.visit (ownerRows pgUuid source answers db)).map Prod.fst)
        db.meterOwner).Perm (newKeys (offeredSerials pgUuid source) db.meterOwner) := by
  refine (List.perm_ext_iff_of_nodup (List.nodup_dedup _) (List.nodup_dedup _)).mpr ?_
  intro serial
  rw [← newKeys, ← newKeys, mem_newKeys, mem_newKeys, mem_serials_visit]

theorem seededOwners_serials :
    (seededOwners pgUuid source answers db).2.keys.Perm
      (newKeys (offeredSerials pgUuid source) db.meterOwner ++ db.meterOwner.keys) :=
  (keys_insertRows _ _).trans ((newSerials_perm pgUuid source answers db).append_right _)

theorem seededOwners_count :
    (seededOwners pgUuid source answers db).1 =
      (newKeys (offeredSerials pgUuid source) db.meterOwner).length :=
  (insertRows_count _ _).trans (newSerials_perm pgUuid source answers db).length_eq

theorem seededOwners_new {serial : String} {row : OwnerRow}
    (free : AList.lookup serial db.meterOwner = none)
    (found : AList.lookup serial (seededOwners pgUuid source answers db).2 = some row) :
    ∃ m ∈ offeredMeters source, canonicalizeMeterSerial pgUuid m.serialNumber = serial ∧
      m.userId = row.userId ∧ offeredWallet source db m = row.walletAddress := by
  have offered := answers.order.mem_visit.mp (mem_of_lookup_insertRows free found)
  rw [ownerRows_eq] at offered
  obtain ⟨m, listed, made⟩ := List.mem_map.mp offered
  cases made
  exact ⟨m, listed, rfl, rfl, rfl⟩

/-- Where every serial of the source has a row there is nothing to seed. -/
theorem seededOwners_of_known
    (known : ∀ serial ∈ offeredSerials pgUuid source,
      AList.lookup serial db.meterOwner ≠ none) :
    seededOwners pgUuid source answers db = (0, db.meterOwner) := by
  apply insertRows_of_known
  intro row offered
  exact known row.1 ((mem_serials_visit pgUuid source answers db).mp (List.mem_map_of_mem offered))

/-- After the seeding they all have one. -/
theorem seededOwners_known {serial : String} (offered : serial ∈ offeredSerials pgUuid source) :
    AList.lookup serial (seededOwners pgUuid source answers db).2 ≠ none :=
  lookup_insertRows_of_offered ((mem_serials_visit pgUuid source answers db).mpr offered)

end Serials

/-! ## The user edges -/

/-- The order of the copy is one that a sort can use. -/
theorem userThenLatest_trans (a b c : OwnerRow) (first : userThenLatest a b = true)
    (second : userThenLatest b c = true) : userThenLatest a c = true := by
  simp only [userThenLatest, Bool.or_eq_true, Bool.and_eq_true, decide_eq_true_eq] at *
  rcases first with less | ⟨same, later⟩
  · rcases second with less' | ⟨same', -⟩
    · exact .inl (BitVec.lt_trans less less')
    · exact .inl (same' ▸ less)
  · rcases second with less' | ⟨same', later'⟩
    · exact .inl (same ▸ less')
    · exact .inr ⟨same.trans same', later'.trans later⟩

theorem userThenLatest_total (a b : OwnerRow) :
    (userThenLatest a b || userThenLatest b a) = true := by
  simp only [userThenLatest, Bool.or_eq_true, Bool.and_eq_true, decide_eq_true_eq]
  by_cases same : a.userId = b.userId
  · rcases Int.le_total b.updatedAt a.updatedAt with later | earlier
    · exact .inl (.inr ⟨same, later⟩)
    · exact .inr (.inr ⟨same.symm, earlier⟩)
  · have other : a.userId.toNat ≠ b.userId.toNat := fun eq => same (BitVec.eq_of_toNat_eq eq)
    rcases Nat.lt_or_gt_of_ne other with less | greater
    · exact .inl (.inl less)
    · exact .inr (.inl greater)

section Edges

variable (answers : BackfillAnswers) {db : OwnerTables}

/-- The rows that are sorted are the serial rows with a wallet. -/
theorem mem_sorted_iff {row : OwnerRow} :
    row ∈ (((answers.order.visit (Hash.values db.meterOwner)).filter hasWallet).mergeSort
        userThenLatest) ↔
      (∃ serial, AList.lookup serial db.meterOwner = some row) ∧ ∃ wallet, HasWallet row wallet := by
  rw [List.mem_mergeSort, List.mem_filter, answers.order.mem_visit, Hash.mem_values, hasWallet_iff]

theorem source_hasWallet {row : OwnerRow} (mem : row ∈ edgeSources answers db) :
    (∃ serial, AList.lookup serial db.meterOwner = some row) ∧ ∃ wallet, HasWallet row wallet :=
  (mem_sorted_iff answers).mp (distinctOn_subset _ mem)

/-- Every user with a wallet is copied from some row. -/
theorem exists_source {serial wallet : String} {row : OwnerRow}
    (held : AList.lookup serial db.meterOwner = some row) (owned : HasWallet row wallet) :
    ∃ kept ∈ edgeSources answers db, kept.userId = row.userId :=
  exists_distinctOn ((mem_sorted_iff answers).mpr ⟨⟨serial, held⟩, wallet, owned⟩)

/-- No other row of the user with a wallet is later than the one the user is copied from. -/
theorem source_latest {serial wallet : String} {kept row : OwnerRow}
    (mem : kept ∈ edgeSources answers db) (held : AList.lookup serial db.meterOwner = some row)
    (owned : HasWallet row wallet) (same : kept.userId = row.userId) :
    row.updatedAt ≤ kept.updatedAt := by
  have sorted := List.pairwise_mergeSort userThenLatest_trans userThenLatest_total
    ((answers.order.visit (Hash.values db.meterOwner)).filter hasWallet)
  have listed := (mem_sorted_iff answers).mpr ⟨⟨serial, held⟩, wallet, owned⟩
  rcases distinctOn_first sorted mem listed same with rfl | before
  · exact Int.le_refl _
  · simp only [userThenLatest, Bool.or_eq_true, Bool.and_eq_true, decide_eq_true_eq] at before
    rcases before with less | ⟨-, later⟩
    · exact absurd (same ▸ less) (BitVec.lt_irrefl _)
    · exact later

variable (db)

/-- The rows that are offered to `user_wallet_read_model`. -/
def edgeRows : List (Uuid × UserWalletRow) :=
  (edgeSources answers db).map fun row => (row.userId, ⟨row.walletAddress, answers.copiedAt⟩)

/-- `user_wallet_read_model` when the wallets are copied to it. -/
def copiedWallets : Nat × Hash Uuid UserWalletRow :=
  insertRows (edgeRows answers db) db.userWallet

theorem copiedWallets_new {user : Uuid} {edge : UserWalletRow}
    (free : AList.lookup user db.userWallet = none)
    (found : AList.lookup user (copiedWallets answers db).2 = some edge) :
    ∃ row ∈ edgeSources answers db, row.userId = user ∧ row.walletAddress = edge.walletAddress := by
  obtain ⟨row, mem, made⟩ := List.mem_map.mp (mem_of_lookup_insertRows free found)
  cases made
  exact ⟨row, mem, rfl, rfl⟩

theorem copiedWallets_known {serial wallet : String} {row : OwnerRow}
    (held : AList.lookup serial db.meterOwner = some row) (owned : HasWallet row wallet) :
    AList.lookup row.userId (copiedWallets answers db).2 ≠ none := by
  obtain ⟨kept, mem, same⟩ := exists_source answers held owned
  apply lookup_insertRows_of_offered
  exact List.mem_map.mpr ⟨_, List.mem_map_of_mem mem, same⟩

/-- Where every user with a wallet on a serial has an edge there is nothing to copy. -/
theorem copiedWallets_of_known
    (known : ∀ serial row wallet, AList.lookup serial db.meterOwner = some row →
      HasWallet row wallet → AList.lookup row.userId db.userWallet ≠ none) :
    copiedWallets answers db = (0, db.userWallet) := by
  apply insertRows_of_known
  intro edge offered
  obtain ⟨row, mem, rfl⟩ := List.mem_map.mp offered
  obtain ⟨⟨serial, held⟩, wallet, owned⟩ := source_hasWallet answers mem
  exact known serial row wallet held owned

end Edges

/-! ## A backfill -/

section Backfill

variable (pgUuid source) (answers : BackfillAnswers) (db : OwnerTables)

/-- The tables once the serials are seeded. -/
def seeded : OwnerTables :=
  ⟨(seededOwners pgUuid source answers db).2, db.userWallet⟩

/-- The tables once the wallets are copied, too. -/
def filled : OwnerTables :=
  ⟨(seeded pgUuid source answers db).meterOwner,
    (copiedWallets answers (seeded pgUuid source answers db)).2⟩

/-- Both ways to seed the serials are one insertion of the rows on offer: the missing table only
chooses between them. -/
theorem backfill_eq :
    backfill pgUuid answers source db =
      .ok ((seededOwners pgUuid source answers db).1, filled pgUuid source answers db) := by
  unfold filled seeded seededOwners ownerRows backfill insertLegacy backfillLocal
  cases source.users with
  | none => rfl
  | some users => rfl

theorem filled_serials (serial : String) (offered : serial ∈ offeredSerials pgUuid source) :
    AList.lookup serial (filled pgUuid source answers db).meterOwner ≠ none :=
  seededOwners_known pgUuid source answers db offered

theorem filled_edges (serial : String) (row : OwnerRow) (wallet : String)
    (held : AList.lookup serial (filled pgUuid source answers db).meterOwner = some row)
    (owned : HasWallet row wallet) :
    AList.lookup row.userId (filled pgUuid source answers db).userWallet ≠ none :=
  copiedWallets_known answers (seeded pgUuid source answers db) held owned

theorem filled_backfilled :
    Backfilled pgUuid source db (filled pgUuid source answers db)
      (seededOwners pgUuid source answers db).1 where
  keepsOwner _ _ held := lookup_insertRows_of_held held
  keepsEdge _ _ held := lookup_insertRows_of_held held
  serials := seededOwners_serials pgUuid source answers db
  counted := seededOwners_count pgUuid source answers db
  fromSource _ _ free found := seededOwners_new pgUuid source answers db free found
  edges := filled_edges pgUuid source answers db
  fromWallet := by
    intro user edge free found
    obtain ⟨row, mem, rfl, copied⟩ :=
      copiedWallets_new answers (seeded pgUuid source answers db) free found
    obtain ⟨⟨serial, held⟩, wallet, owned⟩ := source_hasWallet answers mem
    refine ⟨serial, row, wallet, held, rfl, owned, copied.symm.trans owned.1, ?_⟩
    intro serial' row' wallet' held' same owned'
    exact source_latest answers mem held' owned' same.symm

end Backfill

/-- A backfill ends with every row of both tables as it was, one row more for each serial of the
source that had none, and an edge for each user with a wallet on a serial; and another one after it
changes nothing. Sources may list a serial more than once and in any order. -/
theorem backfill_once (pgUuid : UuidCodec) (answers : BackfillAnswers) (source : OwnerSource)
    (db : OwnerTables) :
    ∃ count after, backfill pgUuid answers source db = .ok (count, after) ∧
      Backfilled pgUuid source db after count ∧
      ∀ again : BackfillAnswers, backfill pgUuid again source after = .ok (0, after) := by
  refine ⟨_, _, backfill_eq pgUuid source answers db,
    filled_backfilled pgUuid source answers db, ?_⟩
  intro again
  have serials := filled_serials pgUuid source answers db
  have edges := filled_edges pgUuid source answers db
  generalize filled pgUuid source answers db = after at serials edges ⊢
  have owners := seededOwners_of_known pgUuid source again after serials
  have same : seeded pgUuid source again after = after := by
    rw [seeded, owners]
  rw [backfill_eq, filled, same, owners, copiedWallets_of_known again after edges]

/-! ## What the feed sees -/

theorem row_readModel (db : OwnerTables) (serial : String) :
    db.readModel.row serial =
      (AList.lookup serial db.meterOwner).map fun row => (row.userId, row.walletAddress) := by
  rw [OwnerReadModel.row, readModel, Hash.lookup_filterMapValues]
  cases AList.lookup serial db.meterOwner with
  | none => rfl
  | some row => rfl

end OwnerTables

end AggregatorBridge
