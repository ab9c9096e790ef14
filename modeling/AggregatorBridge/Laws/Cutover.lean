import AggregatorBridge.Laws.BackfillOnce
import AggregatorBridge.Laws.SerialSpelling
import AggregatorBridge.ReadingSinks
import Mathlib.Data.List.DropRight

/-!
# From the join to the read model

A flag chooses where owners are read: from `meters ⋈ users`, or from `meter_owner_read_model`, which
a first backfill fills from the same two tables. The join compares a serial with `serial_number` as
it is stored, the backfill stores it in canonical form, and nothing makes `meters` do the same: its
unique index is on the canonical form, not the column. So the two sources agree exactly if every
meter whose owner has a wallet is stored under its canonical serial (`cutover_agrees_iff`).

The law is about the moment after the backfill, from empty tables. It does not say that the two
sources stay agreed, as the feed writes to one of them only.
-/

namespace AggregatorBridge

open Remote Table

/-! ## Canonical serials -/

/-- What is trimmed has nothing left to trim. -/
theorem trimMatches_trimMatches (c : Char) (text : List Char) :
    Text.trimMatches c (Text.trimMatches c text) = Text.trimMatches c text := by
  have first : (Text.trimMatches c text).dropWhile (· == c) = Text.trimMatches c text := by
    rw [List.dropWhile_eq_self_iff]
    intro pos
    have within : Text.trimMatches c text <+: text.dropWhile (· == c) :=
      List.rdropWhile_prefix (· == c) (l := text.dropWhile (· == c))
    have nonempty : 0 < (text.dropWhile (· == c)).length := pos.trans_le within.length_le
    rw [within.getElem pos]
    exact List.dropWhile_get_zero_not (· == c) text nonempty
  show (((Text.trimMatches c text).dropWhile (· == c)).reverse.dropWhile (· == c)).reverse = _
  rw [first]
  exact List.rdropWhile_idempotent (· == c) (text.dropWhile (· == c))

theorem trimMatches_of_not_mem {c : Char} {text : List Char} (plain : c ∉ text) :
    Text.trimMatches c text = text := by
  have kept (chars : List Char) (same : ∀ d ∈ chars, d ∈ text) :
      chars.dropWhile (· == c) = chars := by
    rw [List.dropWhile_eq_self_iff]
    intro pos here
    exact plain (beq_iff_eq.mp here ▸ same _ (List.getElem_mem pos))
  unfold Text.trimMatches
  rw [kept text fun _ mem => mem, kept text.reverse fun _ mem => List.mem_reverse.mp mem,
    List.reverse_reverse]

theorem foldl_hexDigits (len n acc : Nat) :
    (Text.hexDigits len n).foldl (fun n c => n * 16 + hexValue c) acc =
      acc * 16 ^ len + n % 16 ^ len := by
  induction len generalizing n with
  | zero => simp [Text.hexDigits, Nat.mod_one]
  | succ len ih =>
    have digit : ∀ d < 16, hexValue (Nat.digitChar d) = d := by decide
    rw [Text.hexDigits, List.foldl_append, ih, List.foldl_cons, List.foldl_nil,
      digit _ (Nat.mod_lt _ (by decide)), Nat.pow_succ, Nat.mul_comm (16 ^ len) 16, Nat.mod_mul]
    ring

/-- The printed digits of a UUID are its own. -/
theorem uuidOfHex_printed (u : Uuid) : uuidOfHex (printed u).digits = u := by
  apply BitVec.eq_of_toNat_eq
  have small := u.isLt
  simp only [uuidOfHex, printed, List.foldl_append, foldl_hexDigits, BitVec.toNat_ofNat]
  omega

theorem stringToUuid_hyphenated (u : Uuid) :
    stringToUuid (hyphenated u).toList = some (printed u).digits :=
  stringToUuid_eq_some.mpr ⟨printed u, rfl, text_printed u⟩

theorem spacesTrimmed_hyphenated (u : Uuid) :
    spacesTrimmed (hyphenated u) = (hyphenated u).toList := by
  apply trimMatches_of_not_mem
  intro space
  rw [← text_printed] at space
  exact absurd ((printed u).isWhiteSpace_of_mem space) (by decide)

/-- A canonical serial is its own canonical form. -/
theorem canonicalizeMeterSerial_idem (raw : String) :
    canonicalizeMeterSerial pgUuid (canonicalizeMeterSerial pgUuid raw) =
      canonicalizeMeterSerial pgUuid raw := by
  rw [canonicalizeMeterSerial_eq raw]
  cases read : stringToUuid (spacesTrimmed raw) with
  | none =>
    have again : spacesTrimmed (String.ofList (spacesTrimmed raw)) = spacesTrimmed raw := by
      rw [spacesTrimmed, String.toList_ofList]
      exact trimMatches_trimMatches ' ' raw.toList
    rw [canonicalOr, Option.map_none, Option.getD_none, canonicalizeMeterSerial_eq, again, read]
    rfl
  | some digits =>
    rw [canonicalOr, Option.map_some, Option.getD_some, canonicalizeMeterSerial_eq,
      spacesTrimmed_hyphenated, stringToUuid_hyphenated, canonicalOr, Option.map_some,
      Option.getD_some, uuidOfHex_printed]

/-! ## The two joins -/

/-- The tables that the joins read: what is in `meters` and `users`, and the read model. -/
def OwnerTables.ownerDb (source : OwnerSource) (tables : OwnerTables) : OwnerDb where
  meters := (insertRows (source.meters.map fun m => (m.serialNumber, some m.userId)) ∅).2
  users := source.users.getD ∅
  readModel := tables.readModel.meterOwner

/-- The unique index of `meters`: no two serials have one canonical form. -/
def OwnerSource.Indexed (source : OwnerSource) : Prop :=
  (source.meters.map fun m => canonicalizeMeterSerial pgUuid m.serialNumber).Nodup

/-- The owner of a meter has this wallet. -/
def OwnerSource.Funded (source : OwnerSource) (m : MeterRow) (wallet : String) : Prop :=
  ∃ users, source.users = some users ∧ AList.lookup m.userId users = some (some wallet)

variable {source : OwnerSource} {tables : OwnerTables}

theorem OwnerSource.Indexed.serials (indexed : source.Indexed) :
    (source.meters.map MeterRow.serialNumber).Nodup := by
  refine List.Nodup.of_map (canonicalizeMeterSerial pgUuid) ?_
  rw [List.map_map, Function.comp_def]
  exact indexed

theorem OwnerSource.Indexed.eq (indexed : source.Indexed) {m m' : MeterRow}
    (mem : m ∈ source.meters) (mem' : m' ∈ source.meters)
    (same : canonicalizeMeterSerial pgUuid m.serialNumber =
      canonicalizeMeterSerial pgUuid m'.serialNumber) : m = m' :=
  List.inj_on_of_nodup_map indexed mem mem' same

theorem attribution_join {db : OwnerDb} {serial wallet : String} {userId : Uuid} :
    db.attribution false serial = some (userId, wallet) ↔
      AList.lookup serial db.meters = some (some userId) ∧
        AList.lookup userId db.users = some (some wallet) := by
  simp only [OwnerDb.attribution, Bool.false_eq_true, if_false, Option.bind_eq_bind,
    Option.bind_eq_some_iff, Option.some.injEq, Prod.mk.injEq]
  constructor
  · rintro ⟨_, meter, id, rfl, _, user, w, rfl, rfl, rfl⟩
    exact ⟨meter, user⟩
  · rintro ⟨meter, user⟩
    exact ⟨_, meter, userId, rfl, _, user, wallet, rfl, rfl, rfl⟩

theorem attribution_model {db : OwnerDb} {serial wallet : String} {userId : Uuid} :
    db.attribution true serial = some (userId, wallet) ↔
      AList.lookup serial db.readModel = some (userId, some wallet) := by
  cases owner : AList.lookup serial db.readModel with
  | none => simp [OwnerDb.attribution, owner]
  | some held =>
    obtain ⟨id, _ | w⟩ := held <;> simp [OwnerDb.attribution, owner]

/-- The join finds a meter by its serial as it is stored. -/
theorem attribution_join_iff (indexed : source.Indexed) {serial wallet : String} {userId : Uuid} :
    (tables.ownerDb source).attribution false serial = some (userId, wallet) ↔
      ∃ m ∈ source.meters, m.serialNumber = serial ∧ m.userId = userId ∧
        source.Funded m wallet := by
  have distinct : ((source.meters.map fun m =>
      (m.serialNumber, some m.userId)).map Prod.fst).Nodup := by
    rw [List.map_map]
    exact indexed.serials
  have held (owner : Option Uuid) :
      AList.lookup serial (tables.ownerDb source).meters = some owner ↔
        ∃ m ∈ source.meters, m.serialNumber = serial ∧ some m.userId = owner := by
    rw [OwnerTables.ownerDb, lookup_insertRows_empty_iff distinct, List.mem_map]
    simp only [Prod.mk.injEq]
  rw [attribution_join, held]
  constructor
  · rintro ⟨⟨m, mem, here, ⟨⟩⟩, user⟩
    refine ⟨m, mem, here, rfl, ?_⟩
    cases users : source.users with
    | none => simp [OwnerTables.ownerDb, users] at user
    | some table => exact ⟨table, users, by simpa [OwnerTables.ownerDb, users] using user⟩
  · rintro ⟨m, mem, here, rfl, table, users, user⟩
    exact ⟨⟨m, mem, here, rfl⟩, by simpa [OwnerTables.ownerDb, users] using user⟩

section Backfilled

variable {answers : BackfillAnswers} {before after : OwnerTables} {count : Nat}
  {users : Hash Uuid (Option String)}

theorem mem_offeredMeters (shared : source.users = some users) {m : MeterRow} :
    m ∈ OwnerTables.offeredMeters source ↔
      m ∈ source.meters ∧ (AList.lookup m.userId users).isSome := by
  simp only [OwnerTables.offeredMeters, shared, List.mem_filter]

/-- The read model finds a meter by its canonical serial. -/
theorem attribution_model_iff (indexed : source.Indexed) (shared : source.users = some users)
    (empty : before.meterOwner = ∅)
    (ran : OwnerTables.backfill pgUuid answers source before = .ok (count, after))
    {serial wallet : String} {userId : Uuid} :
    (after.ownerDb source).attribution true serial = some (userId, wallet) ↔
      ∃ m ∈ source.meters, canonicalizeMeterSerial pgUuid m.serialNumber = serial ∧
        m.userId = userId ∧ source.Funded m wallet := by
  rw [OwnerTables.backfill_eq] at ran
  cases ran
  have distinct : ((answers.order.visit (OwnerTables.ownerRows pgUuid source answers
      before)).map Prod.fst).Nodup := by
    refine ((answers.order.perm _).map Prod.fst).nodup_iff.mpr ?_
    rw [OwnerTables.serials_ownerRows, OwnerTables.offeredSerials]
    refine List.Nodup.sublist (List.Sublist.map _ ?_) indexed
    simp only [OwnerTables.offeredMeters, shared]
    exact List.filter_sublist
  have offered (r : OwnerRow) :
      AList.lookup serial (OwnerTables.filled pgUuid source answers before).meterOwner = some r ↔
        (serial, r) ∈ OwnerTables.ownerRows pgUuid source answers before := by
    show AList.lookup serial (insertRows _ before.meterOwner).2 = some r ↔ _
    rw [empty, lookup_insertRows_empty_iff distinct, answers.order.mem_visit]
  have row (owner : Uuid × Option String) :
      AList.lookup serial ((OwnerTables.filled pgUuid source answers before).ownerDb
        source).readModel = some owner ↔ ∃ m ∈ OwnerTables.offeredMeters source,
          canonicalizeMeterSerial pgUuid m.serialNumber = serial ∧
            (m.userId, OwnerTables.offeredWallet source before m) = owner := by
    have model : AList.lookup serial ((OwnerTables.filled pgUuid source answers before).ownerDb
        source).readModel = (AList.lookup serial (OwnerTables.filled pgUuid source answers
          before).meterOwner).map fun row => (row.userId, row.walletAddress) :=
      OwnerTables.row_readModel _ serial
    rw [model, Option.map_eq_some_iff]
    simp only [offered, OwnerTables.ownerRows_eq, List.mem_map, Prod.mk.injEq]
    constructor
    · rintro ⟨_, ⟨m, mem, here, rfl⟩, same⟩
      exact ⟨m, mem, here, same⟩
    · rintro ⟨m, mem, here, same⟩
      exact ⟨_, ⟨m, mem, here, rfl⟩, same⟩
  rw [attribution_model, row]
  constructor
  · rintro ⟨m, mem, here, same⟩
    obtain ⟨id, wallet_⟩ := Prod.mk.inj same
    refine ⟨m, ((mem_offeredMeters shared).mp mem).1, here, id, users, shared, ?_⟩
    simpa only [OwnerTables.offeredWallet, shared, Option.join_eq_some_iff] using wallet_
  · rintro ⟨m, mem, here, rfl, table, users', user⟩
    cases Option.some.inj (shared.symm.trans users')
    refine ⟨m, (mem_offeredMeters shared).mpr ⟨mem, by rw [user]; rfl⟩, here, ?_⟩
    simp only [OwnerTables.offeredWallet, shared, user, Option.join_some]

/-- After a first backfill the read model attributes every serial as the join does if and only if
every meter whose owner has a wallet is stored under its canonical serial, and then every batch of
rows is stored alike. -/
theorem cutover_agrees_iff (indexed : source.Indexed) (shared : source.users = some users)
    (empty : before.meterOwner = ∅)
    (ran : OwnerTables.backfill pgUuid answers source before = .ok (count, after)) :
    ((∀ serial, (after.ownerDb source).attribution true serial =
        (after.ownerDb source).attribution false serial) ↔
      ∀ m ∈ source.meters, ∀ wallet, source.Funded m wallet →
        canonicalizeMeterSerial pgUuid m.serialNumber = m.serialNumber) ∧
      ((∀ m ∈ source.meters, ∀ wallet, source.Funded m wallet →
        canonicalizeMeterSerial pgUuid m.serialNumber = m.serialNumber) →
          ∀ (F : Type) (codec : UuidCodec) (rows : List (FullRow F)),
            insertBatch ⟨codec, true⟩ (after.ownerDb source) rows =
              insertBatch ⟨codec, false⟩ (after.ownerDb source) rows) := by
  have agrees (stored : ∀ m ∈ source.meters, ∀ wallet, source.Funded m wallet →
      canonicalizeMeterSerial pgUuid m.serialNumber = m.serialNumber) (serial : String) :
      (after.ownerDb source).attribution true serial =
        (after.ownerDb source).attribution false serial := by
    apply Option.ext
    rintro ⟨userId, wallet⟩
    rw [attribution_model_iff indexed shared empty ran, attribution_join_iff indexed]
    refine exists_congr fun m => and_congr_right fun mem => ?_
    constructor
    · rintro ⟨here, owner, funded⟩
      exact ⟨(stored m mem wallet funded).symm.trans here, owner, funded⟩
    · rintro ⟨here, owner, funded⟩
      exact ⟨(stored m mem wallet funded).trans here, owner, funded⟩
  refine ⟨⟨?_, agrees⟩, ?_⟩
  · intro same m mem wallet funded
    have model := (attribution_model_iff indexed shared empty ran).mpr ⟨m, mem, rfl, rfl, funded⟩
    rw [same] at model
    obtain ⟨m', mem', here, -, -⟩ := (attribution_join_iff indexed).mp model
    -- the meter the join finds has the same canonical serial, so it is this one
    have one : m' = m := by
      refine indexed.eq mem' mem ?_
      rw [here]
      exact canonicalizeMeterSerial_idem m.serialNumber
    rw [← here, one]
  · intro stored F codec rows
    refine List.filterMap_congr fun row _ => ?_
    simp only [FullRow.attributed, agrees stored]

end Backfilled

/-- A meter that is stored without the hyphens of its serial. -/
private def undashed : OwnerSource where
  meters := [⟨"3eb13b9046684257bdd640fb06671ad1", 1⟩, ⟨"METER-1", 1⟩]
  users := some (AList.insert 1 (some "9xQe") ∅)

private def atOnce : BackfillAnswers :=
  ⟨RowOrder.stored, 0, 0⟩

/-- The read model attributes it, and the join does not. -/
theorem undashed_disagrees :
    ¬ ∀ serial, ((OwnerTables.filled pgUuid undashed atOnce ⟨∅, ∅⟩).ownerDb undashed).attribution
        true serial =
      ((OwnerTables.filled pgUuid undashed atOnce ⟨∅, ∅⟩).ownerDb undashed).attribution
        false serial := by
  have indexed : undashed.Indexed := by
    unfold OwnerSource.Indexed
    decide +kernel
  have exactly := (cutover_agrees_iff indexed rfl rfl
    (OwnerTables.backfill_eq pgUuid undashed atOnce ⟨∅, ∅⟩)).1
  rw [exactly]
  intro stored
  have same := stored _ List.mem_cons_self "9xQe" ⟨_, rfl, rfl⟩
  exact absurd same (by decide +kernel)

end AggregatorBridge
