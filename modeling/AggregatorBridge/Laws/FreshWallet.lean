import AggregatorBridge.MeterRegistry
import AggregatorBridge.Lib.Run

/-!
# Mints go to the wallet Postgres holds

The wallet of an entry is looked up at each attempt, but the lookup is answered from memory if
memory has an answer, and memory never forgets while the process runs; nor does Redis. So a
wallet that was corrected, unlinked or passed to a new owner in Postgres is still sent.

The law is about every run of lookups, attempts and changes of the tables. If a transaction
leaves the wallet alone of every meter that a tier has a wallet for, or that a lookup or an
attempt is about to use one of (`changesUnknown`), then every wallet that is sent is the one
Postgres holds at that time. What is in the tables may be wrong or late itself: the law compares
with Postgres, not with whoever feeds it.
-/

namespace AggregatorBridge

open Remote Transition

variable {cfg : RegistryConfig}

/-! ## What a lookup knows -/

/-- The wallets that a lookup has yet to write or to return. -/
def LookupStage.wallets {α : Type} (walletOf : α → Option String) : LookupStage α → List String
  | cache => []
  | redis => []
  | postgres => []
  | write writes answer => writes.filterMap TierWrite.wallet? ++ (answer.bind walletOf).toList

/-- What a query knows. Its answer is no wallet. -/
def OwnerQuery.wallets (q : OwnerQuery) : List String :=
  q.stage.wallets fun _ => none

/-- The wallets an attempt knows, with the meters they are for. -/
def WalletAttempt.known (a : WalletAttempt) : List (String × String) :=
  a.inputs.map (fun input => (input.1.meterSerial, input.2)) ++
    match a.entries with
    | [] => []
    | p :: _ => (a.stage.wallets some).map fun wallet => (p.meterSerial, wallet)

/-- What is written after a hit in Postgres is what Postgres holds. -/
theorem mem_backfill {userId : Uuid} {wallet : Option String} {w : String}
    (mem : w ∈ (backfill cfg userId wallet).filterMap TierWrite.wallet?) : wallet = some w := by
  have set : w ∈ (wallet.filter walletIsSet).toList → wallet = some w := by
    intro listed
    obtain ⟨held, _⟩ := Option.filter_eq_some_iff.mp (Option.mem_toList.mp listed)
    exact held
  have own (f : String → TierWrite) (same : ∀ w, (f w).wallet? = some w) :
      ((wallet.filter walletIsSet).toList.map f).filterMap TierWrite.wallet? =
        (wallet.filter walletIsSet).toList := by
    rw [List.filterMap_map]
    have all : TierWrite.wallet? ∘ f = some := funext same
    rw [all, List.filterMap_some]
  unfold backfill at mem
  simp only [List.filterMap_append, List.mem_append, own .cacheWallet fun _ => rfl] at mem
  rcases mem with (owner | cached) | shared
  · cases owner
  · exact set cached
  · split at shared
    · rw [List.filterMap_cons_none rfl, own .setWallet fun _ => rfl] at shared
      exact set shared
    · cases shared

namespace Tiers

variable {tiers : Tiers} {meterSerial : String} {reply : Reply}

/-- The two tiers in front of the database hold nothing that it does not hold. Neither has to hold
everything. -/
structure Fresh (cfg : RegistryConfig) (tiers : Tiers) : Prop where
  cached : Hash.Agrees tiers.walletCache (tiers.db.heldWallet cfg)
  shared : Hash.Agrees tiers.wallets (tiers.db.heldWallet cfg)

@[simp] theorem write_db (w : TierWrite) : (tiers.write cfg meterSerial reply w).db = tiers.db := by
  cases w <;> rfl

/-- Writing what Postgres holds keeps the tiers fresh. -/
theorem Fresh.write (fresh : tiers.Fresh cfg) {w : TierWrite}
    (held : ∀ wallet ∈ w.wallet?, tiers.db.heldWallet cfg meterSerial = some wallet) :
    (tiers.write cfg meterSerial reply w).Fresh cfg := by
  cases w with
  | clearNegative => exact ⟨fresh.cached, fresh.shared⟩
  | cacheNegative => exact ⟨fresh.cached, fresh.shared⟩
  | cacheOwner userId => exact ⟨fresh.cached, fresh.shared⟩
  | cacheWallet wallet => exact ⟨fresh.cached.set (held wallet rfl), fresh.shared⟩
  | setOwner userId => exact ⟨fresh.cached, fresh.shared⟩
  | setWallet wallet => exact ⟨fresh.cached, fresh.shared.effect_set reply (held wallet rfl)⟩

theorem heldWallet_of_fetch {userId : Uuid} {wallet : Option String}
    (fetched : tiers.db.fetchOwnerFromDb cfg meterSerial = some (userId, wallet)) :
    tiers.db.heldWallet cfg meterSerial = wallet := by
  unfold OwnerDb.fetchOwnerFromDb at fetched
  split at fetched
  · rw [OwnerDb.heldWallet, fetched]
    rfl
  · cases fetched

end Tiers

/-! ## Lookups -/

/-- The wallets an outcome goes on with or returns. -/
def LookupOutcome.wallets {α : Type} (walletOf : α → Option String) :
    LookupOutcome α → List String
  | goesOn stage => stage.wallets walletOf
  | returns answer => (answer.bind walletOf).toList
  | fails => []

/-- A lookup kept the tiers fresh and knows only what Postgres holds. -/
structure LookupKept {α : Type} (cfg : RegistryConfig) (tiers : Tiers) (meterSerial : String)
    (walletOf : α → Option String) (out : Tiers × LookupOutcome α) : Prop where
  db : out.1.db = tiers.db
  fresh : out.1.Fresh cfg
  knows : ∀ w ∈ out.2.wallets walletOf, tiers.db.heldWallet cfg meterSerial = some w

namespace Tiers

variable {tiers : Tiers} {meterSerial : String} {reply : Reply} {α : Type}
  {walletOf : α → Option String}

/-- A lookup that knows no wallet has nothing to keep. -/
theorem kept_of_nothing (fresh : tiers.Fresh cfg) {outcome : LookupOutcome α}
    (nothing : outcome.wallets walletOf = []) :
    LookupKept cfg tiers meterSerial walletOf (tiers, outcome) := by
  refine ⟨rfl, fresh, ?_⟩
  intro w mem
  rw [nothing] at mem
  cases mem

/-- The writes at the end of a lookup. -/
theorem kept_write (fresh : tiers.Fresh cfg) {write : TierWrite} {writes : List TierWrite}
    {answer : Option α}
    (knows : ∀ w ∈ (LookupStage.write (write :: writes) answer).wallets walletOf,
      tiers.db.heldWallet cfg meterSerial = some w) :
    LookupKept cfg tiers meterSerial walletOf
      (tiers.write cfg meterSerial reply write, .goesOn (.write writes answer)) := by
  refine ⟨write_db write, fresh.write ?_, ?_⟩
  · intro w here
    refine knows w (List.mem_append_left _ (List.mem_filterMap.mpr ⟨write, ?_, here⟩))
    exact List.mem_cons_self
  · intro w mem
    refine knows w ?_
    rcases List.mem_append.mp mem with later | answered
    · obtain ⟨write', listed, here⟩ := List.mem_filterMap.mp later
      exact List.mem_append_left _
        (List.mem_filterMap.mpr ⟨write', List.mem_cons_of_mem _ listed, here⟩)
    · exact List.mem_append_right _ answered

/-- Whatever tier answers it, a lookup of an owner writes to the others only what Postgres holds. -/
theorem kept_resolveUserId (fresh : tiers.Fresh cfg) {stage : LookupStage Uuid}
    (knows : ∀ w ∈ stage.wallets fun _ => none,
      tiers.db.heldWallet cfg meterSerial = some w) :
    LookupKept cfg tiers meterSerial (fun _ => none)
      (tiers.resolveUserId cfg meterSerial reply stage) := by
  have answered (userId : Uuid) :
      LookupKept cfg tiers meterSerial (fun _ => none) (tiers, .returns (some userId)) :=
    kept_of_nothing fresh rfl
  cases stage with
  | cache =>
    simp only [resolveUserId]
    split
    · exact answered _
    · split
      · split
        · exact kept_of_nothing fresh rfl
        · refine ⟨rfl, ⟨fresh.cached, fresh.shared⟩, ?_⟩
          intro w mem
          cases mem
      · exact kept_of_nothing fresh rfl
  | redis =>
    simp only [resolveUserId]
    split
    · split
      · split
        · exact kept_of_nothing fresh rfl
        · exact kept_of_nothing fresh rfl
      · exact kept_of_nothing fresh rfl
    · exact kept_of_nothing fresh rfl
  | postgres =>
    simp only [resolveUserId]
    split
    · exact kept_of_nothing fresh rfl
    · split
      · next userId wallet fetched =>
        refine ⟨rfl, fresh, ?_⟩
        intro w mem
        rw [heldWallet_of_fetch fetched]
        rcases List.mem_append.mp mem with written | none_
        · exact mem_backfill written
        · cases none_
      · split
        · exact answered 0
        · exact kept_of_nothing fresh rfl
  | write writes answer =>
    cases writes with
    | nil =>
      refine ⟨rfl, fresh, ?_⟩
      intro w mem
      exact knows w mem
    | cons write writes => exact kept_write fresh knows

/-- The same of a lookup of a wallet. -/
theorem kept_resolveWallet (fresh : tiers.Fresh cfg) {stage : LookupStage String}
    (knows : ∀ w ∈ stage.wallets some, tiers.db.heldWallet cfg meterSerial = some w) :
    LookupKept cfg tiers meterSerial some (tiers.resolveWallet cfg meterSerial reply stage) := by
  cases stage with
  | cache =>
    simp only [resolveWallet]
    split
    · next wallet found =>
      refine ⟨rfl, fresh, ?_⟩
      intro w mem
      rw [List.mem_singleton.mp mem]
      exact fresh.cached meterSerial wallet found
    · exact kept_of_nothing fresh rfl
  | redis =>
    simp only [resolveWallet]
    split
    · split
      · split
        · next wallet found =>
          obtain ⟨stored, _⟩ := Option.filter_eq_some_iff.mp found
          have held := fresh.shared meterSerial wallet stored
          refine ⟨rfl, fresh, ?_⟩
          intro w mem
          -- written and returned are the same wallet
          have same : w = wallet := by
            rcases List.mem_append.mp mem with written | returned
            · exact List.mem_singleton.mp written
            · exact List.mem_singleton.mp returned
          rw [same]
          exact held
        · exact kept_of_nothing fresh rfl
      · exact kept_of_nothing fresh rfl
    · exact kept_of_nothing fresh rfl
  | postgres =>
    simp only [resolveWallet]
    split
    · exact kept_of_nothing fresh rfl
    · split
      · next userId wallet fetched =>
        refine ⟨rfl, fresh, ?_⟩
        intro w mem
        rw [heldWallet_of_fetch fetched]
        rcases List.mem_append.mp mem with written | returned
        · exact mem_backfill written
        · rw [Option.bind_fun_some] at returned
          exact (Option.filter_eq_some_iff.mp (Option.mem_toList.mp returned)).1
      · exact kept_of_nothing fresh rfl
  | write writes answer =>
    cases writes with
    | nil =>
      refine ⟨rfl, fresh, ?_⟩
      intro w mem
      exact knows w mem
    | cons write writes => exact kept_write fresh knows

end Tiers

/-- An attempt knows what it knew of its inputs, and what the lookup told it. -/
theorem WalletAttempt.mem_known_next {a : WalletAttempt} {p : PendingMint}
    {rest : List PendingMint} (first : a.entries = p :: rest) {outcome : LookupOutcome String}
    {k : String × String} (mem : k ∈ (a.next cfg p rest outcome).known) :
    k ∈ a.known ∨ ∃ w ∈ outcome.wallets some, k = (p.meterSerial, w) := by
  have inputs {stage : LookupStage String} (nothing : stage.wallets some = [])
      (mem : k ∈ (⟨rest, stage, a.inputs⟩ : WalletAttempt).known) : k ∈ a.known := by
    rcases List.mem_append.mp mem with before | looking
    · exact List.mem_append_left _ before
    · simp only [nothing, List.map_nil] at looking
      split at looking <;> cases looking
  cases outcome with
  | goesOn stage =>
    rcases List.mem_append.mp mem with before | looking
    · exact .inl (List.mem_append_left _ before)
    · change k ∈ (match a.entries with
        | [] => []
        | p :: _ => (stage.wallets some).map fun wallet => (p.meterSerial, wallet)) at looking
      rw [first] at looking
      obtain ⟨w, listed, rfl⟩ := List.mem_map.mp looking
      exact .inr ⟨w, listed, rfl⟩
  | returns answer =>
    cases answer with
    | none => exact .inl (inputs rfl mem)
    | some wallet =>
      simp only [WalletAttempt.next] at mem
      split at mem
      · rcases List.mem_append.mp mem with added | looking
        · rw [List.map_append] at added
          rcases List.mem_append.mp added with before | new
          · exact .inl (List.mem_append_left _ before)
          · exact .inr ⟨wallet, List.mem_singleton.mpr rfl, List.mem_singleton.mp new⟩
        · split at looking <;> cases looking
      · exact .inl (inputs rfl mem)
  | fails => exact .inl (inputs rfl mem)

/-! ## The registry -/

namespace Registry

variable {r t : Registry} {e : Event}

/-- The meters somebody knows a wallet of. -/
def knownMeters (r : Registry) : List String :=
  r.tiers.walletCache.keys ++ r.tiers.wallets.keys ++
    (r.queries.filter fun q => !q.wallets.isEmpty).map OwnerQuery.meterSerial ++
    (r.attempts.flatMap WalletAttempt.known).map Prod.fst

/-- A transaction leaves the wallets alone that somebody knows. -/
def changesUnknown (cfg : RegistryConfig) (r : Registry) : Event → Bool
  | .commit db => r.knownMeters.all fun meterSerial =>
      decide (db.heldWallet cfg meterSerial = r.tiers.db.heldWallet cfg meterSerial)
  | _ => true

/-- All that is known about wallets is what Postgres holds, and what was sent is what it held. -/
structure Fresh (cfg : RegistryConfig) (r : Registry) : Prop where
  tiers : r.tiers.Fresh cfg
  queries : ∀ q ∈ r.queries, ∀ w ∈ q.wallets, r.tiers.db.heldWallet cfg q.meterSerial = some w
  attempts : ∀ a ∈ r.attempts, ∀ k ∈ a.known, r.tiers.db.heldWallet cfg k.1 = some k.2
  sent : ∀ s ∈ r.sent, s.held = some s.recipientWallet

/-- With empty tiers there is nothing to be out of date. -/
theorem fresh_init : init.Fresh cfg where
  tiers := ⟨Hash.Agrees.empty, Hash.Agrees.empty⟩
  queries := by
    intro q mem
    cases mem
  attempts := by
    intro a mem
    cases mem
  sent := by
    intro s mem
    cases mem

/-- A commit that changes no wallet somebody knows puts nobody out of date. -/
theorem fresh_commit (fresh : r.Fresh cfg) {db : OwnerDb}
    (meets : changesUnknown cfg r (.commit db) = true) :
    Fresh cfg { r with tiers := { r.tiers with db := db } } := by
  have same : ∀ meterSerial ∈ r.knownMeters,
      db.heldWallet cfg meterSerial = r.tiers.db.heldWallet cfg meterSerial :=
    fun meterSerial mem => of_decide_eq_true (List.all_eq_true.mp meets meterSerial mem)
  simp only [knownMeters, List.mem_append] at same
  refine ⟨⟨fresh.tiers.cached.change ?_, fresh.tiers.shared.change ?_⟩, ?_, ?_, fresh.sent⟩
  · intro meterSerial listed
    exact same meterSerial (.inl (.inl (.inl listed)))
  · intro meterSerial listed
    exact same meterSerial (.inl (.inl (.inr listed)))
  · intro q mem w known
    have some_ : q ∈ r.queries.filter fun q => !q.wallets.isEmpty := by
      refine List.mem_filter.mpr ⟨mem, ?_⟩
      rw [Bool.not_eq_true', List.isEmpty_eq_false_iff]
      exact List.ne_nil_of_mem known
    rw [same q.meterSerial (.inl (.inr (List.mem_map_of_mem some_)))]
    exact fresh.queries q mem w known
  · intro a mem k known
    have listed : k ∈ r.attempts.flatMap WalletAttempt.known :=
      List.mem_flatMap.mpr ⟨a, mem, known⟩
    rw [same k.1 (.inr (List.mem_map_of_mem listed))]
    exact fresh.attempts a mem k known

/-- The next await of a lookup keeps all tiers up to date. -/
theorem fresh_advance (fresh : r.Fresh cfg) {i : Nat} {reply : Reply}
    (moved : advance cfg r i reply = some t) : t.Fresh cfg := by
  obtain ⟨q, at_, moved⟩ := Option.bind_eq_some_iff.mp moved
  have mem := List.mem_of_getElem? at_
  have kept : LookupKept cfg r.tiers q.meterSerial (fun _ => none)
      (r.tiers.resolveUserId cfg q.meterSerial reply q.stage) :=
    Tiers.kept_resolveUserId fresh.tiers (fresh.queries q mem)
  split at moved
  · next tiers stage out =>
    rw [out] at kept
    have db : tiers.db = r.tiers.db := kept.db
    cases moved
    refine ⟨kept.fresh, ?_, ?_, fresh.sent⟩
    · intro q' listed w known
      rw [db]
      rcases List.mem_or_eq_of_mem_set listed with before | rfl
      · exact fresh.queries q' before w known
      · exact kept.knows w known
    · intro a listed
      rw [db]
      exact fresh.attempts a listed
  · next tiers outcome _ out =>
    rw [out] at kept
    have db : tiers.db = r.tiers.db := kept.db
    cases moved
    refine ⟨kept.fresh, ?_, ?_, fresh.sent⟩
    · intro q' listed
      rw [db]
      exact fresh.queries q' (List.mem_of_mem_eraseIdx listed)
    · intro a listed
      rw [db]
      exact fresh.attempts a listed

/-- The next await of an attempt does, too. -/
theorem fresh_resolve (fresh : r.Fresh cfg) {j : Nat} {reply : Reply}
    (moved : resolve cfg r j reply = some t) : t.Fresh cfg := by
  obtain ⟨a, at_, moved⟩ := Option.bind_eq_some_iff.mp moved
  have mem := List.mem_of_getElem? at_
  split at moved
  · cases moved
  next p rest first =>
  have knows : ∀ w ∈ a.stage.wallets some,
      r.tiers.db.heldWallet cfg p.meterSerial = some w := by
    intro w known
    refine fresh.attempts a mem (p.meterSerial, w) (List.mem_append_right _ ?_)
    rw [first]
    exact List.mem_map_of_mem known
  have kept : LookupKept cfg r.tiers p.meterSerial some
      (r.tiers.resolveWallet cfg p.meterSerial reply a.stage) :=
    Tiers.kept_resolveWallet fresh.tiers knows
  obtain rfl := Option.some.inj moved
  have db : (r.tiers.resolveWallet cfg p.meterSerial reply a.stage).1.db = r.tiers.db := kept.db
  refine ⟨kept.fresh, ?_, ?_, fresh.sent⟩
  · intro q listed
    rw [db]
    exact fresh.queries q listed
  · intro a' listed k known
    rw [db]
    rcases List.mem_or_eq_of_mem_set listed with before | rfl
    · exact fresh.attempts a' before k known
    · rcases WalletAttempt.mem_known_next first known with before | ⟨w, told, rfl⟩
      · exact fresh.attempts a mem k before
      · exact kept.knows w told

/-- A wallet that is sent is one that was looked up, and it is still right. -/
theorem fresh_send (fresh : r.Fresh cfg) {j : Nat} (moved : send cfg r j = some t) :
    t.Fresh cfg := by
  obtain ⟨a, at_, moved⟩ := Option.bind_eq_some_iff.mp moved
  split at moved
  · cases moved
    refine ⟨fresh.tiers, fresh.queries,
      fun a listed => fresh.attempts a (List.mem_of_mem_eraseIdx listed), ?_⟩
    intro s listed
    rcases List.mem_append.mp listed with before | new
    · exact fresh.sent s before
    · obtain ⟨input, known, rfl⟩ := List.mem_map.mp new
      exact fresh.attempts a (List.mem_of_getElem? at_) (input.1.meterSerial, input.2)
        (List.mem_append_left _ (List.mem_map_of_mem known))
  · cases moved

/-- Every step keeps everybody's wallets those that Postgres holds. -/
theorem fresh_step (fresh : r.Fresh cfg) (meets : changesUnknown cfg r e = true)
    (moved : step cfg r e = some t) : t.Fresh cfg := by
  cases e with
  | commit db =>
    cases moved
    exact fresh_commit fresh meets
  | tick ms =>
    cases moved
    exact ⟨⟨fresh.tiers.cached, fresh.tiers.shared⟩, fresh.queries, fresh.attempts, fresh.sent⟩
  | dropOwner meterSerial =>
    cases moved
    exact ⟨⟨fresh.tiers.cached, fresh.tiers.shared⟩, fresh.queries, fresh.attempts, fresh.sent⟩
  | dropWallet meterSerial =>
    cases moved
    exact ⟨⟨fresh.tiers.cached, fresh.tiers.shared.del _⟩, fresh.queries, fresh.attempts,
      fresh.sent⟩
  | restart =>
    cases moved
    refine ⟨⟨Hash.Agrees.empty, fresh.tiers.shared⟩, ?_, ?_, fresh.sent⟩
    · intro q mem
      cases mem
    · intro a mem
      cases mem
  | query meterSerial =>
    cases moved
    refine ⟨fresh.tiers, ?_, fresh.attempts, fresh.sent⟩
    intro q mem w known
    rcases List.mem_append.mp mem with before | new
    · exact fresh.queries q before w known
    · cases List.mem_singleton.mp new
      cases known
  | advance i reply => exact fresh_advance fresh moved
  | attempt entries =>
    cases moved
    refine ⟨fresh.tiers, fresh.queries, ?_, fresh.sent⟩
    intro a mem k known
    rcases List.mem_append.mp mem with before | new
    · exact fresh.attempts a before k known
    · cases List.mem_singleton.mp new
      rcases List.mem_append.mp known with input | looking
      · cases input
      · simp only at looking
        split at looking <;> cases looking
  | resolve j reply => exact fresh_resolve fresh moved
  | send j => exact fresh_send fresh moved

/-! ## The law -/

/-- In every run that changes no wallet somebody knows, each wallet that an attempt sends to the
bridge is the one Postgres holds for the owner of the meter when it is sent. It may have been
another a moment before, and may be another a moment after. -/
theorem sent_wallet_is_held (cfg : RegistryConfig) {r : Registry}
    (chain : Steps (step cfg) (fun r e => changesUnknown cfg r e = true) init r) :
    ∀ s ∈ r.sent, s.held = some s.recipientWallet := by
  have fresh : r.Fresh cfg := by
    refine chain.invariant ?_ fresh_init
    intro r e t before meets moved
    exact fresh_step before meets moved
  exact fresh.sent

/-! ## A wallet that was corrected -/

/-- Two addresses that are valid on Solana. -/
private def oldWallet : String := "11111111111111111111111111111111"

private def newWallet : String := "So11111111111111111111111111111111111111112"

/-- A process with every tier, on the dedicated database. No serial below is a UUID. -/
private def threeTiers : RegistryConfig where
  redis := true
  pg := true
  useReadModel := true
  negCacheTtl := 30000
  uuid := ⟨fun _ => none, fun _ => "00000000-0000-0000-0000-000000000007"⟩
  pgUuid := ⟨fun _ => none, fun _ => ""⟩
  walletIsValid wallet := wallet = oldWallet || wallet = newWallet

/-- The read model with a meter of user 7. -/
private def ownedBy (meterSerial wallet : String) (db : OwnerDb) : OwnerDb :=
  { db with readModel := AList.insert meterSerial (7, some wallet) db.readModel }

private def emptyDb : OwnerDb := ⟨∅, ∅, ∅⟩

private def owedMint : PendingMint := ⟨"MTR-1", 1, 0, 5, 900000⟩

/-- An attempt finds the wallet in Postgres, fills the caches and sends it. -/
private def firstAttempt : List Event :=
  [.commit (ownedBy "MTR-1" oldWallet emptyDb), .attempt [owedMint]] ++
    List.replicate 9 (.resolve 0 .ok) ++ [.send 0]

/-- A later attempt finds it in memory. -/
private def laterAttempt : List Event :=
  [.attempt [owedMint], .resolve 0 .ok, .send 0]

/-- The owner's wallet is replaced in between. -/
private def correctedWallet : List Event :=
  firstAttempt ++ .commit (ownedBy "MTR-1" newWallet emptyDb) :: laterAttempt

private theorem correctedWallet_runs :
    (run (step threeTiers) Always correctedWallet init).isSome := by
  decide +kernel

/-- A retry sends the wallet that Postgres held at the first attempt. -/
theorem corrected_wallet_not_used :
    ¬ ∀ r : Registry, Steps (step threeTiers) Always init r →
      ∀ s ∈ r.sent, s.held = some s.recipientWallet := by
  intro law
  have fresh := law _ (Steps.of_run_get correctedWallet_runs)
  have stale : (((run (step threeTiers) Always correctedWallet init).get
      correctedWallet_runs).sent.any fun s =>
        decide (s.held = some newWallet ∧ s.recipientWallet = oldWallet)) = true := by
    decide +kernel
  obtain ⟨s, mem, here⟩ := List.any_eq_true.mp stale
  obtain ⟨held, recipient⟩ := of_decide_eq_true here
  have same := fresh s mem
  rw [held, recipient] at same
  exact absurd same (by decide)

/-- The wallet of a meter nobody has asked for is set in between. -/
private def otherMeter : List Event :=
  firstAttempt ++
    .commit (ownedBy "MTR-2" newWallet (ownedBy "MTR-1" oldWallet emptyDb)) :: laterAttempt

private theorem otherMeter_runs :
    (run (step threeTiers) (fun r e => changesUnknown threeTiers r e = true) otherMeter
      init).isSome := by
  decide +kernel

/-- Both attempts send the wallet Postgres holds. -/
theorem known_wallet_is_held :
    ((run (step threeTiers) (fun r e => changesUnknown threeTiers r e = true) otherMeter
        init).get otherMeter_runs).sent.length = 2 ∧
    ∀ s ∈ ((run (step threeTiers) (fun r e => changesUnknown threeTiers r e = true) otherMeter
        init).get otherMeter_runs).sent, s.held = some s.recipientWallet :=
  ⟨by decide +kernel,
    sent_wallet_is_held threeTiers (Steps.of_run_get otherMeter_runs)⟩

end Registry

end AggregatorBridge
