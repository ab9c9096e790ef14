import Mathlib.Data.List.Induction
import AggregatorBridge.OwnerReadModel

/-!
# Order and repetition in the owner feed

The serials do not disturb each other, and of the meter events of one serial only the last ones
that name the same owner matter: the first of them throws away what the row held, and makes a
copy of the user edge that the later ones fill up (`OwnerRun`). So the row of a serial is the
late copy of `Register`, for the wallet of its last owner (`traced_feed`), and whether the order
of the two topics matters is decided there.

It does matter. The wallet of a meter event is a snapshot from its registration, and a row that
is made after the events of IAM prefers the snapshot to the user edge.

The law speaks of the rows after all events. What a reader finds in between, and what IAM does to a
wallet without an event, is not said.
-/

namespace AggregatorBridge

open Register (Op Act Pair)

/-- The last events about a serial that name one owner. -/
structure OwnerRun where
  owner : Uuid
  snapshots : List (Option String)
  deriving DecidableEq

namespace OwnerRun

/-- A further event about the serial. -/
def next (run : Option OwnerRun) (event : MeterEvent) : OwnerRun :=
  match run with
  | some run =>
    if run.owner = event.userId then ⟨run.owner, run.snapshots ++ [event.snapshot]⟩
    else ⟨event.userId, [event.snapshot]⟩
  | none => ⟨event.userId, [event.snapshot]⟩

/-- The owner that a meter would have if its events alone decided. -/
def last (pgUuid : UuidCodec) (serialNumber : String) (events : List MeterEvent) :
    Option OwnerRun :=
  events.foldl
    (fun run event => if event.serialNumber pgUuid = serialNumber then some (next run event) else run)
    none

variable {pgUuid : UuidCodec} {serialNumber : String}

theorem next_same {run : OwnerRun} {event : MeterEvent} (same : run.owner = event.userId) :
    next (some run) event = ⟨run.owner, run.snapshots ++ [event.snapshot]⟩ :=
  if_pos same

theorem next_other {run : OwnerRun} {event : MeterEvent} (other : run.owner ≠ event.userId) :
    next (some run) event = ⟨event.userId, [event.snapshot]⟩ :=
  if_neg other

theorem next_owner (run : Option OwnerRun) (event : MeterEvent) :
    (next run event).owner = event.userId := by
  cases run with
  | none => rfl
  | some run =>
    by_cases same : run.owner = event.userId
    · rw [next_same same]
      exact same
    · rw [next_other same]

theorem last_snoc (events : List MeterEvent) (event : MeterEvent) :
    last pgUuid serialNumber (events ++ [event]) =
      if event.serialNumber pgUuid = serialNumber then
        some (next (last pgUuid serialNumber events) event)
      else last pgUuid serialNumber events :=
  List.foldl_concat _ _ _ _

theorem snapshots_ne_nil {events : List MeterEvent} {run : OwnerRun}
    (found : last pgUuid serialNumber events = some run) : run.snapshots ≠ [] := by
  induction events using List.reverseRecOn generalizing run with
  | nil => cases found
  | append_singleton events event ih =>
    rw [last_snoc] at found
    split at found
    · cases found
      unfold next
      split
      · split
        · exact List.append_ne_nil_of_right_ne_nil _ (List.cons_ne_nil _ _)
        · exact List.cons_ne_nil _ _
      · exact List.cons_ne_nil _ _
    · exact ih found

/-- The owner of the last run is named by an event about the serial. -/
theorem exists_of_last {events : List MeterEvent} {run : OwnerRun}
    (found : last pgUuid serialNumber events = some run) :
    ∃ event ∈ events, event.serialNumber pgUuid = serialNumber ∧ event.userId = run.owner := by
  induction events using List.reverseRecOn generalizing run with
  | nil => cases found
  | append_singleton events event ih =>
    rw [last_snoc] at found
    split at found
    · next here =>
      cases found
      exact ⟨event, List.mem_append_right _ (List.mem_singleton_self _), here,
        (next_owner _ event).symm⟩
    · obtain ⟨named, mem, here, owner⟩ := ih found
      exact ⟨named, List.mem_append_left _ mem, here, owner⟩

theorem not_mem_of_last_eq_none {events : List MeterEvent}
    (absent : last pgUuid serialNumber events = none) :
    ∀ event ∈ events, event.serialNumber pgUuid ≠ serialNumber := by
  induction events using List.reverseRecOn with
  | nil => exact nofun
  | append_singleton events event ih =>
    rw [last_snoc] at absent
    split at absent
    · cases absent
    · next elsewhere =>
      intro other mem
      rcases List.mem_append.mp mem with before | now
      · exact ih absent other before
      · rw [List.mem_singleton.mp now]
        exact elsewhere

/-- A suffix ends on the same owner, if it is about the serial at all. -/
theorem owner_of_suffix {before events : List MeterEvent} {run whole : OwnerRun}
    (found : last pgUuid serialNumber events = some run)
    (all : last pgUuid serialNumber (before ++ events) = some whole) :
    whole.owner = run.owner := by
  induction events using List.reverseRecOn generalizing run whole with
  | nil => cases found
  | append_singleton events event ih =>
    rw [last_snoc] at found
    rw [← List.append_assoc, last_snoc] at all
    split at found
    · next here =>
      rw [if_pos here] at all
      cases found
      cases all
      rw [next_owner, next_owner]
    · next elsewhere =>
      rw [if_neg elsewhere] at all
      exact ih found all

end OwnerRun

/-- The writes of some events of IAM to the wallet of a user. -/
def walletOpsOf (user : Uuid) (events : List UserEvent) : List (Op String) :=
  events.flatMap (UserEvent.walletOpsFor user)

namespace OwnerReadModel

variable (pgUuid : UuidCodec) (db : OwnerReadModel)

/-! ## One topic alone -/

theorem edge_feed (events : List FeedEvent) (user : Uuid) :
    (db.feed pgUuid events).edge user =
      Register.run (walletOpsOf user (events.filterMap FeedEvent.user?)) (db.edge user) := by
  induction events generalizing db with
  | nil => rfl
  | cons event events ih =>
    rw [feed_cons, ih]
    cases event with
    | meter event => rfl
    | user event =>
      rw [edge_dispatch_user]
      exact (Register.run_append _ _ _).symm
    | skipped => rfl

theorem row_feed_users (events : List UserEvent) (serialNumber : String) :
    (db.feed pgUuid (events.map .user)).row serialNumber =
      (db.row serialNumber).map fun row =>
        (row.1, Register.run (walletOpsOf row.1 events) row.2) := by
  induction events generalizing db with
  | nil => exact Option.map_id'.symm
  | cons event events ih =>
    rw [List.map_cons, feed_cons, ih, row_dispatch_user, Option.map_map]
    apply congrArg (Option.map · (db.row serialNumber))
    funext row
    exact congrArg (Prod.mk row.1) (Register.run_append _ _ _).symm

theorem edge_feed_meters (events : List MeterEvent) (user : Uuid) :
    (db.feed pgUuid (events.map .meter)).edge user = db.edge user := by
  induction events generalizing db with
  | nil => rfl
  | cons event events ih =>
    rw [List.map_cons, feed_cons, ih, edge_dispatch_meter]

/-- What the row of a serial holds after some meter events: the wallet it had counts only if no
other owner came in between. -/
theorem row_feed_meters (events : List MeterEvent) (serialNumber : String) :
    (db.feed pgUuid (events.map .meter)).row serialNumber =
      match OwnerRun.last pgUuid serialNumber events with
      | none => db.row serialNumber
      | some run =>
        some (run.owner,
          if ∀ event ∈ events, event.serialNumber pgUuid = serialNumber →
              event.userId = run.owner then
            mergedWallet (db.row serialNumber) run.owner
              (Register.filled run.snapshots (db.edge run.owner))
          else Register.filled run.snapshots (db.edge run.owner)) := by
  induction events using List.reverseRecOn with
  | nil => rfl
  | append_singleton events event ih =>
    rw [List.map_append, feed_append, OwnerRun.last_snoc]
    show ((db.feed pgUuid (events.map .meter)).dispatch pgUuid (.meter event)).row serialNumber = _
    rw [row_dispatch_meter, edge_feed_meters, ih]
    by_cases here : event.serialNumber pgUuid = serialNumber
    · rw [if_pos here.symm, if_pos here]
      cases found : OwnerRun.last pgUuid serialNumber events with
      | none =>
        -- the first event about the serial
        have absent := OwnerRun.not_mem_of_last_eq_none found
        have only : ∀ other ∈ events ++ [event], other.serialNumber pgUuid = serialNumber →
            other.userId = event.userId := by
          intro other mem named
          rcases List.mem_append.mp mem with before | now
          · exact absurd named (absent other before)
          · rw [List.mem_singleton.mp now]
        simp only [OwnerRun.next, if_pos only, Register.filled_single]
      | some run =>
        by_cases same : run.owner = event.userId
        · rw [OwnerRun.next_same same]
          have extended : (∀ other ∈ events ++ [event], other.serialNumber pgUuid = serialNumber →
              other.userId = run.owner) ↔
              ∀ other ∈ events, other.serialNumber pgUuid = serialNumber →
                other.userId = run.owner := by
            simp only [List.forall_mem_append, List.forall_mem_singleton, same, implies_true,
              and_true]
          simp only [extended, Register.filled_append, Register.filled_single, ← same]
          rw [mergedWallet_same]
          split
          · rw [mergedWallet_or]
          · rfl
        · -- another owner was named before
          obtain ⟨named, mem, there, owner⟩ := OwnerRun.exists_of_last found
          have mixed : ¬ ∀ other ∈ events ++ [event], other.serialNumber pgUuid = serialNumber →
              other.userId = event.userId := by
            intro all
            exact same (owner ▸ all named (List.mem_append_left _ mem) there)
          rw [OwnerRun.next_other same]
          simp only [if_neg mixed, Register.filled_single, mergedWallet_other same]
    · rw [if_neg (Ne.symm here), if_neg here]
      have extended : ∀ owner : Uuid,
          (∀ other ∈ events ++ [event], other.serialNumber pgUuid = serialNumber →
            other.userId = owner) ↔
          ∀ other ∈ events, other.serialNumber pgUuid = serialNumber → other.userId = owner := by
        intro owner
        simp only [List.forall_mem_append, List.forall_mem_singleton, here, false_implies, and_true]
      simp only [extended]

/-! ## Both topics -/

/-- The row of a serial is a copy of the wallet of its owner, made and filled by the last events
about the serial while the writes to that wallet went on. -/
def Traced (db : OwnerReadModel) (serialNumber : String) (run : OwnerRun)
    (ops : List (Op String)) : Prop :=
  ∃ acts wallet, acts.filterMap Act.op? = ops ∧ acts.filterMap Act.fill? = run.snapshots ∧
    Pair.init.run acts = ⟨db.edge run.owner, some wallet⟩ ∧
    db.row serialNumber = some (run.owner, wallet)

variable {pgUuid db} {serialNumber : String} {run : OwnerRun} {ops : List (Op String)}

theorem Traced.user (traced : Traced db serialNumber run ops) (event : UserEvent) :
    Traced (db.dispatch pgUuid (.user event)) serialNumber run
      (ops ++ event.walletOpsFor run.owner) := by
  obtain ⟨acts, wallet, writes, fills, ran, found⟩ := traced
  let later := event.walletOpsFor run.owner
  refine ⟨acts ++ later.map .op, Register.run later wallet, ?_, ?_, ?_, ?_⟩
  · rw [List.filterMap_append, writes, Register.filterMap_op?_map]
  · rw [List.filterMap_append, fills, Register.filterMap_fill?_map, List.append_nil]
  · rw [Pair.run_append, ran, Pair.run_ops, edge_dispatch_user]
    rfl
  · rw [row_dispatch_user, found]
    rfl

theorem Traced.fill (traced : Traced db serialNumber run ops) {event : MeterEvent}
    (here : event.serialNumber pgUuid = serialNumber) (same : run.owner = event.userId) :
    Traced (db.dispatch pgUuid (.meter event)) serialNumber
      ⟨run.owner, run.snapshots ++ [event.snapshot]⟩ ops := by
  obtain ⟨acts, wallet, writes, fills, ran, found⟩ := traced
  refine ⟨acts ++ [.fill event.snapshot], wallet.or (event.snapshot.or (db.edge run.owner)),
    ?_, ?_, ?_, ?_⟩
  · rw [List.filterMap_append, writes]
    exact List.append_nil ops
  · rw [List.filterMap_append, fills]
    rfl
  · rw [Pair.run_append, ran]
    rfl
  · rw [row_dispatch_meter, if_pos here.symm, found, ← same, mergedWallet_same]

theorem traced_new {event : MeterEvent} (here : event.serialNumber pgUuid = serialNumber)
    (other : ∀ row, db.row serialNumber = some row → row.1 ≠ event.userId)
    (source : db.edge event.userId = Register.run ops none) :
    Traced (db.dispatch pgUuid (.meter event)) serialNumber
      ⟨event.userId, [event.snapshot]⟩ ops := by
  refine ⟨ops.map .op ++ [.fill event.snapshot], event.snapshot.or (db.edge event.userId),
    ?_, ?_, ?_, ?_⟩
  · rw [List.filterMap_append, Register.filterMap_op?_map]
    exact List.append_nil ops
  · rw [List.filterMap_append, Register.filterMap_fill?_map]
    rfl
  · rw [Pair.run_append, Pair.run_ops]
    show Pair.mk (Register.run ops none) (some (event.snapshot.or (Register.run ops none))) = _
    rw [← source]
    rfl
  · rw [row_dispatch_meter, if_pos here.symm]
    cases found : db.row serialNumber with
    | none => rfl
    | some row => rw [mergedWallet_other (other row found)]

theorem Traced.elsewhere (traced : Traced db serialNumber run ops) {event : MeterEvent}
    (elsewhere : event.serialNumber pgUuid ≠ serialNumber) :
    Traced (db.dispatch pgUuid (.meter event)) serialNumber run ops := by
  obtain ⟨acts, wallet, writes, fills, ran, found⟩ := traced
  refine ⟨acts, wallet, writes, fills, ran, ?_⟩
  rw [row_dispatch_meter, if_neg (Ne.symm elsewhere), found]

/-- After any run of the feed, the row of every serial is the copy its last owner run made. -/
theorem traced_feed (pgUuid : UuidCodec) (events : List FeedEvent) (serialNumber : String) :
    match OwnerRun.last pgUuid serialNumber (events.filterMap FeedEvent.meter?) with
    | none => (empty.feed pgUuid events).row serialNumber = none
    | some run => Traced (empty.feed pgUuid events) serialNumber run
        (walletOpsOf run.owner (events.filterMap FeedEvent.user?)) := by
  induction events using List.reverseRecOn with
  | nil => rfl
  | append_singleton events event ih =>
    rw [feed_append, List.filterMap_append, List.filterMap_append]
    cases event with
    | skipped =>
      simp only [List.filterMap_cons, FeedEvent.meter?, FeedEvent.user?, List.filterMap_nil,
        List.append_nil]
      exact ih
    | user event =>
      simp only [List.filterMap_cons, FeedEvent.meter?, FeedEvent.user?, List.filterMap_nil,
        List.append_nil]
      split
      · next found =>
        rw [found] at ih
        show ((empty.feed pgUuid events).dispatch pgUuid (.user event)).row serialNumber = none
        rw [row_dispatch_user, ih]
        rfl
      · next run found =>
        rw [found] at ih
        have moved : Traced ((empty.feed pgUuid events).dispatch pgUuid (.user event)) serialNumber
            run _ := ih.user event
        rw [walletOpsOf, List.flatMap_append, List.flatMap_singleton]
        exact moved
    | meter event =>
      simp only [List.filterMap_cons, FeedEvent.meter?, FeedEvent.user?, List.filterMap_nil,
        List.append_nil, OwnerRun.last_snoc]
      by_cases here : event.serialNumber pgUuid = serialNumber
      · rw [if_pos here]
        have source := edge_feed pgUuid empty events event.userId
        cases found : OwnerRun.last pgUuid serialNumber (events.filterMap FeedEvent.meter?) with
        | none =>
          rw [found] at ih
          exact traced_new here (fun row held => by rw [ih] at held; cases held) source
        | some run =>
          rw [found] at ih
          by_cases same : run.owner = event.userId
          · rw [OwnerRun.next_same same]
            exact ih.fill here same
          · rw [OwnerRun.next_other same]
            obtain ⟨_, wallet, _, _, _, held⟩ := ih
            refine traced_new here (fun row now => ?_) source
            rw [held] at now
            cases now
            exact same
      · rw [if_neg here]
        split
        · next found =>
          rw [found] at ih
          show ((empty.feed pgUuid events).dispatch pgUuid (.meter event)).row serialNumber = none
          rw [row_dispatch_meter, if_neg (Ne.symm here), ih]
        · next run found =>
          rw [found] at ih
          exact ih.elsewhere here

/-! ## Convergence -/

/-- An order of the events of two topics that keeps the order of each. -/
def Interleaves (meters : List MeterEvent) (users : List UserEvent) (events : List FeedEvent) :
    Prop :=
  events.filterMap FeedEvent.meter? = meters ∧ events.filterMap FeedEvent.user? = users

theorem filterMap_meter?_meters (meters : List MeterEvent) :
    (meters.map FeedEvent.meter).filterMap FeedEvent.meter? = meters := by
  rw [List.filterMap_map]
  exact List.filterMap_some

theorem filterMap_user?_users (users : List UserEvent) :
    (users.map FeedEvent.user).filterMap FeedEvent.user? = users := by
  rw [List.filterMap_map]
  exact List.filterMap_some

theorem filterMap_meter?_users (users : List UserEvent) :
    (users.map FeedEvent.user).filterMap FeedEvent.meter? = [] := by
  rw [List.filterMap_map, List.filterMap_eq_nil_iff]
  intro event _
  rfl

theorem filterMap_user?_meters (meters : List MeterEvent) :
    (meters.map FeedEvent.meter).filterMap FeedEvent.user? = [] := by
  rw [List.filterMap_map, List.filterMap_eq_nil_iff]
  intro event _
  rfl

theorem interleaves_users_first (meters : List MeterEvent) (users : List UserEvent) :
    Interleaves meters users (users.map .user ++ meters.map .meter) := by
  constructor
  · rw [List.filterMap_append, filterMap_meter?_users, filterMap_meter?_meters, List.nil_append]
  · rw [List.filterMap_append, filterMap_user?_users, filterMap_user?_meters, List.append_nil]

theorem interleaves_meters_first (meters : List MeterEvent) (users : List UserEvent) :
    Interleaves meters users (meters.map .meter ++ users.map .user) := by
  constructor
  · rw [List.filterMap_append, filterMap_meter?_users, filterMap_meter?_meters, List.append_nil]
  · rw [List.filterMap_append, filterMap_user?_users, filterMap_user?_meters, List.nil_append]

theorem row_meters_first (meters : List MeterEvent) (users : List UserEvent)
    (found : OwnerRun.last pgUuid serialNumber meters = some run) :
    (empty.feed pgUuid (meters.map .meter ++ users.map .user)).row serialNumber =
      some (run.owner, Register.run (walletOpsOf run.owner users)
        (Register.filled run.snapshots none)) := by
  rw [feed_append, row_feed_users, row_feed_meters, found]
  show some (run.owner, Register.run _ (if _ then _ else _)) = _
  rw [row_empty, edge_empty, mergedWallet, ite_self]

theorem row_users_first (meters : List MeterEvent) (users : List UserEvent)
    (found : OwnerRun.last pgUuid serialNumber meters = some run) :
    (empty.feed pgUuid (users.map .user ++ meters.map .meter)).row serialNumber =
      some (run.owner, Register.filled run.snapshots
        (Register.run (walletOpsOf run.owner users) none)) := by
  have absent : (empty.feed pgUuid (users.map .user)).row serialNumber = none := by
    rw [row_feed_users]
    rfl
  rw [feed_append, row_feed_meters, found, absent]
  show some (run.owner, if _ then _ else _) = _
  rw [mergedWallet, ite_self, edge_feed, filterMap_user?_users, edge_empty]

/-- Every order of the two topics ends with the same rows exactly when, for every serial, the
snapshots of its last owner agree with what IAM said about that owner. Nothing is asked of the
orders in which the events come, but that each topic keeps its own. -/
theorem feed_converges_iff (pgUuid : UuidCodec) (meters : List MeterEvent)
    (users : List UserEvent) :
    (∀ first second, Interleaves meters users first → Interleaves meters users second →
      ∀ serialNumber, (empty.feed pgUuid first).row serialNumber =
        (empty.feed pgUuid second).row serialNumber) ↔
    ∀ serialNumber run, OwnerRun.last pgUuid serialNumber meters = some run →
      Register.Settled run.snapshots (walletOpsOf run.owner users) := by
  constructor
  · intro converges serialNumber run found
    have extremes := converges _ _ (interleaves_meters_first meters users)
      (interleaves_users_first meters users) serialNumber
    rw [row_meters_first meters users found, row_users_first meters users found] at extremes
    rw [Register.settled_iff (OwnerRun.snapshots_ne_nil found)]
    exact congrArg Prod.snd (Option.some.inj extremes)
  · intro settled
    have value : ∀ events, Interleaves meters users events → ∀ serialNumber,
        (empty.feed pgUuid events).row serialNumber =
          (OwnerRun.last pgUuid serialNumber meters).map fun run =>
            (run.owner, Register.run (walletOpsOf run.owner users)
              (Register.filled run.snapshots none)) := by
      rintro events ⟨ofMeters, ofUsers⟩ serialNumber
      have traced := traced_feed pgUuid events serialNumber
      rw [ofMeters, ofUsers] at traced
      cases found : OwnerRun.last pgUuid serialNumber meters with
      | none =>
        rw [found] at traced
        exact traced
      | some run =>
        rw [found] at traced
        obtain ⟨acts, wallet, writes, fills, ran, held⟩ := traced
        have copied : (Pair.init.run acts).copy = some wallet := congrArg Pair.copy ran
        rw [held, Register.copy_of_settled (settled serialNumber run found) writes fills copied]
        rfl
    intro first second ofFirst ofSecond serialNumber
    rw [value first ofFirst, value second ofSecond]

/-- A text codec that reads no UUID, so that every serial is canonical. -/
def noUuids : UuidCodec :=
  ⟨fun _ => none, fun _ => ""⟩

def registered (serialNumber : String) (user : Uuid) (wallet : String) : MeterEvent :=
  ⟨.meterRegistered, ⟨serialNumber, user, some wallet⟩⟩

def linked (user : Uuid) (wallet : String) : UserEvent :=
  ⟨.userWalletLinked, ⟨user, some wallet, none⟩⟩

def unlinked (user : Uuid) (wallet : String) : UserEvent :=
  ⟨.userWalletUnlinked, ⟨user, some wallet, none⟩⟩

/-- A meter is registered with one wallet and IAM moves its owner to another: which of them the
row ends on depends on which topic is read first. -/
theorem registration_after_link_reverts_it :
    ¬ (∀ first second, Interleaves [registered "M1" 1 "old"] [linked 1 "new"] first →
      Interleaves [registered "M1" 1 "old"] [linked 1 "new"] second →
      ∀ serialNumber, (empty.feed noUuids first).row serialNumber =
        (empty.feed noUuids second).row serialNumber) := by
  intro converges
  have rows := converges [.meter (registered "M1" 1 "old"), .user (linked 1 "new")]
    [.user (linked 1 "new"), .meter (registered "M1" 1 "old")] ⟨rfl, rfl⟩ ⟨rfl, rfl⟩ "M1"
  exact absurd rows (by decide +kernel)

/-! ## Redelivery -/

/-- The meter events of a history from some offset on. -/
def metersFrom (offset : Nat) (history : List FeedEvent) : List MeterEvent :=
  (history.filterMap FeedEvent.meter?).drop offset

/-- After a history, the row of a serial belongs to the last owner its events name. -/
theorem row_owner {history : List FeedEvent} {offset : Nat}
    (found : OwnerRun.last pgUuid serialNumber (metersFrom offset history) = some run) :
    ∃ wallet, (empty.feed pgUuid history).row serialNumber = some (run.owner, wallet) := by
  have whole := List.take_append_drop offset (history.filterMap FeedEvent.meter?)
  have traced := traced_feed pgUuid history serialNumber
  rw [← whole] at traced
  split at traced
  · next absent =>
    obtain ⟨event, mem, here, _⟩ := OwnerRun.exists_of_last found
    exact absurd here (OwnerRun.not_mem_of_last_eq_none absent event (List.mem_append_right _ mem))
  · next all last =>
    obtain ⟨_, wallet, _, _, _, held⟩ := traced
    rw [OwnerRun.owner_of_suffix found last] at held
    exact ⟨wallet, held⟩

theorem or_eq_left_iff {held further : Option String} :
    held.or further = held ↔ held ≠ none ∨ further = none := by
  cases held with
  | none => simp
  | some wallet => simp

/-- The row of a serial already holds what a replay of some meter events would store. A row whose
owner does not change in the replay has a wallet, or nobody knows one; the row of a meter that
changes hands holds what the first event for its last owner finds, in its snapshot, in the user
edge, or in a later snapshot. -/
def Survives (pgUuid : UuidCodec) (db : OwnerReadModel) (events : List MeterEvent)
    (serialNumber : String) (run : OwnerRun) (wallet : Option String) : Prop :=
  if ∀ event ∈ events, event.serialNumber pgUuid = serialNumber → event.userId = run.owner then
    wallet ≠ none ∨ db.edge run.owner = none ∧ ∀ snapshot ∈ run.snapshots, snapshot = none
  else wallet = Register.filled run.snapshots (db.edge run.owner)

/-- A row survives a replay exactly if what it holds is what the replay puts there. -/
theorem survives_iff {events : List MeterEvent} {wallet : Option String}
    (found : OwnerRun.last pgUuid serialNumber events = some run)
    (held : db.row serialNumber = some (run.owner, wallet)) :
    (db.feed pgUuid (events.map .meter)).row serialNumber = some (run.owner, wallet) ↔
      db.Survives pgUuid events serialNumber run wallet := by
  unfold Survives
  rw [row_feed_meters, found, held, Option.some.injEq, Prod.mk.injEq, eq_self_iff_true, true_and]
  split
  · rw [mergedWallet_same, or_eq_left_iff,
      Register.filled_eq_none (OwnerRun.snapshots_ne_nil found)]
  · exact eq_comm

/-- Replaying the meter events from an older offset leaves every row as it is exactly when every row
survives it. The user topic is not replayed here. -/
theorem replay_harmless_iff (pgUuid : UuidCodec) (history : List FeedEvent) (offset : Nat) :
    (∀ serialNumber,
      ((empty.feed pgUuid history).feed pgUuid
        ((metersFrom offset history).map .meter)).row serialNumber =
      (empty.feed pgUuid history).row serialNumber) ↔
    ∀ serialNumber run wallet,
      OwnerRun.last pgUuid serialNumber (metersFrom offset history) = some run →
      (empty.feed pgUuid history).row serialNumber = some (run.owner, wallet) →
      (empty.feed pgUuid history).Survives pgUuid (metersFrom offset history) serialNumber run
        wallet := by
  constructor
  · intro same serialNumber run wallet found held
    rw [← survives_iff found held, ← held]
    exact same serialNumber
  · intro survive serialNumber
    cases found : OwnerRun.last pgUuid serialNumber (metersFrom offset history) with
    | none => rw [row_feed_meters, found]
    | some run =>
      obtain ⟨wallet, held⟩ := row_owner found
      rw [held, survives_iff found held]
      exact survive serialNumber run wallet found held

/-- A meter changes hands and IAM moves the wallet of its new owner; the replay takes the row
back to the wallet of the registration. -/
theorem replay_reverts_primary :
    let history : List FeedEvent :=
      [.meter (registered "M1" 1 "a"), .meter (registered "M1" 2 "old"), .user (linked 2 "new")]
    ¬ ∀ serialNumber,
      ((empty.feed noUuids history).feed noUuids ((metersFrom 0 history).map .meter)).row
        serialNumber = (empty.feed noUuids history).row serialNumber := by
  intro history same
  exact absurd (same "M1") (by decide +kernel)

end OwnerReadModel

end AggregatorBridge
