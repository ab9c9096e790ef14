import AggregatorBridge.Laws.KeyColumns

/-!
# A batch of keys is as many single keys

A batch asks the cache for all devices before it reads anything, and stores what it has read
behind all lookups; single calls look, read and store in turn, so that a device that comes twice
is read once. `Reflects` is what the two leave behind in the same words: the devices that were
read at least once have the verdict on what Redis holds, and all others have what they had. What
expires in between is no exception to it, but is why it speaks of moments.

`batch_reads_as_single_iff` has the exceptions. They are in what is read as text: the single path
refuses a value of Redis that is none, for the device that has it; the batch refuses itself, or
takes a value that is no string at all for no value, and remembers that.

Redis stays as it is while the calls are compared. What a cache is worth when keys change is said by
`KeyFreshness`, and not here.
-/

namespace AggregatorBridge

open Checked Remote Expiring

namespace KeyReader

variable {V : Type} (r : KeyReader V) (times : CallTimes)

/-! ## What is left in the cache -/

theorem held_cachePut {i : Nat} {t : Instant} (passed : times.stamp i ≤ t)
    (cache : PrunedCache String (Option V)) (device other : String) (verdict : Option V) :
    held t (r.cachePut times i cache device verdict) other =
      if other = device then
        (if t < times.stamp i + r.kind.ttl verdict then some verdict else none)
      else held t cache other := by
  unfold held cachePut PrunedCache.insertPruned
  rw [get_insert]
  split
  · rfl
  · split
    · exact get_prune passed other cache.map
    · rfl

/-- From a moment on, a cache has what it had before, but for the devices that were refreshed and
have something to store: these have that, unless its lifetime has passed since it all began. -/
structure Reflects (began : Instant) (before : PrunedCache String (Option V))
    (stored : String → Option (Option V)) (refreshed : String → Prop) (since : Instant)
    (cache : PrunedCache String (Option V)) : Prop where
  fresh : ∀ t, since ≤ t → ∀ device verdict, refreshed device → stored device = some verdict →
    held t cache device = some verdict ∨
      held t cache device = none ∧ began + r.kind.ttl verdict ≤ t
  kept : ∀ t, since ≤ t → ∀ device, ¬ (refreshed device ∧ (stored device).isSome) →
    held t cache device = held t before device

namespace Reflects

variable {r times} {began since : Instant} {before cache : PrunedCache String (Option V)}
  {stored : String → Option (Option V)} {refreshed : String → Prop}

theorem start (since : Instant) : r.Reflects began before stored (fun _ => False) since before where
  fresh _ _ _ _ none := none.elim
  kept _ _ _ _ := rfl

theorem congr {refreshed' : String → Prop} (same : ∀ device, refreshed device ↔ refreshed' device)
    (reflects : r.Reflects began before stored refreshed since cache) :
    r.Reflects began before stored refreshed' since cache := by
  have eq : refreshed = refreshed' := funext fun device => propext (same device)
  exact eq ▸ reflects

/-- Caches that answer alike from a later moment on. -/
theorem later {since' : Instant} {cache' : PrunedCache String (Option V)} (passed : since ≤ since')
    (same : ∀ t, since' ≤ t → ∀ device, held t cache' device = held t cache device)
    (reflects : r.Reflects began before stored refreshed since cache) :
    r.Reflects began before stored refreshed since' cache' where
  fresh t after device verdict isFresh isStored := by
    rw [same t after]
    exact reflects.fresh t (passed.trans after) device verdict isFresh isStored
  kept t after device old := by
    rw [same t after]
    exact reflects.kept t (passed.trans after) device old

/-- One more device is refreshed. -/
theorem refresh (reflects : r.Reflects began before stored refreshed since cache) {i : Nat}
    {since' : Instant} (passed : since ≤ since') (stamped : times.stamp i ≤ since')
    (begun : began ≤ times.stamp i) (device : String) :
    r.Reflects began before stored (fun other => refreshed other ∨ other = device) since'
      (r.store times i cache device (stored device)) := by
  cases put : stored device with
  | none =>
    -- There is nothing to store, and to be refreshed means nothing.
    refine ⟨fun t after other verdict isFresh isStored => ?_, fun t after other old => ?_⟩
    · have ne : other ≠ device := by
        rintro rfl
        rw [put] at isStored
        cases isStored
      exact reflects.fresh t (passed.trans after) other verdict (isFresh.resolve_right ne) isStored
    · exact reflects.kept t (passed.trans after) other fun both => old ⟨.inl both.1, both.2⟩
  | some verdict =>
    refine ⟨fun t after other verdict' isFresh isStored => ?_, fun t after other old => ?_⟩
    · rw [store, r.held_cachePut times (stamped.trans after)]
      split
      · next same =>
        subst same
        rw [put] at isStored
        cases isStored
        split
        · exact .inl rfl
        · next lapsed =>
          right
          exact ⟨rfl, (Nat.add_le_add_right begun _).trans (not_lt.mp lapsed)⟩
      · next ne =>
        exact reflects.fresh t (passed.trans after) other verdict' (isFresh.resolve_right ne)
          isStored
    · have ne : other ≠ device := by
        rintro rfl
        exact old ⟨.inr rfl, by rw [put]; rfl⟩
      rw [store, r.held_cachePut times (stamped.trans after), if_neg ne]
      exact reflects.kept t (passed.trans after) other fun both => old ⟨.inl both.1, both.2⟩

/-- The second loop of a batch refreshes the devices it has answers for. -/
theorem backfill (reflects : r.Reflects began before stored refreshed since cache)
    (begun : ∀ i, began ≤ times.stamp i) (ended : ∀ i, times.stamp i ≤ since)
    {slot : String → Option String}
    (isStored : ∀ device, stored device = r.slotVerdict device (slot device))
    {devices : List String} (holes : List (String × Nat))
    (holed : ∀ m ∈ holes, devices[m.2]? = some m.1) (out : List (Option V))
    (length : out.length = devices.length) :
    r.Reflects began before stored (fun device => refreshed device ∨ ∃ j, (device, j) ∈ holes)
      since (r.backfill times devices (holes.map fun m => (slot m.1, m.2)) out cache).2 := by
  induction holes generalizing refreshed out cache with
  | nil => exact reflects.congr fun device => by simp
  | cons m holes ih =>
    obtain ⟨device, i⟩ := m
    have here := holed _ List.mem_cons_self
    have within : i < out.length := length ▸ (List.getElem?_eq_some_iff.mp here).1
    have one := reflects.refresh le_rfl (ended i) (begun i) device
    rw [isStored] at one
    simp only [List.map_cons, KeyReader.backfill, here]
    rw [if_pos within, r.parseSlot_eq]
    refine (ih one (fun m mem => holed m (List.mem_cons_of_mem _ mem)) _
      (by rw [List.length_set, length])).congr fun other => ?_
    simp only [List.mem_cons, Prod.mk.injEq]
    constructor
    · rintro ((old | rfl) | ⟨j, mem⟩)
      · exact .inl old
      · exact .inr ⟨i, .inl ⟨rfl, rfl⟩⟩
      · exact .inr ⟨j, .inr mem⟩
    · rintro (old | ⟨j, ⟨rfl, rfl⟩ | mem⟩)
      · exact .inl (.inl old)
      · exact .inl (.inr rfl)
      · exact .inr ⟨j, mem⟩

end Reflects

/-- The cache does not know a device at one of the moments at which it is looked up. -/
def Refreshed (times : CallTimes) (cache : PrunedCache String (Option V)) (devices : List String)
    (device : String) : Prop :=
  ∃ j, devices[j]? = some device ∧ held (times.look j) cache device = none

/-- The times of a batch and of single calls in its place: the n-th call looks when the batch looks
for the n-th device. All of it happens between two moments. -/
structure Orderly (times alone : CallTimes) (began ended : Instant) : Prop where
  look : alone.look = times.look
  begun : began ≤ times.look 0
  looked : ∀ i, times.look i ≤ ended
  stamp_begun : ∀ i, began ≤ times.stamp i
  stamp_ended : ∀ i, times.stamp i ≤ ended
  alone_stamp : ∀ i, times.look i ≤ alone.stamp i
  alone_next : ∀ i, alone.stamp i ≤ times.look (i + 1)

section

variable {r times} {alone : CallTimes} {began ended : Instant}
  (orderly : Orderly times alone began ended)

include orderly

theorem reflects_resolveKeys {cache : PrunedCache String (Option V)} {devices : List String}
    (readable : r.Readable times cache devices) :
    r.Reflects began cache (fun device => r.slotVerdict device (r.slotOf device))
      (Refreshed times cache devices) ended (r.resolveKeys times devices cache).2 := by
  have looked : r.Reflects began cache (fun device => r.slotVerdict device (r.slotOf device))
      (fun _ => False) ended (r.consult times 0 devices KeyColumns.empty cache).2 :=
    (Reflects.start ended).later le_rfl fun t after device =>
      r.held_consult times (fun i => (orderly.looked i).trans after) devices 0 _ cache device
  rw [r.resolveKeys_eq times readable]
  refine (looked.backfill orderly.stamp_begun orderly.stamp_ended (fun _ => rfl) _
    (fun m mem => ((mem_missed times).mp mem).1) _
    (by rw [List.length_map, List.length_zipIdx])).congr fun device => ?_
  rw [false_or]
  exact exists_congr fun j => mem_missed times

/-- A single call refreshes the device that the cache does not know. -/
theorem Reflects.resolveKey {before cache : PrunedCache String (Option V)} {i : Nat}
    {refreshed : String → Prop} {since : Instant} (passed : since ≤ times.look i)
    (reflects : r.Reflects began before (fun device => (r.readKey device).toOption) refreshed since
      cache) (device : String) :
    r.Reflects began before (fun device => (r.readKey device).toOption)
      (fun other => refreshed other ∨
        other = device ∧ held (times.look i) before device = none)
      (alone.stamp i) (r.resolveKey alone i device cache).2 := by
  have begun : began ≤ times.look i := orderly.begun.trans (times.look_mono (Nat.zero_le i))
  have looked := reflects.later (passed.trans (orderly.alone_stamp i)) fun t after other =>
    held_after_look ((orderly.alone_stamp i).trans after) cache device other
  -- What is not refreshed is as it was, also at the moment of this call.
  have asBefore (old : ¬ refreshed device) :
      held (times.look i) cache device = held (times.look i) before device :=
    reflects.kept _ passed device fun both => old both.1
  cases known : held (times.look i) cache device with
  | some verdict =>
    rw [← congrFun orderly.look i] at known looked
    rw [r.resolveKey_of_held alone known]
    refine looked.congr fun other => ⟨.inl, ?_⟩
    rintro (old | ⟨rfl, unknown⟩)
    · exact old
    · by_contra old
      rw [congrFun orderly.look i, asBefore old, unknown] at known
      cases known
  | none =>
    rw [← congrFun orderly.look i] at known looked
    rw [r.resolveKey_of_missed alone known]
    refine (looked.refresh le_rfl le_rfl (begun.trans (orderly.alone_stamp i)) device).congr
      fun other => ?_
    constructor
    · rintro (old | rfl)
      · exact .inl old
      · by_cases old : refreshed other
        · exact .inl old
        · rw [congrFun orderly.look i, asBefore old] at known
          exact .inr ⟨rfl, known⟩
    · rintro (old | ⟨same, _⟩)
      · exact .inl old
      · exact .inr same

theorem Reflects.resolveEach {before cache : PrunedCache String (Option V)} {i : Nat}
    {refreshed : String → Prop} {since : Instant} (passed : since ≤ times.look i)
    (reflects : r.Reflects began before (fun device => (r.readKey device).toOption) refreshed since
      cache) (devices : List String) :
    r.Reflects began before (fun device => (r.readKey device).toOption)
      (fun device => refreshed device ∨
        ∃ j, devices[j]? = some device ∧ held (times.look (i + j)) before device = none)
      ended (r.resolveEach alone i devices cache) := by
  induction devices generalizing refreshed since i cache with
  | nil =>
    refine (reflects.later (passed.trans (orderly.looked i)) fun _ _ _ => rfl).congr
      fun device => ?_
    simp
  | cons first rest ih =>
    refine (ih (orderly.alone_next i) (reflects.resolveKey orderly passed first)).congr
      fun device => ?_
    constructor
    · rintro ((old | ⟨rfl, unknown⟩) | ⟨j, here, unknown⟩)
      · exact .inl old
      · exact .inr ⟨0, rfl, unknown⟩
      · exact .inr ⟨j + 1, here, by rwa [show i + (j + 1) = i + 1 + j by omega]⟩
    · rintro (old | ⟨j, here, unknown⟩)
      · exact .inl (.inl old)
      · cases j with
        | zero =>
          rw [List.getElem?_cons_zero] at here
          cases here
          exact .inl (.inr ⟨rfl, unknown⟩)
        | succ j =>
          rw [List.getElem?_cons_succ] at here
          exact .inr ⟨j, here, by rwa [show i + 1 + j = i + (j + 1) by omega]⟩

theorem reflects_resolveEach (cache : PrunedCache String (Option V)) (devices : List String) :
    r.Reflects began cache (fun device => (r.readKey device).toOption)
      (Refreshed times cache devices) ended (r.resolveEach alone 0 devices cache) := by
  refine ((Reflects.start (times.look 0)).resolveEach orderly le_rfl devices).congr
    fun device => ?_
  simp only [false_or, Nat.zero_add]
  rfl

end

theorem held_none_later {now t : Instant} (passed : now ≤ t)
    {cache : PrunedCache String (Option V)} {device : String}
    (unknown : held now cache device = none) : held t cache device = none := by
  unfold held at *
  rw [get_fst] at *
  cases found : AList.lookup device cache.map with
  | none => rfl
  | some e =>
    rw [found, Option.bind_some] at unknown
    have expired : ¬ t < e.expires := by
      intro live
      rw [if_pos (lt_of_le_of_lt passed live)] at unknown
      cases unknown
    rw [Option.bind_some, if_neg expired]

/-- Two verdicts are the same, or one of them is gone and the other outlives the lifetime that it
was stored with when it all began. -/
def Alike (began t : Instant) (a b : Option (Option V)) : Prop :=
  a = b ∨ ∃ verdict, (a = some verdict ∧ b = none ∨ a = none ∧ b = some verdict) ∧
    began + r.kind.ttl verdict ≤ t

/-- A batch and single calls in its place leave the same verdicts. -/
def SameVerdicts (times alone : CallTimes) (began ended : Instant) (devices : List String)
    (cache : PrunedCache String (Option V)) : Prop :=
  ∀ t, ended ≤ t → ∀ device, r.Alike began t (held t (r.resolveKeys times devices cache).2 device)
    (held t (r.resolveEach alone 0 devices cache) device)

section

variable {r times} {alone : CallTimes} {began ended : Instant}
  (orderly : Orderly times alone began ended) {cache : PrunedCache String (Option V)}
  {devices : List String} (readable : r.Readable times cache devices)

include orderly readable

/-- What both have read alike, both hold alike. -/
theorem alike_of_read_alike {t : Instant} (after : ended ≤ t) {device : String}
    (same : Refreshed times cache devices device →
      (r.readKey device).toOption = r.slotVerdict device (r.slotOf device)) :
    r.Alike began t (held t (r.resolveKeys times devices cache).2 device)
      (held t (r.resolveEach alone 0 devices cache) device) := by
  have batch := reflects_resolveKeys orderly readable
  have each := reflects_resolveEach (r := r) orderly cache devices
  by_cases fresh : Refreshed times cache devices device ∧
      (r.slotVerdict device (r.slotOf device)).isSome
  · obtain ⟨verdict, isStored⟩ := Option.isSome_iff_exists.mp fresh.2
    have one := batch.fresh t after device verdict fresh.1 isStored
    have other := each.fresh t after device verdict fresh.1 ((same fresh.1).trans isStored)
    obtain one | ⟨one, lapsed⟩ := one
    · obtain other | ⟨other, lapsed⟩ := other
      · exact .inl (one.trans other.symm)
      · exact .inr ⟨verdict, .inl ⟨one, other⟩, lapsed⟩
    · obtain other | ⟨other, _⟩ := other
      · exact .inr ⟨verdict, .inr ⟨one, other⟩, lapsed⟩
      · exact .inl (one.trans other.symm)
  · have fresh' : ¬ (Refreshed times cache devices device ∧
        (r.readKey device).toOption.isSome) := by
      rintro ⟨isFresh, isStored⟩
      exact fresh ⟨isFresh, same isFresh ▸ isStored⟩
    exact .inl ((batch.kept t after device fresh).trans (each.kept t after device fresh').symm)

/-- For what is no string at all, a batch remembers that there is nothing, and a single call does
not. -/
theorem held_of_other {t : Instant} (after : ended ≤ t) {device : String}
    (fresh : Refreshed times cache devices device)
    (other : AList.lookup (r.field device) r.redis = some .other) :
    (held t (r.resolveKeys times devices cache).2 device = some none ∨
        held t (r.resolveKeys times devices cache).2 device = none ∧
          began + r.kind.ttl none ≤ t) ∧
      held t (r.resolveEach alone 0 devices cache) device = none := by
  have absent : r.slotVerdict device (r.slotOf device) = some none := by
    rw [slotOf, redisText, other]
    rfl
  have refused : (r.readKey device).toOption = none := by
    unfold readKey getWithRetry redisGet
    rw [other]
    rfl
  refine ⟨(reflects_resolveKeys orderly readable).fresh t after device none fresh absent, ?_⟩
  rw [(reflects_resolveEach (r := r) orderly cache devices).kept t after device
    fun both => by rw [refused] at both; cases both.2]
  obtain ⟨j, _, unknown⟩ := fresh
  exact held_none_later ((orderly.looked j).trans after) unknown

/-- The two caches say the same of every device exactly if what had to be read was a text or
nothing. -/
theorem sameVerdicts_iff :
    r.SameVerdicts times alone began ended devices cache ↔
      (∀ device, Refreshed times cache devices device →
        AList.lookup (r.field device) r.redis ≠ some .other) ∨
      began + r.kind.ttl none ≤ ended := by
  constructor
  · intro same
    by_contra kept
    simp only [not_or, not_forall, not_not, not_le] at kept
    obtain ⟨⟨device, fresh, other⟩, lives⟩ := kept
    obtain ⟨batch, each⟩ := held_of_other orderly readable le_rfl fresh other
    have alike := same ended le_rfl device
    obtain batch | ⟨_, lapsed⟩ := batch
    · rw [batch, each] at alike
      obtain equal | ⟨verdict, ⟨stored, _⟩ | ⟨gone, _⟩, lapsed⟩ := alike
      · cases equal
      · cases stored
        exact absurd lapsed (not_le.mpr lives)
      · cases gone
    · exact absurd lapsed (not_le.mpr lives)
  · intro kept t after device
    by_cases other : Refreshed times cache devices device ∧
        AList.lookup (r.field device) r.redis = some .other
    · have lapsed : began + r.kind.ttl none ≤ t :=
        (kept.resolve_left fun strings => strings device other.1 other.2).trans after
      obtain ⟨batch | ⟨batch, _⟩, each⟩ := held_of_other orderly readable after other.1 other.2
      · exact .inr ⟨none, .inl ⟨batch, each⟩, lapsed⟩
      · exact .inl (batch.trans each.symm)
    · refine alike_of_read_alike orderly readable after fun fresh => ?_
      obtain ⟨j, here, unknown⟩ := id fresh
      exact r.toOption_readKey (readable device j here unknown) fun found => other ⟨fresh, found⟩

end

end KeyReader

/-! ## The services -/

namespace KeyServices

open KeyReader

variable {K : Type} (svc : KeyServices K) (times : CallTimes)

/-- The error of a malformed key, read as no key. -/
def malformedAsNone {V : Type} : Except KeyError (Option V) → Except KeyError (Option V)
  | .error (.malformed _) => .ok none
  | found => found

/-- The batches do what single calls in their place do: a signature is accepted, or not; a device
has the same key, or none; and the caches are left with the same verdicts. Each single call is
made on the cache that the batch begins with, except where the caches are compared. -/
structure BatchAsSingle (bs58Encode : List UInt8 → String) (times alone : CallTimes)
    (began ended : Instant) (items : List SignedItem) (devices : List String)
    (pubkeyCache : PubkeyCache K) (enckeyCache : PrunedCache String (Option AesKey)) : Prop where
  verdicts : ∃ results,
    (svc.verifyTelemetrySignatureBatch times (items.map SignedItem.meterId)
      (items.map SignedItem.payload) (items.map SignedItem.signature) pubkeyCache).1 =
        .ok results ∧
    results.length = items.length ∧
    ∀ (i : Nat) (item : SignedItem), items[i]? = some item → (results[i]? = some true ↔
      (svc.verifyTelemetrySignature times i item.meterId item.payload (bs58Encode item.signature)
        pubkeyCache).1 = .ok true)
  keys : ∃ found, (svc.getDeviceAesKeys times devices enckeyCache).1 = .ok found ∧
    found.length = devices.length ∧
    ∀ (i : Nat) (device : String), devices[i]? = some device → ∃ key, found[i]? = some key ∧
      malformedAsNone (svc.getDeviceAesKey times i device enckeyCache).1 = .ok key
  pubkeys_kept : ∀ t, ended ≤ t → ∀ device, svc.pubkeys.Alike began t
    (held t (svc.verifyTelemetrySignatureBatch times (items.map SignedItem.meterId)
      (items.map SignedItem.payload) (items.map SignedItem.signature) pubkeyCache).2 device)
    (held t (svc.verifyEach alone bs58Encode 0 items pubkeyCache) device)
  enckeys_kept : ∀ t, ended ≤ t → ∀ device, svc.enckeys.Alike began t
    (held t (svc.getDeviceAesKeys times devices enckeyCache).2 device)
    (held t (svc.enckeys.resolveEach alone 0 devices enckeyCache) device)

/-- What the batches have to read is text, or there is nothing to read. A public key that is no
string at all does no harm where its absence is forgotten before the batch has ended. -/
structure TextToRead (times : CallTimes) (began ended : Instant) (items : List SignedItem)
    (devices : List String) (pubkeyCache : PubkeyCache K)
    (enckeyCache : PrunedCache String (Option AesKey)) : Prop where
  pubkey_text : ∀ device, Refreshed times pubkeyCache (items.map SignedItem.meterId) device →
    AList.lookup (pubkeyField device) svc.redis ≠ some .binary
  pubkey_string : (∀ device, Refreshed times pubkeyCache (items.map SignedItem.meterId) device →
    AList.lookup (pubkeyField device) svc.redis ≠ some .other) ∨
      began + svc.pubkeyNegativeTtl ≤ ended
  enckey_text : ∀ device, Refreshed times enckeyCache devices device →
    AList.lookup (enckeyField device) svc.redis ≠ some .binary
  enckey_string : ∀ device, Refreshed times enckeyCache devices device →
    AList.lookup (enckeyField device) svc.redis ≠ some .other

/-- Signatures do not touch the cache: single verifications leave behind what single lookups do. -/
theorem verifyEach_eq (bs58Encode : List UInt8 → String) (items : List SignedItem) (i : Nat)
    (cache : PubkeyCache K) :
    svc.verifyEach times bs58Encode i items cache =
      svc.pubkeys.resolveEach times i (items.map SignedItem.meterId) cache := by
  induction items generalizing i cache with
  | nil => rfl
  | cons item rest ih => exact ih (i + 1) _

/-- On the columns of a list of items, the checks in front of the lookups change nothing. -/
theorem verifyBatch_eq (items : List SignedItem) (cache : PubkeyCache K) :
    svc.verifyTelemetrySignatureBatch times (items.map SignedItem.meterId)
        (items.map SignedItem.payload) (items.map SignedItem.signature) cache =
      ((svc.pubkeys.resolveKeys times (items.map SignedItem.meterId) cache).1 >>=
          svc.verifyJobs (items.map SignedItem.payload)
            (items.map SignedItem.signature) 0,
        (svc.pubkeys.resolveKeys times (items.map SignedItem.meterId) cache).2) := by
  rw [verifyTelemetrySignatureBatch, verifyTelemetrySignatureBatchGiven, if_neg (by simp)]
  cases items with
  | nil => rfl
  | cons item items =>
    rw [if_neg (by simp)]
    rfl

/-- An `MGET` can be read exactly if none of the keys it asks for holds bytes that are no text. -/
theorem readable_iff {V : Type} (r : KeyReader V) (cache : PrunedCache String (Option V))
    (devices : List String) :
    r.Readable times cache devices ↔ ∀ device, Refreshed times cache devices device →
      AList.lookup (r.field device) r.redis ≠ some .binary := by
  constructor
  · rintro readable device ⟨j, here, unknown⟩
    exact readable device j here unknown
  · intro readable device j here unknown
    exact readable device ⟨j, here, unknown⟩

variable {svc times} {bs58Encode : List UInt8 → String}
  (decodes : ∀ signature, signature.length = 64 →
    svc.bs58Decode (bs58Encode signature) = .ok signature)

include decodes in
/-- A single call accepts what the key it resolves accepts. -/
theorem verifySingle_iff (i : Nat) (item : SignedItem) (cache : PubkeyCache K) :
    (svc.verifyTelemetrySignature times i item.meterId item.payload (bs58Encode item.signature)
        cache).1 = .ok true ↔
      ∃ key, (svc.pubkeys.resolveKey times i item.meterId cache).1 = .ok (some key) ∧
        svc.verify key item.payload item.signature = true := by
  rw [verifyTelemetrySignature, SignatureVerifier.verifyTelemetrySignature_ok_true]
  constructor
  · rintro ⟨key, bytes, resolved, decoded, _, verified⟩
    change svc.bs58Decode (bs58Encode item.signature) = .ok bytes at decoded
    rw [decodes item.signature item.signature_length] at decoded
    cases decoded
    exact ⟨key, resolved, verified⟩
  · rintro ⟨key, resolved, verified⟩
    exact ⟨key, item.signature, resolved, decodes item.signature item.signature_length,
      item.signature_length, verified⟩

/-- A single call resolves the key that the batch has at its index. -/
theorem resolveKey_some_iff {V : Type} {r : KeyReader V} {cache : PrunedCache String (Option V)}
    {devices : List String} (readable : r.Readable times cache devices) {i : Nat}
    {device : String} (here : devices[i]? = some device) (key : V) :
    (r.resolveKey times i device cache).1 = .ok (some key) ↔
      r.keyOf times cache i device = some key := by
  unfold keyOf
  cases known : held (times.look i) cache device with
  | some verdict =>
    rw [r.resolveKey_of_held times known]
    simp
  | none =>
    rw [r.resolveKey_of_missed times known]
    simp only [Option.getD_none, r.readKey_eq_some_iff (readable device i here known)]
    cases r.slotVerdict device (r.slotOf device) with
    | none => simp
    | some verdict => simp

include decodes in
theorem verdicts_as_single {items : List SignedItem} {cache : PubkeyCache K}
    (readable : svc.pubkeys.Readable times cache (items.map SignedItem.meterId)) :
    ∃ results, (svc.verifyTelemetrySignatureBatch times (items.map SignedItem.meterId)
        (items.map SignedItem.payload) (items.map SignedItem.signature) cache).1 = .ok results ∧
      results.length = items.length ∧
      ∀ (i : Nat) (item : SignedItem), items[i]? = some item → (results[i]? = some true ↔
        (svc.verifyTelemetrySignature times i item.meterId item.payload
          (bs58Encode item.signature) cache).1 = .ok true) := by
  have jobs := svc.verifyJobs_columns SignedItem.payload SignedItem.signature
    (fun m => svc.pubkeys.keyOf times cache m.2 m.1.meterId) [] items
  have keys : (items.map SignedItem.meterId).zipIdx.map
      (fun m => svc.pubkeys.keyOf times cache m.2 m.1) =
        items.zipIdx.map fun m => svc.pubkeys.keyOf times cache m.2 m.1.meterId := by
    simp [List.zipIdx_map]
  refine ⟨items.zipIdx.map fun m => svc.verifyJob
    (svc.pubkeys.keyOf times cache m.2 m.1.meterId) m.1.payload m.1.signature, ?_, ?_, ?_⟩
  · rw [svc.verifyBatch_eq, svc.pubkeys.resolveKeys_fst times readable, ok_bind, keys]
    exact jobs
  · rw [List.length_map, List.length_zipIdx]
  · intro i item here
    have device : (items.map SignedItem.meterId)[i]? = some item.meterId := by
      rw [List.getElem?_map, here]
      rfl
    rw [List.getElem?_map, List.getElem?_zipIdx, here, verifySingle_iff decodes]
    simp only [resolveKey_some_iff readable device, Option.map_some, Nat.zero_add,
      Option.some.injEq, verifyJob]
    cases svc.pubkeys.keyOf times cache i item.meterId with
    | none => simp
    | some key =>
      simp only [Option.some.injEq, exists_eq_left']

/-- The key of a single call, with a malformed one read as none, is the key of the batch, unless
what is to be read is no string at all. -/
theorem key_as_single_iff {V : Type} {r : KeyReader V} {cache : PrunedCache String (Option V)}
    {devices : List String} (readable : r.Readable times cache devices) {i : Nat}
    {device : String} (here : devices[i]? = some device) :
    malformedAsNone (r.resolveKey times i device cache).1 = .ok (r.keyOf times cache i device) ↔
      (held (times.look i) cache device = none →
        AList.lookup (r.field device) r.redis ≠ some .other) := by
  unfold keyOf
  cases known : held (times.look i) cache device with
  | some verdict =>
    rw [r.resolveKey_of_held times known]
    simp [malformedAsNone]
  | none =>
    rw [r.resolveKey_of_missed times known]
    have text := readable device i here known
    unfold readKey getWithRetry redisGet slotOf redisText
    cases found : AList.lookup (r.field device) r.redis with
    | none => simp [malformedAsNone, Except.mapError, slotVerdict]
    | some value =>
      cases value with
      | binary => exact absurd found text
      | other => simp [malformedAsNone, Except.mapError]
      | text raw =>
        simp only [Except.mapError, Option.bind_some, RedisValue.text?, slotVerdict]
        cases r.kind.parse device raw with
        | ok key => simp [malformedAsNone, Except.toOption]
        | error e => simp [malformedAsNone, Except.toOption]

/-- As for signatures, so for the keys that frames are encrypted under. -/
theorem keys_as_single_iff {devices : List String}
    {cache : PrunedCache String (Option AesKey)} :
    (∃ found, (svc.getDeviceAesKeys times devices cache).1 = .ok found ∧
      found.length = devices.length ∧
      ∀ (i : Nat) (device : String), devices[i]? = some device → ∃ key, found[i]? = some key ∧
        malformedAsNone (svc.getDeviceAesKey times i device cache).1 = .ok key) ↔
    (∀ device, Refreshed times cache devices device →
      AList.lookup (enckeyField device) svc.redis ≠ some .binary) ∧
    ∀ device, Refreshed times cache devices device →
      AList.lookup (enckeyField device) svc.redis ≠ some .other := by
  have text := readable_iff times svc.enckeys cache devices
  by_cases readable : svc.enckeys.Readable times cache devices
  · have found := svc.enckeys.resolveKeys_fst times readable
    rw [getDeviceAesKeys, found]
    constructor
    · rintro ⟨_, answered, _, keys⟩
      cases answered
      refine ⟨text.mp readable, ?_⟩
      rintro device ⟨i, here, unknown⟩
      obtain ⟨key, entry, single⟩ := keys i device here
      rw [List.getElem?_map, List.getElem?_zipIdx, here] at entry
      simp only [Option.map_some, Nat.zero_add, Option.some.injEq] at entry
      rw [← entry] at single
      exact (key_as_single_iff readable here).mp single unknown
    · rintro ⟨_, strings⟩
      refine ⟨_, rfl, by rw [List.length_map, List.length_zipIdx], fun i device here => ?_⟩
      refine ⟨svc.enckeys.keyOf times cache i device, ?_, ?_⟩
      · rw [List.getElem?_map, List.getElem?_zipIdx, here]
        simp
      · exact (key_as_single_iff readable here).mpr fun unknown =>
          strings device ⟨i, here, unknown⟩
  · refine iff_of_false ?_ fun both => readable (text.mpr both.1)
    rintro ⟨found, answered, _⟩
    obtain ⟨e, failed⟩ := svc.enckeys.resolveKeys_of_not_readable times readable
    rw [getDeviceAesKeys, failed] at answered
    cases answered

include decodes in
/-- The batches do what single calls in their place do, if and only if what they have to read is
text. It is said of the signatures, of the keys, and of what both caches are left with. -/
theorem batch_reads_as_single_iff {alone : CallTimes} {began ended : Instant}
    (orderly : Orderly times alone began ended) (items : List SignedItem) (devices : List String)
    (pubkeyCache : PubkeyCache K) (enckeyCache : PrunedCache String (Option AesKey)) :
    svc.BatchAsSingle bs58Encode times alone began ended items devices pubkeyCache enckeyCache ↔
      svc.TextToRead times began ended items devices pubkeyCache enckeyCache := by
  have pubkeyText := readable_iff times svc.pubkeys pubkeyCache
    (items.map SignedItem.meterId)
  have enckeyText := readable_iff times svc.enckeys enckeyCache devices
  constructor
  · rintro ⟨⟨results, answered, _⟩, keys, pubkeysKept, _⟩
    obtain ⟨text, string⟩ := keys_as_single_iff.mp keys
    have readable : svc.pubkeys.Readable times pubkeyCache (items.map SignedItem.meterId) := by
      by_contra unreadable
      obtain ⟨e, failed⟩ := svc.pubkeys.resolveKeys_of_not_readable times unreadable
      rw [svc.verifyBatch_eq, failed] at answered
      cases answered
    have same : svc.pubkeys.SameVerdicts times alone began ended (items.map SignedItem.meterId)
        pubkeyCache := by
      intro t after device
      have kept := pubkeysKept t after device
      rwa [svc.verifyBatch_eq, svc.verifyEach_eq] at kept
    exact ⟨pubkeyText.mp readable, (sameVerdicts_iff orderly readable).mp same, text, string⟩
  · rintro ⟨pubkeysText, pubkeysString, text, string⟩
    refine ⟨verdicts_as_single decodes (pubkeyText.mpr pubkeysText),
      keys_as_single_iff.mpr ⟨text, string⟩, fun t after device => ?_, ?_⟩
    · rw [svc.verifyBatch_eq, svc.verifyEach_eq]
      exact (sameVerdicts_iff orderly (pubkeyText.mpr pubkeysText)).mpr pubkeysString t after device
    · exact (sameVerdicts_iff orderly (enckeyText.mpr text)).mpr (.inl string)

end KeyServices

/-! ## Two meters -/

private def basePoint : List UInt8 :=
  88 :: List.replicate 31 102

/-- Over the byte 42, under the base point as a key, with the nonce one. -/
private def baseSignature : List UInt8 :=
  basePoint ++ [150, 98, 221, 250, 104, 155, 100, 16, 224, 59, 137, 86, 78, 136, 125, 77, 241, 75,
    245, 171, 176, 63, 222, 158, 207, 25, 96, 38, 226, 237, 78, 13]

private def baseSignature58 : String :=
  "2mWXnKESouJ6xd9aHaVSxJQb6ALmWLCfjjLLYPpkd66CyfAnf8MysKUEhXgkPAogersGhStZpiBvbA7muZj1jP1e"

/-- Base58 for one signature; every other is spelled by its bytes. -/
private def oneBs58Encode (signature : List UInt8) : String :=
  if signature = baseSignature then baseSignature58
  else String.ofList (signature.map fun b => Char.ofNat b.toNat)

private def oneBs58Decode (s : String) : Except String (List UInt8) :=
  if s = baseSignature58 then .ok baseSignature
  else .ok (s.toList.map fun c => UInt8.ofNat c.toNat)

private theorem toNat_ofNat_byte (b : UInt8) : UInt8.ofNat (Char.ofNat b.toNat).toNat = b := by
  have small : b.toNat < 256 := b.toNat_lt
  have valid : b.toNat.isValidChar := .inl (by omega)
  rw [Char.ofNat, dif_pos valid]
  exact UInt8.ofNat_toNat

private theorem oneBs58_decodes (signature : List UInt8) (length : signature.length = 64) :
    oneBs58Decode (oneBs58Encode signature) = .ok signature := by
  unfold oneBs58Encode
  split
  · next same => rw [same, oneBs58Decode, if_pos rfl]
  · have ne : String.ofList (signature.map fun b => Char.ofNat b.toNat) ≠ baseSignature58 := by
      intro same
      have chars := congrArg (fun s => s.toList.length) same
      simp only [String.toList_ofList, List.length_map, length] at chars
      exact absurd chars (by decide +kernel)
    rw [oneBs58Decode, if_neg ne, String.toList_ofList, List.map_map]
    congr 1
    refine (List.map_congr_left fun b _ => ?_).trans (List.map_id signature)
    exact toNat_ofNat_byte b

private def hexNibble (c : Char) : Nat :=
  if c.isDigit then c.toNat - 48 else c.toLower.toNat - 87

private def hexPairs : List Char → List UInt8
  | a :: b :: rest => UInt8.ofNat (16 * hexNibble a + hexNibble b) :: hexPairs rest
  | _ => []

/-- `M1` has the base point as its key, in hexadecimal digits, and `M2` has the given value. -/
private def twoMeters (value : RedisValue) : KeyServices (List UInt8) where
  codecs :=
    { hexDecode := fun s => .ok (hexPairs s.toList)
      verifyingKey := fun bytes => .ok bytes }
  bs58Decode := oneBs58Decode
  verify key payload signature := key == basePoint && payload == [42] && signature == baseSignature
  pubkeyPositiveTtl := 60000000000
  pubkeyNegativeTtl := 10000000000
  enckeyPositiveTtl := 300000000000
  enckeyNegativeTtl := 10000000000
  redis := AList.insert (pubkeyField "M1")
    (.text "5866666666666666666666666666666666666666666666666666666666666666")
    (AList.insert (pubkeyField "M2") value ∅)

private theorem monotone_zero : Monotone fun _ : Nat => (0 : Instant) :=
  monotone_const

private def clockAtZero : CallTimes where
  look _ := 0
  look_mono := monotone_zero
  stamp _ := 0
  store _ := 0

private theorem clockAtZero_orderly : KeyReader.Orderly clockAtZero clockAtZero 0 0 :=
  ⟨rfl, le_rfl, fun _ => le_rfl, fun _ => le_rfl, fun _ => le_rfl, fun _ => le_rfl,
    fun _ => le_rfl⟩

private def bothSigned : List SignedItem :=
  [⟨"M1", [42], baseSignature, rfl⟩, ⟨"M2", [42], baseSignature, rfl⟩]

/-- A key of 64 digits and one that is too short. -/
theorem short_key_fares_alike :
    KeyReader.Orderly clockAtZero clockAtZero 0 0 ∧
      (twoMeters (.text "58")).BatchAsSingle oneBs58Encode clockAtZero clockAtZero 0 0 bothSigned ["M1", "M2"]
        ⟨∅, 0⟩ ⟨∅, 0⟩ := by
  refine ⟨clockAtZero_orderly, (KeyServices.batch_reads_as_single_iff oneBs58_decodes clockAtZero_orderly
    bothSigned ["M1", "M2"] ⟨∅, 0⟩ ⟨∅, 0⟩).mpr ?_⟩
  have texts (key : String) : AList.lookup key (twoMeters (.text "58")).redis ≠ some .binary ∧
      AList.lookup key (twoMeters (.text "58")).redis ≠ some .other := by
    simp only [twoMeters, Hash.lookup_set]
    split
    · exact ⟨nofun, nofun⟩
    · split
      · exact ⟨nofun, nofun⟩
      · exact ⟨nofun, nofun⟩
  exact ⟨fun _ _ => (texts _).1, .inl fun _ _ => (texts _).2, fun _ _ => (texts _).1,
    fun _ _ => (texts _).2⟩

/-- A key of `M2` that is bytes and no text: the signature of `M1` is good, and the batch fails. -/
theorem raw_key_fails_other_meter :
    ((twoMeters .binary).verifyTelemetrySignature clockAtZero 0 "M1" [42] (oneBs58Encode baseSignature)
        ⟨∅, 0⟩).1 = .ok true ∧
      ¬ (twoMeters .binary).BatchAsSingle oneBs58Encode clockAtZero clockAtZero 0 0 bothSigned [] ⟨∅, 0⟩
        ⟨∅, 0⟩ := by
  constructor
  · decide +kernel
  · rintro ⟨⟨results, answered, _⟩, _⟩
    have failed : ((twoMeters .binary).verifyTelemetrySignatureBatch clockAtZero
        (bothSigned.map SignedItem.meterId) (bothSigned.map SignedItem.payload)
        (bothSigned.map SignedItem.signature) ⟨∅, 0⟩).1 =
          .error "Redis MGET failed after reconnect: Invalid UTF-8" := by
      rfl
    rw [failed] at answered
    cases answered

end AggregatorBridge
