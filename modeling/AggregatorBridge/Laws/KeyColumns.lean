import AggregatorBridge.DeviceKeys

/-!
# The columns of a batch of keys

A batch of keys is several vectors: the devices, their verdicts with placeholders for what the
cache does not know, the indices of these, the questions to Redis and the answers. Here they are
compared with the list of devices itself. An index means the same device in all of them, the
answers come in the order of the questions, and a placeholder is filled with what Redis answers for
the device at its index, however often that device comes (`resolveKeys_fst`).

What the verdicts are worth is not said here, only that each is where it belongs.
-/

namespace AggregatorBridge

open Checked Remote Expiring

/-! ## Redis -/

/-- What both commands answer for a key that holds text or nothing. -/
def redisText (redis : Hash String RedisValue) (key : String) : Option String :=
  (AList.lookup key redis).bind RedisValue.text?

theorem redisMgetOne_of_ne_binary {redis : Hash String RedisValue} {key : String}
    (readable : AList.lookup key redis ≠ some .binary) :
    redisMgetOne redis key = .ok (redisText redis key) := by
  unfold redisMgetOne redisText
  cases found : AList.lookup key redis with
  | none => rfl
  | some value =>
    cases value with
    | text value => rfl
    | binary => exact absurd found readable
    | other => rfl

theorem redisMget_of_ne_binary {redis : Hash String RedisValue} {keys : List String}
    (readable : ∀ key ∈ keys, AList.lookup key redis ≠ some .binary) :
    redisMget redis keys = .ok (keys.map (redisText redis)) := by
  induction keys with
  | nil => rfl
  | cons key keys ih =>
    obtain ⟨first, rest⟩ := List.forall_mem_cons.mp readable
    rw [redisMget, redisMgetOne_of_ne_binary first, ih rest]
    rfl

/-- One value that is no text fails the whole reply. -/
theorem redisMget_of_binary {redis : Hash String RedisValue} {keys : List String} {key : String}
    (mem : key ∈ keys) (binary : AList.lookup key redis = some .binary) :
    redisMget redis keys = .error "Invalid UTF-8" := by
  induction keys with
  | nil => cases mem
  | cons first keys ih =>
    by_cases bad : AList.lookup first redis = some .binary
    · rw [redisMget, redisMgetOne, bad]
      rfl
    · rw [redisMget, redisMgetOne_of_ne_binary bad]
      have behind : key ∈ keys := by
        obtain rfl | behind := List.mem_cons.mp mem
        · exact absurd binary bad
        · exact behind
      rw [ih behind]
      rfl

/-- A reply has the answers for its questions. -/
theorem eq_of_redisMget {redis : Hash String RedisValue} {keys : List String}
    {raw : List (Option String)} (answered : redisMget redis keys = .ok raw) :
    raw = keys.map (redisText redis) := by
  have readable : ∀ key ∈ keys, AList.lookup key redis ≠ some .binary := by
    intro key mem binary
    rw [redisMget_of_binary mem binary] at answered
    cases answered
  rw [redisMget_of_ne_binary readable] at answered
  exact (Except.ok.inj answered).symm

namespace KeyReader

variable {V : Type} (r : KeyReader V) (times : CallTimes)

/-! ## Verdicts -/

/-- The verdict a cache has for a device at a moment. -/
def held (now : Instant) (cache : PrunedCache String (Option V)) (device : String) :
    Option (Option V) :=
  (get now device cache.map).1

/-- What a batch stores for an answer of Redis: nothing where the key is malformed. -/
def slotVerdict (device : String) : Option String → Option (Option V)
  | none => some none
  | some raw => (r.kind.parse device raw).toOption.map some

/-- What a single call reads for a device that the cache does not know. -/
def readKey (device : String) : Except KeyError (Option V) :=
  match r.getWithRetry (r.field device) with
  | .error e => .error e
  | .ok none => .ok none
  | .ok (some raw) =>
    match r.kind.parse device raw with
    | .ok key => .ok (some key)
    | .error e => .error (.malformed e)

/-- A verdict is stored, if there is one. -/
def store (i : Nat) (cache : PrunedCache String (Option V)) (device : String) :
    Option (Option V) → PrunedCache String (Option V)
  | some verdict => r.cachePut times i cache device verdict
  | none => cache

theorem parseSlot_eq (i : Nat) (cache : PrunedCache String (Option V)) (device : String)
    (slot : Option String) :
    r.parseSlot times i cache device slot =
      ((r.slotVerdict device slot).getD none,
        r.store times i cache device (r.slotVerdict device slot)) := by
  cases slot with
  | none => rfl
  | some raw =>
    simp only [parseSlot, slotVerdict]
    cases r.kind.parse device raw with
    | ok key => rfl
    | error e => rfl

theorem resolveKey_of_held {i : Nat} {device : String} {cache : PrunedCache String (Option V)}
    {verdict : Option V} (known : held (times.look i) cache device = some verdict) :
    r.resolveKey times i device cache =
      (.ok verdict, { cache with map := (get (times.look i) device cache.map).2 }) := by
  unfold resolveKey resolveKeyGiven
  unfold held at known
  cases looked : get (times.look i) device cache.map with
  | mk found map =>
    rw [looked] at known
    simp only at known
    rw [known]

theorem resolveKey_of_missed {i : Nat} {device : String} {cache : PrunedCache String (Option V)}
    (unknown : held (times.look i) cache device = none) :
    r.resolveKey times i device cache =
      (r.readKey device, r.store times i
        { cache with map := (get (times.look i) device cache.map).2 } device
        (r.readKey device).toOption) := by
  unfold resolveKey resolveKeyGiven readKey
  unfold held at unknown
  cases looked : get (times.look i) device cache.map with
  | mk found map =>
    rw [looked] at unknown
    simp only at unknown
    rw [unknown]
    simp only [getGiven]
    cases r.getWithRetry (r.field device) with
    | error e => rfl
    | ok slot =>
      cases slot with
      | none => rfl
      | some raw =>
        simp only
        cases r.kind.parse device raw with
        | ok key => rfl
        | error e => rfl

/-- The answer of Redis for a device, as a batch reads it. -/
def slotOf (device : String) : Option String :=
  redisText r.redis (r.field device)

/-- A value that is text, or absent, is read the same in both ways, but for the error. -/
theorem toOption_readKey {device : String}
    (text : AList.lookup (r.field device) r.redis ≠ some .binary)
    (string : AList.lookup (r.field device) r.redis ≠ some .other) :
    (r.readKey device).toOption = r.slotVerdict device (r.slotOf device) := by
  unfold readKey getWithRetry redisGet slotOf redisText
  cases found : AList.lookup (r.field device) r.redis with
  | none => rfl
  | some value =>
    cases value with
    | binary => exact absurd found text
    | other => exact absurd found string
    | text raw =>
      simp only [Except.mapError, Option.bind_some, RedisValue.text?, slotVerdict]
      cases r.kind.parse device raw with
      | ok key => rfl
      | error e => rfl

/-- A key is found in the one way where it is found in the other. -/
theorem readKey_eq_some_iff {device : String} {key : V}
    (text : AList.lookup (r.field device) r.redis ≠ some .binary) :
    r.readKey device = .ok (some key) ↔
      r.slotVerdict device (r.slotOf device) = some (some key) := by
  unfold readKey getWithRetry redisGet slotOf redisText
  cases found : AList.lookup (r.field device) r.redis with
  | none => simp [Except.mapError, slotVerdict]
  | some value =>
    cases value with
    | binary => exact absurd found text
    | other => simp [Except.mapError, RedisValue.text?, slotVerdict]
    | text raw =>
      simp only [Except.mapError, Option.bind_some, RedisValue.text?, slotVerdict]
      cases r.kind.parse device raw with
      | ok key => simp [Except.toOption]
      | error e => simp [Except.toOption]

/-! ## The columns of a batch -/

theorem held_after_look {now t : Instant} (passed : now ≤ t)
    (cache : PrunedCache String (Option V)) (device other : String) :
    held t { cache with map := (get now device cache.map).2 } other = held t cache other :=
  get_after_get passed device other cache.map

/-- The devices, from an index on, that the cache does not know. -/
def missed (cache : PrunedCache String (Option V)) (i : Nat) (devices : List String) :
    List (String × Nat) :=
  (devices.zipIdx i).filter fun m => (held (times.look m.2) cache m.1).isNone

theorem mem_missed {cache : PrunedCache String (Option V)} {devices : List String}
    {device : String} {j : Nat} :
    (device, j) ∈ missed times cache 0 devices ↔
      devices[j]? = some device ∧ held (times.look j) cache device = none := by
  rw [missed, List.mem_filter, List.mem_zipIdx_iff_getElem?, Option.isNone_iff_eq_none]

/-- What the lookups find, whatever has been dropped since the cache was `before`: a verdict or
a placeholder for each device, and the misses with their indices. -/
theorem consult_fst (before : PrunedCache String (Option V)) (devices : List String) (i : Nat)
    (cols : KeyColumns V) (cache : PrunedCache String (Option V))
    (same : ∀ j device, i ≤ j →
      held (times.look j) cache device = held (times.look j) before device) :
    (r.consult times i devices cols cache).1 =
      { vks := cols.vks ++
          (devices.zipIdx i).map fun m => (held (times.look m.2) before m.1).getD none
        missIdx := cols.missIdx ++ (missed times before i devices).map Prod.snd
        missKeys := cols.missKeys ++
          (missed times before i devices).map fun m => r.field m.1 } := by
  induction devices generalizing i cols cache with
  | nil => simp [consult, missed]
  | cons device rest ih =>
    have first := same i device le_rfl
    have later (j : Nat) (other : String) (behind : i + 1 ≤ j) :
        held (times.look j) { cache with map := (get (times.look i) device cache.map).2 } other =
          held (times.look j) before other := by
      rw [held_after_look (times.look_mono (by omega)), same j other (by omega)]
    cases looked : get (times.look i) device cache.map with
    | mk verdict map =>
      rw [looked] at later
      rw [held, looked] at first
      cases verdict with
      | some v =>
        simp only [consult, looked]
        rw [ih _ _ _ later]
        simp [missed, List.zipIdx_cons, ← first]
      | none =>
        simp only [consult, looked]
        rw [ih _ _ _ later]
        simp [missed, List.zipIdx_cons, ← first]

/-- The lookups drop nothing that is of use later. -/
theorem held_consult {t : Instant} (passed : ∀ i, times.look i ≤ t) (devices : List String)
    (i : Nat) (cols : KeyColumns V) (cache : PrunedCache String (Option V))
    (device : String) :
    held t (r.consult times i devices cols cache).2 device = held t cache device := by
  induction devices generalizing i cols cache with
  | nil => rfl
  | cons first rest ih =>
    have dropped := held_after_look (passed i) cache first device
    cases looked : get (times.look i) first cache.map with
    | mk verdict map =>
      rw [looked] at dropped
      cases verdict with
      | some v =>
        simp only [consult, looked]
        rw [ih, dropped]
      | none =>
        simp only [consult, looked]
        rw [ih, dropped]

/-- The holes are filled with the verdicts on the answers for the devices at their indices, and
nothing else changes. -/
theorem backfill_fst (slot : String → Option String) {devices : List String}
    (holes : List (String × Nat)) (holed : ∀ m ∈ holes, devices[m.2]? = some m.1)
    (out : List (Option V)) (length : out.length = devices.length)
    (cache : PrunedCache String (Option V)) :
    ∃ filled, (r.backfill times devices (holes.map fun m => (slot m.1, m.2)) out cache).1 =
        .ok filled ∧
      ∀ j : Nat, filled[j]? =
        if j ∈ holes.map Prod.snd then
          devices[j]?.map fun device => (r.slotVerdict device (slot device)).getD none
        else out[j]? := by
  induction holes generalizing out cache with
  | nil => exact ⟨out, rfl, fun j => by simp⟩
  | cons m holes ih =>
    obtain ⟨device, i⟩ := m
    have here := holed _ List.mem_cons_self
    have within : i < out.length := length ▸ (List.getElem?_eq_some_iff.mp here).1
    obtain ⟨filled, result, entries⟩ :=
      ih (fun m mem => holed m (List.mem_cons_of_mem _ mem))
        (out.set i ((r.slotVerdict device (slot device)).getD none))
        (by rw [List.length_set, length])
        (r.store times i cache device (r.slotVerdict device (slot device)))
    refine ⟨filled, ?_, fun j => ?_⟩
    · simp only [List.map_cons, backfill, here]
      rw [if_pos within, r.parseSlot_eq]
      exact result
    · rw [entries, List.getElem?_set]
      by_cases again : j ∈ holes.map Prod.snd
      · rw [if_pos again, if_pos (by rw [List.map_cons]; exact List.mem_cons_of_mem _ again)]
      · rw [if_neg again]
        by_cases this : i = j
        · subst this
          rw [if_pos rfl, if_pos within, if_pos (by simp), here]
          rfl
        · rw [if_neg this, if_neg]
          rw [List.map_cons, List.mem_cons, not_or]
          exact ⟨fun eq => this eq.symm, again⟩

/-- The answers come in the order of the questions, and so do their indices. -/
theorem zip_answers (field : String → String) (answer : String → Option String)
    (holes : List (String × Nat)) :
    ((holes.map fun m => field m.1).map answer).zip (holes.map Prod.snd) =
      holes.map fun m => (answer (field m.1), m.2) := by
  rw [List.map_map, List.zip_map']
  rfl

/-- The key of the device at an index: what the cache knows, or what Redis answers. -/
def keyOf (cache : PrunedCache String (Option V)) (i : Nat) (device : String) : Option V :=
  (held (times.look i) cache device).getD
    ((r.slotVerdict device (r.slotOf device)).getD none)

/-- Every value that a batch has to read is text, or none, or no string. -/
def Readable (cache : PrunedCache String (Option V)) (devices : List String) : Prop :=
  ∀ device j, devices[j]? = some device → held (times.look j) cache device = none →
    AList.lookup (r.field device) r.redis ≠ some .binary

/-- With such values, a batch ends as if the second loop always ran. -/
theorem resolveKeys_eq {cache : PrunedCache String (Option V)} {devices : List String}
    (readable : r.Readable times cache devices) :
    r.resolveKeys times devices cache =
      r.backfill times devices
        ((missed times cache 0 devices).map fun m => (r.slotOf m.1, m.2))
        (devices.zipIdx.map fun m => (held (times.look m.2) cache m.1).getD none)
        (r.consult times 0 devices KeyColumns.empty cache).2 := by
  have found := r.consult_fst times cache devices 0 KeyColumns.empty cache
    fun _ _ _ => rfl
  have answered : redisMget r.redis ((missed times cache 0 devices).map fun m => r.field m.1) =
      .ok (((missed times cache 0 devices).map fun m => r.field m.1).map
        (redisText r.redis)) := by
    refine redisMget_of_ne_binary fun key mem => ?_
    obtain ⟨m, isMissed, rfl⟩ := List.mem_map.mp mem
    obtain ⟨here, unknown⟩ := (mem_missed times).mp isMissed
    exact readable m.1 m.2 here unknown
  simp only [KeyColumns.empty, List.nil_append] at found
  simp only [resolveKeys, resolveKeysGiven, mgetGiven, KeyColumns.empty, found]
  split
  · next none_missed =>
    rw [List.isEmpty_iff, List.map_eq_nil_iff] at none_missed
    rw [none_missed]
    rfl
  · rw [mgetWithRetry, answered]
    simp only [Except.mapError]
    rw [zip_answers]
    rfl

/-- A value that is bytes fails the batch. -/
theorem resolveKeys_of_not_readable {cache : PrunedCache String (Option V)}
    {devices : List String} (unreadable : ¬ r.Readable times cache devices) :
    ∃ e, (r.resolveKeys times devices cache).1 = .error e := by
  simp only [Readable, not_forall, not_not] at unreadable
  obtain ⟨device, j, here, unknown, binary⟩ := unreadable
  have isMissed := (mem_missed times).mpr ⟨here, unknown⟩
  have found := r.consult_fst times cache devices 0 KeyColumns.empty cache
    fun _ _ _ => rfl
  have asked : r.field device ∈ (missed times cache 0 devices).map fun m => r.field m.1 :=
    List.mem_map.mpr ⟨_, isMissed, rfl⟩
  simp only [KeyColumns.empty, List.nil_append] at found
  simp only [resolveKeys, resolveKeysGiven, mgetGiven, KeyColumns.empty, found]
  rw [if_neg]
  · rw [mgetWithRetry, redisMget_of_binary asked binary]
    exact ⟨_, rfl⟩
  · intro none_missed
    rw [List.isEmpty_iff] at none_missed
    rw [none_missed] at asked
    exact List.not_mem_nil asked

/-- A batch gets, at every index, the key of the device at that index. -/
theorem resolveKeys_fst {cache : PrunedCache String (Option V)} {devices : List String}
    (readable : r.Readable times cache devices) :
    (r.resolveKeys times devices cache).1 =
      .ok (devices.zipIdx.map fun m => r.keyOf times cache m.2 m.1) := by
  obtain ⟨filled, result, entries⟩ := r.backfill_fst times r.slotOf
    (missed times cache 0 devices) (fun m mem => ((mem_missed times).mp mem).1)
    (devices.zipIdx.map fun m => (held (times.look m.2) cache m.1).getD none)
    (by rw [List.length_map, List.length_zipIdx])
    (r.consult times 0 devices KeyColumns.empty cache).2
  rw [r.resolveKeys_eq times readable, result]
  congr 1
  apply List.ext_getElem?
  intro j
  rw [entries, List.getElem?_map, List.getElem?_map, List.getElem?_zipIdx]
  cases here : devices[j]? with
  | none => simp
  | some device =>
    have isHole : j ∈ (missed times cache 0 devices).map Prod.snd ↔
        held (times.look j) cache device = none := by
      constructor
      · intro mem
        obtain ⟨⟨other, j'⟩, isMissed, rfl⟩ := List.mem_map.mp mem
        obtain ⟨there, unknown⟩ := (mem_missed times).mp isMissed
        rw [here] at there
        cases there
        exact unknown
      · intro unknown
        exact List.mem_map.mpr ⟨(device, j), (mem_missed times).mpr ⟨here, unknown⟩, rfl⟩
    simp only [isHole, keyOf, Option.map_some, Nat.zero_add]
    cases held (times.look j) cache device with
    | none => rfl
    | some verdict => rfl

end KeyReader

/-! ## The jobs of a verification -/

/-- An index means the same entry in every column. -/
theorem index_column {α β ε : Type} (f : α → β) (done : List α) (e : α) (entries : List α) :
    index ((done ++ e :: entries).map f) done.length = (.ok (f e) : Checked ε β) := by
  have entry : ((done ++ e :: entries).map f)[done.length]? = some (f e) := by
    rw [List.getElem?_map, List.getElem?_append_right le_rfl, Nat.sub_self]
    rfl
  rw [index, entry]
  rfl

/-- Every job gets the payload and the signature of its own entry. -/
theorem KeyServices.verifyJobs_columns {K α : Type} (svc : KeyServices K)
    (payload signature : α → List UInt8) (key : α × Nat → Option K) (done entries : List α) :
    svc.verifyJobs ((done ++ entries).map payload) ((done ++ entries).map signature) done.length
        ((entries.zipIdx done.length).map key) =
      .ok ((entries.zipIdx done.length).map fun m =>
        svc.verifyJob (key m) (payload m.1) (signature m.1)) := by
  induction entries generalizing done with
  | nil => rfl
  | cons e entries ih =>
    have rest := ih (done ++ [e])
    rw [List.append_assoc, List.singleton_append, List.length_append, List.length_singleton]
      at rest
    rw [List.zipIdx_cons, List.map_cons, verifyJobs, index_column, ok_bind, index_column, ok_bind,
      rest, ok_bind, List.map_cons]

end AggregatorBridge
