import AggregatorBridge.Aggregator
import AggregatorBridge.Lib.Remote
import Mathlib.Algebra.BigOperators.Group.List.Basic
import Mathlib.Tactic.Ring

/-!
# Where accumulated energy lives

Energy that was accumulated lives in up to four places: the in-memory bin, the channel of
snapshots on its way to Redis, the durable hash of bins, and the hands of the settlement sweep
that took the bin. `Core` is the first three with the operations that move a bin between them,
as the ingester, the writer task and the sweep perform them.

A bin is only totals, and totals do not say what was added up. So every copy of a bin carries
its CONTENTS, the list of contributions that went into it, next to it. Contents are a ghost:
no operation of the source reads them, and the bin beside them is computed from the bin alone.
`Truthful` is the link: the totals of a copy are the sums over its contents, and its reading
count is their number. `Core.Sound` says that of every copy and is preserved by every
operation, so that what the ghost knows about a copy is true of the energy in it.
-/

namespace AggregatorBridge

open Remote

/-- What one handled reading added to a bin. `label` says which reading it was. -/
structure Contribution (ι : Type) where
  label : ι
  generated : ℚ
  consumed : ℚ
  deriving DecidableEq

/-- A copy of a bin with its contents. -/
structure Snapshot (ι : Type) where
  bin : BillingBin
  contents : List (Contribution ι)
  deriving DecidableEq

section

variable {ι : Type}

/-- Generated minus consumed, over a list of contributions. -/
def netOf (contents : List (Contribution ι)) : ℚ :=
  (contents.map fun c => c.generated - c.consumed).sum

/-- The totals of the copy are the sums over its contents. -/
structure Truthful (s : Snapshot ι) : Prop where
  generated : s.bin.energyGenerated = (s.contents.map Contribution.generated).sum
  consumed : s.bin.energyConsumed = (s.contents.map Contribution.consumed).sum
  readingCount : s.bin.readingCount = s.contents.length

/-- The net energy of a truthful copy is that of its contents. -/
theorem Truthful.net_eq {s : Snapshot ι} (truthful : Truthful s) :
    s.bin.net = netOf s.contents := by
  have split : ∀ l : List (Contribution ι), netOf l =
      (l.map Contribution.generated).sum - (l.map Contribution.consumed).sum := by
    intro l
    induction l with
    | nil => simp [netOf]
    | cons c l ih =>
      simp only [netOf, List.map_cons, List.sum_cons] at ih ⊢
      rw [ih]
      ring
  rw [split, BillingBin.net, truthful.generated, truthful.consumed]

/-- Accumulating a reading into a truthful copy and noting it keeps the copy truthful. -/
theorem Truthful.accumulate {bin : BillingBin} {contents : List (Contribution ι)}
    (truthful : Truthful ⟨bin, contents⟩) (label : ι) (r : BillingReading) :
    Truthful ⟨Aggregator.accumulate bin r, ⟨label, r.generated, r.consumed⟩ :: contents⟩ where
  generated := by
    have before : bin.energyGenerated = _ := truthful.generated
    simp only [Aggregator.accumulate_generated, List.map_cons, List.sum_cons, before]
    ring
  consumed := by
    have before : bin.energyConsumed = _ := truthful.consumed
    simp only [Aggregator.accumulate_consumed, List.map_cons, List.sum_cons, before]
    ring
  readingCount := by
    have before : bin.readingCount = _ := truthful.readingCount
    simp only [Aggregator.accumulate_readingCount, List.length_cons, before]

/-- A bin nothing was accumulated in has no contents. -/
theorem truthful_emptyBin (r : BillingReading) :
    Truthful (⟨Aggregator.emptyBin r, []⟩ : Snapshot ι) :=
  ⟨rfl, rfl, rfl⟩

end

/-! ## The durable hash -/

/-- `bin_field`: the durable field of a bin, `{meter_id}:{window_start_ms}`. Both parts are
printed in full, so the field is the pair. -/
def binField (key : BinKey) : Uuid × Int :=
  (key.1, key.2.timestampMillis)

/-- A key whose window starts at a whole second, as every window does. -/
def WholeKey (key : BinKey) : Prop :=
  key.2.nanos = 0

theorem wholeKey_of_reading (r : BillingReading) : WholeKey r.key :=
  windowStart_nanos r.timestamp

/-- The field of a whole key determines it. -/
theorem binField_inj {k k' : BinKey} (whole : WholeKey k) (whole' : WholeKey k')
    (same : binField k = binField k') : k = k' := by
  obtain ⟨meter, start⟩ := k
  obtain ⟨meter', start'⟩ := k'
  obtain ⟨rfl, millis⟩ := Prod.mk.inj same
  have a : start = DateTime.ofSecs start.secs := DateTime.eq_ofSecs whole
  have b : start' = DateTime.ofSecs start'.secs := DateTime.eq_ofSecs whole'
  have secs : start.secs = start'.secs := by
    simp only at millis
    rw [a, b, DateTime.timestampMillis_ofSecs, DateTime.timestampMillis_ofSecs] at millis
    omega
  rw [a, b, secs]

/-! ## The three places -/

/-- Memory, the writer's channel and the durable hash. -/
structure Core (ι : Type) where
  agg : Aggregator
  /-- The contents of the bins in memory. -/
  contents : BinKey → List (Contribution ι)
  /-- Snapshots on their way to Redis, oldest first. -/
  queue : List (Snapshot ι)
  /-- The hash `gridtokenx:billing:bins`. -/
  bins : Hash (Uuid × Int) (Snapshot ι)

namespace Core

variable {ι : Type}

/-- A fresh process with an empty Redis. -/
def init : Core ι :=
  ⟨Aggregator.new, fun _ => [], [], ∅⟩

/-- The contents of the bin under a key, if there is a bin. -/
def contentsAt (core : Core ι) (key : BinKey) : List (Contribution ι) :=
  if (core.agg.activeBins.lookup key).isSome then core.contents key else []

/-- The copy of a bin after a reading was accumulated in it. -/
def nextSnapshot (core : Core ι) (label : ι) (r : BillingReading) : Snapshot ι :=
  ⟨core.agg.nextBin r, ⟨label, r.generated, r.consumed⟩ :: core.contentsAt r.key⟩

/-- The locked section of `handle_iot_reading`: accumulate, and send the updated bin to the
writer. A late reading does neither. -/
def handle (core : Core ι) (now : DateTime) (label : ι) (r : BillingReading) : Core ι :=
  match core.agg.handleReading now r with
  | (agg, none) => { core with agg := agg }
  | (agg, some _) =>
    let s := core.nextSnapshot label r
    { core with
      agg := agg
      contents := Function.update core.contents r.key s.contents
      queue := core.queue ++ [s] }

/-- The writer task takes the oldest snapshot and writes it: `HSET`, its error only logged. -/
def flush (core : Core ι) (reply : Reply) : Option (Core ι) :=
  match core.queue with
  | [] => none
  | s :: rest =>
    some { core with
      queue := rest
      bins := reply.effect (AList.insert (binField s.bin.key) s) core.bins }

/-- The bins whose window is over, with their contents. -/
def completed (core : Core ι) (now : DateTime) (grace : Int) : List (Snapshot ι) :=
  (core.agg.peekCompletedBinsAt now grace).map fun bin => ⟨bin, core.contents bin.key⟩

/-- The sweep takes the completed bins out of memory. -/
def take (core : Core ι) (now : DateTime) (grace : Int) : Core ι :=
  { core with
    agg := core.agg.removeBins ((core.agg.peekCompletedBinsAt now grace).map BillingBin.key) }

/-- `BinStore::remove` of one key: `HDEL`. -/
def evict (core : Core ι) (key : BinKey) (reply : Reply) : Core ι :=
  { core with bins := reply.effect (AList.erase (binField key)) core.bins }

/-- A crash and the start after it: memory and channel are gone, and the durable bins are
restored if they could be loaded. -/
def restart (core : Core ι) (loaded : Bool) : Core ι where
  agg := Aggregator.new.restoreBins
    (if loaded then (Hash.values core.bins).map Snapshot.bin else [])
  contents := fun key => ((core.bins.lookup (binField key)).map Snapshot.contents).getD []
  queue := []
  bins := core.bins

/-! ## Copies -/

/-- One of the copies in the three places. -/
inductive Copy (core : Core ι) : Snapshot ι → Prop
  | memory {key : BinKey} {bin : BillingBin} :
      core.agg.activeBins.lookup key = some bin → Copy core ⟨bin, core.contents key⟩
  | queued {s : Snapshot ι} : s ∈ core.queue → Copy core s
  | durable {field : Uuid × Int} {s : Snapshot ι} :
      core.bins.lookup field = some s → Copy core s

/-- Every copy is filed under the key it carries, and every key is a window's. -/
structure Filed (core : Core ι) : Prop where
  memory : ∀ key bin, core.agg.activeBins.lookup key = some bin → bin.key = key
  durable : ∀ field s, core.bins.lookup field = some s → field = binField s.bin.key
  whole : ∀ s, core.Copy s → WholeKey s.bin.key

/-! ## What the operations do to the copies

One inversion lemma for each operation: a copy afterwards was a copy before, or it is the one
the operation made. Everything that is true of every copy is preserved by way of these. -/

variable {core core' : Core ι} {now : DateTime} {label : ι} {r : BillingReading}
  {s : Snapshot ι} {key : BinKey} {reply : Reply}

theorem handle_late (late : core.agg.IsSettled r.key) :
    core.handle now label r = { core with agg := (core.agg.handleReading now r).1 } := by
  unfold handle
  simp [Aggregator.handleReading, late]

theorem handle_accepted (accepted : ¬ core.agg.IsSettled r.key) :
    core.handle now label r =
      { core with
        agg := (core.agg.handleReading now r).1
        contents := Function.update core.contents r.key (core.nextSnapshot label r).contents
        queue := core.queue ++ [core.nextSnapshot label r] } := by
  unfold handle
  simp [Aggregator.handleReading, accepted]

theorem lookup_handle (core : Core ι) (now : DateTime) (label : ι) (r : BillingReading)
    (key : BinKey) :
    (core.handle now label r).agg.activeBins.lookup key =
      if key = r.key ∧ ¬ core.agg.IsSettled r.key then some (core.agg.nextBin r)
      else core.agg.activeBins.lookup key := by
  by_cases late : core.agg.IsSettled r.key
  · rw [handle_late late, if_neg (fun h => h.2 late)]
    exact congrArg _ (Aggregator.handleReading_late late)
  · rw [handle_accepted late]
    simp only [Aggregator.handleReading_accepted late, Hash.lookup_set]
    by_cases same : key = r.key
    · simp [same, late]
    · simp [same]

@[simp] theorem bins_handle (core : Core ι) (now : DateTime) (label : ι) (r : BillingReading) :
    (core.handle now label r).bins = core.bins := by
  by_cases late : core.agg.IsSettled r.key
  · rw [handle_late late]
  · rw [handle_accepted late]

/-- The new copy extends the bin in memory, or an empty one where there was none. -/
theorem nextSnapshot_cases (core : Core ι) (label : ι) (r : BillingReading) :
    (core.agg.activeBins.lookup r.key = none ∧
      core.nextSnapshot label r =
        ⟨Aggregator.accumulate (Aggregator.emptyBin r) r, [⟨label, r.generated, r.consumed⟩]⟩) ∨
    ∃ bin, core.agg.activeBins.lookup r.key = some bin ∧
      core.nextSnapshot label r =
        ⟨Aggregator.accumulate bin r,
          ⟨label, r.generated, r.consumed⟩ :: core.contents r.key⟩ := by
  unfold nextSnapshot contentsAt Aggregator.nextBin
  cases found : core.agg.activeBins.lookup r.key with
  | none => exact .inl ⟨rfl, rfl⟩
  | some bin => exact .inr ⟨bin, rfl, rfl⟩

theorem copy_handle (copy : (core.handle now label r).Copy s) :
    core.Copy s ∨ (¬ core.agg.IsSettled r.key ∧ s = core.nextSnapshot label r) := by
  by_cases late : core.agg.IsSettled r.key
  · left
    have bins : (core.handle now label r).agg.activeBins = core.agg.activeBins := by
      rw [handle_late late]
      exact Aggregator.handleReading_late late
    rw [handle_late late] at copy bins
    cases copy with
    | memory found => exact .memory (bins ▸ found)
    | queued mem => exact .queued mem
    | durable found => exact .durable found
  · cases copy with
    | @memory key bin found =>
      rw [lookup_handle] at found
      rw [handle_accepted late]
      simp only
      by_cases same : key = r.key
      · subst same
        rw [if_pos ⟨rfl, late⟩] at found
        cases found
        rw [Function.update_self]
        exact .inr ⟨late, rfl⟩
      · rw [if_neg fun h => same h.1] at found
        rw [Function.update_of_ne same]
        exact .inl (.memory found)
    | queued mem =>
      rw [handle_accepted late] at mem
      rcases List.mem_append.mp mem with mem | mem
      · exact .inl (.queued mem)
      · exact .inr ⟨late, List.mem_singleton.mp mem⟩
    | durable found =>
      rw [bins_handle] at found
      exact .inl (.durable found)

/-- A write takes the oldest snapshot off the queue, executed or not. -/
theorem flush_eq_some (flushed : core.flush reply = some core') :
    ∃ s rest, core.queue = s :: rest ∧
      core' = { core with
        queue := rest
        bins := reply.effect (AList.insert (binField s.bin.key) s) core.bins } := by
  unfold flush at flushed
  split at flushed
  · cases flushed
  · next s rest queued =>
    cases flushed
    exact ⟨s, rest, queued, rfl⟩

/-- What a write of a snapshot leaves in a field: the snapshot, or what was there. -/
theorem lookup_written (reply : Reply) (s : Snapshot ι) (bins : Hash (Uuid × Int) (Snapshot ι))
    (field : Uuid × Int) :
    (reply.effect (AList.insert (binField s.bin.key) s) bins).lookup field =
      if field = binField s.bin.key ∧ reply.took = true then some s else bins.lookup field := by
  unfold Reply.effect
  by_cases took : reply.took = true
  · simp only [took, if_true, Hash.lookup_set, and_true]
  · simp [took]

/-- A flushed snapshot was queued: no copy is new. -/
theorem copy_flush (flushed : core.flush reply = some core') (copy : core'.Copy s) :
    core.Copy s := by
  obtain ⟨s', rest, queued, rfl⟩ := flush_eq_some flushed
  cases copy with
  | memory found => exact .memory found
  | queued mem => exact .queued (by rw [queued]; exact List.mem_cons_of_mem _ mem)
  | durable found =>
    rw [lookup_written] at found
    split at found
    · cases found
      exact .queued (by rw [queued]; exact List.mem_cons_self)
    · exact .durable found

theorem agg_flush (flushed : core.flush reply = some core') : core'.agg = core.agg := by
  obtain ⟨s', rest, _, rfl⟩ := flush_eq_some flushed
  rfl

theorem contents_flush (flushed : core.flush reply = some core') :
    core'.contents = core.contents := by
  obtain ⟨s', rest, _, rfl⟩ := flush_eq_some flushed
  rfl

/-- A flush leaves a field that was there. -/
theorem lookup_flush_ne_none {field : Uuid × Int} (flushed : core.flush reply = some core')
    (present : core.bins.lookup field ≠ none) : core'.bins.lookup field ≠ none := by
  obtain ⟨s', rest, _, rfl⟩ := flush_eq_some flushed
  rw [lookup_written]
  split
  · exact Option.some_ne_none s'
  · exact present

theorem copy_completed {grace : Int} (filed : core.Filed) (mem : s ∈ core.completed now grace) :
    core.agg.activeBins.lookup s.bin.key = some s.bin ∧ s.contents = core.contents s.bin.key := by
  obtain ⟨bin, peeked, rfl⟩ := List.mem_map.mp mem
  have listed : bin ∈ core.agg.bins := (List.mem_filter.mp peeked).1
  obtain ⟨k, found⟩ := Hash.mem_values.mp listed
  have keyed : bin.key = k := filed.memory _ _ found
  subst keyed
  exact ⟨found, rfl⟩

theorem copy_of_completed {grace : Int} (filed : core.Filed)
    (mem : s ∈ core.completed now grace) : core.Copy s := by
  obtain ⟨found, contents⟩ := copy_completed filed mem
  have whole : s = ⟨s.bin, core.contents s.bin.key⟩ := by rw [← contents]
  rw [whole]
  exact .memory found

theorem lookup_take (core : Core ι) (now : DateTime) (grace : Int) (key : BinKey) :
    (core.take now grace).agg.activeBins.lookup key =
      if key ∈ (core.completed now grace).map (fun s => s.bin.key) then none
      else core.agg.activeBins.lookup key := by
  have keys : (core.completed now grace).map (fun s => s.bin.key) =
      (core.agg.peekCompletedBinsAt now grace).map BillingBin.key := by
    simp [completed]
  rw [keys]
  exact Aggregator.lookup_removeBins _

theorem copy_take {grace : Int} (copy : (core.take now grace).Copy s) : core.Copy s := by
  cases copy with
  | memory found =>
    rw [lookup_take] at found
    split at found
    · cases found
    · exact .memory found
  | queued mem => exact .queued mem
  | durable found => exact .durable found

theorem lookup_evict (core : Core ι) (key : BinKey) (reply : Reply) (field : Uuid × Int) :
    (core.evict key reply).bins.lookup field =
      if field = binField key ∧ reply.took = true then none else core.bins.lookup field := by
  unfold evict Reply.effect
  by_cases took : reply.took = true
  · simp only [took, if_true, Hash.lookup_del, and_true]
  · simp [took]

theorem copy_evict (copy : (core.evict key reply).Copy s) : core.Copy s := by
  cases copy with
  | memory found => exact .memory found
  | queued mem => exact .queued mem
  | durable found =>
    rw [lookup_evict] at found
    split at found
    · cases found
    · exact .durable found

/-- After a restart memory holds what was durable, if the load worked, and nothing else. -/
theorem lookup_restart (filed : core.Filed) {loaded : Bool} {bin : BillingBin}
    (found : (core.restart loaded).agg.activeBins.lookup key = some bin) :
    loaded = true ∧ bin.key = key ∧
      ∃ s, core.bins.lookup (binField key) = some s ∧ s.bin = bin := by
  rcases Aggregator.mem_of_lookup_restoreBins found with before | ⟨mem, keyed⟩
  · cases before
  · cases loaded with
    | false => cases mem
    | true =>
      obtain ⟨s, listed, rfl⟩ := List.mem_map.mp mem
      obtain ⟨field, durable⟩ := Hash.mem_values.mp listed
      have at_ : field = binField s.bin.key := filed.durable _ _ durable
      rw [keyed] at at_
      exact ⟨rfl, keyed, s, at_ ▸ durable, rfl⟩

theorem copy_restart (filed : core.Filed) {loaded : Bool}
    (copy : (core.restart loaded).Copy s) : core.Copy s := by
  cases copy with
  | @memory key bin found =>
    obtain ⟨_, _, s, durable, rfl⟩ := lookup_restart filed found
    have contents : (core.restart loaded).contents key = s.contents := by
      simp [restart, durable]
    rw [contents]
    exact .durable durable
  | queued mem => cases mem
  | durable found => exact .durable found

/-! ## Filing is kept -/

theorem filed_init : (init : Core ι).Filed where
  memory := by intro key bin found; cases found
  durable := by intro field s found; cases found
  whole := by
    intro s copy
    cases copy with
    | memory found => cases found
    | queued mem => cases mem
    | durable found => cases found

theorem nextBin_key (filed : core.Filed) : (core.agg.nextBin r).key = r.key := by
  unfold Aggregator.nextBin
  cases found : core.agg.activeBins.lookup r.key with
  | none => rfl
  | some bin =>
    have keyed : bin.key = r.key := filed.memory _ _ found
    exact keyed

theorem Filed.handle (filed : core.Filed) (now : DateTime) (label : ι) (r : BillingReading) :
    (core.handle now label r).Filed where
  memory := by
    intro key bin found
    rw [lookup_handle] at found
    split at found
    · next here =>
      cases found
      rw [nextBin_key filed, here.1]
    · exact filed.memory _ _ found
  durable := by
    intro field s found
    rw [bins_handle] at found
    exact filed.durable _ _ found
  whole := by
    intro s copy
    rcases copy_handle copy with before | ⟨_, rfl⟩
    · exact filed.whole s before
    · rw [nextSnapshot, nextBin_key filed]
      exact wholeKey_of_reading r

theorem Filed.flush (filed : core.Filed) (flushed : core.flush reply = some core') :
    core'.Filed where
  memory := by
    rw [agg_flush flushed]
    exact filed.memory
  durable := by
    intro field s found
    obtain ⟨s', rest, _, rfl⟩ := flush_eq_some flushed
    rw [lookup_written] at found
    split at found
    · next here =>
      cases found
      exact here.1
    · exact filed.durable _ _ found
  whole := fun s copy => filed.whole s (copy_flush flushed copy)

theorem Filed.take (filed : core.Filed) (now : DateTime) (grace : Int) :
    (core.take now grace).Filed where
  memory := by
    intro key bin found
    rw [lookup_take] at found
    split at found
    · cases found
    · exact filed.memory _ _ found
  durable := filed.durable
  whole := fun s copy => filed.whole s (copy_take copy)

theorem Filed.evict (filed : core.Filed) (key : BinKey) (reply : Reply) :
    (core.evict key reply).Filed where
  memory := filed.memory
  durable := by
    intro field s found
    rw [lookup_evict] at found
    split at found
    · cases found
    · exact filed.durable _ _ found
  whole := fun s copy => filed.whole s (copy_evict copy)

theorem Filed.restart (filed : core.Filed) (loaded : Bool) : (core.restart loaded).Filed where
  memory := fun _ _ found => (lookup_restart filed found).2.1
  durable := filed.durable
  whole := fun s copy => filed.whole s (copy_restart filed copy)

/-! ## Every copy is truthful -/

/-- The new copy of a truthful core is truthful. -/
theorem truthful_nextSnapshot (truthful : ∀ s, core.Copy s → Truthful s) (label : ι)
    (r : BillingReading) : Truthful (core.nextSnapshot label r) := by
  rcases core.nextSnapshot_cases label r with ⟨_, eq⟩ | ⟨bin, found, eq⟩
  · rw [eq]
    exact (truthful_emptyBin r).accumulate label r
  · rw [eq]
    exact (truthful _ (.memory found)).accumulate label r

end Core

end AggregatorBridge
