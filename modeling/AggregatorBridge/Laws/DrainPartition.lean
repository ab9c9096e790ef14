import AggregatorBridge.MintOutbox
import AggregatorBridge.Lib.Run

/-!
# What a tick of the drain loop does with the outbox

A tick loads the outbox and goes through it once: an entry that is too old is parked, the others
are kept, and what was kept goes to the bridge in batches. `tickPlan` is that as a function of what
was loaded, and the moves of a tick carry it out (`run_tick`).

The age limit is configured in seconds as an unsigned number and compared in milliseconds as a
signed one. The batches are right in any case. Who is parked is right unless the limit is so large
that the conversion leaves the range: from 2⁶³ seconds on the limit becomes negative, and an entry
that was just enqueued is parked (`tick_partitions_iff`).

The law is about what a tick decides. It does not say that the commands it issues reach Redis, or
that what is parked is looked at by anybody.
-/

namespace AggregatorBridge

open MachineInt (IsI64)

/-! ## Batches -/

/-- `slice::chunks`. -/
def chunks {α : Type} (size : Nat) (l : List α) : List (List α) :=
  if l = [] ∨ size = 0 then [] else l.take size :: chunks size (l.drop size)
termination_by l.length
decreasing_by
  simp only [List.length_drop]
  have := List.length_pos_iff.mpr (not_or.mp ‹_›).1
  omega

section Chunks

variable {α : Type} {size : Nat}

theorem flatten_chunks (positive : 0 < size) (l : List α) : (chunks size l).flatten = l := by
  fun_induction chunks size l with
  | case1 l ends =>
    rcases ends with rfl | zero
    · rfl
    · omega
  | case2 l more ih => rw [List.flatten_cons, ih, List.take_append_drop]

theorem length_of_mem_chunks {l batch : List α} (mem : batch ∈ chunks size l) :
    1 ≤ batch.length ∧ batch.length ≤ size := by
  fun_induction chunks size l with
  | case1 l ends => cases mem
  | case2 l more ih =>
    obtain ⟨nonempty, positive⟩ := not_or.mp more
    rcases List.mem_cons.mp mem with rfl | later
    · have := List.length_pos_iff.mpr nonempty
      rw [List.length_take]
      omega
    · exact ih later

end Chunks

/-! ## One tick -/

variable {τ : Type}

/-- What a tick does with the entries it loaded. -/
structure TickPlan (τ : Type) where
  parked : List (Owed τ)
  batches : List (List (Owed τ))

/-- The loop over the entries: parked, and kept for minting. -/
def partitioned (cfg : DrainConfig) (nowMs : Int) (pending : List (Owed τ)) :
    List (Owed τ) × List (Owed τ) :=
  pending.foldl (fun acc p =>
    if p.mint.isExpired nowMs cfg.maxAgeSecs then (acc.1 ++ [p], acc.2)
    else (acc.1, acc.2 ++ [p])) ([], [])

/-- What a tick parks, and the chunks in which it asks for the rest. -/
def tickPlan (cfg : DrainConfig) (nowMs : Int) (pending : List (Owed τ)) : TickPlan τ :=
  ⟨(partitioned cfg nowMs pending).1, chunks cfg.batchSize (partitioned cfg nowMs pending).2⟩

/-- Going through the entries one by one is the same as two filters. -/
theorem partitioned_eq (cfg : DrainConfig) (nowMs : Int) (pending : List (Owed τ)) :
    partitioned cfg nowMs pending =
      (pending.filter fun p => p.mint.isExpired nowMs cfg.maxAgeSecs,
        pending.filter fun p => !p.mint.isExpired nowMs cfg.maxAgeSecs) := by
  have fold (acc : List (Owed τ) × List (Owed τ)) : pending.foldl (fun acc p =>
      if p.mint.isExpired nowMs cfg.maxAgeSecs then (acc.1 ++ [p], acc.2)
      else (acc.1, acc.2 ++ [p])) acc =
        (acc.1 ++ pending.filter fun p => p.mint.isExpired nowMs cfg.maxAgeSecs,
          acc.2 ++ pending.filter fun p => !p.mint.isExpired nowMs cfg.maxAgeSecs) := by
    induction pending generalizing acc with
    | nil => simp
    | cons p rest ih =>
      rw [List.foldl_cons, ih]
      by_cases expired : p.mint.isExpired nowMs cfg.maxAgeSecs = true
      · simp [expired]
      · simp [expired]
  exact fold ([], [])

/-- The plan of a tick, with the batches cut from what was kept. -/
theorem tickPlan_eq (cfg : DrainConfig) (nowMs : Int) (pending : List (Owed τ)) :
    tickPlan cfg nowMs pending =
      ⟨pending.filter fun p => p.mint.isExpired nowMs cfg.maxAgeSecs,
        chunks cfg.batchSize
          (pending.filter fun p => !p.mint.isExpired nowMs cfg.maxAgeSecs)⟩ := by
  simp only [tickPlan, partitioned_eq]

/-! ## The age of an entry -/

/-- The entry is older than the limit, in unbounded integers. -/
def PendingMint.tooOld (p : PendingMint) (nowMs : Int) (maxAgeSecs : Nat) : Bool :=
  decide (maxAgeSecs ≠ 0 ∧ 1000 * (maxAgeSecs : Int) < nowMs - p.enqueuedAtMs)

/-- The conversion of the limit gives a wrong answer for an age. A limit of 2⁶³ seconds or more
wraps around to a negative one; one whose milliseconds do not fit is the largest there is. -/
def Misjudged (maxAgeSecs : Nat) (ageMs : Int) : Prop :=
  2 ^ 63 ≤ maxAgeSecs ∧ max (-2 ^ 63) (1000 * ((maxAgeSecs : Int) - 2 ^ 64)) < ageMs ∨
    maxAgeSecs < 2 ^ 63 ∧ 2 ^ 63 ≤ 1000 * maxAgeSecs ∧ 1000 * (maxAgeSecs : Int) < ageMs

instance (maxAgeSecs : Nat) (ageMs : Int) : Decidable (Misjudged maxAgeSecs ageMs) :=
  inferInstanceAs (Decidable (_ ∨ _))

/-- The code's test of age is right about an entry exactly if the conversion of the limit is
harmless for it. -/
theorem PendingMint.isExpired_eq_tooOld_iff {p : PendingMint} {nowMs : Int} {maxAgeSecs : Nat}
    (now : IsI64 nowMs) (enqueued : IsI64 p.enqueuedAtMs) (limit : maxAgeSecs < 2 ^ 64) :
    p.isExpired nowMs maxAgeSecs = p.tooOld nowMs maxAgeSecs ↔
      ¬ Misjudged maxAgeSecs (nowMs - p.enqueuedAtMs) := by
  unfold IsI64 at now enqueued
  unfold isExpired tooOld Misjudged
  by_cases off : maxAgeSecs = 0
  · subst off
    simp
  · rw [if_neg off, decide_eq_decide]
    simp only [ne_eq, off, not_false_eq_true, true_and, MachineInt.saturateI64, MachineInt.asI64]
    by_cases wraps : maxAgeSecs < 2 ^ 63
    · rw [if_pos wraps]
      omega
    · rw [if_neg wraps]
      omega

/-! ## The moves of a tick -/

namespace Outbox

open Transition

variable (cfg : DrainConfig) {s : Outbox τ} {i : Nat} {nowMs : Int}

theorem examine_tick {p : Owed τ} {rest toMint : List (Owed τ)}
    (found : s.ticks[i]? = some ⟨nowMs, p :: rest, toMint⟩) :
    step cfg s (.examine i) = some
      (if p.mint.isExpired nowMs cfg.maxAgeSecs then
        { s with
          ticks := s.ticks.set i ⟨nowMs, rest, toMint⟩
          calls := s.calls ++ [.parkSet p] }
      else { s with ticks := s.ticks.set i ⟨nowMs, rest, toMint ++ [p]⟩ }) := by
  simp only [step, examine, found, Option.bind_eq_bind, Option.bind_some]
  split <;> rfl

/-- A tick looks at all of its entries. -/
theorem examine_all {pending toMint : List (Owed τ)}
    (found : s.ticks[i]? = some ⟨nowMs, pending, toMint⟩) :
    Steps (step cfg) Always s
      { s with
        ticks := s.ticks.set i ⟨nowMs, [],
          toMint ++ pending.filter fun p => !p.mint.isExpired nowMs cfg.maxAgeSecs⟩
        calls := s.calls ++ (pending.filter fun p =>
          p.mint.isExpired nowMs cfg.maxAgeSecs).map .parkSet } := by
  have inside := (List.getElem?_eq_some_iff.mp found).1
  induction pending generalizing s toMint with
  | nil =>
    obtain ⟨_, here⟩ := List.getElem?_eq_some_iff.mp found
    simp only [List.filter_nil, List.append_nil, List.map_nil, ← here, List.set_getElem_self]
    exact .refl _
  | cons p rest ih =>
    refine (Steps.single trivial (examine_tick cfg found)).trans ?_
    have placed (tick : DrainTick τ) : (s.ticks.set i tick)[i]? = some tick :=
      List.getElem?_set_self inside
    by_cases expired : p.mint.isExpired nowMs cfg.maxAgeSecs = true
    · rw [if_pos expired]
      have next := ih (s := { s with
        ticks := s.ticks.set i ⟨nowMs, rest, toMint⟩
        calls := s.calls ++ [.parkSet p] }) (placed _) (by simpa)
      simpa [expired] using next
    · rw [if_neg expired]
      have next := ih (s := { s with ticks := s.ticks.set i ⟨nowMs, rest, toMint ++ [p]⟩ })
        (placed _) (by simpa)
      simpa [expired] using next

/-- A tick that has looked at all of its entries spawns an attempt for every batch. -/
theorem batch_all (positive : 0 < cfg.batchSize) {toMint : List (Owed τ)}
    (found : s.ticks[i]? = some ⟨nowMs, [], toMint⟩) :
    Steps (step cfg) Always s
      { s with
        ticks := s.ticks.set i ⟨nowMs, [], []⟩
        spawned := s.spawned ++ (chunks cfg.batchSize toMint).map .batch } := by
  have inside := (List.getElem?_eq_some_iff.mp found).1
  fun_induction chunks cfg.batchSize toMint generalizing s with
  | case1 toMint ends =>
    rcases ends with rfl | zero
    · obtain ⟨_, here⟩ := List.getElem?_eq_some_iff.mp found
      simp only [List.append_nil, List.map_nil, ← here, List.set_getElem_self]
      exact .refl _
    · omega
  | case2 toMint more ih =>
    obtain ⟨nonempty, _⟩ := not_or.mp more
    have moved : step cfg s (.batch i) = some { s with
        ticks := s.ticks.set i ⟨nowMs, [], toMint.drop cfg.batchSize⟩
        spawned := s.spawned ++ [.batch (toMint.take cfg.batchSize)] } := by
      simp [step, batch, found, nonempty]
    refine (Steps.single trivial moved).trans ?_
    have next := ih (s := { s with
      ticks := s.ticks.set i ⟨nowMs, [], toMint.drop cfg.batchSize⟩
      spawned := s.spawned ++ [.batch (toMint.take cfg.batchSize)] })
      (List.getElem?_set_self inside) (by simpa)
    simpa using next

/-- A tick carries out its plan. -/
theorem run_tick (positive : 0 < cfg.batchSize) {pending : List (Owed τ)}
    (found : s.ticks[i]? = some ⟨nowMs, pending, []⟩) :
    Steps (step cfg) Always s
      { s with
        ticks := s.ticks.set i ⟨nowMs, [], []⟩
        calls := s.calls ++ (tickPlan cfg nowMs pending).parked.map .parkSet
        spawned := s.spawned ++ (tickPlan cfg nowMs pending).batches.map .batch } := by
  have inside := (List.getElem?_eq_some_iff.mp found).1
  rw [tickPlan_eq]
  refine (examine_all cfg found).trans ?_
  rw [List.nil_append]
  generalize (pending.filter fun p => !p.mint.isExpired nowMs cfg.maxAgeSecs) = kept
  have placed : (s.ticks.set i ⟨nowMs, [], kept⟩)[i]? = some ⟨nowMs, [], kept⟩ :=
    List.getElem?_set_self inside
  have next := batch_all cfg positive (s := { s with
    ticks := s.ticks.set i ⟨nowMs, [], kept⟩
    calls := s.calls ++ (pending.filter fun p =>
      p.mint.isExpired nowMs cfg.maxAgeSecs).map .parkSet }) placed
  simpa using next

end Outbox

/-! ## The partition -/

/-- The entries that are too old are parked; all others are in the batches, each once and in
order, and no batch is empty or too large. -/
structure RightPlan (cfg : DrainConfig) (nowMs : Int) (pending : List (Owed τ))
    (plan : TickPlan τ) : Prop where
  parked : plan.parked = pending.filter fun p => p.mint.tooOld nowMs cfg.maxAgeSecs
  others : plan.batches.flatten = pending.filter fun p => !p.mint.tooOld nowMs cfg.maxAgeSecs
  sizes : ∀ batch ∈ plan.batches, 1 ≤ batch.length ∧ batch.length ≤ cfg.batchSize

/-- A tick does the right thing exactly if the age limit is converted rightly for every entry. The
batches of what is kept are right in any case. -/
theorem tick_partitions_iff (cfg : DrainConfig) {nowMs : Int} {pending : List (Owed τ)}
    (now : IsI64 nowMs) (enqueued : ∀ p ∈ pending, IsI64 p.mint.enqueuedAtMs)
    (limit : cfg.maxAgeSecs < 2 ^ 64) (positive : 1 ≤ cfg.batchSize) :
    RightPlan cfg nowMs pending (tickPlan cfg nowMs pending) ↔
      ∀ p ∈ pending, ¬ Misjudged cfg.maxAgeSecs (nowMs - p.mint.enqueuedAtMs) := by
  have judged (p : Owed τ) (mem : p ∈ pending) :=
    PendingMint.isExpired_eq_tooOld_iff now (enqueued p mem) limit
  rw [tickPlan_eq]
  constructor
  · intro right p mem
    rw [← judged p mem]
    -- An entry on which the two differ is parked by one of them only.
    have same : p ∈ pending.filter (fun p => p.mint.isExpired nowMs cfg.maxAgeSecs) ↔
        p ∈ pending.filter fun p => p.mint.tooOld nowMs cfg.maxAgeSecs := by
      rw [← right.parked]
    simp only [List.mem_filter, mem, true_and] at same
    exact Bool.eq_iff_iff.mpr same
  · intro rightly
    have same : ∀ p ∈ pending, p.mint.isExpired nowMs cfg.maxAgeSecs =
        p.mint.tooOld nowMs cfg.maxAgeSecs :=
      fun p mem => (judged p mem).mpr (rightly p mem)
    refine ⟨List.filter_congr same, ?_, fun batch mem => length_of_mem_chunks mem⟩
    rw [flatten_chunks positive]
    exact List.filter_congr fun p mem => by rw [same p mem]

/-- An entry of the meter `MTR-1`, enqueued at some time. -/
def enqueuedAt (ms : Int) : Owed Unit :=
  ⟨⟨"MTR-1", 1, 0, 5, ms⟩, ()⟩

/-- With a limit of a week, an entry of a month ago is parked and one of an hour ago is not. -/
theorem week_limit_partitions :
    RightPlan ⟨604800, 15⟩ 2592000000 [enqueuedAt 0, enqueuedAt 2588400000]
      (tickPlan ⟨604800, 15⟩ 2592000000 [enqueuedAt 0, enqueuedAt 2588400000]) := by
  refine (tick_partitions_iff ⟨604800, 15⟩ (by decide) ?_ (by decide) (by decide)).mpr (by decide)
  intro p mem
  rcases List.mem_cons.mp mem with rfl | mem
  · decide
  · rw [List.mem_singleton.mp mem]
    decide

/-- With a limit of 2⁶³ seconds an entry is parked as soon as it is enqueued. -/
theorem huge_limit_parks_fresh_entry :
    (enqueuedAt 1000).mint.tooOld 1000 (2 ^ 63) = false ∧
      (tickPlan ⟨2 ^ 63, 15⟩ 1000 [enqueuedAt 1000]).parked = [enqueuedAt 1000] ∧
      ¬ RightPlan ⟨2 ^ 63, 15⟩ 1000 [enqueuedAt 1000]
        (tickPlan ⟨2 ^ 63, 15⟩ 1000 [enqueuedAt 1000]) := by
  have parked : (tickPlan ⟨2 ^ 63, 15⟩ 1000 [enqueuedAt 1000]).parked = [enqueuedAt 1000] := by
    decide
  have young : (enqueuedAt 1000).mint.tooOld 1000 (2 ^ 63) = false := by decide
  refine ⟨young, parked, ?_⟩
  intro right
  rw [right.parked, List.filter_cons_of_neg (by rw [young]; exact Bool.false_ne_true)] at parked
  cases parked

end AggregatorBridge
