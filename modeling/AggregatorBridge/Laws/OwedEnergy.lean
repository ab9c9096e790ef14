import AggregatorBridge.Laws.SettlementRuns
import Mathlib.Data.List.Dedup
import Mathlib.Algebra.BigOperators.Group.List.Lemmas

/-!
# What the outbox owes

An enqueue writes the net energy of one bin over whatever the field held. That is harmless as
long as the new bin has all the readings of the bins enqueued before it under the same field:
the amount is then the net energy of all of them, each reading counted once. The law says that
it is, in every run whose steps carry the readings over (`carriesOver`):

* a reading is accepted for a window that is owed, or about to be, only into a bin that has all
  the readings of what is owed;
* a restart finds, for a window that is owed, no durable bin or one with all its readings.

Without the condition it is not so, because the set of settled windows that keeps a straggler
from forming a second bin of a window lives in the process: after a restart a single reading
forms a bin of its own, and its enqueue replaces the owed amount.

A field whose mint was confirmed is owed nothing, and the law says nothing of it.
-/

namespace AggregatorBridge

open Remote Transition

variable {ρ : Type}

/-- Net energy does not depend on the order of the contributions. -/
theorem netOf_perm {ι : Type} {a b : List (Contribution ι)} (perm : a.Perm b) :
    netOf a = netOf b :=
  (perm.map _).sum_eq

namespace World

variable {cfg : SettlementConfig} {w t : World ρ} {e : Event ρ} {y z : ReadingSnapshot ρ}

/-- Every reading accumulated in a bin that was enqueued under the field, once. -/
def accumulated [DecidableEq ρ] (w : World ρ) (field : String) :
    List (Contribution (ReadingLabel ρ)) :=
  ((w.enqueued.filter fun y => y.bin.mintField = field).flatMap Snapshot.contents).dedup

/-- The bins that were enqueued, and those the sweep may enqueue yet. -/
def pledges (w : World ρ) : List (ReadingSnapshot ρ) :=
  w.enqueued ++ (w.sweep.map SweepItem.taken).filter fun y => 0 < y.bin.net

/-- The bin was or may be enqueued, and its mint is not confirmed. -/
def Pledged (w : World ρ) (y : ReadingSnapshot ρ) : Prop :=
  y ∈ w.pledges ∧ y.bin.mintField ∉ w.ob.replied

/-- The step carries the readings of what is owed over to the bin that may be enqueued next. -/
def carriesOver [DecidableEq ρ] (w : World ρ) : Event ρ → Bool
  | .handle _ _ r =>
    decide (w.core.agg.IsSettled r.key ∨
      ∀ y ∈ w.pledges, y.bin.mintField ∉ w.ob.replied → y.bin.key = r.key →
        y.contents ⊆ w.core.contentsAt r.key)
  | .restart true =>
    decide (∀ y ∈ w.enqueued, y.bin.mintField ∉ w.ob.replied →
      ∀ z ∈ w.core.bins.lookup (binField y.bin.key), y.contents ⊆ z.contents)
  | _ => true

/-! ## The bins that come after -/

/-- Whatever can be enqueued next for a window that is owed has all the readings of it. -/
structure Carried (w : World ρ) : Prop where
  memory : ∀ y, w.Pledged y → ∀ bin ∈ w.core.agg.activeBins.lookup y.bin.key,
    y.contents ⊆ w.core.contents y.bin.key
  inHand : ∀ y, w.Pledged y → ∀ z, w.InHand z → z.bin.key = y.bin.key →
    y.contents ⊆ z.contents

theorem mem_pledges : y ∈ w.pledges ↔ y ∈ w.enqueued ∨ w.InHand y ∧ 0 < y.bin.net := by
  simp only [pledges, List.mem_append, List.mem_filter, List.mem_map, decide_eq_true_eq, InHand]

/-- A reply that came stays known. -/
theorem replied_of_moves (moves : Moves cfg w e t) : w.ob.replied ⊆ t.ob.replied := by
  cases moves with
  | minted head => exact List.subset_append_left _ _
  | drained moved =>
    cases Outbox.effect_of_step moved with
    | quiet _ _ replied => exact replied ▸ List.Subset.refl _
    | parks _ _ _ replied => exact replied ▸ List.Subset.refl _
    | confirms fields _ _ replied => exact replied ▸ List.subset_append_left _ _
    | executes k call reply _ _ after =>
      subst after
      cases call <;> exact List.Subset.refl _
  | _ => exact List.Subset.refl _

/-- What is pledged was pledged, or was just taken. -/
theorem pledged_of_moves (sound : w.Sound cfg) (moves : Moves cfg w e t) (pledged : t.Pledged y) :
    w.Pledged y ∨ ∃ now, e = .take now ∧ y ∈ w.core.completed now cfg.grace := by
  obtain ⟨mem, owed⟩ := pledged
  have owed' : y.bin.mintField ∉ w.ob.replied := fun mem => owed (replied_of_moves moves mem)
  have enqueues {stage : Stage} {rest : List (SweepItem ρ)} {p : PendingMint}
      (head : w.sweep = ⟨y, stage⟩ :: rest) (busy : stage.pending? = some p) : w.Pledged y := by
    have first : (⟨y, stage⟩ : SweepItem ρ) ∈ w.sweep := head ▸ List.mem_cons_self
    refine ⟨mem_pledges.mpr (.inr ⟨⟨_, first, rfl⟩, ?_⟩), owed'⟩
    exact (sound.busy _ first p busy).surplus
  rcases mem_pledges.mp mem with mem | ⟨inHand, surplus⟩
  · by_cases before : y ∈ w.enqueued
    · exact .inl ⟨mem_pledges.mpr (.inl before), owed'⟩
    · left
      cases moves with
      | enqueued head =>
        rcases List.mem_cons.mp mem with rfl | mem
        · exact enqueues head rfl
        · exact absurd mem before
      | retried head =>
        rcases List.mem_cons.mp mem with rfl | mem
        · exact enqueues head rfl
        · exact absurd mem before
      | refused head busy =>
        simp only at mem
        split at mem
        · rcases List.mem_cons.mp mem with rfl | mem
          · exact enqueues head busy
          · exact absurd mem before
        · exact absurd mem before
      | _ => exact absurd mem before
  · rcases inHand_of_moves moves inHand with before | took
    · exact .inl ⟨mem_pledges.mpr (.inr ⟨before, surplus⟩), owed'⟩
    · exact .inr took

private theorem taken_not_in_memory {now : DateTime} (moves : Moves cfg w (.take now) t)
    (completed : y ∈ w.core.completed now cfg.grace) :
    t.core.agg.activeBins.lookup y.bin.key = none := by
  cases moves with
  | took idle =>
    rw [Core.lookup_take, if_pos]
    exact List.mem_map.mpr ⟨y, completed, rfl⟩

theorem carried_init : (init : World ρ).Carried where
  memory := by
    intro y pledged
    cases pledged.1
  inHand := by
    intro y pledged
    cases pledged.1

/-- A step whose readings are carried over keeps every later bin of an owed window at or above what
is owed. -/
theorem carried_step [DecidableEq ρ] (sound : w.Sound cfg) (carried : w.Carried)
    (meets : carriesOver w e = true) (moved : step cfg w e = some t) : t.Carried := by
  have moves := moves_of_step moved
  refine ⟨?_, ?_⟩
  · intro y pledged bin found
    rcases pledged_of_moves sound moves pledged with before | ⟨now, rfl, completed⟩
    · -- The bin was there, or a reading was accepted into it, or a restart loaded it.
      rcases memory_of_moves sound moves found with
        ⟨found', contents⟩ | ⟨now, id, r, rfl, accepted, here, contents⟩ |
          ⟨s, rfl, durable, contents⟩
      · rw [contents]
        exact carried.memory y before bin found'
      · simp only [carriesOver, decide_eq_true_eq] at meets
        have sub := (meets.resolve_left accepted) y before.1 before.2 here.symm
        rw [contents]
        exact fun c mem => List.mem_cons_of_mem _ (sub mem)
      · simp only [carriesOver, decide_eq_true_eq] at meets
        rw [contents]
        have enqueued : y ∈ w.enqueued := by
          cases moves
          exact (mem_pledges.mp pledged.1).resolve_right fun ⟨⟨item, mem, _⟩, _⟩ => by cases mem
        exact meets y enqueued before.2 s durable
    · have gone := taken_not_in_memory moves completed
      rw [gone] at found
      cases found
  · intro y pledged z inHand same
    rcases inHand_of_moves moves inHand with held | ⟨now, rfl, completed⟩
    · rcases pledged_of_moves sound moves pledged with before | ⟨now, rfl, _⟩
      · exact carried.inHand y before z held same
      · cases moves with
        | took idle =>
          obtain ⟨item, mem, _⟩ := held
          rw [idle] at mem
          cases mem
    · obtain ⟨found, contents⟩ := Core.copy_completed sound.filed completed
      rcases pledged_of_moves sound moves pledged with before | ⟨now', at_, completed'⟩
      · rw [contents, same]
        rw [same] at found
        exact carried.memory y before _ found
      · -- One sweep takes one bin of a window, so both have the contents memory had.
        obtain ⟨_, contents'⟩ := Core.copy_completed sound.filed completed'
        rw [contents, contents', same]
        exact List.Subset.refl _

/-! ## The amount in the outbox -/

/-- What the outbox holds has all the readings of the bins enqueued before it. -/
structure Covering (w : World ρ) : Prop where
  reached : ∀ field p, w.ob.outbox.lookup field = some p → p.origin ∈ w.enqueued
  covers : ∀ field p, w.ob.outbox.lookup field = some p → field ∉ w.ob.replied →
    ∀ y ∈ w.enqueued, y.bin.mintField = field → y.contents ⊆ p.origin.contents

theorem covering_init : (init : World ρ).Covering where
  reached := by
    intro field p found
    cases found
  covers := by
    intro field p found
    cases found

/-- An enqueue that reaches the outbox covers what was enqueued under its field before. -/
theorem covering_enqueue (sound : w.Sound cfg) (carried : w.Carried) (covering : w.Covering)
    {stage : Stage} {rest : List (SweepItem ρ)} {p : PendingMint}
    (head : w.sweep = ⟨y, stage⟩ :: rest) (busy : stage.pending? = some p)
    {sweep : List (SweepItem ρ)} {ob : Outbox (ReadingSnapshot ρ)}
    (outbox : ob.outbox = (w.ob.outbox.insert p.field ⟨p, y⟩))
    (replied : ob.replied = w.ob.replied) :
    Covering { w with ob := ob, sweep := sweep, enqueued := y :: w.enqueued } := by
  have first : (⟨y, stage⟩ : SweepItem ρ) ∈ w.sweep := head ▸ List.mem_cons_self
  have fits := sound.busy _ first p busy
  refine ⟨?_, ?_⟩
  · intro field q found
    simp only [outbox, Hash.lookup_set] at found
    split at found
    · cases found
      exact List.mem_cons_self
    · exact List.mem_cons_of_mem _ (covering.reached field q found)
  · intro field q found owed z mem filed
    simp only [replied] at owed
    simp only [outbox, Hash.lookup_set] at found
    split at found
    · next here =>
      cases found
      rcases List.mem_cons.mp mem with rfl | mem
      · exact List.Subset.refl _
      · have pledged : w.Pledged z := by
          refine ⟨mem_pledges.mpr (.inl mem), ?_⟩
          rw [filed]
          exact owed
        have same : z.bin.key = y.bin.key := by
          refine key_eq_of_mintField (sound.copies z (.enqueued mem))
            (sound.copies y (.inHand _ first rfl)) ?_
          rw [filed, here]
          exact fits.field
        exact carried.inHand z pledged y ⟨_, first, rfl⟩ same.symm
    · next other =>
      rcases List.mem_cons.mp mem with rfl | mem
      · exact absurd (filed.symm.trans fits.field.symm) other
      · exact covering.covers field q found owed z mem filed

/-- Where nothing new is in the outbox and nothing was enqueued, the outbox covers what it
covered. -/
private theorem Covering.mono (covering : w.Covering) (replied : w.ob.replied ⊆ t.ob.replied)
    (outbox : ∀ field p, t.ob.outbox.lookup field = some p → w.ob.outbox.lookup field = some p)
    (enqueued : t.enqueued = w.enqueued) : t.Covering where
  reached field p found := enqueued ▸ covering.reached field p (outbox field p found)
  covers field p found owed y mem filed :=
    covering.covers field p (outbox field p found)
      (fun mem => owed (replied mem)) y (enqueued ▸ mem) filed

/-- What the stored mint of a field says covers all that was enqueued for it. -/
theorem covering_step (sound : w.Sound cfg) (carried : w.Carried) (covering : w.Covering)
    (moved : step cfg w e = some t) : t.Covering := by
  have moves := moves_of_step moved
  cases moves with
  | enqueued head => exact covering_enqueue sound carried covering head rfl rfl rfl
  | retried head => exact covering_enqueue sound carried covering head rfl rfl rfl
  | @refused reply y p stage next rest head busy still =>
    cases reply with
    | failed => exact covering.mono (List.Subset.refl _) (fun _ _ h => h) rfl
    | ok => exact covering_enqueue sound carried covering head busy rfl rfl
    | lost => exact covering_enqueue sound carried covering head busy rfl rfl
  | drained drained =>
    refine covering.mono (replied_of_moves (moves_of_step moved)) ?_ rfl
    exact fun _ _ found => Outbox.lookup_of_step drained found
  | minted head confirmed =>
    exact covering.mono (List.subset_append_left _ _) (fun _ _ found => found) rfl
  | handled named => exact ⟨covering.reached, covering.covers⟩
  | flushed written => exact ⟨covering.reached, covering.covers⟩
  | took idle => exact ⟨covering.reached, covering.covers⟩
  | planned head => exact ⟨covering.reached, covering.covers⟩
  | published head => exact ⟨covering.reached, covering.covers⟩
  | skipped head => exact ⟨covering.reached, covering.covers⟩
  | failed head => exact ⟨covering.reached, covering.covers⟩
  | evicted head => exact ⟨covering.reached, covering.covers⟩
  | kept head => exact ⟨covering.reached, covering.covers⟩
  | restarted => exact ⟨covering.reached, covering.covers⟩

/-- The readings of the bin in the outbox are all the readings that were enqueued. -/
theorem accumulated_perm [DecidableEq ρ] (sound : w.Sound cfg) (covering : w.Covering)
    {field : String} {p : Owed (ReadingSnapshot ρ)}
    (found : w.ob.outbox.lookup field = some p) (owed : field ∉ w.ob.replied) :
    (w.accumulated field).Perm p.origin.contents := by
  have copy := sound.copies p.origin (.owed p (.outbox field found) rfl)
  have filed : p.origin.bin.mintField = field := by
    rw [sound.fields field p found]
    exact (sound.owed p (.outbox field found)).field.symm
  refine (List.perm_ext_iff_of_nodup (List.nodup_dedup _) copy.once.of_map).mpr ?_
  intro c
  rw [List.mem_dedup, List.mem_flatMap]
  constructor
  · rintro ⟨y, mem, inside⟩
    obtain ⟨mem, here⟩ := List.mem_filter.mp mem
    exact covering.covers field p found owed y mem (of_decide_eq_true here) inside
  · intro mem
    refine ⟨p.origin, List.mem_filter.mpr ⟨covering.reached field p found, ?_⟩, mem⟩
    exact decide_eq_true filed

/-! ## The law -/

/-- In every run whose steps carry the readings over, the amount stored for a field that is not
confirmed is at least the net energy of all readings accumulated in the bins enqueued for it. What
the bridge mints is what is stored when it is asked. -/
theorem owed_energy_kept [DecidableEq ρ] (cfg : SettlementConfig) {t : World ρ}
    (chain : Steps (step cfg) (fun w e => carriesOver w e = true) init t) {field : String}
    {p : Owed (ReadingSnapshot ρ)} (found : t.ob.outbox.lookup field = some p)
    (owed : field ∉ t.ob.replied) :
    netOf (t.accumulated field) ≤ p.mint.energyKwh := by
  have holds : t.Sound cfg ∧ t.Carried ∧ t.Covering := by
    refine chain.invariant (P := fun w => w.Sound cfg ∧ w.Carried ∧ w.Covering) ?_
      ⟨sound_init, carried_init, covering_init⟩
    intro w e t before meets moved
    exact ⟨sound_step before.1 moved, carried_step before.1 before.2.1 meets moved,
      covering_step before.1 before.2.1 before.2.2 moved⟩
  obtain ⟨sound, _, covering⟩ := holds
  have fits := sound.owed p (.outbox field found)
  have truthful := (sound.copies p.origin (.owed p (.outbox field found) rfl)).truthful
  rw [netOf_perm (accumulated_perm sound covering found owed), ← truthful.net_eq, fits.energy]

/-! ## A straggler after a restart -/

/-- Five kilowatt hours are settled and wait in the outbox, the bridge being down. The process
restarts, and a straggler of a tenth of a kilowatt hour is handled, swept and enqueued. -/
private def overwriting : List (Event Unit) :=
  [.handle (DateTime.ofSecs 1) () (meterReading 0 5 0), .flush .ok, .take (DateTime.ofSecs 2000),
    .plan .found .missing 2000000, .enqueue .ok, .evict .ok, .restart true,
    .handle (DateTime.ofSecs 2100) () (meterReading 10 (1 / 10) 0), .flush .ok,
    .take (DateTime.ofSecs 3000), .plan .found .missing 3000000, .enqueue .ok]

private theorem overwriting_runs :
    (run (step oneMeter) Always overwriting init).isSome := by
  decide +kernel

/-- The owed amount is replaced by the straggler's energy alone. -/
theorem straggler_overwrites_owed :
    ¬ ∀ (t : World Unit) (field : String) (p : Owed (ReadingSnapshot Unit)),
      Steps (step oneMeter) Always init t → t.ob.outbox.lookup field = some p →
      field ∉ t.ob.replied → netOf (t.accumulated field) ≤ p.mint.energyKwh := by
  intro law
  have chain := Steps.of_run_get overwriting_runs
  have present : (((run (step oneMeter) Always overwriting init).get
      overwriting_runs).ob.outbox.lookup "MTR-1:0").isSome := by
    decide +kernel
  have kept := law _ "MTR-1:0" _ chain (Option.some_get present).symm (by decide +kernel)
  clear law chain
  revert present
  decide +kernel

/-- The same, but the process dies before the durable bin is deleted: the restart brings the
five kilowatt hours back, and the straggler is added to them. -/
private def addingUp : List (Event Unit) :=
  [.handle (DateTime.ofSecs 1) () (meterReading 0 5 0), .flush .ok, .take (DateTime.ofSecs 2000),
    .plan .found .missing 2000000, .enqueue .ok, .restart true,
    .handle (DateTime.ofSecs 2100) () (meterReading 10 (1 / 10) 0), .flush .ok,
    .take (DateTime.ofSecs 3000), .plan .found .missing 3000000, .enqueue .ok]

private theorem addingUp_runs :
    (run (step oneMeter) (fun w e => carriesOver w e = true) addingUp init).isSome := by
  decide +kernel

private theorem addingUp_enqueued :
    (((run (step oneMeter) (fun w e => carriesOver w e = true) addingUp init).get
      addingUp_runs).ob.outbox.lookup "MTR-1:0").isSome := by
  decide +kernel

/-- Where the readings are carried over, the second enqueue owes all of them. -/
theorem restored_bin_owes_all :
    netOf (((run (step oneMeter) (fun w e => carriesOver w e = true) addingUp init).get
        addingUp_runs).accumulated "MTR-1:0") ≤
      ((((run (step oneMeter) (fun w e => carriesOver w e = true) addingUp init).get
        addingUp_runs).ob.outbox.lookup "MTR-1:0").get addingUp_enqueued).mint.energyKwh :=
  owed_energy_kept oneMeter (Steps.of_run_get addingUp_runs)
    (Option.some_get addingUp_enqueued).symm (by decide +kernel)

end World

end AggregatorBridge
