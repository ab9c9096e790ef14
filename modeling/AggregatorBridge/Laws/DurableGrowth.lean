import AggregatorBridge.Laws.SettlementRuns
import AggregatorBridge.ZoneIngester

/-!
# A durable bin only grows

`BinStore::write` is a blind `HSET`: it stores whatever snapshot the writer task has, over
whatever the field held. That the field only grows until it is deleted is nevertheless what the
ordered writer is for (two writes out of order would `leave Redis holding a stale, undercounted
bin`) and what makes the hash fit to restore from.

The copies of one bin lie one behind the other: the durable one, the queued ones from the oldest
on, the one in memory. `Growing` says that this trail is ordered by `Grown`, and every operation
keeps it, the restart that restores the bins included. Only a reading can break it, and only if
it opens a bin in memory while an older copy of the bin is queued or durable: after a restart
that could not load the bins, or as a straggler to a window that was swept so long ago that the
aggregator has forgotten it. `continues` is that it does not, and `failed_load_shrinks_bin` is the
failed load.

The law says nothing of a field that holds no bin at all: how long a new bin is in memory only is up
to the writer.
-/

namespace AggregatorBridge

open Remote Transition

/-- No total of the second bin is smaller than that of the first. -/
structure Grown (a b : BillingBin) : Prop where
  readingCount : a.readingCount ≤ b.readingCount
  generated : a.energyGenerated ≤ b.energyGenerated
  consumed : a.energyConsumed ≤ b.energyConsumed

namespace Grown

variable {a b c : BillingBin}

theorem refl (a : BillingBin) : Grown a a :=
  ⟨le_refl _, le_refl _, le_refl _⟩

theorem trans (first : Grown a b) (second : Grown b c) : Grown a c where
  readingCount := first.readingCount.trans second.readingCount
  generated := first.generated.trans second.generated
  consumed := first.consumed.trans second.consumed

/-- A reading without negative energies makes its bin grow. -/
theorem accumulate (bin : BillingBin) {r : BillingReading} (generated : 0 ≤ r.generated)
    (consumed : 0 ≤ r.consumed) : Grown bin (Aggregator.accumulate bin r) where
  readingCount := Nat.le_succ _
  generated := le_add_of_nonneg_right generated
  consumed := le_add_of_nonneg_right consumed

end Grown

/-! ## The trail of a bin -/

namespace Core

variable {ι : Type} {core core' : Core ι} {key : BinKey} {r : BillingReading}

/-- The copies of a bin, the one that was made first at the front. -/
def trail (core : Core ι) (key : BinKey) : List BillingBin :=
  (core.bins.lookup (binField key)).toList.map Snapshot.bin ++
    ((core.queue.filter fun s => s.bin.key = key).map Snapshot.bin ++
      (core.agg.activeBins.lookup key).toList)

/-- Each copy of a bin has grown out of the ones before it. -/
def Growing (core : Core ι) : Prop :=
  ∀ key, WholeKey key → (core.trail key).Pairwise Grown

theorem growing_init : (init : Core ι).Growing := by
  intro key _
  exact .nil

/-- A field is only written by a snapshot of its own key. -/
theorem lookup_written_of_ne {s : Snapshot ι} (reply : Reply) (whole : WholeKey key)
    (whole' : WholeKey s.bin.key) (other : s.bin.key ≠ key) :
    (reply.effect (AList.insert (binField s.bin.key) s) core.bins).lookup (binField key) =
      core.bins.lookup (binField key) := by
  rw [lookup_written, if_neg]
  intro here
  exact other (binField_inj whole whole' here.1).symm

/-- A write replaces the durable copy by the oldest queued one, or drops that. -/
theorem trail_flush {reply : Reply} (filed : core.Filed) (whole : WholeKey key)
    (flushed : core.flush reply = some core') :
    (core'.trail key).Sublist (core.trail key) := by
  obtain ⟨s, rest, queued, rfl⟩ := flush_eq_some flushed
  have whole' : WholeKey s.bin.key :=
    filed.whole s (.queued (by rw [queued]; exact List.mem_cons_self))
  unfold trail
  rw [queued]
  by_cases here : s.bin.key = key
  · subst here
    rw [lookup_written, List.filter_cons_of_pos (by simp), List.map_cons, List.cons_append]
    split
    · exact List.sublist_append_right _ _
    · exact (List.Sublist.refl _).append (List.sublist_cons_self _ _)
  · rw [lookup_written_of_ne reply whole whole' here,
      List.filter_cons_of_neg (by simpa using here)]

theorem trail_take (core : Core ι) (now : DateTime) (grace : Int) (key : BinKey) :
    ((core.take now grace).trail key).Sublist (core.trail key) := by
  unfold trail
  rw [lookup_take]
  refine (List.Sublist.refl _).append ((List.Sublist.refl _).append ?_)
  split
  · exact List.nil_sublist _
  · exact List.Sublist.refl _

theorem trail_evict (core : Core ι) (swept : BinKey) (reply : Reply) (key : BinKey) :
    ((core.evict swept reply).trail key).Sublist (core.trail key) := by
  unfold trail
  rw [lookup_evict]
  refine List.Sublist.append ?_ (List.Sublist.refl _)
  split
  · exact List.nil_sublist _
  · exact List.Sublist.refl _

/-- What a restart leaves is the durable copy, once or twice. -/
theorem growing_restart (filed : core.Filed) (loaded : Bool) :
    (core.restart loaded).Growing := by
  intro key _
  have memory : ∀ bin ∈ ((core.restart loaded).agg.activeBins.lookup key).toList,
      ∃ s, core.bins.lookup (binField key) = some s ∧ s.bin = bin := by
    intro bin mem
    obtain ⟨_, _, restored⟩ := lookup_restart filed (Option.mem_toList.mp mem)
    exact restored
  unfold trail
  simp only [restart, List.filter_nil, List.map_nil, List.nil_append] at memory ⊢
  refine List.pairwise_append.mpr ⟨?_, ?_, ?_⟩
  · cases core.bins.lookup (binField key) with
    | none => exact .nil
    | some s => exact List.pairwise_singleton _ _
  · cases (Aggregator.restoreBins _ _).activeBins.lookup key with
    | none => exact .nil
    | some bin => exact List.pairwise_singleton _ _
  · intro old stored bin mem
    obtain ⟨s, durable, rfl⟩ := memory bin mem
    rw [durable] at stored
    cases List.mem_singleton.mp stored
    exact .refl _

/-- The trail of a reading's bin ends with the new copy, queued and in memory. -/
theorem trail_handle (filed : core.Filed) (accepted : ¬ core.agg.IsSettled r.key)
    (now : DateTime) (label : ι) :
    (core.handle now label r).trail r.key =
      ((core.bins.lookup (binField r.key)).toList.map Snapshot.bin ++
        (core.queue.filter fun s => s.bin.key = r.key).map Snapshot.bin) ++
        [core.agg.nextBin r, core.agg.nextBin r] := by
  have keyed : (core.nextSnapshot label r).bin.key = r.key := nextBin_key filed
  unfold trail
  rw [bins_handle, lookup_handle, if_pos ⟨rfl, accepted⟩, handle_accepted accepted]
  simp only [List.filter_append, List.filter_singleton, keyed, decide_true, List.map_append,
    List.append_assoc]
  rfl

/-- Another bin's trail stays as it is. -/
theorem trail_handle_of_ne (filed : core.Filed) (other : key ≠ r.key) (now : DateTime)
    (label : ι) : (core.handle now label r).trail key = core.trail key := by
  have keyed : (core.nextSnapshot label r).bin.key = r.key := nextBin_key filed
  unfold trail
  rw [bins_handle, lookup_handle, if_neg fun h => other h.1]
  by_cases late : core.agg.IsSettled r.key
  · rw [handle_late late]
  · rw [handle_accepted late]
    simp only [List.filter_append, List.filter_singleton, keyed, Ne.symm other, decide_false,
      cond_false, List.append_nil]

/-- A late reading leaves every trail alone. -/
theorem trail_handle_late (late : core.agg.IsSettled r.key) (now : DateTime) (label : ι) :
    (core.handle now label r).trail key = core.trail key := by
  unfold trail
  rw [bins_handle, lookup_handle, if_neg fun h => h.2 late, handle_late late]

/-- The reading finds its bin in memory, or there is no older copy of it. -/
def Continues (core : Core ι) (r : BillingReading) : Prop :=
  core.agg.activeBins.lookup r.key ≠ none ∨
    (core.bins.lookup (binField r.key) = none ∧ ∀ s ∈ core.queue, s.bin.key ≠ r.key)

instance (core : Core ι) (r : BillingReading) : Decidable (core.Continues r) :=
  inferInstanceAs (Decidable (_ ∨ _))

theorem Growing.handle (growing : core.Growing) (filed : core.Filed) (now : DateTime)
    (label : ι) (generated : 0 ≤ r.generated) (consumed : 0 ≤ r.consumed)
    (continues : core.agg.IsSettled r.key ∨ core.Continues r) :
    (core.handle now label r).Growing := by
  intro key whole
  by_cases late : core.agg.IsSettled r.key
  · rw [trail_handle_late late]
    exact growing key whole
  by_cases here : key = r.key
  · subst here
    rw [trail_handle filed late]
    have before := growing r.key whole
    unfold trail at before
    rw [← List.append_assoc] at before
    have pair : [core.agg.nextBin r, core.agg.nextBin r].Pairwise Grown :=
      List.pairwise_pair.mpr (.refl _)
    refine List.pairwise_append.mpr ⟨(List.pairwise_append.mp before).1, pair, ?_⟩
    intro old stored new mem
    have new_ : new = core.agg.nextBin r := by simpa using mem
    subst new_
    rcases continues.resolve_left late with present | ⟨absent, unqueued⟩
    · -- Whatever is before the bin in memory is below it, and the new copy is above it.
      obtain ⟨bin, found⟩ := Option.ne_none_iff_exists'.mp present
      have below : Grown old bin := by
        refine (List.pairwise_append.mp before).2.2 old stored bin ?_
        rw [found]
        exact List.mem_singleton_self bin
      unfold Aggregator.nextBin
      rw [found]
      exact below.trans (.accumulate bin generated consumed)
    · -- There is nothing before the new copy.
      have none_ : (core.queue.filter fun s => s.bin.key = r.key) = [] := by
        rw [List.filter_eq_nil_iff]
        intro s mem
        simpa using unqueued s mem
      rw [absent, none_] at stored
      cases stored
  · rw [trail_handle_of_ne filed here]
    exact growing key whole

/-- A write that finds something grows it. -/
theorem grown_flush {reply : Reply} {field : Uuid × Int} {old new : Snapshot ι}
    (growing : core.Growing) (filed : core.Filed) (flushed : core.flush reply = some core')
    (stored : core.bins.lookup field = some old) (found : core'.bins.lookup field = some new) :
    Grown old.bin new.bin := by
  obtain rfl : field = binField old.bin.key := filed.durable _ _ stored
  have trail := growing old.bin.key (filed.whole old (.durable stored))
  obtain ⟨s, rest, queued, rfl⟩ := flush_eq_some flushed
  have head : s ∈ core.queue := by
    rw [queued]
    exact List.mem_cons_self
  rw [lookup_written] at found
  split at found
  · next here =>
    -- The snapshot is queued, so it is behind the durable copy in the trail.
    cases found
    have keyed : old.bin.key = new.bin.key :=
      binField_inj (filed.whole old (.durable stored)) (filed.whole new (.queued head)) here.1
    unfold Core.trail at trail
    refine (List.pairwise_append.mp trail).2.2 _ ?_ _ ?_
    · rw [stored]
      exact List.mem_singleton_self _
    · refine List.mem_append_left _ (List.mem_map_of_mem (List.mem_filter.mpr ⟨head, ?_⟩))
      exact decide_eq_true keyed.symm
  · rw [stored] at found
    cases found
    exact .refl _

end Core

/-! ## Runs -/

namespace World

variable {ρ : Type} {cfg : SettlementConfig} {w t : World ρ} {e : Event ρ}

/-- A reading has no negative energies. -/
def metered : Event ρ → Bool
  | .handle _ _ r => decide (0 ≤ r.generated ∧ 0 ≤ r.consumed)
  | _ => true

/-- An accepted reading continues the bin in memory, or begins one that has no older copy. -/
def continues (w : World ρ) : Event ρ → Bool
  | .handle _ _ r => decide (w.core.agg.IsSettled r.key ∨ w.core.Continues r)
  | _ => true

/-- The field is still there after the step. -/
def stays (cfg : SettlementConfig) (field : Uuid × Int) (w : World ρ) (e : Event ρ) : Bool :=
  ((step cfg w e).bind fun t => t.core.bins.lookup field).isSome

/-- Every step keeps the trail of a bin in order, if the readings it handles continue their bins. -/
theorem growing_of_moves (filed : w.core.Filed) (growing : w.core.Growing)
    (energies : metered e = true) (meets : continues w e = true) (moves : Moves cfg w e t) :
    t.core.Growing := by
  have sublist {core : Core (ReadingLabel ρ)}
      (shorter : ∀ key, WholeKey key → (core.trail key).Sublist (w.core.trail key)) :
      core.Growing :=
    fun key whole => (growing key whole).sublist (shorter key whole)
  have core := coreMoves_of_moves moves
  generalize t.core = after at core ⊢
  cases core with
  | handled named =>
    simp only [metered, decide_eq_true_eq] at energies
    simp only [continues, decide_eq_true_eq] at meets
    exact growing.handle filed _ _ energies.1 energies.2 meets
  | flushed written => exact sublist fun key whole => Core.trail_flush filed whole written
  | took idle => exact sublist fun key _ => Core.trail_take _ _ _ key
  | evicted head => exact sublist fun key _ => Core.trail_evict _ _ _ key
  | restarted => exact Core.growing_restart filed _
  | same => exact growing

/-- What a step leaves in a field has grown out of what it found there. -/
theorem grown_of_moves (filed : w.core.Filed) (growing : w.core.Growing)
    (moves : Moves cfg w e t) {field : Uuid × Int} {old new : ReadingSnapshot ρ}
    (stored : w.core.bins.lookup field = some old)
    (found : t.core.bins.lookup field = some new) : Grown old.bin new.bin := by
  have same (unchanged : w.core.bins.lookup field = some new) : Grown old.bin new.bin := by
    rw [stored] at unchanged
    cases unchanged
    exact .refl _
  have core := coreMoves_of_moves moves
  generalize t.core = after at found core
  cases core with
  | handled named =>
    rw [Core.bins_handle] at found
    exact same found
  | flushed written => exact Core.grown_flush growing filed written stored found
  | evicted head =>
    rw [Core.lookup_evict] at found
    split at found
    · cases found
    · exact same found
  | took idle => exact same found
  | restarted => exact same found
  | same => exact same found

/-- In every run whose readings continue their bins, what a field holds has grown out of everything
it held since it was last deleted. A deletion ends this: what comes after it is another bin. -/
theorem durable_bin_never_shrinks (cfg : SettlementConfig) (field : Uuid × Int)
    {w t : World ρ} {old new : ReadingSnapshot ρ}
    (before : Steps (step cfg) (fun w e => metered e = true ∧ continues w e = true) init w)
    (stored : w.core.bins.lookup field = some old)
    (after : Steps (step cfg) (fun w e => metered e = true ∧ continues w e = true ∧
      stays cfg field w e = true) w t)
    (found : t.core.bins.lookup field = some new) : Grown old.bin new.bin := by
  have preserved (w : World ρ) (e : Event ρ) (t : World ρ)
      (holds : w.core.Filed ∧ w.core.Growing) (meets : metered e = true ∧ continues w e = true)
      (moved : step cfg w e = some t) : t.core.Filed ∧ t.core.Growing :=
    ⟨filed_of_moves holds.1 (moves_of_step moved),
      growing_of_moves holds.1 holds.2 meets.1 meets.2 (moves_of_step moved)⟩
  have ordered : w.core.Filed ∧ w.core.Growing :=
    before.invariant (P := fun w => w.core.Filed ∧ w.core.Growing) preserved
      ⟨Core.filed_init, Core.growing_init⟩
  -- Along the second half the field holds something that has grown out of `old`.
  have grown : (t.core.Filed ∧ t.core.Growing) ∧
      ∃ now, t.core.bins.lookup field = some now ∧ Grown old.bin now.bin := by
    refine after.invariant (P := fun t => (t.core.Filed ∧ t.core.Growing) ∧
      ∃ now, t.core.bins.lookup field = some now ∧ Grown old.bin now.bin) ?_
      ⟨ordered, old, stored, .refl _⟩
    intro w e t holds meets moved
    obtain ⟨ordered, now, held, grown⟩ := holds
    refine ⟨preserved w e t ordered ⟨meets.1, meets.2.1⟩ moved, ?_⟩
    have present := meets.2.2
    simp only [stays, moved, Option.bind_some] at present
    obtain ⟨next, found⟩ := Option.isSome_iff_exists.mp present
    exact ⟨next, found,
      grown.trans (grown_of_moves ordered.1 ordered.2 (moves_of_step moved) held found)⟩
  obtain ⟨_, now, held, grown⟩ := grown
  rw [held] at found
  cases found
  exact grown

/-! ## A failed load -/

private def morning : DateTime :=
  DateTime.ofSecs 300

private def morningField : Uuid × Int :=
  (0xf9f81f06fcc855deafeaa10e51078ea2, 0)

/-- Two readings of one window are handled and written. -/
private def twoReadings : List (Event Unit) :=
  [.handle morning () (meterReading 0 5 0), .handle morning () (meterReading 60 5 0), .flush .ok,
    .flush .ok]

private theorem twoReadings_run :
    (run (step oneMeter) (fun w e => metered e = true ∧ continues w e = true) twoReadings
      init).isSome := by
  decide +kernel

private def twoWritten : World Unit :=
  (run (step oneMeter) (fun w e => metered e = true ∧ continues w e = true) twoReadings
    init).get twoReadings_run

/-- The process dies, cannot load the bins, and a third reading of the window is handled. -/
private def failedLoad : List (Event Unit) :=
  [.restart false, .handle morning () (meterReading 120 5 0), .flush .ok]

private theorem failedLoad_runs :
    (run (step oneMeter) (fun w e => metered e = true ∧
      stays oneMeter morningField w e = true) failedLoad twoWritten).isSome := by
  decide +kernel

/-- After a failed load the next reading of the window overwrites the durable bin with a bin of
its own. -/
theorem failed_load_shrinks_bin :
    ¬ ∀ (w t : World Unit) (old new : ReadingSnapshot Unit),
      Steps (step oneMeter) (fun _ e => metered e = true) init w →
      w.core.bins.lookup morningField = some old →
      Steps (step oneMeter) (fun w e => metered e = true ∧
        stays oneMeter morningField w e = true) w t →
      t.core.bins.lookup morningField = some new → Grown old.bin new.bin := by
  intro law
  have before := (Steps.of_run_get twoReadings_run).mono fun _ _ meets => meets.1
  have after := Steps.of_run_get failedLoad_runs
  have two : (twoWritten.core.bins.lookup morningField).map (fun s => s.bin.readingCount) =
      some 2 := by
    decide +kernel
  have one : (((run (step oneMeter) (fun w e => metered e = true ∧
      stays oneMeter morningField w e = true) failedLoad twoWritten).get
        failedLoad_runs).core.bins.lookup morningField).map (fun s => s.bin.readingCount) =
      some 1 := by
    decide +kernel
  obtain ⟨old, stored, oldCount⟩ := Option.map_eq_some_iff.mp two
  obtain ⟨new, found, newCount⟩ := Option.map_eq_some_iff.mp one
  have grown := (law _ _ old new before stored after found).readingCount
  omega

/-- The process dies, loads the bins, and a third reading of the window is handled. -/
private def workingLoad : List (Event Unit) :=
  [.restart true, .handle morning () (meterReading 120 5 0), .flush .ok]

private theorem workingLoad_runs :
    (run (step oneMeter) (fun w e => metered e = true ∧ continues w e = true ∧
      stays oneMeter morningField w e = true) workingLoad twoWritten).isSome := by
  decide +kernel

/-- After a load that worked the third reading is counted as the third. -/
theorem working_load_grows_bin :
    ∃ old new : ReadingSnapshot Unit, old.bin.readingCount = 2 ∧ new.bin.readingCount = 3 ∧
      Grown old.bin new.bin := by
  have before := Steps.of_run_get twoReadings_run
  have after := Steps.of_run_get workingLoad_runs
  have two : (twoWritten.core.bins.lookup morningField).map (fun s => s.bin.readingCount) =
      some 2 := by
    decide +kernel
  have three : (((run (step oneMeter) (fun w e => metered e = true ∧ continues w e = true ∧
      stays oneMeter morningField w e = true) workingLoad twoWritten).get
        workingLoad_runs).core.bins.lookup morningField).map (fun s => s.bin.readingCount) =
      some 3 := by
    decide +kernel
  obtain ⟨old, stored, oldCount⟩ := Option.map_eq_some_iff.mp two
  obtain ⟨new, found, newCount⟩ := Option.map_eq_some_iff.mp three
  exact ⟨old, new, oldCount, newCount,
    durable_bin_never_shrinks oneMeter morningField before stored after found⟩

end World

end AggregatorBridge
