import AggregatorBridge.Aggregator

/-!
# A settled window stays settled

A sweep that takes a bin notes its window as settled, and a reading of a settled window is
dropped, so no bin of that key can form. What forgets a settled window is the removal of a later
one: it drops every window more than a day behind the watermark of the meter, and the watermark
is the meter's own. So a window is settled for good as long as it stays within that day.

The settled windows live in the process: the law says nothing of a window that was settled before a
restart.
-/

namespace AggregatorBridge

namespace Aggregator

variable {agg : Aggregator} {key : BinKey}

/-- The window is not more than a day behind the watermark of its meter. -/
def WithinRetention (agg : Aggregator) (key : BinKey) : Prop :=
  ∀ p, agg.progress.lookup key.1 = some p →
    p.watermark.addSecs (-(settledRetentionHours * 3600)) ≤ key.2

/-- The window was taken and nothing is accumulated for it. -/
structure Closed (agg : Aggregator) (key : BinKey) : Prop where
  keyed : agg.Keyed
  settled : agg.IsSettled key
  absent : agg.activeBins.lookup key = none

/-- A removal keeps a settled window that is within the retention. -/
theorem isSettled_removeBin (within : agg.WithinRetention key) (settled : agg.IsSettled key)
    (removed : BinKey) : (agg.removeBin removed).IsSettled key := by
  show key.2 ∈ ((agg.settled.insert removed.1 (agg.nextSettled removed)).lookup key.1).getD []
  by_cases same : key.1 = removed.1
  · have listed : key.2 ∈ agg.nextSettled removed := by
      have before : key.2 ∈ removed.2 :: (agg.settled.lookup removed.1).getD [] :=
        List.mem_cons_of_mem _ (same ▸ settled)
      unfold nextSettled
      split
      · next p progress =>
        exact List.mem_filter.mpr ⟨before, decide_eq_true (within p (same ▸ progress))⟩
      · exact before
    rw [same, AList.lookup_insert]
    exact listed
  · rw [AList.lookup_insert_ne same]
    exact settled

/-- Removing a window that is within the retention settles it. -/
theorem isSettled_removeBin_self (within : agg.WithinRetention key) :
    (agg.removeBin key).IsSettled key := by
  show key.2 ∈ ((agg.settled.insert key.1 (agg.nextSettled key)).lookup key.1).getD []
  rw [AList.lookup_insert]
  show key.2 ∈ agg.nextSettled key
  unfold nextSettled
  split
  · next p progress =>
    exact List.mem_filter.mpr ⟨List.mem_cons_self, decide_eq_true (within p progress)⟩
  · exact List.mem_cons_self

theorem isSettled_removeBins (within : agg.WithinRetention key) {keys : List BinKey}
    (settled : agg.IsSettled key ∨ key ∈ keys) : (agg.removeBins keys).IsSettled key := by
  induction keys generalizing agg with
  | nil =>
    rcases settled with before | none
    · exact before
    · cases none
  | cons removed keys ih =>
    show ((agg.removeBin removed).removeBins keys).IsSettled key
    -- a removal does not move the watermark
    have still : (agg.removeBin removed).WithinRetention key := within
    apply ih still
    rcases settled with before | mem
    · exact .inl (isSettled_removeBin within before removed)
    · rcases List.mem_cons.mp mem with rfl | later
      · exact .inl (isSettled_removeBin_self within)
      · exact .inr later

/-- A removal settles nothing but what it removes. -/
theorem isSettled_of_removeBins {keys : List BinKey}
    (settled : (agg.removeBins keys).IsSettled key) : agg.IsSettled key ∨ key ∈ keys := by
  induction keys generalizing agg with
  | nil => exact .inl settled
  | cons removed keys ih =>
    rcases ih settled with before | later
    · have listed : key.2 ∈
          ((agg.settled.insert removed.1 (agg.nextSettled removed)).lookup key.1).getD [] := before
      by_cases same : key.1 = removed.1
      · rw [same, AList.lookup_insert] at listed
        have windows : key.2 ∈ removed.2 :: (agg.settled.lookup removed.1).getD [] := by
          change key.2 ∈ agg.nextSettled removed at listed
          unfold nextSettled at listed
          split at listed
          · exact List.mem_of_mem_filter listed
          · exact listed
        rcases List.mem_cons.mp windows with here | earlier
        · exact .inr (List.mem_cons.mpr (.inl (Prod.ext same here)))
        · exact .inl (show key.2 ∈ (agg.settled.lookup key.1).getD [] from same ▸ earlier)
      · rw [AList.lookup_insert_ne same] at listed
        exact .inl listed
    · exact .inr (List.mem_cons_of_mem _ later)

/-- The watermarks after a sweep are the ones before. -/
theorem progress_removeBins (keys : List BinKey) :
    (agg.removeBins keys).progress = agg.progress := by
  induction keys generalizing agg with
  | nil => rfl
  | cons removed keys ih => exact ih

theorem closed_of_swept (keyed : agg.Keyed) {op : BillingOp} {bin : BillingBin}
    (taken : bin ∈ agg.swept op) (within : (agg.next op).WithinRetention bin.key) :
    (agg.next op).Closed bin.key := by
  cases op with
  | reading now r => cases taken
  | sweep now grace =>
    have listed : bin.key ∈ (agg.peekCompletedBinsAt now grace).map BillingBin.key :=
      List.mem_map.mpr ⟨bin, taken, rfl⟩
    have before : agg.WithinRetention bin.key := by
      intro p progress
      exact within p ((congrArg (AList.lookup bin.key.1) (progress_removeBins _)).trans progress)
    refine ⟨keyed.next _, isSettled_removeBins before (.inr listed), ?_⟩
    show (agg.removeBins _).activeBins.lookup bin.key = none
    rw [lookup_removeBins, if_pos listed]

/-- One step keeps a window closed that is within the retention. -/
theorem Closed.next (closed : agg.Closed key) (within : agg.WithinRetention key)
    (op : BillingOp) : (agg.next op).Closed key := by
  cases op with
  | reading now r =>
    refine ⟨closed.keyed.next _, isSettled_handleReading.mpr closed.settled, ?_⟩
    show (agg.handleReading now r).1.activeBins.lookup key = none
    by_cases late : agg.IsSettled r.key
    · rw [handleReading_late late]
      exact closed.absent
    · rw [lookup_handleReading_accepted late, if_neg]
      · exact closed.absent
      · rintro rfl
        exact late closed.settled
  | sweep now grace =>
    refine ⟨closed.keyed.next _, isSettled_removeBins within (.inl closed.settled), ?_⟩
    show (agg.removeBins _).activeBins.lookup key = none
    rw [lookup_removeBins, closed.absent, ite_self]

theorem Closed.after (closed : agg.Closed key) {ops : List BillingOp}
    (within : ∀ before, before <+: ops → (agg.after before).WithinRetention key) :
    (agg.after ops).Closed key := by
  induction ops generalizing agg with
  | nil => exact closed
  | cons op ops ih =>
    refine ih (closed.next (within [] List.nil_prefix) op) ?_
    intro before initial
    exact within (op :: before) ((List.cons_prefix_cons).mpr ⟨rfl, initial⟩)

/-- Nothing is accumulated for a closed window and no sweep takes it. -/
theorem Closed.nothing (closed : agg.Closed key) :
    (∀ now r, r.key = key → (agg.handleReading now r).2 = none) ∧
      ∀ op, ∀ bin ∈ agg.swept op, bin.key ≠ key := by
  constructor
  · rintro now r rfl
    exact handleReading_eq_none.mpr closed.settled
  · rintro op bin taken rfl
    cases op with
    | reading now r => cases taken
    | sweep now grace =>
      have found := closed.keyed.mem_bins.mp (List.mem_of_mem_filter taken)
      rw [closed.absent] at found
      cases found

/-- Once a sweep has taken the bin of a window, then as long as the window is within a day of the
watermark of its meter, every reading of the window is dropped and no sweep takes a bin of it again.
A window further behind than that may be opened again. -/
theorem settled_window_stays_settled (restored : List BillingBin) (before : List BillingOp)
    (op : BillingOp) (bin : BillingBin)
    (taken : bin ∈ ((new.restoreBins restored).after before).swept op) (later : List BillingOp)
    (within : ∀ sofar, sofar <+: later →
      ((new.restoreBins restored).after (before ++ op :: sofar)).WithinRetention bin.key) :
    (∀ now r, r.key = bin.key →
      (((new.restoreBins restored).after (before ++ op :: later)).handleReading now r).2 = none) ∧
    ∀ again, ∀ other ∈ ((new.restoreBins restored).after (before ++ op :: later)).swept again,
      other.key ≠ bin.key := by
  have split : ∀ ops, (new.restoreBins restored).after (before ++ op :: ops) =
      (((new.restoreBins restored).after before).next op).after ops := by
    intro ops
    exact List.foldl_append
  have keyed := (Keyed.restoreBins restored).after before
  have closed := closed_of_swept keyed taken (by
    have now := within [] List.nil_prefix
    rw [split] at now
    exact now)
  rw [split]
  apply Closed.nothing
  apply closed.after
  intro sofar initial
  rw [← split]
  exact within sofar initial

/-- A window is swept and its meter goes on to the next one; a straggler is then dropped. -/
theorem straggler_of_swept_window_dropped :
    let r : BillingReading := ⟨1, 2, "M1", 3, 1, .ofSecs 900, none, none, none⟩
    let later : BillingReading := { r with timestamp := .ofSecs 2000 }
    (((new.restoreBins []).after [.reading (.ofSecs 900) r, .sweep (.ofSecs 2000) 100,
      .reading (.ofSecs 2001) later]).handleReading (.ofSecs 2002) r).2 = none := by
  intro r later
  let bin := accumulate (emptyBin r) r
  refine (settled_window_stays_settled [] [.reading (.ofSecs 900) r] (.sweep (.ofSecs 2000) 100)
    bin (by decide +kernel) [.reading (.ofSecs 2001) later] ?_).1 (.ofSecs 2002) r rfl
  intro sofar initial p found
  have seen : p.watermark ∈ [DateTime.ofSecs 900, DateTime.ofSecs 2000] := by
    rcases List.prefix_cons_iff.mp initial with rfl | ⟨rest, rfl, ends⟩
    · cases found
      decide
    · cases List.prefix_nil.mp ends
      cases found
      decide
  rcases List.mem_pair.mp seen with first | second
  · rw [first]
    decide +kernel
  · rw [second]
    decide +kernel

end Aggregator

end AggregatorBridge
