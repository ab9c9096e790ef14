import AggregatorBridge.ReadingSinks

/-!
# What becomes of a mirrored reading

Both sinks answer for every item they accept. A row that was flushed is in the table, or it is one
of those that were counted as unattributed, or its batch failed; each is exactly one of these. A
point that was flushed is in the bucket, or its batch failed: points made of readings always have
fields, so none is skipped.

A batch that failed is not tried again, and a record that found the queue full was never accepted;
the law does not speak of those. The rows of an insert have no order of their own in the table
beyond that of the inserts.
-/

namespace AggregatorBridge

open Remote Batching Transition

variable {F : Type}

/-! ## Rows -/

section Rows

variable {cfg : PgSinkConfig} {db : OwnerDb} {batch done : List (FullRow F)} {t : PgTarget F}

theorem columns_insertBatch :
    (insertBatch cfg db batch).map AttributedRow.columns =
      batch.filter fun row => (row.attributed cfg db).isSome := by
  induction batch with
  | nil => rfl
  | cons row batch ih =>
    cases owner : db.attribution cfg.useReadModel
      (canonicalizeSerial cfg.serials row.row.serialNumber) with
    | none =>
      have skipped : row.attributed cfg db = none := by
        simp only [FullRow.attributed, owner, Option.map_none]
      rw [insertBatch, List.filterMap_cons_none skipped,
        List.filter_cons_of_neg (by simp [skipped])]
      exact ih
    | some found =>
      have stored : row.attributed cfg db = some ⟨row,
          canonicalizeSerial cfg.serials row.row.serialNumber, found.1, found.2,
          row.generatedKwh⟩ := by
        simp only [FullRow.attributed, owner, Option.map_some]
      rw [insertBatch, List.filterMap_cons_some stored,
        List.filter_cons_of_pos (by simp [stored])]
      exact congrArg (row :: ·) ih

/-- A batch is what its statement stores and what it leaves out. -/
theorem batch_perm (cfg : PgSinkConfig) (db : OwnerDb) (batch : List (FullRow F)) :
    batch.Perm ((insertBatch cfg db batch).map AttributedRow.columns ++
      batch.filter fun row => (row.attributed cfg db).isNone) := by
  rw [columns_insertBatch]
  have split := List.filter_append_perm (fun row => (row.attributed cfg db).isSome) batch
  simp only [Option.not_isSome] at split
  exact split.symm

/-- The count is that of the rows without an attribution. -/
theorem unattributedCount_insertBatch :
    unattributedCount batch.length (insertBatch cfg db batch).length =
      (batch.filter fun row => (row.attributed cfg db).isNone).length := by
  have length := (batch_perm cfg db batch).length_eq
  rw [List.length_append, List.length_map] at length
  unfold unattributedCount
  omega

/-- What was flushed is what was stored, what was counted and what was missed. -/
structure PgTarget.Accounts (done : List (FullRow F)) (t : PgTarget F) : Prop where
  split : ∃ skipped : List (FullRow F), skipped.length = t.unattributed ∧
    done.Perm (t.rows.map AttributedRow.columns ++ (skipped ++ t.missed))
  order : (t.rows.map AttributedRow.columns).Sublist done

theorem perm_deal {α : Type} {done batch a b c x y z : List α} (old : done.Perm (a ++ (b ++ c)))
    (new : batch.Perm (x ++ (y ++ z))) :
    (done ++ batch).Perm ((a ++ x) ++ ((b ++ y) ++ (c ++ z))) := by
  classical
  rw [List.perm_iff_count] at old new ⊢
  intro k
  have old := old k
  have new := new k
  simp only [List.count_append] at old new ⊢
  omega

theorem PgTarget.Accounts.flush (accounts : t.Accounts done) (cfg : PgSinkConfig)
    (batch : List (FullRow F)) (reply : Reply) : (t.flush cfg batch reply).Accounts (done ++ batch) := by
  obtain ⟨⟨skipped, counted, split⟩, order⟩ := accounts
  have stored : ((insertBatch cfg t.db batch).map AttributedRow.columns).Sublist batch := by
    rw [columns_insertBatch]
    exact List.filter_sublist
  have dealt := batch_perm cfg t.db batch
  unfold PgTarget.flush
  split
  · next empty =>
    cases List.isEmpty_iff.mp empty
    rw [List.append_nil]
    exact ⟨⟨skipped, counted, split⟩, order⟩
  · cases reply with
    | ok =>
      refine ⟨⟨skipped ++ batch.filter fun row => (row.attributed cfg t.db).isNone, ?_, ?_⟩, ?_⟩
      · simp only [List.length_append, counted, unattributedCount_insertBatch]
      · rw [List.map_append]
        have := perm_deal (z := []) split (by simpa using dealt)
        simpa using this
      · rw [List.map_append]
        exact order.append stored
    | lost =>
      refine ⟨⟨skipped, counted, ?_⟩, ?_⟩
      · rw [List.map_append]
        have := perm_deal (y := []) split (by simpa using dealt)
        simpa using this
      · rw [List.map_append]
        exact order.append stored
    | failed =>
      refine ⟨⟨skipped, counted, ?_⟩, order.trans (List.sublist_append_left _ _)⟩
      have := perm_deal (x := []) (y := []) (z := batch) split (List.Perm.refl _)
      simpa using this

/-- Every row the sink accepted is in exactly one place: in the table, among those that were counted
as unattributed, among those whose batch failed, or still in the batch or the queue. The inserts
have them in the order in which they were submitted and batched, a batch stays below its bound, and
a writer that exits leaves nothing behind. -/
theorem rows_conserved {s : State (FullRow F) (PgTarget F)}
    (chain : Steps (pgSink cfg).step Always ⟨Writer.init, PgTarget.init db⟩ s) :
    (∃ skipped : List (FullRow F), skipped.length = s.target.unattributed ∧
        s.writer.accepted.Perm (s.target.rows.map AttributedRow.columns ++
          (skipped ++ (s.target.missed ++ (s.writer.batch ++ s.writer.queue))))) ∧
      (s.target.rows.map AttributedRow.columns).Sublist s.writer.accepted ∧
      s.writer.batch.length < 500 ∧ s.writer.queue.length ≤ 10000 ∧
      (s.writer.exited = true → s.writer.batch = [] ∧ s.writer.queue = []) := by
  have start : (PgTarget.init db : PgTarget F).Accounts [] :=
    ⟨⟨[], rfl, List.Perm.refl _⟩, List.Sublist.refl _⟩
  obtain ⟨kept, ⟨skipped, counted, split⟩, order⟩ :=
    Sink.invariant (P := PgTarget.Accounts)
      (fun s _ reply batch _ accounts => accounts.flush cfg batch reply)
      (by
        rintro s db later accounts ⟨⟩
        exact ⟨accounts.split, accounts.order⟩)
      chain ⟨Writer.kept_init _, start⟩
  refine ⟨⟨skipped, counted, ?_⟩, ?_, kept.batch_lt, kept.queue_le,
    fun exited => (kept.done exited).2⟩
  · rw [kept.order]
    have all := split.append_right (s.writer.batch ++ s.writer.queue)
    simpa only [List.append_assoc] using all
  · rw [kept.order]
    exact order.trans (List.sublist_append_left _ _)

/-- A registered meter, one without a wallet, and one that nobody knows. -/
private def threeOwners : OwnerDb :=
  ⟨AList.insert "a" (some 1) (AList.insert "b" (some 2) ∅),
    AList.insert 1 (some "9xQe") (AList.insert 2 none ∅), ∅⟩

private def plainSerials : PgSinkConfig :=
  ⟨⟨fun _ => none, fun _ => ""⟩, false⟩

private def rowOf (id : Nat) (serial : String) : FullRow ℚ :=
  ⟨⟨id, serial, 900⟩, 1, 0, 1, 0, none, none, none⟩

/-- A batch of three, a batch that fails, one row that waits in the batch and one in the queue. -/
private def mirrored : List (Sink.Event (FullRow ℚ) Reply OwnerDb) :=
  [.writer (.record (rowOf 0 "a")) .ok, .writer (.record (rowOf 1 "b")) .ok,
    .writer (.record (rowOf 2 " c ")) .ok, .writer .receive .ok, .writer .receive .ok,
    .writer .receive .ok, .writer .tick .ok, .writer (.record (rowOf 3 " a ")) .ok,
    .writer .receive .ok, .writer .tick .failed, .writer (.record (rowOf 4 "a")) .ok,
    .writer (.record (rowOf 5 "a")) .ok, .writer .receive .ok]

private theorem mirrored_run :
    (Transition.run (pgSink plainSerials).step Always mirrored
      ⟨Writer.init, PgTarget.init threeOwners⟩).isSome := by
  decide +kernel

private def mirroredState : State (FullRow ℚ) (PgTarget ℚ) :=
  (Transition.run (pgSink plainSerials).step Always mirrored
    ⟨Writer.init, PgTarget.init threeOwners⟩).get mirrored_run

/-- One row is stored, two are counted, one is missed, and two wait. -/
theorem mirrored_conserved :
    (∃ skipped : List (FullRow ℚ), skipped.length = 2 ∧
        mirroredState.writer.accepted.Perm (mirroredState.target.rows.map AttributedRow.columns ++
          (skipped ++ (mirroredState.target.missed ++
            (mirroredState.writer.batch ++ mirroredState.writer.queue))))) ∧
      mirroredState.target.rows.length = 1 ∧ mirroredState.target.missed.length = 1 ∧
      mirroredState.writer.batch.length = 1 ∧ mirroredState.writer.queue.length = 1 := by
  obtain ⟨skipped, counted, split⟩ := (rows_conserved (Steps.of_run_get mirrored_run)).1
  refine ⟨⟨skipped, ?_, split⟩, ?_⟩
  · rw [counted]
    decide +kernel
  · decide +kernel

end Rows

/-! ## Points -/

section Points

variable {batch done : List (TelemetryPoint F)} {t : InfluxTarget F}

/-- A point made of a reading can be built. -/
theorem intoDataPoint_of_reading [Float64 F] {reading : DeviceReading F} {p : TelemetryPoint F}
    (made : readingToPoint reading = some p) : p.intoDataPoint.isSome := by
  obtain ⟨timestampNs, _, rfl⟩ := Option.map_eq_some_iff.mp made
  unfold TelemetryPoint.intoDataPoint DeviceReading.measured
  cases reading.metrics <;> rfl

/-- What was flushed is what was written and what was missed. -/
def InfluxTarget.Accounts (done : List (TelemetryPoint F)) (t : InfluxTarget F) : Prop :=
  ∃ kept : List (TelemetryPoint F), kept.Sublist done ∧
    t.points = kept.filterMap TelemetryPoint.intoDataPoint ∧
    ((∀ p ∈ done, p.intoDataPoint.isSome) → done.Perm (kept ++ t.missed))

theorem InfluxTarget.Accounts.flush (accounts : t.Accounts done) (batch : List (TelemetryPoint F))
    (reply : Reply) : (t.flush batch reply).Accounts (done ++ batch) := by
  obtain ⟨kept, order, points, split⟩ := accounts
  have old (all : ∀ p ∈ done ++ batch, p.intoDataPoint.isSome) : done.Perm (kept ++ t.missed) :=
    split fun p mem => all p (List.mem_append_left _ mem)
  unfold InfluxTarget.flush
  simp only
  split
  · next empty =>
    refine ⟨kept, order.trans (List.sublist_append_left _ _), points, fun all => ?_⟩
    -- a batch that can be built and yields nothing is empty
    have none_built := List.filterMap_eq_nil_iff.mp (List.isEmpty_iff.mp empty)
    have nothing : batch = [] := by
      refine List.eq_nil_iff_forall_not_mem.mpr fun p mem => ?_
      have built := all p (List.mem_append_right _ mem)
      rw [none_built p mem] at built
      cases built
    subst nothing
    rw [List.append_nil]
    exact old all
  · unfold Reply.effect drainToDataPoints
    by_cases took : reply.took = true
    · simp only [if_pos took]
      refine ⟨kept ++ batch, order.append (List.Sublist.refl _), ?_, fun all => ?_⟩
      · rw [points, List.filterMap_append]
      · have dealt := perm_deal (b := []) (y := []) (z := []) (by simpa using old all)
          (show batch.Perm (batch ++ ([] ++ [])) by simp)
        simpa using dealt
    · simp only [if_neg took]
      refine ⟨kept, order.trans (List.sublist_append_left _ _), points, fun all => ?_⟩
      have dealt := (old all).append_right batch
      simpa only [List.append_assoc] using dealt

theorem map_some_filterMap {α β : Type} {f : α → Option β} {l : List α}
    (all : ∀ a ∈ l, (f a).isSome) : (l.filterMap f).map some = l.map f := by
  induction l with
  | nil => rfl
  | cons a l ih =>
    obtain ⟨b, made⟩ := Option.isSome_iff_exists.mp (all a List.mem_cons_self)
    rw [List.filterMap_cons_some made, List.map_cons, List.map_cons, made,
      ih fun a mem => all a (List.mem_cons_of_mem _ mem)]

/-- Every point the sink accepted of a reading is written in the order it came, or its batch
failed, or it is still in the batch or the queue; none is skipped. -/
theorem points_conserved [Float64 F] {s : State (TelemetryPoint F) (InfluxTarget F)}
    (chain : Steps influxSink.step Always ⟨Writer.init, InfluxTarget.init⟩ s)
    (readings : ∀ p ∈ s.writer.accepted, ∃ reading, readingToPoint reading = some p) :
    (∃ kept : List (TelemetryPoint F), kept.Sublist s.writer.accepted ∧
        kept.map TelemetryPoint.intoDataPoint = s.target.points.map some ∧
        s.writer.accepted.Perm
          (kept ++ (s.target.missed ++ (s.writer.batch ++ s.writer.queue)))) ∧
      s.writer.batch.length < 500 ∧ s.writer.queue.length ≤ 10000 ∧
      (s.writer.exited = true → s.writer.batch = [] ∧ s.writer.queue = []) := by
  have start : (InfluxTarget.init : InfluxTarget F).Accounts [] :=
    ⟨[], List.Sublist.refl _, rfl, fun _ => List.Perm.refl _⟩
  obtain ⟨kept, written, order, points, split⟩ :=
    Sink.invariant (P := InfluxTarget.Accounts)
      (fun s _ reply batch _ accounts => accounts.flush batch reply)
      (fun _ e => e.elim) chain ⟨Writer.kept_init _, start⟩
  have built : ∀ p ∈ s.writer.accepted, p.intoDataPoint.isSome := by
    intro p mem
    obtain ⟨reading, made⟩ := readings p mem
    exact intoDataPoint_of_reading made
  have within : written.Sublist s.writer.accepted := by
    rw [kept.order]
    exact order.trans (List.sublist_append_left _ _)
  refine ⟨⟨written, within, ?_, ?_⟩, kept.batch_lt, kept.queue_le,
    fun exited => (kept.done exited).2⟩
  · rw [points, map_some_filterMap fun p mem => built p (within.subset mem)]
  · have all := (split ?_).append_right (s.writer.batch ++ s.writer.queue)
    · rw [kept.order]
      simpa only [List.append_assoc] using all
    · intro p mem
      exact built p (kept.order ▸ List.mem_append_left _ mem)

private def batteryReading : DeviceReading ℚ :=
  ⟨1, "dev", .battery, "b", some "ZONE3", DateTime.ofSecs 900, .batteryState 80 (-2) 25 .discharging,
    []⟩

/-- A point that is written at the tick, and one whose write fails when the writer exits. -/
private def sampled : Option (List (Sink.Event (TelemetryPoint ℚ) Reply Empty)) :=
  (readingToPoint batteryReading).map fun p =>
    [.writer (.record p) .ok, .writer .receive .ok, .writer .tick .lost, .writer (.record p) .ok,
      .writer .close .ok, .writer .receive .ok, .writer .finish .failed]

private theorem sampled_run :
    (Transition.run influxSink.step Always (sampled.getD [])
      ⟨Writer.init, InfluxTarget.init⟩).isSome := by
  decide +kernel

private def sampledState : State (TelemetryPoint ℚ) (InfluxTarget ℚ) :=
  (Transition.run influxSink.step Always (sampled.getD []) ⟨Writer.init, InfluxTarget.init⟩).get
    sampled_run

/-- The writer has exited, and each point is accounted for. -/
theorem sampled_conserved :
    ∃ kept : List (TelemetryPoint ℚ), sampledState.writer.accepted.Perm
        (kept ++ sampledState.target.missed) ∧ sampledState.target.missed.length = 1 := by
  have exited : sampledState.writer.exited = true := by decide +kernel
  have readings : ∀ p ∈ sampledState.writer.accepted, ∃ reading, readingToPoint reading = some p := by
    have all : sampledState.writer.accepted =
        (readingToPoint batteryReading).toList ++ (readingToPoint batteryReading).toList := rfl
    intro p mem
    rw [all, List.mem_append, or_self] at mem
    exact ⟨batteryReading, Option.mem_toList.mp mem⟩
  obtain ⟨⟨kept, _, _, dealt⟩, _, _, nothing⟩ :=
    points_conserved (Steps.of_run_get sampled_run) readings
  have split : sampledState.writer.accepted.Perm (kept ++ (sampledState.target.missed ++
    (sampledState.writer.batch ++ sampledState.writer.queue))) := dealt
  obtain ⟨batch, queue⟩ := nothing exited
  rw [show sampledState.writer.batch = [] from batch, show sampledState.writer.queue = [] from queue,
    List.append_nil, List.append_nil] at split
  exact ⟨kept, split, by decide +kernel⟩

end Points

end AggregatorBridge
