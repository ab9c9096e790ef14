import AggregatorBridge.CheckedBilling
import AggregatorBridge.Laws.SettlementRuns
import AggregatorBridge.ZoneIngester

/-!
# What can crash billing

`to_positive_decimal` turns away what is not finite, what is negative and what no `Decimal` can
hold, and `timestamp_opt` turns away what is outside the calendar. Everything else is admitted,
up to the largest decimal and the ends of the calendar, and the aggregator then adds to it: a
total to a total, a quarter of an hour and the grace period to an instant, and a day back.

`Within` is what those additions need of the aggregator they find, and a run of admitted
readings and sweeps is free of panics exactly if every operation finds it. It need not:
two readings that a decimal can hold have a sum it cannot.

The law does not say what a panic leaves behind: the task that panics goes with its lock, and what
it has done to the aggregator by then stays.
-/

namespace AggregatorBridge

open Checked

variable {F : Type} [Float64 F]

/-- The reading came through ingest: some device sent it, with an instant of the calendar. -/
def BillingOp.Admitted (codec : DecimalCodec F) (newV5 : String → Uuid) : BillingOp → Prop
  | .reading _ r => ∃ (userId : Uuid) (reading : DeviceReading F),
      reading.timestamp.InCalendar ∧ r = .ofDevice codec newV5 userId reading
  | .sweep _ _ => True

theorem BillingOp.Admitted.timed {codec : DecimalCodec F} {newV5 : String → Uuid}
    {op : BillingOp} (admitted : op.Admitted codec newV5) : op.Timed := by
  cases op with
  | reading now r =>
    obtain ⟨userId, reading, inCalendar, rfl⟩ := admitted
    exact inCalendar
  | sweep now grace => trivial

/-- A run of admitted readings and sweeps does not panic exactly if every operation finds the
aggregator within its bounds. The bounds are those of a decimal and of the calendar, and each is a
condition on what the operation adds. -/
theorem billing_survives_iff (codec : DecimalCodec F) (newV5 : String → Uuid) (agg : Aggregator)
    {ops : List BillingOp} (admitted : ∀ op ∈ ops, op.Admitted codec newV5) :
    (agg.checkedAfter ops).Returns ↔
      ∀ before op later, ops = before ++ op :: later →
        ∀ found, agg.checkedAfter before = ok found → found.Within op :=
  Aggregator.returns_checkedAfter fun op mem => (admitted op mem).timed

/-- Sixty octillion kilowatt hours at a time, which a decimal holds. -/
private def hugeReading (secs : Int) : BillingOp :=
  .reading (DateTime.ofSecs 300) (.ofDevice exactCodec World.oneMeter.newV5 7
    (generatedAt secs 60000000000000000000000000000))

private theorem hugeReading_admitted {secs : Int} (inCalendar : (DateTime.ofSecs secs).InCalendar) :
    (hugeReading secs).Admitted exactCodec World.oneMeter.newV5 :=
  ⟨7, generatedAt secs 60000000000000000000000000000, inCalendar, rfl⟩

/-- Two admitted readings of one window are enough. -/
theorem two_readings_crash_billing :
    ¬ ∀ ops : List BillingOp, (∀ op ∈ ops, op.Admitted exactCodec World.oneMeter.newV5) →
      (Aggregator.new.checkedAfter ops).Returns := by
  intro law
  have returned := law [hugeReading 0, hugeReading 60] (by
    intro op mem
    rcases List.mem_pair.mp mem with rfl | rfl
    · exact hugeReading_admitted (by decide)
    · exact hugeReading_admitted (by decide))
  exact absurd returned (by decide +kernel)

private def smallReading (secs : Int) : BillingOp :=
  .reading (DateTime.ofSecs 300) (.ofDevice exactCodec World.oneMeter.newV5 7
    (generatedAt secs (5 / 2)))

private def smallRun : List BillingOp :=
  [smallReading 0, smallReading 1000, .sweep (DateTime.ofSecs 1200) 60]

private theorem smallRun_admitted :
    ∀ op ∈ smallRun, op.Admitted exactCodec World.oneMeter.newV5 := by
  intro op mem
  simp only [smallRun, List.mem_cons, List.not_mem_nil, or_false] at mem
  rcases mem with rfl | rfl | rfl
  · exact ⟨7, generatedAt 0 (5 / 2), by decide, rfl⟩
  · exact ⟨7, generatedAt 1000 (5 / 2), by decide, rfl⟩
  · trivial

/-- A sweep after two readings of what people produce. -/
theorem small_readings_within :
    ∃ found, Aggregator.new.checkedAfter [smallReading 0, smallReading 1000] = ok found ∧
      found.Within (.sweep (DateTime.ofSecs 1200) 60) := by
  have returned : (Aggregator.new.checkedAfter smallRun).Returns := by decide +kernel
  have within := (billing_survives_iff exactCodec World.oneMeter.newV5 Aggregator.new
    smallRun_admitted).mp returned
  have first : (Aggregator.new.checkedAfter [smallReading 0, smallReading 1000]).Returns := by
    decide +kernel
  obtain ⟨found, reached⟩ := exists_ok first
  exact ⟨found, reached, within [smallReading 0, smallReading 1000] _ [] rfl found reached⟩

end AggregatorBridge
