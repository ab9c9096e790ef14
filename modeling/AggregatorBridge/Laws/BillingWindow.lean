import AggregatorBridge.PgReadings
import AggregatorBridge.UuidText

/-!
# One window for the bin and for its rows

Billing cuts an instant down to the quarter of the hour by its calendar fields. The table keeps
the instant in milliseconds, and a write-back selects rows by a half-open range of a quarter of an
hour from the window's start. The two agree on every instant that is a point of Unix time,
before the epoch too.

A leap second is no such point. By its fields it belongs to the minute it ends, and so does its
bin; in milliseconds it is the second after. At the end of a window that second is in the next
one (`agreedWindow_iff`).

The law is about one reading and one window. It does not say that a row is inserted, or that the
mint of its window is ever written back.
-/

namespace AggregatorBridge

open DateTime

/-- The instant `hh:mm:60` of a minute of Unix time. -/
def DateTime.leapSecond (minutes : Int) : DateTime :=
  ⟨minutes * 60 + 59, 1000000000, by omega, by omega⟩

/-- A number of milliseconds at which some window starts. -/
def IsWindowStartMs (w : Int) : Prop :=
  ∃ time, (windowStart time).timestampMillis = w

/-- The starts of windows are the multiples of a quarter of an hour. -/
theorem isWindowStartMs_iff {w : Int} : IsWindowStartMs w ↔ w % 900000 = 0 := by
  constructor
  · rintro ⟨time, rfl⟩
    rw [windowStart_eq, timestampMillis_ofSecs]
    omega
  · intro aligned
    refine ⟨ofSecs (w / 1000), ?_⟩
    rw [windowStart_eq, timestampMillis_ofSecs, ofSecs_secs]
    omega

/-! ## The window of an instant -/

/-- The window is a quarter of an hour of Unix time, it starts where it starts, and the instant
lies in it. -/
structure CutToQuarter (time : DateTime) : Prop where
  whole : (windowStart time).nanos = 0
  aligned : (windowStart time).secs % 900 = 0
  idempotent : windowStart (windowStart time) = windowStart time
  started : windowStart time ≤ time
  not_over : ¬ (windowStart time).addSecs (windowMinutes * 60) ≤ time

theorem cutToQuarter (time : DateTime) : CutToQuarter time where
  whole := windowStart_nanos time
  aligned := by
    rw [windowStart_eq, ofSecs_secs]
    omega
  idempotent := by
    rw [windowStart_eq, windowStart_eq, ofSecs_secs]
    congr 1
    omega
  started := by
    rw [windowStart_eq]
    show (ofSecs _).secs < time.secs ∨ (ofSecs _).secs = time.secs ∧ (ofSecs _).nanos ≤ time.nanos
    rw [ofSecs_secs, ofSecs_nanos]
    omega
  not_over := by
    intro over_
    rw [windowStart_eq] at over_
    have ended : time.secs - time.secs % 900 + windowMinutes * 60 < time.secs ∨
        time.secs - time.secs % 900 + windowMinutes * 60 = time.secs ∧ 0 ≤ time.nanos := over_
    unfold windowMinutes at ended
    omega

/-! ## The rows of a window -/

section Rows

variable {F : Type} [Float64 F] {codec : UuidCodec} {decimals : DecimalCodec F}
  {newV5 : String → Uuid} {userId : Uuid} {id : Nat} {reading : DeviceReading F} {row : ReadingRow}

/-- The window of the bin that the ingester puts a reading in. -/
def binnedAtMs (decimals : DecimalCodec F) (newV5 : String → Uuid) (userId : Uuid)
    (reading : DeviceReading F) : Int :=
  (Aggregator.emptyBin (.ofDevice decimals newV5 userId reading)).windowStartMs

/-- The calendar fields of an instant come to the same as its seconds since the epoch. -/
theorem binnedAtMs_eq : binnedAtMs decimals newV5 userId reading =
    (reading.timestamp.secs - reading.timestamp.secs % 900) * 1000 := by
  change (windowStart reading.timestamp).timestampMillis = _
  rw [windowStart_eq, timestampMillis_ofSecs]

/-- The row of a reading, as it is inserted, is selected for a window by the confirmation of a
mint, and by the end of a bin without a surplus, exactly if the reading is binned there. -/
structure AgreedWindow (codec : UuidCodec) (decimals : DecimalCodec F) (newV5 : String → Uuid)
    (userId : Uuid) (reading : DeviceReading F) (row : ReadingRow) : Prop where
  cut : CutToQuarter reading.timestamp
  minted : ∀ w, IsWindowStartMs w →
    ((row.stored codec).selected codec reading.serialNumber w = true ↔
      binnedAtMs decimals newV5 userId reading = w)
  noSurplus : ∀ w, IsWindowStartMs w →
    ((row.tableRow codec).selected codec reading.serialNumber w = true ↔
      binnedAtMs decimals newV5 userId reading = w)

omit [Float64 F] in
/-- Both write-backs select a fresh row by its time alone. -/
theorem selected_fresh (codec : UuidCodec) (mirrored : readingToRow id reading = some row) (w : Int) :
    ((row.stored codec).selected codec reading.serialNumber w = true ↔
      w ≤ reading.timestamp.timestampMillis ∧
        reading.timestamp.timestampMillis < w + windowMs) ∧
    (row.tableRow codec).selected codec reading.serialNumber w =
      (row.stored codec).selected codec reading.serialNumber w := by
  unfold readingToRow at mirrored
  split at mirrored
  · cases mirrored
    constructor
    · simp [StoredRow.selected, StoredRow.within, ReadingRow.stored]
    · simp [TableRow.selected, ReadingRow.tableRow]
  · cases mirrored

/-- The range that holds the row's time is the bin's window, but for a leap second that ends it. -/
theorem range_iff_binned (time : DateTime) :
    (∀ w, IsWindowStartMs w →
      ((w ≤ time.timestampMillis ∧ time.timestampMillis < w + windowMs) ↔
        (time.secs - time.secs % 900) * 1000 = w)) ↔
      ¬ (1000000000 ≤ time.nanos ∧ time.secs % 900 = 899) := by
  have bound := time.nanos_lt
  have minuteEnds := time.leap
  simp only [isWindowStartMs_iff, timestampMillis, windowMs]
  constructor
  · rintro agreed ⟨inLeap, last⟩
    have next := agreed ((time.secs + 1) * 1000) (by omega)
    omega
  · intro inside w aligned
    omega

/-- Bin and row have one window unless the reading is dated within a leap second that ends a window;
by the clock that second is the window before, in milliseconds the one after. -/
theorem agreedWindow_iff (mirrored : readingToRow id reading = some row) :
    AgreedWindow codec decimals newV5 userId reading row ↔
      ¬ (1000000000 ≤ reading.timestamp.nanos ∧ reading.timestamp.secs % 900 = 899) := by
  rw [← range_iff_binned]
  constructor
  · intro agreed w aligned
    rw [← (selected_fresh codec mirrored w).1, agreed.minted w aligned, binnedAtMs_eq]
  · intro inRange
    have selects : ∀ w, IsWindowStartMs w →
        ((row.stored codec).selected codec reading.serialNumber w = true ↔
          binnedAtMs decimals newV5 userId reading = w) := by
      intro w aligned
      rw [(selected_fresh codec mirrored w).1, inRange w aligned, binnedAtMs_eq]
    refine ⟨cutToQuarter _, selects, ?_⟩
    intro w aligned
    rw [(selected_fresh codec mirrored w).2, selects w aligned]

end Rows

/-- A reading at `10:14:30`, as REST and gRPC read it. -/
private def inQuarter : DeviceReading ℚ :=
  generatedAt 36870 5

/-- The same reading at `10:14:60`. -/
private def endOfQuarter : DeviceReading ℚ :=
  { inQuarter with timestamp := leapSecond 614 }

theorem agreedWindow_quarter_past :
    AgreedWindow rustUuid exactCodec (fun _ => 1) 7 inQuarter
      ⟨0, inQuarter.serialNumber, 36870000⟩ :=
  (agreedWindow_iff rfl).mpr (by decide)

/-- A leap second at the end of a window is binned in the window and stored in the next. -/
theorem leap_second_leaves_its_window :
    readingToRow 0 endOfQuarter = some ⟨0, endOfQuarter.serialNumber, 36900000⟩ ∧
    binnedAtMs exactCodec (fun _ => 1) 7 endOfQuarter = 36000000 ∧
    ¬ AgreedWindow rustUuid exactCodec (fun _ => 1) 7 endOfQuarter
      ⟨0, endOfQuarter.serialNumber, 36900000⟩ := by
  refine ⟨rfl, by decide, ?_⟩
  intro agreed
  have selected := (agreed.minted 36900000 ⟨ofSecs 36900, by decide⟩).mp (by decide)
  exact absurd selected (by decide)

end AggregatorBridge
