import AggregatorBridge.Lib.Batching
import AggregatorBridge.MeterRegistry
import AggregatorBridge.PgReadings
import AggregatorBridge.StreamEnvelope

/-!
# The sinks of a reading

A disseminated reading is mirrored to InfluxDB as a point and to `meter_readings` as a row. Each
sink is a bounded queue and a writer that batches, and neither holds up dissemination.

The rows of a batch are attributed in the `INSERT` itself: it joins each canonical serial with its
owner, and a row whose serial has no owner, or whose owner has no wallet, is not stored. How many
were not is counted from the number of rows the statement reports. A batch whose statement fails is
logged and gone. The tables of owners belong to others and change at any time.

`PgReadings` has the rows without their measurements; `FullRow` has all columns.
-/

namespace AggregatorBridge

open Remote Batching

/-- What is done with the sign of a double. -/
class SignedFloat64 (F : Type) where
  neg : F → F
  max : F → F → F

instance : SignedFloat64 ℚ where
  neg := Neg.neg
  max := Max.max

variable {F : Type}

/-! ## Rows -/

/-- A row on its way to the table, with all of its columns. -/
structure FullRow (F : Type) where
  row : ReadingRow
  generatedKwh : F
  consumedKwh : F
  surplusKwh : F
  deficitKwh : F
  voltage : Option F
  powerFactor : Option F
  frequency : Option F

/-- A number of the metadata of a reading. -/
def DeviceReading.metaF64 [Float64 F] (reading : DeviceReading F) (name : String) : Option F :=
  (reading.metadata.lookup name).bind Json.asF64

/-- `reading_to_row`, of the `id`-th reading. -/
def fullRow [Float64 F] [SignedFloat64 F] (id : Nat) (reading : DeviceReading F) :
    Option (FullRow F) :=
  match reading.metrics with
  | .energy generatedKwh consumedKwh netKwh =>
    some
      { row := ⟨id, reading.serialNumber, reading.timestamp.timestampMillis⟩
        generatedKwh := generatedKwh
        consumedKwh := consumedKwh
        surplusKwh := SignedFloat64.max netKwh (Float64.ofInt 0)
        deficitKwh := SignedFloat64.max (SignedFloat64.neg netKwh) (Float64.ofInt 0)
        voltage := reading.metaF64 "voltage_l1_v"
        powerFactor := reading.metaF64 "power_factor"
        frequency := reading.metaF64 "frequency_hz" }
  | _ => none

theorem fullRow_row [Float64 F] [SignedFloat64 F] (id : Nat) (reading : DeviceReading F) :
    (fullRow id reading).map FullRow.row = readingToRow id reading := by
  unfold fullRow readingToRow
  cases reading.metrics <;> rfl

/-- A row of `meter_readings` as it is inserted. `kwh_amount` is the generated energy again, and
`meter_id` is left empty. -/
structure AttributedRow (F : Type) where
  columns : FullRow F
  meterSerial : String
  userId : Uuid
  walletAddress : String
  kwhAmount : F

/-- The owner and the wallet that the join of `insert_batch` finds for a serial. -/
def OwnerDb.attribution (useReadModel : Bool) (db : OwnerDb) (serialNumber : String) :
    Option (Uuid × String) :=
  if useReadModel then do
    let (userId, wallet) ← AList.lookup serialNumber db.readModel
    some (userId, ← wallet)
  else do
    let userId ← (← AList.lookup serialNumber db.meters)
    let wallet ← AList.lookup userId db.users
    some (userId, ← wallet)

/-- How the sink of rows is set up. -/
structure PgSinkConfig where
  serials : UuidCodec
  useReadModel : Bool

/-- One row of the `SELECT`. -/
def FullRow.attributed (cfg : PgSinkConfig) (db : OwnerDb) (row : FullRow F) :
    Option (AttributedRow F) :=
  let meterSerial := canonicalizeSerial cfg.serials row.row.serialNumber
  (db.attribution cfg.useReadModel meterSerial).map fun (userId, wallet) =>
    ⟨row, meterSerial, userId, wallet, row.generatedKwh⟩

/-- What the statement of `insert_batch` inserts. -/
def insertBatch (cfg : PgSinkConfig) (db : OwnerDb) (rows : List (FullRow F)) :
    List (AttributedRow F) :=
  rows.filterMap (FullRow.attributed cfg db)

/-- How many rows of a batch have no owner, as it is told from the count that Postgres returns. -/
def unattributedCount (submitted inserted : Nat) : Nat :=
  submitted - inserted

/-- The database, and what was counted. `missed` are the rows of the batches whose statement was
not executed, or executed without an answer, less those that were stored. -/
structure PgTarget (F : Type) where
  db : OwnerDb
  rows : List (AttributedRow F)
  unattributed : Nat
  missed : List (FullRow F)

namespace PgTarget

/-- An empty table. -/
def init (db : OwnerDb) : PgTarget F :=
  ⟨db, [], 0, []⟩

/-- `flush`: an empty batch is not sent. -/
def flush (cfg : PgSinkConfig) (t : PgTarget F) (batch : List (FullRow F)) (reply : Reply) :
    PgTarget F :=
  if batch.isEmpty then t
  else
    let stored := insertBatch cfg t.db batch
    match reply with
    | .ok =>
      { t with
        rows := t.rows ++ stored
        unattributed := t.unattributed + unattributedCount batch.length stored.length }
    | .lost =>
      { t with
        rows := t.rows ++ stored
        missed := t.missed ++ batch.filter fun row => (row.attributed cfg t.db).isNone }
    | .failed => { t with missed := t.missed ++ batch }

end PgTarget

/-- `CHANNEL_CAPACITY` and `BATCH_SIZE` of both sinks. -/
def sinkBounds : Bounds where
  capacity := 10000
  size := 500
  size_pos := by decide

/-- The Postgres sink. The owners change behind its back. -/
def pgSink (cfg : PgSinkConfig) : Sink (FullRow F) (PgTarget F) Reply OwnerDb where
  bounds := sinkBounds
  deliver := PgTarget.flush cfg
  world t db := some { t with db := db }

/-! ## Points -/

/-- A sample for InfluxDB. -/
structure TelemetryPoint (F : Type) where
  measurement : String
  deviceId : String
  deviceType : String
  serialNumber : String
  zoneCode : Option String
  extraTags : List (String × String)
  fields : List (String × F)
  timestampNs : Int

/-- What is written to InfluxDB. -/
structure DataPoint (F : Type) where
  measurement : String
  tags : List (String × String)
  fields : List (String × F)
  timestampNs : Int

/-- `into_data_point`: a point without fields cannot be built. -/
def TelemetryPoint.intoDataPoint (p : TelemetryPoint F) : Option (DataPoint F) :=
  let tags := [("device_id", p.deviceId), ("device_type", p.deviceType),
    ("serial_number", p.serialNumber)] ++
      (p.zoneCode.map fun zone => ("zone_code", zone)).toList ++ p.extraTags
  if p.fields.isEmpty then none else some ⟨p.measurement, tags, p.fields, p.timestampNs⟩

/-- `timestamp_nanos_opt`: nothing outside of the range of an `i64`. -/
def DateTime.timestampNanosOpt (t : DateTime) : Option Int :=
  let whole := if t.secs < 0 then t.secs + 1 else t.secs
  let part : Int := if t.secs < 0 then t.nanos - 1000000000 else t.nanos
  if MachineInt.IsI64 (whole * 1000000000) then
    if MachineInt.IsI64 (whole * 1000000000 + part) then some (whole * 1000000000 + part)
    else none
  else none

/-- The registers that are promoted from the metadata of an energy reading. -/
def extraFields : List String :=
  ["sum_active_power_kw", "max_demand_import_kw", "active_tariff", "active_import_rate1_kwh",
    "active_import_rate2_kwh", "active_export_rate1_kwh", "active_export_rate2_kwh",
    "reactive_energy_import_kvarh", "reactive_energy_export_kvarh", "voltage_l1_v",
    "frequency_hz", "power_factor", "battery_soc_percent", "battery_dispatch_kw",
    "ev_charging_kw"]

/-- `format!("{:?}", status)`. -/
def EvStatus.debug : EvStatus → String
  | available => "Available"
  | charging => "Charging"
  | suspendedEv => "SuspendedEv"
  | suspendedEvse => "SuspendedEvse"
  | finishing => "Finishing"
  | faulted => "Faulted"

/-- A mode as `{:?}` writes it, which is not how it is spelled in JSON. -/
def BatteryMode.debug : BatteryMode → String
  | idle => "Idle"
  | charging => "Charging"
  | discharging => "Discharging"

/-- The measurement of a reading, its tags and its fields. -/
def DeviceReading.measured [Float64 F] (reading : DeviceReading F) :
    String × List (String × String) × List (String × F) :=
  match reading.metrics with
  | .energy generatedKwh consumedKwh netKwh =>
    ("energy", [],
      [("generated_kwh", generatedKwh), ("consumed_kwh", consumedKwh), ("net_kwh", netKwh)] ++
        extraFields.filterMap fun name => (reading.metaF64 name).map fun v => (name, v))
  | .evSession energyDeliveredKwh sessionId connectorId status =>
    ("ev_session", [("session_id", sessionId), ("status", status.debug)],
      [("energy_delivered_kwh", energyDeliveredKwh), ("connector_id", Float64.ofInt connectorId)])
  | .batteryState socPercent powerKw temperatureC mode =>
    ("battery", [("mode", mode.debug)],
      [("soc_percent", socPercent), ("power_kw", powerKw), ("temperature_c", temperatureC)])

/-- `reading_to_point`. -/
def readingToPoint [Float64 F] (reading : DeviceReading F) : Option (TelemetryPoint F) :=
  reading.timestamp.timestampNanosOpt.map fun timestampNs =>
    let (measurement, extraTags, fields) := reading.measured
    { measurement := measurement
      deviceId := reading.deviceId
      deviceType := reading.deviceType.name
      serialNumber := reading.serialNumber
      zoneCode := reading.zoneCode
      extraTags := extraTags
      fields := fields
      timestampNs := timestampNs }

/-- The bucket, and the points of the batches whose write failed. -/
structure InfluxTarget (F : Type) where
  points : List (DataPoint F)
  missed : List (TelemetryPoint F)

/-- `drain_to_data_points`: a malformed point is skipped. -/
def drainToDataPoints (batch : List (TelemetryPoint F)) : List (DataPoint F) :=
  batch.filterMap TelemetryPoint.intoDataPoint

namespace InfluxTarget

/-- Nothing was written. -/
def init : InfluxTarget F :=
  ⟨[], []⟩

/-- `flush`: nothing is written for a batch without a point. -/
def flush (t : InfluxTarget F) (batch : List (TelemetryPoint F)) (reply : Reply) :
    InfluxTarget F :=
  let points := drainToDataPoints batch
  if points.isEmpty then t
  else
    { points := reply.effect (· ++ points) t.points
      missed := if reply.took then t.missed else t.missed ++ batch }

end InfluxTarget

/-- The writer of points over InfluxDB, which nothing else changes. -/
def influxSink : Sink (TelemetryPoint F) (InfluxTarget F) Reply Empty where
  bounds := sinkBounds
  deliver := InfluxTarget.flush
  world _ e := e.elim

end AggregatorBridge
