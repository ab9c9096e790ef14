import AggregatorBridge.Chrono
import AggregatorBridge.Json

/-!
# The canonical device reading

Every ingest path of the bridge, REST or gRPC, ends in one `DeviceReading`, and everything
behind ingest (zone streams, billing bins, history rows) starts from one. Its energies are
doubles, so the reading is generic in their type as the JSON values are.
-/

namespace AggregatorBridge

/-- The sixteen bytes of `uuid::Uuid`, as one number. -/
abbrev Uuid := BitVec 128

/-- How UUIDs are read, in any of their forms, and written, hyphenated. -/
structure UuidCodec where
  parseStr : String → Option Uuid
  display : Uuid → String

/-- Device classes, each with its own event stream. -/
inductive DeviceType where
  | smartMeter
  | evCharger
  | battery
  deriving DecidableEq, Repr

/-- The stream that the consumers of one kind of device read. -/
def DeviceType.targetStream : DeviceType → String
  | smartMeter => "gridtokenx:events:v1"
  | evCharger => "gridtokenx:ev:v1"
  | battery => "gridtokenx:battery:v1"

/-- What a charger says of its connector. -/
inductive EvStatus where
  | available
  | charging
  | suspendedEv
  | suspendedEvse
  | finishing
  | faulted
  deriving DecidableEq, Repr

/-- What a battery is doing. -/
inductive BatteryMode where
  | idle
  | charging
  | discharging
  deriving DecidableEq, Repr

/-- What a reading measures; only the energy of meters is billed. -/
inductive DeviceMetrics (F : Type) where
  | energy (generatedKwh consumedKwh netKwh : F)
  | evSession (energyDeliveredKwh : F) (sessionId : String) (connectorId : Nat)
      (status : EvStatus)
  | batteryState (socPercent powerKw temperatureC : F) (mode : BatteryMode)

/-- The canonical reading of one device. -/
structure DeviceReading (F : Type) where
  readingId : Uuid
  deviceId : String
  deviceType : DeviceType
  serialNumber : String
  zoneCode : Option String
  timestamp : DateTime
  metrics : DeviceMetrics F
  metadata : List (String × Json F)

namespace DeviceReading

variable {F : Type} [Float64 F]

/-- The generated energy of an energy reading; no other device class generates. -/
def generatedKwh (r : DeviceReading F) : F :=
  match r.metrics with
  | .energy generated _ _ => generated
  | _ => Float64.ofInt 0

/-- Nothing but a meter consumes. -/
def consumedKwh (r : DeviceReading F) : F :=
  match r.metrics with
  | .energy _ consumed _ => consumed
  | _ => Float64.ofInt 0

end DeviceReading

end AggregatorBridge
