import AggregatorBridge.Models

/-!
# The DLMS/COSEM stack

`DlmsStack` turns the JSON object of a meter into a `DeviceReading`: `map_payload` walks the
members of a `HashMap` once, in whatever order the map yields them, collecting the billed
registers and the metadata, and `handle_message` adds the time and the zone. The object is a
list of members here and the walk goes through that list, so a theorem over every list is a
theorem over every iteration order.

Each arm of the walk writes registers, metadata, or both, and no arm reads what another one
wrote; the two effects are therefore two functions, `registerArm` and `metadataArm`.
-/

namespace AggregatorBridge

/-! ## OBIS codes -/

namespace Obis

def elecActiveImportTotal : String := "1.1.1.8.0.255"

def elecActiveExportTotal : String := "1.1.2.8.0.255"

def elecActiveImportRate1 : String := "1.1.1.8.1.255"

def elecActiveImportRate2 : String := "1.1.1.8.2.255"

def elecActiveExportRate1 : String := "1.1.2.8.1.255"

def elecActiveExportRate2 : String := "1.1.2.8.2.255"

def elecMaxDemandImport : String := "1.1.1.6.0.255"

def elecSumActivePower : String := "1.1.16.7.0.255"

def elecReactiveImportTotal : String := "1.1.3.8.0.255"

def elecReactiveExportTotal : String := "1.1.4.8.0.255"

def elecVoltageL1 : String := "1.1.32.7.0.255"

def elecVoltageL2 : String := "1.1.52.7.0.255"

def elecVoltageL3 : String := "1.1.72.7.0.255"

def elecCurrentL1 : String := "1.1.31.7.0.255"

def elecCurrentL2 : String := "1.1.51.7.0.255"

def elecCurrentL3 : String := "1.1.71.7.0.255"

def elecTotalActivePower : String := "1.1.1.7.0.255"

def elecFrequency : String := "1.1.14.7.0.255"

def elecPowerFactor : String := "1.1.13.7.0.255"

def gasVolumeTotal : String := "7.0.11.0.0.255"

def waterVolumeTotal : String := "8.0.11.0.0.255"

def drStatus : String := "0.0.96.10.0.255"

def activeTariff : String := "0.0.96.14.0.255"

def batterySoc : String := "0.0.96.130.0.255"

def batteryDispatch : String := "0.0.96.131.0.255"

def evChargePower : String := "0.0.96.132.0.255"

end Obis

namespace DlmsStack

variable {F : Type} [Float64 F]

/-! ## The walk over the payload -/

/-- The registers the walk collects, in the units of the payload. -/
structure Registers (F : Type) where
  generatedWh : F
  consumedWh : F
  plainGeneratedKwh : Option F
  plainConsumedKwh : Option F
  obisGenerated : Bool
  obisConsumed : Bool

def Registers.init : Registers F :=
  ⟨Float64.ofInt 0, Float64.ofInt 0, none, none, false, false⟩

/-- `val.as_f64().unwrap_or(0.0)`. -/
def numberOrZero (val : Json F) : F :=
  val.asF64.getD (Float64.ofInt 0)

/-- What one member does to the registers. Gas and water volumes are written over the same
consumption register as the electricity import. -/
def registerArm (acc : Registers F) (key : String) (val : Json F) : Registers F :=
  if key = Obis.elecActiveImportTotal then
    { acc with consumedWh := numberOrZero val, obisConsumed := true }
  else if key = Obis.elecActiveExportTotal then
    { acc with generatedWh := numberOrZero val, obisGenerated := true }
  else if key = "energy_generated" then { acc with plainGeneratedKwh := val.asF64 }
  else if key = "energy_consumed" then { acc with plainConsumedKwh := val.asF64 }
  else if key = Obis.gasVolumeTotal then { acc with consumedWh := numberOrZero val }
  else if key = Obis.waterVolumeTotal then { acc with consumedWh := numberOrZero val }
  else acc

/-- `Value::from(val.as_f64().unwrap_or(0.0) / 1000.0)`. -/
def scaledToKilo (val : Json F) : Json F :=
  .num (.float (Float64.div (numberOrZero val) (Float64.ofInt 1000)))

/-- The metadata entries one member contributes, in order. -/
def metadataArm (key : String) (val : Json F) : List (String × Json F) :=
  if key = Obis.elecActiveImportTotal then [("obis_active_import", val)]
  else if key = Obis.elecActiveExportTotal then [("obis_active_export", val)]
  else if key = Obis.elecActiveImportRate1 then [("active_import_rate1_kwh", scaledToKilo val)]
  else if key = Obis.elecActiveImportRate2 then [("active_import_rate2_kwh", scaledToKilo val)]
  else if key = Obis.elecActiveExportRate1 then [("active_export_rate1_kwh", scaledToKilo val)]
  else if key = Obis.elecActiveExportRate2 then [("active_export_rate2_kwh", scaledToKilo val)]
  else if key = Obis.elecMaxDemandImport then [("max_demand_import_kw", val)]
  else if key = Obis.elecSumActivePower then [("sum_active_power_kw", val)]
  else if key = Obis.elecReactiveImportTotal then
    [("reactive_energy_import_kvarh", scaledToKilo val)]
  else if key = Obis.elecReactiveExportTotal then
    [("reactive_energy_export_kvarh", scaledToKilo val)]
  else if key = Obis.elecVoltageL1 then [("voltage_l1_v", val), ("voltage_v", val)]
  else if key = Obis.elecVoltageL2 then [("voltage_l2_v", val)]
  else if key = Obis.elecVoltageL3 then [("voltage_l3_v", val)]
  else if key = Obis.elecCurrentL1 then [("current_l1_a", val), ("current_a", val)]
  else if key = Obis.elecCurrentL2 then [("current_l2_a", val)]
  else if key = Obis.elecCurrentL3 then [("current_l3_a", val)]
  else if key = Obis.elecTotalActivePower then [("total_active_power_w", val)]
  else if key = Obis.elecFrequency then [("frequency_hz", val)]
  else if key = Obis.elecPowerFactor then [("power_factor", val)]
  else if key = Obis.gasVolumeTotal then [("utility_type", .str "gas"), ("volume_m3", val)]
  else if key = Obis.waterVolumeTotal then [("utility_type", .str "water"), ("volume_m3", val)]
  else if key = Obis.drStatus then [("demand_response_status", val)]
  else if key = Obis.activeTariff then [("active_tariff", val)]
  else if key = Obis.batterySoc then [("battery_soc_percent", val)]
  else if key = Obis.batteryDispatch then [("battery_dispatch_kw", val)]
  else if key = Obis.evChargePower then [("ev_charging_kw", val)]
  else [(key, val)]

def collectRegisters (members : List (String × Json F)) : Registers F :=
  members.foldl (fun acc m => registerArm acc m.1 m.2) Registers.init

def collectMetadata (members : List (String × Json F)) : List (String × Json F) :=
  (members.flatMap fun m => metadataArm m.1 m.2).foldl
    (fun acc e => Json.insertMember acc e.1 e.2) []

/-- The plain keys fill a register only where its OBIS code was absent. -/
def resolveWh (wh : F) (obis : Bool) (plainKwh : Option F) : F :=
  if obis then wh
  else
    match plainKwh with
    | some kwh => Float64.mul kwh (Float64.ofInt 1000)
    | none => wh

/-- `map_payload`: generated and consumed kilowatt-hours and the metadata. -/
def mapPayload (members : List (String × Json F)) : F × F × List (String × Json F) :=
  let regs := collectRegisters members
  let generatedWh := resolveWh regs.generatedWh regs.obisGenerated regs.plainGeneratedKwh
  let consumedWh := resolveWh regs.consumedWh regs.obisConsumed regs.plainConsumedKwh
  (Float64.div generatedWh (Float64.ofInt 1000), Float64.div consumedWh (Float64.ofInt 1000),
    collectMetadata members)

/-! ## The message -/

/-- `chrono::DateTime::parse_from_rfc3339`, converted to UTC. The empty text is no date. -/
structure Rfc3339 where
  parse : String → Option DateTime
  parse_empty : parse "" = none

/-- `zone_code`: a string, or a bare number printed. -/
def zoneCode (payload : Json F) : Option String :=
  (payload.get "zone_code").bind fun v =>
    match v.asStr with
    | some s => some s
    | none => v.asU64.map toString

/-- The time a payload carries, if it carries one that parses. -/
def payloadTime (rfc3339 : Rfc3339) (payload : Json F) : Option DateTime :=
  ((payload.get "timestamp").bind Json.asStr).bind rfc3339.parse

/-- `handle_message` of a payload, which the caller serialized and the stack parses back.
Only an object is telemetry; a payload without a usable time is dated at its arrival. -/
def handleMessage (rfc3339 : Rfc3339) (now : DateTime) (newV4 : Uuid) (deviceId : String)
    (payload : Json F) : Except String (DeviceReading F) :=
  match payload with
  | .obj members =>
    let (generated, consumed, metadata) := mapPayload members
    let metadata := Json.insertMember metadata "protocol_standard" (.str "IEC 62056 (DLMS/COSEM)")
    let metadata := Json.insertMember metadata "cosem_modeling" (.str "active_attribute_proxy")
    .ok
      { readingId := newV4
        deviceId := deviceId
        deviceType := .smartMeter
        serialNumber := deviceId
        zoneCode := zoneCode payload
        timestamp := (payloadTime rfc3339 payload).getD now
        metrics := .energy generated consumed (Float64.sub generated consumed)
        metadata := metadata }
  | _ => .error "Failed to parse dynamic DLMS telemetry data"

end DlmsStack

end AggregatorBridge
