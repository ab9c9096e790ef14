import AggregatorBridge.BinStore
import AggregatorBridge.MintOutbox
import AggregatorBridge.Serde

/-!
# Stored bins and mints

A bin and a pending mint are stored as one JSON object each, in the fields of a Redis hash. Derived
code writes and reads them. A decimal is written as a double, and read from whatever the document has
in its place. The time-of-use split, the demand and the zone of a bin came later than the rest, and
are read as nothing where they are missing.

`load_all` of either store drops what does not parse (`parse_redis_hash`).
-/

namespace AggregatorBridge

open Json Remote

variable {F : Type}

/-- Decimals and doubles, as `serde` writes and reads them. -/
structure NumberSerde (F : Type) where
  /-- `Decimal::to_f64`, which is what the feature `serde-float` writes. -/
  toF64 : ℚ → F
  /-- `Decimal::deserialize`. -/
  decimalOf : Json F → Option ℚ
  /-- A double that is a rational number. -/
  double : ℚ → F
  value : F → ℚ

namespace NumberSerde

variable (numbers : NumberSerde F)

/-- Decimals are written as doubles, so not every one survives. -/
def decimal (d : ℚ) : Json F :=
  num (.float (numbers.toF64 d))

/-- What a decimal is after it was written and read. -/
def reread (d : ℚ) : Option ℚ :=
  numbers.decimalOf (numbers.decimal d)

/-- A decimal that may be absent. -/
def decimalOr : Option (Json F) → Option ℚ
  | none => some 0
  | some v => numbers.decimalOf v

end NumberSerde

/-! ## Bins -/

namespace BillingBin

variable (json : SerdeJson F) (numbers : NumberSerde F)

/-- A zone as `Option<u32>` is written. -/
def zoneJson : Option Nat → Json F
  | some zone => num (.posInt zone)
  | none => null

/-- The members of a bin, as they are written. -/
def members (bin : BillingBin) : List (String × Json F) :=
  [("meter_id", str (json.uuid.display bin.meterId)),
    ("user_id", str (json.uuid.display bin.userId)), ("meter_serial", str bin.meterSerial),
    ("start_time", str (json.displayTime bin.startTime)),
    ("end_time", str (json.displayTime bin.endTime)),
    ("energy_generated", numbers.decimal bin.energyGenerated),
    ("energy_consumed", numbers.decimal bin.energyConsumed),
    ("reading_count", num (.posInt bin.readingCount)),
    ("energy_generated_peak", numbers.decimal bin.energyGeneratedPeak),
    ("energy_generated_offpeak", numbers.decimal bin.energyGeneratedOffpeak),
    ("energy_consumed_peak", numbers.decimal bin.energyConsumedPeak),
    ("energy_consumed_offpeak", numbers.decimal bin.energyConsumedOffpeak),
    ("max_demand_kw", numbers.decimal bin.maxDemandKw), ("zone_code", zoneJson bin.zoneCode)]

/-- The fields without which an object is no bin. -/
def requiredNames : List String :=
  ["meter_id", "user_id", "meter_serial", "start_time", "end_time", "energy_generated",
    "energy_consumed", "reading_count"]

/-- The fields that came later. -/
def laterNames : List String :=
  ["energy_generated_peak", "energy_generated_offpeak", "energy_consumed_peak",
    "energy_consumed_offpeak", "max_demand_kw", "zone_code"]

/-- An `Option<u16>`, which may be absent. -/
def zoneOf : Option (Json F) → Option (Option Nat)
  | none => some none
  | some .null => some none
  | some v => (v.asU64.filter (· < 2 ^ 16)).map some

/-- A bin from the members of a document; the first eight must be there, and the later ones have
defaults. -/
def ofFields : List (Option (Json F)) → Option BillingBin
  | [some meterId, some userId, some meterSerial, some startTime, some endTime,
      some energyGenerated, some energyConsumed, some readingCount, generatedPeak,
      generatedOffpeak, consumedPeak, consumedOffpeak, maxDemand, zone] => do
    some
      { meterId := ← meterId.asStr.bind json.uuid.parseStr
        userId := ← userId.asStr.bind json.uuid.parseStr
        meterSerial := ← meterSerial.asStr
        startTime := ← startTime.asStr.bind json.parseTime
        endTime := ← endTime.asStr.bind json.parseTime
        energyGenerated := ← numbers.decimalOf energyGenerated
        energyConsumed := ← numbers.decimalOf energyConsumed
        readingCount := ← readingCount.asU64
        energyGeneratedPeak := ← numbers.decimalOr generatedPeak
        energyGeneratedOffpeak := ← numbers.decimalOr generatedOffpeak
        energyConsumedPeak := ← numbers.decimalOr consumedPeak
        energyConsumedOffpeak := ← numbers.decimalOr consumedOffpeak
        maxDemandKw := ← numbers.decimalOr maxDemand
        zoneCode := ← zoneOf zone }
  | _ => none

/-- A document is a bin if its members can be read, whatever other members it has. -/
def fromJson (v : Json F) : Option BillingBin :=
  (fields (requiredNames ++ laterNames) v).bind (ofFields json numbers)

end BillingBin

/-- The texts of bins. -/
def BinCodec.serde (json : SerdeJson F) (numbers : NumberSerde F) : BinCodec where
  json bin := json.toString (obj (bin.members json numbers))
  parse text := (json.fromStr text).bind (BillingBin.fromJson json numbers)

/-! ## Pending mints -/

namespace PendingMint

variable (json : SerdeJson F) (numbers : NumberSerde F)

/-- An `i64` as it is written. -/
def intJson (i : Int) : Json F :=
  if 0 ≤ i then num (.posInt i.toNat) else num (.negInt i)

/-- A mint as the outbox stores it. -/
def toJson (p : PendingMint) : Json F :=
  obj [("meter_serial", str p.meterSerial), ("meter_id", str (json.uuid.display p.meterId)),
    ("window_start_ms", intJson p.windowStartMs),
    ("energy_kwh", num (.float (numbers.double p.energyKwh))),
    ("enqueued_at_ms", intJson p.enqueuedAtMs)]

variable [Float64 F]

/-- A mint from the members of a document, all of which must be there. -/
def ofFields : List (Option (Json F)) → Option PendingMint
  | [some meterSerial, some meterId, some windowStartMs, some energyKwh, some enqueuedAtMs] => do
    some
      { meterSerial := ← meterSerial.asStr
        meterId := ← meterId.asStr.bind json.uuid.parseStr
        windowStartMs := ← windowStartMs.asI64
        energyKwh := numbers.value (← energyKwh.asF64)
        enqueuedAtMs := ← enqueuedAtMs.asI64 }
  | _ => none

/-- A document is a mint if its members can be read. -/
def fromJson (v : Json F) : Option PendingMint :=
  (fields ["meter_serial", "meter_id", "window_start_ms", "energy_kwh", "enqueued_at_ms"] v).bind
    (ofFields json numbers)

end PendingMint

/-! ## The outbox as texts

The machine of the outbox (`Outbox`) has the mints themselves in its hashes. Here the hashes have
texts. What the parties do beside the hashes is theirs. -/

/-- The outbox as Redis has it. The hashes of `parties` are not looked at. -/
structure StoredOutbox where
  outbox : Hash String String
  parked : Hash String String
  parties : Outbox Unit

/-- A step over the texts of the outbox: a write, a move of one of the parties that read it, the end
of the process, or somebody else's entry. -/
inductive StoredEvent where
  | enqueue (p : PendingMint) (reply : Reply)
  /-- The sweep spawns an attempt at minting. -/
  | spawn (p : PendingMint)
  | party (e : Outbox.Event)
  | crash
  /-- Somebody else writes an entry. -/
  | foreign (isParked : Bool) (field text : String)

namespace StoredOutbox

/-- Two empty hashes. -/
def init : StoredOutbox :=
  ⟨∅, ∅, Outbox.init⟩

variable (json : SerdeJson F) (numbers : NumberSerde F)

/-- The text of a mint, under its field. -/
def write (p : PendingMint) (texts : Hash String String) : Hash String String :=
  AList.insert p.field (json.toString (p.toJson json numbers)) texts

variable [Float64 F]

/-- An entry as `parse_pending` reads it. -/
def read (text : String) : Option (Owed Unit) :=
  ((json.fromStr text).bind (PendingMint.fromJson json numbers)).map fun p => ⟨p, ()⟩

/-- `MintOutbox::load_all`. -/
def loadAll (s : StoredOutbox) : List (Owed Unit) :=
  (Hash.values s.outbox).filterMap (read json numbers)

omit [Float64 F] in
/-- One command of a call. An error ends the call. -/
def execute (s : StoredOutbox) (call : OutboxCall Unit) (reply : Reply) : StoredOutbox :=
  let next (calls : List (OutboxCall Unit)) : Outbox Unit :=
    { s.parties with calls := s.parties.calls ++ if reply = .ok then calls else [] }
  match call with
  | .parkSet p =>
    { s with
      parked := reply.effect (write json numbers p.mint) s.parked
      parties := next [.parkDel p.field] }
  | .parkDel field => { s with outbox := reply.effect (AList.erase field) s.outbox }
  | .removeOutbox field =>
    { s with
      outbox := reply.effect (AList.erase field) s.outbox
      parties := next [.removeParked field] }
  | .removeParked field => { s with parked := reply.effect (AList.erase field) s.parked }

/-- As the steps of the outbox, over texts; what does not parse is passed over where entries are
loaded. -/
def step (cfg : DrainConfig) (s : StoredOutbox) : StoredEvent → Option StoredOutbox
  | .enqueue p reply => some { s with outbox := reply.effect (write json numbers p) s.outbox }
  | .spawn p => some { s with parties := s.parties.spawn ⟨p, ()⟩ }
  | .party (.load nowMs) =>
    let tick : DrainTick Unit := ⟨nowMs, s.loadAll json numbers, []⟩
    some { s with parties := { s.parties with ticks := s.parties.ticks ++ [tick] } }
  | .party (.command k reply) => do
    let call ← s.parties.calls[k]?
    let parties := { s.parties with calls := s.parties.calls.eraseIdx k }
    some (execute json numbers { s with parties := parties } call reply)
  -- the other moves do not touch the hashes
  | .party e => (Outbox.step cfg s.parties e).map fun parties => { s with parties := parties }
  | .crash => some { s with parties := s.parties.crash }
  | .foreign true field text => some { s with parked := AList.insert field text s.parked }
  | .foreign false field text => some { s with outbox := AList.insert field text s.outbox }

/-- The outbox that the texts stand for. -/
def view (s : StoredOutbox) : Outbox Unit :=
  { s.parties with
    outbox := Hash.filterMapValues (read json numbers) s.outbox
    parked := Hash.filterMapValues (read json numbers) s.parked }

end StoredOutbox

/-- The same moves on mints. An entry that is no mint is none. -/
def Outbox.move (cfg : DrainConfig) (s : Outbox Unit) : StoredEvent → Option (Outbox Unit)
  | .enqueue p reply => some (s.enqueue ⟨p, ()⟩ reply)
  | .spawn p => some (s.spawn ⟨p, ()⟩)
  | .party e => Outbox.step cfg s e
  | .crash => some s.crash
  | .foreign true field _ => some { s with parked := AList.erase field s.parked }
  | .foreign false field _ => some { s with outbox := AList.erase field s.outbox }

end AggregatorBridge
