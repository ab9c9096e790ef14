import AggregatorBridge.Lib.Checked
import AggregatorBridge.Lib.Pool
import AggregatorBridge.ReadingSinks

/-!
# Dissemination

`Router::disseminate` writes a reading to the stream of its zone, then to the stream of its device
type, and offers it to the sinks. All calls share one cached connection. A call that gets an error
for its first `XADD` drops the connection from the cache, takes the one that is cached by then or
builds another, and tries once more; it cannot tell whether the first one was executed. The cache is
locked for the look and for the store, and not in between: calls build side by side, and a
connection that was built early can come into the cache late.

A call is a process here and its awaits are the moves. Connections are numbered in the order in which
they came into the cache, which is not the order in which they were built: nothing here says which of
two connections is the older one. `entries` is what was ever appended, and `gone` is how much of it
`MAXLEN ~` has trimmed. Redis is free to trim less than it may, so an `XADD` says how much; it never
leaves a stream with less than its maximum. What a call has appended is kept with it, and whether it
was told; no step looks at that.
-/

namespace AggregatorBridge

open Remote

/-! ## Zones -/

section Zone

variable {F : Type}

/-- `hasher.finish() as usize % num_zones`. -/
def hashedZone (hash : String → Nat) (numZones : Nat) (text : String) : Checked Unit Nat :=
  if numZones = 0 then .panic else .ok (hash text % numZones)

/-- `calculate_zone_index`: the number at the end of a zone code if it is one of a zone, and else a
hash of the code, or of the serial if there is none. -/
def calculateZoneIndex (hash : String → Nat) (numZones : Nat) (reading : DeviceReading F) :
    Checked Unit Nat :=
  match reading.zoneCode with
  | some zcode =>
    let suffix := String.ofList (zcode.toList.dropWhile fun c => !c.isDigit)
    match Text.parseUnsigned (2 ^ 64) suffix with
    | some idx => if idx < numZones then .ok idx else hashedZone hash numZones zcode
    | none => hashedZone hash numZones zcode
  | none => hashedZone hash numZones reading.serialNumber

/-- The name of the stream of a zone. -/
def zoneStream (idx : Nat) : String :=
  "gridtokenx:events:zone_" ++ toString idx

theorem zoneStream_eighteenth (idx : Nat) : (zoneStream idx).toList[18]? = some 'z' := by
  unfold zoneStream
  generalize toString idx = number
  have long : 18 < "gridtokenx:events:zone_".toList.length := by simp
  rw [String.toList_append, List.getElem?_append_left long]
  simp

/-- The stream of a device type is no stream of a zone. -/
theorem targetStream_ne_zoneStream (device : DeviceType) (idx : Nat) :
    device.targetStream ≠ zoneStream idx := by
  intro same
  have eighteenth := same ▸ zoneStream_eighteenth idx
  cases device <;> exact absurd eighteenth (by decide)

end Zone

/-! ## The router -/

/-- How the router is built, with what it takes from other crates. Whether there are sinks is part
of it. -/
structure RouterConfig (F : Type) where
  json : SerdeJson F
  crypto : StreamCrypto
  streamCipher : Option AesKey
  /-- `DefaultHasher` over a string. -/
  hash : String → Nat
  numZones : Nat
  maxStreamLen : Nat
  influx : Bool
  pgReadings : Bool

/-- An entry of any of the streams; its id is its place among all entries that were ever appended.
-/
structure StreamEntry where
  stream : String
  id : Nat
  event : String
  deriving DecidableEq

/-- What the calls share: the cached connection, the streams at the other end of it, and the sinks.
-/
structure RouterState (F : Type) where
  /-- The cached connection. -/
  cached : Option Nat
  /-- How many connections came into the cache. -/
  built : Nat
  entries : List StreamEntry
  /-- How many of the entries of a stream, the oldest first, were trimmed. -/
  gone : String → Nat
  /-- What was offered to the sinks. -/
  points : List (TelemetryPoint F)
  rows : List (FullRow F)

/-- How far a call of `disseminate` is. `failed` is the connection of the first try. -/
inductive DisseminateStage where
  | connecting
  | building
  /-- There is a connection, and it is not in the cache yet. -/
  | caching
  | publishing (conn : Nat) (event : String)
  | invalidating (failed : Nat) (event : String)
  | reconnecting (failed : Nat) (event : String)
  | rebuilding (failed : Nat) (event : String)
  | recaching (failed : Nat) (event : String)
  | republishing (failed conn : Nat) (event : String)
  | unifying (event : String) (id : Nat)
  | mirroring (id : Nat)
  | returned (result : Except String Nat)
  | panicked
  /-- The future was dropped. -/
  | dropped
  deriving DecidableEq

/-- A call, the place of its reading, and what it has appended: each entry with whether the call was
told so. -/
structure DisseminateCall (F : Type) where
  nth : Nat
  reading : DeviceReading F
  stage : DisseminateStage
  zoned : List (StreamEntry × Bool)
  unified : List StreamEntry

namespace Router

/-- The awaits of a call, each with what it is answered. -/
inductive Move where
  /-- A look at the cache; `nonce` is for the envelope of the first try. -/
  | connect (nonce : GcmNonce)
  /-- The builder is done. -/
  | build (answer : Except String Unit)
  /-- What was built comes into the cache. -/
  | store (nonce : GcmNonce)
  /-- `XADD … MAXLEN ~`, and what of the stream Redis would trim. -/
  | xadd (reply : Reply) (trim : Nat)
  | invalidate
  | mirror
  | drop

variable {F : Type}

/-- The stream a reading is routed to. -/
def zoneOf (cfg : RouterConfig F) (reading : DeviceReading F) : Checked Unit String := do
  let idx ← calculateZoneIndex cfg.hash cfg.numZones reading
  .ok (zoneStream idx)

theorem exists_zone {cfg : RouterConfig F} {reading : DeviceReading F} {stream : String}
    (zone : zoneOf cfg reading = .ok stream) :
    ∃ idx, calculateZoneIndex cfg.hash cfg.numZones reading = .ok idx ∧ zoneStream idx = stream := by
  obtain ⟨idx, found, named⟩ := Checked.bind_eq_ok zone
  cases named
  exact ⟨idx, found, rfl⟩

/-- A call has its first connection: it picks the stream and makes the envelope. -/
def prepare (cfg : RouterConfig F) (call : DisseminateCall F) (conn : Nat) (nonce : GcmNonce) :
    DisseminateCall F :=
  match zoneOf cfg call.reading with
  | .ok _ =>
    match envelope cfg.json cfg.crypto cfg.streamCipher nonce call.reading with
    | some event => { call with stage := .publishing conn event }
    | none => { call with stage := .returned (.error "Failed to encrypt stream payload") }
  | _ => { call with stage := .panicked }

/-- How the first connection of a call is used: the stream and the envelope are made, or the call
ends. -/
inductive Prepared (cfg : RouterConfig F) (reading : DeviceReading F) (conn : Nat) :
    DisseminateStage → Prop
  | ready {nonce : GcmNonce} {stream event : String} (zone : zoneOf cfg reading = .ok stream)
      (made : envelope cfg.json cfg.crypto cfg.streamCipher nonce reading = some event) :
      Prepared cfg reading conn (.publishing conn event)
  | unsealed : Prepared cfg reading conn (.returned (.error "Failed to encrypt stream payload"))
  | panicked : Prepared cfg reading conn .panicked

theorem exists_prepared (cfg : RouterConfig F) (call : DisseminateCall F) (conn : Nat)
    (nonce : GcmNonce) :
    ∃ stage, Prepared cfg call.reading conn stage ∧
      prepare cfg call conn nonce =
        ⟨call.nth, call.reading, stage, call.zoned, call.unified⟩ := by
  unfold prepare
  split
  · next stream zone =>
    split
    · next event made => exact ⟨_, .ready zone made, rfl⟩
    · exact ⟨_, .unsealed, rfl⟩
  · exact ⟨_, .panicked, rfl⟩

/-- A connection comes into the cache. -/
def store (s : RouterState F) : RouterState F :=
  { s with cached := some s.built, built := s.built + 1 }

/-- How many entries a stream was ever given. -/
def lengthOf (entries : List StreamEntry) (stream : String) : Nat :=
  entries.countP fun entry => entry.stream = stream

/-- `XADD … MAXLEN ~` was carried out: the entry is at the end of its stream, and of the oldest ones
up to `trim` are gone, as long as the maximum is left. -/
def appended (cfg : RouterConfig F) (s : RouterState F) (stream event : String) (trim : Nat) :
    RouterState F :=
  let entries := s.entries ++ [⟨stream, s.entries.length, event⟩]
  { s with
    entries := entries
    gone := Function.update s.gone stream
      (max (s.gone stream) (min trim (lengthOf entries stream - cfg.maxStreamLen))) }

/-- `XADD` in a stream, and the entry it appends. -/
def append (cfg : RouterConfig F) (s : RouterState F) (stream event : String) (reply : Reply)
    (trim : Nat) : RouterState F × List (StreamEntry × Bool) :=
  if reply.took then
    (appended cfg s stream event trim, [(⟨stream, s.entries.length, event⟩, reply = .ok)])
  else (s, [])

/-- What follows the `XADD` that was answered: the stream of the device type, if it is another one. -/
def published (reading : DeviceReading F) (stream event : String) (id : Nat) : DisseminateStage :=
  if reading.deviceType.targetStream ≠ stream then .unifying event id else .mirroring id

theorem published_of_zone {cfg : RouterConfig F} {reading : DeviceReading F} {stream : String}
    (zone : zoneOf cfg reading = .ok stream) (event : String) (id : Nat) :
    published reading stream event id = .unifying event id := by
  obtain ⟨idx, -, rfl⟩ := exists_zone zone
  exact if_pos (targetStream_ne_zoneStream _ idx)

/-- `XADD` in the stream of the zone. -/
def xadd (cfg : RouterConfig F) (s : RouterState F) (call : DisseminateCall F) (event : String)
    (reply : Reply) (trim : Nat) (onError : DisseminateStage) :
    Option (RouterState F × DisseminateCall F) :=
  match zoneOf cfg call.reading with
  | .ok stream =>
    let (later, new) := append cfg s stream event reply trim
    some (later,
      { call with
        zoned := call.zoned ++ new
        stage :=
          if reply = .ok then published call.reading stream event s.entries.length else onError })
  | _ => none

/-- `XADD` in the stream of the device type, whose answer nobody looks at. -/
def xaddUnified (cfg : RouterConfig F) (s : RouterState F) (call : DisseminateCall F)
    (event : String) (id : Nat) (reply : Reply) (trim : Nat) :
    RouterState F × DisseminateCall F :=
  let (later, new) := append cfg s call.reading.deviceType.targetStream event reply trim
  (later,
    { call with unified := call.unified ++ new.map Prod.fst, stage := .mirroring id })

variable [Float64 F] [SignedFloat64 F]

/-- What InfluxDB is offered of a call. -/
def offeredPoints (cfg : RouterConfig F) (call : DisseminateCall F) : List (TelemetryPoint F) :=
  if cfg.influx then (readingToPoint call.reading).toList else []

/-- What Postgres is offered of a call. -/
def offeredRows (cfg : RouterConfig F) (call : DisseminateCall F) : List (FullRow F) :=
  if cfg.pgReadings then (fullRow call.nth call.reading).toList else []

/-- The sinks are offered the reading, and the call returns. -/
def mirror (cfg : RouterConfig F) (s : RouterState F) (call : DisseminateCall F) (id : Nat) :
    RouterState F × DisseminateCall F :=
  ({ s with
      points := s.points ++ offeredPoints cfg call
      rows := s.rows ++ offeredRows cfg call },
    { call with stage := .returned (.ok id) })

/-- The moves of `disseminate`. Building a connection and putting it into the cache are two of them,
so a connection can come into the cache after a later one has failed. -/
def act (cfg : RouterConfig F) (s : RouterState F) (call : DisseminateCall F) (m : Move) :
    Option (RouterState F × DisseminateCall F) :=
  match call.stage, m with
  | .connecting, .connect nonce =>
    match s.cached with
    | some conn => some (s, prepare cfg call conn nonce)
    | none => some (s, { call with stage := .building })
  | .building, .build (.ok _) => some (s, { call with stage := .caching })
  | .building, .build (.error e) => some (s, { call with stage := .returned (.error e) })
  | .caching, .store nonce => some (store s, prepare cfg call s.built nonce)
  | .publishing conn event, .xadd reply trim =>
    xadd cfg s call event reply trim (.invalidating conn event)
  | .invalidating failed event, .invalidate =>
    some ({ s with cached := none }, { call with stage := .reconnecting failed event })
  | .reconnecting failed event, .connect _ =>
    match s.cached with
    | some conn => some (s, { call with stage := .republishing failed conn event })
    | none => some (s, { call with stage := .rebuilding failed event })
  | .rebuilding failed event, .build (.ok _) =>
    some (s, { call with stage := .recaching failed event })
  | .rebuilding _ _, .build (.error e) =>
    some (s, { call with stage := .returned (.error e) })
  | .recaching failed event, .store _ =>
    some (store s, { call with stage := .republishing failed s.built event })
  | .republishing _ _ event, .xadd reply trim =>
    xadd cfg s call event reply trim
      (.returned (.error "Failed to publish to Redis Stream after reconnect"))
  | .unifying event id, .xadd reply trim => some (xaddUnified cfg s call event id reply trim)
  | .mirroring id, .mirror => some (mirror cfg s call id)
  | .returned _, _ => none
  | .panicked, _ => none
  | .dropped, _ => none
  | _, .drop => some (s, { call with stage := .dropped })
  | _, _ => none

/-- Any number of calls. Readings come from the outside. -/
def system (cfg : RouterConfig F) :
    Pool.System (RouterState F) (DisseminateCall F) Move Empty where
  admits call :=
    decide (call.stage = .connecting ∧ call.zoned = [] ∧ call.unified = [])
  act := act cfg
  world _ e := e.elim

/-- `Router::new`: the cache is seeded. -/
def init : RouterState F :=
  ⟨some 0, 1, [], fun _ => 0, [], []⟩

/-- A stage with an `XADD` in the stream of the zone, its envelope, and what follows an error. -/
inductive Tries : DisseminateStage → String → DisseminateStage → Prop
  | first {conn : Nat} {event : String} :
      Tries (.publishing conn event) event (.invalidating conn event)
  | second {failed conn : Nat} {event : String} :
      Tries (.republishing failed conn event) event
        (.returned (.error "Failed to publish to Redis Stream after reconnect"))

/-- The call may still be dropped. -/
def Running : DisseminateStage → Prop
  | .returned _ => False
  | .panicked => False
  | .dropped => False
  | _ => True

/-- What a move of a call can be. -/
inductive Acts (cfg : RouterConfig F) (s : RouterState F) (call : DisseminateCall F) :
    Move → RouterState F → DisseminateCall F → Prop
  | found {m : Move} {conn : Nat} {stage : DisseminateStage} (at_ : call.stage = .connecting)
      (cached : s.cached = some conn) (prepared : Prepared cfg call.reading conn stage) :
      Acts cfg s call m s ⟨call.nth, call.reading, stage, call.zoned, call.unified⟩
  | missed {m : Move} (at_ : call.stage = .connecting) :
      Acts cfg s call m s ⟨call.nth, call.reading, .building, call.zoned, call.unified⟩
  | built {m : Move} (at_ : call.stage = .building) :
      Acts cfg s call m s ⟨call.nth, call.reading, .caching, call.zoned, call.unified⟩
  | stored {m : Move} {stage : DisseminateStage} (at_ : call.stage = .caching)
      (prepared : Prepared cfg call.reading s.built stage) :
      Acts cfg s call m (store s) ⟨call.nth, call.reading, stage, call.zoned, call.unified⟩
  | unbuilt {m : Move} {e : String}
      (at_ : call.stage = .building ∨ ∃ failed event, call.stage = .rebuilding failed event) :
      Acts cfg s call m s
        ⟨call.nth, call.reading, .returned (.error e), call.zoned, call.unified⟩
  | answered {reply : Reply} {trim : Nat} {stream event : String} {onError : DisseminateStage}
      (at_ : Tries call.stage event onError) (zone : zoneOf cfg call.reading = .ok stream) :
      Acts cfg s call (.xadd reply trim) (appended cfg s stream event trim)
        ⟨call.nth, call.reading, .unifying event s.entries.length,
          call.zoned ++ [(⟨stream, s.entries.length, event⟩, true)], call.unified⟩
  | lost {reply : Reply} {trim : Nat} {stream event : String} {onError : DisseminateStage}
      (at_ : Tries call.stage event onError) (zone : zoneOf cfg call.reading = .ok stream) :
      Acts cfg s call (.xadd reply trim) (appended cfg s stream event trim)
        ⟨call.nth, call.reading, onError,
          call.zoned ++ [(⟨stream, s.entries.length, event⟩, false)], call.unified⟩
  | failed {m : Move} {event : String} {onError : DisseminateStage}
      (at_ : Tries call.stage event onError) :
      Acts cfg s call m s ⟨call.nth, call.reading, onError, call.zoned, call.unified⟩
  | invalidated {m : Move} {failed : Nat} {event : String}
      (at_ : call.stage = .invalidating failed event) :
      Acts cfg s call m { s with cached := none }
        ⟨call.nth, call.reading, .reconnecting failed event, call.zoned, call.unified⟩
  | refound {m : Move} {failed conn : Nat} {event : String}
      (at_ : call.stage = .reconnecting failed event) (cached : s.cached = some conn) :
      Acts cfg s call m s
        ⟨call.nth, call.reading, .republishing failed conn event, call.zoned, call.unified⟩
  | remissed {m : Move} {failed : Nat} {event : String}
      (at_ : call.stage = .reconnecting failed event) :
      Acts cfg s call m s
        ⟨call.nth, call.reading, .rebuilding failed event, call.zoned, call.unified⟩
  | rebuilt {m : Move} {failed : Nat} {event : String}
      (at_ : call.stage = .rebuilding failed event) :
      Acts cfg s call m s
        ⟨call.nth, call.reading, .recaching failed event, call.zoned, call.unified⟩
  | restored {m : Move} {failed : Nat} {event : String}
      (at_ : call.stage = .recaching failed event) :
      Acts cfg s call m (store s)
        ⟨call.nth, call.reading, .republishing failed s.built event, call.zoned, call.unified⟩
  | unified {reply : Reply} {trim : Nat} {event : String} {id : Nat}
      (at_ : call.stage = .unifying event id) :
      Acts cfg s call (.xadd reply trim)
        (appended cfg s call.reading.deviceType.targetStream event trim)
        ⟨call.nth, call.reading, .mirroring id, call.zoned,
          call.unified ++ [⟨call.reading.deviceType.targetStream, s.entries.length, event⟩]⟩
  | ununified {m : Move} {event : String} {id : Nat} (at_ : call.stage = .unifying event id) :
      Acts cfg s call m s ⟨call.nth, call.reading, .mirroring id, call.zoned, call.unified⟩
  | mirrored {m : Move} {id : Nat} (at_ : call.stage = .mirroring id) :
      Acts cfg s call m (mirror cfg s call id).1
        ⟨call.nth, call.reading, .returned (.ok id), call.zoned, call.unified⟩
  | dropped {m : Move} (running : Running call.stage) :
      Acts cfg s call m s ⟨call.nth, call.reading, .dropped, call.zoned, call.unified⟩

variable {cfg : RouterConfig F} {s later : RouterState F} {call next : DisseminateCall F} {m : Move}

theorem acts_of_xadd {event : String} {reply : Reply} {trim : Nat} {onError : DisseminateStage}
    (at_ : Tries call.stage event onError)
    (acted : xadd cfg s call event reply trim onError = some (later, next)) :
    Acts cfg s call (.xadd reply trim) later next := by
  unfold xadd append at acted
  split at acted
  · next stream zone =>
    cases reply with
    | ok =>
      cases acted
      simp only [published_of_zone zone, if_true]
      exact .answered at_ zone
    | lost =>
      cases acted
      exact .lost at_ zone
    | failed =>
      cases acted
      show Acts cfg s call (.xadd .failed trim) s
        ⟨call.nth, call.reading, onError, call.zoned ++ [], call.unified⟩
      rw [List.append_nil]
      exact .failed at_
  · cases acted

theorem acts_of_xaddUnified {event : String} {id : Nat} {reply : Reply} {trim : Nat}
    (at_ : call.stage = .unifying event id)
    (acted : xaddUnified cfg s call event id reply trim = (later, next)) :
    Acts cfg s call (.xadd reply trim) later next := by
  unfold xaddUnified append at acted
  cases reply with
  | ok =>
    cases acted
    exact .unified at_
  | lost =>
    cases acted
    exact .unified at_
  | failed =>
    cases acted
    show Acts cfg s call (.xadd .failed trim) s
      ⟨call.nth, call.reading, .mirroring id, call.zoned, call.unified ++ []⟩
    rw [List.append_nil]
    exact .ununified at_

/-- Every move of a call is one of these; the two tries share their cases. -/
theorem acts_of_act (acted : act cfg s call m = some (later, next)) :
    Acts cfg s call m later next := by
  unfold act at acted
  split at acted
  case h_1 nonce at_ =>
    split at acted
    · next conn cached =>
      obtain ⟨stage, prepared, same⟩ := exists_prepared cfg call conn nonce
      rw [same] at acted
      cases acted
      exact .found at_ cached prepared
    · cases acted
      exact .missed at_
  case h_2 at_ =>
    cases acted
    exact .built at_
  case h_3 at_ =>
    cases acted
    exact .unbuilt (.inl at_)
  case h_4 nonce at_ =>
    obtain ⟨stage, prepared, same⟩ := exists_prepared cfg call s.built nonce
    rw [same] at acted
    cases acted
    exact .stored at_ prepared
  case h_5 at_ => exact acts_of_xadd (at_ ▸ .first) acted
  case h_6 at_ =>
    cases acted
    exact .invalidated at_
  case h_7 at_ =>
    split at acted
    · next conn cached =>
      cases acted
      exact .refound at_ cached
    · cases acted
      exact .remissed at_
  case h_8 at_ =>
    cases acted
    exact .rebuilt at_
  case h_9 at_ =>
    cases acted
    exact .unbuilt (.inr ⟨_, _, at_⟩)
  case h_10 at_ =>
    cases acted
    exact .restored at_
  case h_11 at_ => exact acts_of_xadd (at_ ▸ .second) acted
  case h_12 at_ => exact acts_of_xaddUnified at_ (Option.some.inj acted)
  case h_13 at_ =>
    cases acted
    exact .mirrored at_
  case h_14 => cases acted
  case h_15 => cases acted
  case h_16 => cases acted
  case h_17 not_returned not_panicked not_dropped =>
    cases acted
    refine .dropped ?_
    unfold Running
    split
    · exact not_returned _ ‹_›
    · exact not_panicked ‹_›
    · exact not_dropped ‹_›
    · trivial
  case h_18 => cases acted

end Router

end AggregatorBridge
