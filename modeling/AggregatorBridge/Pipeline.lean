import AggregatorBridge.Dissemination
import AggregatorBridge.StreamConsumer

/-!
# From a reading to billing

What the router appends to the stream of a zone is what the worker of that zone reads. Here the two
run beside each other: any number of calls of `disseminate`, and one zone with everything behind it.
They share the entries and what of them is gone, and nothing else.

The consumer group is created with `$`, so the worker never sees what was appended before, and
creating it again changes nothing. Until it exists, a read is answered with an error.

`billed` is what `handle_reading` was called for. No step looks at that.
-/

namespace AggregatorBridge

open Remote

variable {F : Type}

/-- The fields that `XADD` is given. -/
def StreamEntry.raw (entry : StreamEntry) : RawEntry :=
  [(Text.utf8 "event", Text.utf8 entry.event)]

/-- The consumer has the cipher of the router. -/
def RouterConfig.ingester (cfg : RouterConfig F) (codec : DecimalCodec F) (newV5 : String → Uuid) :
    StreamIngester F :=
  ⟨cfg.json, cfg.crypto, cfg.streamCipher, codec, newV5⟩

/-- The router with all its calls, and the worker of one zone with billing and settlement behind it.
-/
structure Pipeline (F : Type) where
  router : Pool.State (RouterState F) (DisseminateCall F)
  /-- How many entries the stream had when its group was created. -/
  group : Option Nat
  zone : Zone F
  billed : List Nat

namespace Pipeline

/-- One worker, of zone `idx`. -/
structure Config (F : Type) where
  router : RouterConfig F
  codec : DecimalCodec F
  settlement : SettlementConfig
  idx : Nat

/-- A step of a call, the creation of the group, or a step of the worker and what is behind it. -/
inductive Event (F : Type) where
  | router (e : Pool.Event (DisseminateCall F) Router.Move Empty)
  /-- `setup_consumer_groups` at the stream of the zone. -/
  | setup (reply : Reply)
  | zone (e : Zone.Event F)

variable [Float64 F] [SignedFloat64 F] (cfg : Config F)

/-- Nothing was appended, and there is no group yet. -/
def init : Pipeline F :=
  ⟨⟨Router.init, []⟩, none, Zone.init, []⟩

/-- What the entries of the stream of the zone turn out to be. -/
def payloads (s : RouterState F) : List (EntryPayload F) :=
  (s.entries.filter fun entry => entry.stream = zoneStream cfg.idx).map fun entry =>
    (cfg.router.ingester cfg.codec cfg.settlement.newV5).payloadOf entry.raw

/-- What the group has of them. -/
def visible (s : RouterState F) : Option Nat → List (EntryPayload F)
  | none => []
  | some start => (payloads cfg s).drop start

/-- How many of those are gone. -/
def trimmed (s : RouterState F) : Option Nat → Nat
  | none => 0
  | some start => s.gone (zoneStream cfg.idx) - start

/-- What `handle_reading` is called for. -/
def billedBy (z : Zone F) : Zone.Event F → List Nat
  | .handle task _ _ => (z.tasks[task]?.map ZoneTask.entry).toList
  | _ => []

/-- `XGROUP CREATE … $ MKSTREAM`. A group that exists already is an error that is ignored. -/
def setup (p : Pipeline F) (reply : Reply) : Pipeline F :=
  if reply.took ∧ p.group = none then
    { p with group := some (payloads cfg p.router.shared).length }
  else p

/-- A step of the router shows in the stream of the worker at once, where it appends to that stream.
-/
def step (p : Pipeline F) : Event F → Option (Pipeline F)
  | .router e =>
    ((Router.system cfg.router).step p.router e).map fun router =>
      { p with
        router := router
        zone :=
          { p.zone with
            entries := visible cfg router.shared p.group
            gone := trimmed cfg router.shared p.group } }
  | .setup reply => some (setup cfg p reply)
  -- entries come from the router
  | .zone (.xadd _ _) => none
  | .zone e =>
    (Zone.step cfg.codec cfg.settlement p.zone e).map fun zone =>
      { p with zone := zone, billed := p.billed ++ billedBy p.zone e }

end Pipeline

end AggregatorBridge
