import AggregatorBridge.Lib.Pool
import AggregatorBridge.Lib.Subjects
import AggregatorBridge.MintOutbox
import AggregatorBridge.Serde

/-!
# The mint gateway

`mint` and `mint_batch` ask Chain Bridge for a mint. The request, an intent, is published to a
durable stream and acknowledged by it. The reply comes to a subject that the intent names, and
subjects have no memory, so a call subscribes before it publishes. Calls overlap, the bridge
replies when it likes and as often as it likes, and a call can be dropped at any of its awaits,
which ends its subscription.

A call is a process here and every await a move. The broker stores an intent, or does not, when
it is published; the acknowledgement tells the call, or gets lost. A reply that the connection
loses is as good as never sent, so it is no event.

How the bridge's crate signs and lays out an intent is a parameter, as is the text of JSON.
-/

namespace AggregatorBridge

open Subjects

/-! ## Intents -/

/-- One recipient. The arguments of `mint` are the same. -/
structure BatchMintInput where
  recipientWallet : String
  energyKwh : ℚ
  meterId : Uuid
  meterSerial : String
  windowStartMs : Int
  deriving DecidableEq

/-- `mint_idempotency_key`. -/
def BatchMintInput.idempotencyKey (input : BatchMintInput) : String :=
  "mint:" ++ input.meterSerial ++ ":" ++ toString input.windowStartMs

/-- One mint of a batch, as it goes over the wire. -/
structure BatchMintItem where
  idempotencyKey : String
  recipientWallet : String
  energyKwh : ℚ
  meterId : Uuid
  windowStartMs : Int
  deriving DecidableEq

/-- A single mint as it goes over the wire, with the subject that its answer is to come on. -/
structure MintEnergyMessage (A : Type) where
  correlationId : String
  idempotencyKey : String
  replySubject : String
  recipientWallet : String
  energyKwh : ℚ
  meterId : Uuid
  windowStartMs : Int
  serviceIdentity : String
  createdAtMs : Nat
  auth : Option A
  deriving DecidableEq

/-- The mints of a batch, with one subject for the answer to all of them. -/
structure MintEnergyBatchMessage (A : Type) where
  correlationId : String
  replySubject : String
  items : List BatchMintItem
  serviceIdentity : String
  createdAtMs : Nat
  auth : Option A
  deriving DecidableEq

/-- What goes to the stream. -/
inductive MintIntent (A : Type) where
  | single (msg : MintEnergyMessage A)
  | batch (msg : MintEnergyBatchMessage A)
  deriving DecidableEq

/-- A call of `mint` or of `mint_batch`. -/
inductive MintRequest where
  | single (input : BatchMintInput)
  | batch (inputs : List BatchMintInput)
  deriving DecidableEq

/-- The gateway that talks to the bridge. Its signer is given the canonical bytes of an intent. -/
structure NatsMintGateway (A : Type) where
  serviceIdentity : String
  signer : Option (List UInt8 → A)
  canonicalMintBytes : MintEnergyMessage A → List UInt8
  canonicalMintBatchBytes : MintEnergyBatchMessage A → List UInt8

/-- The gateway of a process: over NATS, or the one that refuses everything. -/
inductive MintGateway (A : Type) where
  | nats (gw : NatsMintGateway A)
  | disabled

namespace MintIntent

variable {A : Type}

/-- The id that every call draws anew. -/
def correlationId : MintIntent A → String
  | single msg => msg.correlationId
  | batch msg => msg.correlationId

/-- Where the caller listens, which is in what it publishes. -/
def replySubject : MintIntent A → String
  | single msg => msg.replySubject
  | batch msg => msg.replySubject

/-- What the errors of a call name it by. -/
def label : MintIntent A → String
  | single _ => "mint"
  | batch _ => "batch mint"

end MintIntent

namespace NatsMintGateway

variable {A : Type} (gw : NatsMintGateway A)

/-- The intent of `mint`. A clock before 1970 counts as zero. -/
def mintIntent (input : BatchMintInput) (correlationId : String) (nowMs : Int) :
    MintEnergyMessage A :=
  let msg : MintEnergyMessage A :=
    { correlationId := correlationId
      idempotencyKey := input.idempotencyKey
      replySubject := "chain.mint.result." ++ correlationId
      recipientWallet := input.recipientWallet
      energyKwh := input.energyKwh
      meterId := input.meterId
      windowStartMs := input.windowStartMs
      serviceIdentity := gw.serviceIdentity
      createdAtMs := nowMs.toNat
      auth := none }
  { msg with auth := gw.signer.map fun sign => sign (gw.canonicalMintBytes msg) }

/-- The intent of `mint_batch`. -/
def batchIntent (inputs : List BatchMintInput) (correlationId : String) (nowMs : Int) :
    MintEnergyBatchMessage A :=
  let msg : MintEnergyBatchMessage A :=
    { correlationId := correlationId
      replySubject := "chain.mint.batch.result." ++ correlationId
      items := inputs.map fun i =>
        { idempotencyKey := i.idempotencyKey
          recipientWallet := i.recipientWallet
          energyKwh := i.energyKwh
          meterId := i.meterId
          windowStartMs := i.windowStartMs }
      serviceIdentity := gw.serviceIdentity
      createdAtMs := nowMs.toNat
      auth := none }
  { msg with auth := gw.signer.map fun sign => sign (gw.canonicalMintBatchBytes msg) }

/-- What a request becomes when its id is drawn. -/
def intent (correlationId : String) (nowMs : Int) : MintRequest → MintIntent A
  | .single input => .single (gw.mintIntent input correlationId nowMs)
  | .batch inputs => .batch (gw.batchIntent inputs correlationId nowMs)

@[simp] theorem correlationId_intent (id : String) (nowMs : Int) (request : MintRequest) :
    (gw.intent id nowMs request).correlationId = id := by
  cases request <;> rfl

end NatsMintGateway

/-! ## Replies -/

/-- An optional text, which a `null` stands for as well. -/
def Json.asOptStr {F : Type} : Json F → Option (Option String)
  | .null => some none
  | .str s => some (some s)
  | _ => none

/-- `Value::as_bool`. -/
def Json.asBool {F : Type} : Json F → Option Bool
  | .bool b => some b
  | _ => none

/-- A field that has a default: `0` for an integer and nothing for an optional text. -/
def Json.orDefault {F α : Type} (read : Json F → Option α) (default : α) :
    Option (Json F) → Option α
  | some v => read v
  | none => some default

namespace MintEnergyResultMessage

variable {F : Type}

/-- A result whose members are there; those with a default may be missing. -/
def ofFields (success signature error slot : Option (Json F)) : Option MintEnergyResultMessage := do
  let success ← (← success).asBool
  let signature ← Json.orDefault Json.asOptStr none signature
  let error ← Json.orDefault Json.asOptStr none error
  let slot ← Json.orDefault Json.asU64 0 slot
  some ⟨success, signature, slot, error⟩

/-- The derived reader. An array has the fields in the order of the source, and only `slot` has a
default there. -/
def fromJson : Json F → Option MintEnergyResultMessage
  | .obj members => do
    ofFields (← Json.single members "success") (← Json.single members "signature")
      (← Json.single members "error") (← Json.single members "slot")
  | .arr [success, signature, error] => ofFields (some success) (some signature) (some error) none
  | .arr [success, signature, error, slot] =>
    ofFields (some success) (some signature) (some error) (some slot)
  | _ => none

end MintEnergyResultMessage

namespace MintBatchItemResult

variable {F : Type}

/-- The index and the error of an item are read, and not kept: nothing depends on them. -/
def ofFields (index key success signature slot error : Option (Json F)) :
    Option MintBatchItemResult := do
  let _index ← Json.orDefault Json.asU64 0 index
  let key ← (← key).asStr
  let success ← (← success).asBool
  let signature ← Json.orDefault Json.asOptStr none signature
  let slot ← Json.orDefault Json.asU64 0 slot
  let _error ← Json.orDefault Json.asOptStr none error
  some ⟨key, success, signature, slot⟩

/-- A result as an object or as an array of its fields, as `serde` reads a struct. -/
def fromJson : Json F → Option MintBatchItemResult
  | .obj members => do
    ofFields (← Json.single members "index") (← Json.single members "idempotency_key")
      (← Json.single members "success") (← Json.single members "signature")
      (← Json.single members "slot") (← Json.single members "error")
  | .arr [index, key, success, signature, slot, error] =>
    ofFields (some index) (some key) (some success) (some signature) (some slot) (some error)
  | _ => none

/-- `MintEnergyBatchResultMessage`, its results. -/
def resultsOf : Json F → Option (List MintBatchItemResult)
  | .obj members => do
    let results ← (← Json.single members "results")
    (← results.asArray).mapM fromJson
  | .arr [results] => results.asArray.bind fun items => items.mapM fromJson
  | _ => none

end MintBatchItemResult

/-- The two errors that a caller tells apart. Neither says that the mint did not happen. -/
inductive MintError where
  /-- `MintReplyTimeout`. -/
  | replyTimeout
  | other (text : String)
  deriving DecidableEq

/-- What `mint` returns, or what `mint_batch` does. -/
inductive MintAnswer where
  | outcome (outcome : MintOutcome)
  | results (results : List MintBatchItemResult)
  deriving DecidableEq

/-- What a call makes of a reply to its intent. -/
def MintIntent.read {F A : Type} (json : SerdeJson F) (payload : List UInt8) :
    MintIntent A → Except MintError MintAnswer
  | .single _ =>
    match (json.fromSlice payload).bind MintEnergyResultMessage.fromJson with
    | none => .error (.other "decode mint result")
    | some result => ((parseMintResult result).map MintAnswer.outcome).mapError MintError.other
  | .batch _ =>
    match (json.fromSlice payload).bind MintBatchItemResult.resultsOf with
    | none => .error (.other "decode batch mint result")
    | some results => .ok (.results results)

/-! ## Calls -/

namespace MintGateway

variable {F A : Type}

/-- What the calls share: the ids that were given out, the subjects, and the stream of intents. -/
structure Nats (A : Type) where
  correlationIds : List String
  subjects : Broker String (List UInt8)
  stored : List (MintIntent A)

/-- Where a call is. Its subscription is open from `publishing` on until it ends, however it ends.
-/
inductive Call (A : Type) where
  | begun (request : MintRequest)
  | subscribing (intent : MintIntent A)
  | publishing (intent : MintIntent A)
  /-- Published, and `stored` by the stream or not; the acknowledgement is awaited. -/
  | acking (intent : MintIntent A) (stored : Bool)
  | awaiting (intent : MintIntent A)
  /-- The call has returned, or it was dropped. If it had an intent, `stored` says of it what it
  says above. -/
  | ended (intent : Option (MintIntent A)) (stored : Bool)
      (result : Option (Except MintError MintAnswer))
  deriving DecidableEq

/-- The awaits of a call, each with what it is answered. -/
inductive Move where
  | begin (correlationId : String) (nowMs : Int)
  | subscribe (error : Option String)
  /-- The intent goes out; the stream stores it or not, and the publish itself may fail. -/
  | publish (error : Option String) (stored : Bool)
  | ack (error : Option String)
  | receive
  | timeout
  /-- The subscription is closed from outside. -/
  | close
  /-- The future is dropped. -/
  | drop

namespace Nats

/-- A connection over which nothing was sent. -/
def init : Nats A :=
  ⟨[], Broker.init, []⟩

/-- The call listens on its own subject. -/
def subscribe (s : Nats A) (intent : MintIntent A) : Nats A :=
  { s with subjects := s.subjects.subscribe intent.replySubject }

/-- The subscription is dropped with the call, and what it had not read yet with it. -/
def unsubscribe (s : Nats A) (intent : MintIntent A) : Nats A :=
  { s with subjects := s.subjects.unsubscribe intent.replySubject }

/-- The stream keeps what was published, if it was. -/
def store (s : Nats A) (intent : MintIntent A) (stored : Bool) : Nats A :=
  if stored then { s with stored := s.stored ++ [intent] } else s

end Nats

/-- A call returns an error and is no longer subscribed. -/
def fail (s : Nats A) (intent : MintIntent A) (stored : Bool) (error : MintError) :
    Nats A × Call A :=
  (s.unsubscribe intent, .ended (some intent) stored (some (.error error)))

/-- A call begins: `Disabled` mints nothing, and an empty batch is answered at once. -/
def begin (gw : MintGateway A) (s : Nats A) (request : MintRequest) (correlationId : String)
    (nowMs : Int) : Nats A × Call A :=
  match gw, request with
  | .disabled, _ => (s, .ended none false (some (.error (.other "mint backend not configured"))))
  | .nats _, .batch [] => (s, .ended none false (some (.ok (.results []))))
  | .nats gw, request =>
    ({ s with correlationIds := correlationId :: s.correlationIds },
      .subscribing (gw.intent correlationId nowMs request))

/-- A dropped call is no longer subscribed. -/
def dropCall (s : Nats A) : Call A → Option (Nats A × Call A)
  | .begun _ => some (s, .ended none false none)
  | .subscribing intent => some (s, .ended (some intent) false none)
  | .publishing intent => some (s.unsubscribe intent, .ended (some intent) false none)
  | .acking intent stored => some (s.unsubscribe intent, .ended (some intent) stored none)
  | .awaiting intent => some (s.unsubscribe intent, .ended (some intent) true none)
  | .ended _ _ _ => none

/-- The moves of `mint` and of `mint_batch`, which have one order: subscribe, publish, hear the
acknowledgement, wait for the reply. -/
def act (json : SerdeJson F) (gw : MintGateway A) (s : Nats A) :
    Call A → Move → Option (Nats A × Call A)
  | .begun request, .begin correlationId nowMs => some (begin gw s request correlationId nowMs)
  | .subscribing intent, .subscribe none => some (s.subscribe intent, .publishing intent)
  | .subscribing intent, .subscribe (some e) =>
    some (s, .ended (some intent) false
      (some (.error (.other ("subscribe " ++ intent.label ++ " reply: " ++ e)))))
  | .publishing intent, .publish none stored =>
    some (s.store intent stored, .acking intent stored)
  | .publishing intent, .publish (some e) stored =>
    some (fail (s.store intent stored) intent stored
      (.other ("publish " ++ intent.label ++ " intent (jetstream): " ++ e)))
  | .acking intent true, .ack none => some (s, .awaiting intent)
  | .acking intent stored, .ack (some e) =>
    some (fail s intent stored (.other (intent.label ++ " intent not acked by jetstream: " ++ e)))
  | .awaiting intent, .receive =>
    match s.subjects.waiting intent.replySubject with
    | some (payload :: _) =>
      some (s.unsubscribe intent,
        .ended (some intent) true (some (intent.read json payload)))
    | _ => none
  | .awaiting intent, .timeout => some (fail s intent true .replyTimeout)
  | .awaiting intent, .close =>
    some (fail s intent true (.other (intent.label ++ " reply stream closed")))
  | call, .drop => dropCall s call
  | _, _ => none

/-- The bridge replies to the `i`-th intent of the stream. -/
structure BridgeReply where
  i : Nat
  payload : List UInt8

/-- Any number of calls on one connection. -/
def system (json : SerdeJson F) (gw : MintGateway A) :
    Pool.System (Nats A) (Call A) Move BridgeReply where
  admits
    | .begun _ => true
    | _ => false
  act := act json gw
  world s e := (s.stored[e.i]?).map fun intent =>
    { s with subjects := s.subjects.publish intent.replySubject e.payload }

/-- `Uuid::new_v4` gives an id that it has not given before. -/
def NewId (s : Nats A) (_ : Call A) : Move → Prop
  | .begin correlationId _ => correlationId ∉ s.correlationIds
  | _ => True

instance (s : Nats A) (call : Call A) : (m : Move) → Decidable (NewId s call m)
  | .begin _ _ => inferInstanceAs (Decidable (_ ∉ _))
  | .subscribe _ => inferInstanceAs (Decidable True)
  | .publish _ _ => inferInstanceAs (Decidable True)
  | .ack _ => inferInstanceAs (Decidable True)
  | .receive => inferInstanceAs (Decidable True)
  | .timeout => inferInstanceAs (Decidable True)
  | .close => inferInstanceAs (Decidable True)
  | .drop => inferInstanceAs (Decidable True)

namespace Call

/-- The intent a call has made. -/
def intent : Call A → Option (MintIntent A)
  | .begun _ => none
  | .subscribing intent => some intent
  | .publishing intent => some intent
  | .acking intent _ => some intent
  | .awaiting intent => some intent
  | .ended intent _ _ => intent

/-- The intent of a call that is subscribed to its replies. -/
def subscribed : Call A → Option (MintIntent A)
  | .publishing intent => some intent
  | .acking intent _ => some intent
  | .awaiting intent => some intent
  | _ => none

/-- The intent of the call is in the stream. -/
def stored : Call A → Bool
  | .acking _ stored => stored
  | .awaiting _ => true
  | .ended _ stored _ => stored
  | _ => false

/-- What a call has put into the stream. -/
def storedIntents (call : Call A) : List (MintIntent A) :=
  if call.stored then call.intent.toList else []

/-- The correlation id of a call that has drawn one. -/
def ids (call : Call A) : List String :=
  call.intent.toList.map MintIntent.correlationId

end Call

/-- How a subscribed call can end: dropped or with an error; with a timeout or with the first
reply if it awaits one. -/
inductive Hears (json : SerdeJson F) (s : Nats A) (intent : MintIntent A) :
    Call A → Option (Except MintError MintAnswer) → Prop
  | dropped {call : Call A} : Hears json s intent call none
  | failed {call : Call A} {text : String} : Hears json s intent call (some (.error (.other text)))
  | timeout : Hears json s intent (.awaiting intent) (some (.error .replyTimeout))
  | reply {payload : List UInt8} {rest : List (List UInt8)}
      (waits : s.subjects.waiting intent.replySubject = some (payload :: rest)) :
      Hears json s intent (.awaiting intent) (some (intent.read json payload))

/-- What a move of a call can be. -/
inductive Acts (json : SerdeJson F) (gw : MintGateway A) (s : Nats A) :
    Call A → Move → Nats A → Call A → Prop
  | unasked {request : MintRequest} {m : Move} {result : Option (Except MintError MintAnswer)} :
      Acts json gw s (.begun request) m s (.ended none false result)
  | begun {request : MintRequest} {id : String} {nowMs : Int} {intent : MintIntent A}
      {nats : NatsMintGateway A} (made : intent = nats.intent id nowMs request) :
      Acts json gw s (.begun request) (.begin id nowMs)
        ⟨id :: s.correlationIds, s.subjects, s.stored⟩ (.subscribing intent)
  | subscribed {intent : MintIntent A} :
      Acts json gw s (.subscribing intent) (.subscribe none) (s.subscribe intent)
        (.publishing intent)
  | unsubscribed {intent : MintIntent A} {m : Move}
      {result : Option (Except MintError MintAnswer)}
      (heard : Hears json s intent (.subscribing intent) result) :
      Acts json gw s (.subscribing intent) m s (.ended (some intent) false result)
  | published {intent : MintIntent A} {stored : Bool} :
      Acts json gw s (.publishing intent) (.publish none stored) (s.store intent stored)
        (.acking intent stored)
  | unpublished {intent : MintIntent A} {stored : Bool} {e text : String} :
      Acts json gw s (.publishing intent) (.publish (some e) stored)
        ((s.store intent stored).unsubscribe intent)
        (.ended (some intent) stored (some (.error (.other text))))
  | acked {intent : MintIntent A} :
      Acts json gw s (.acking intent true) (.ack none) s (.awaiting intent)
  | ended {call : Call A} {m : Move} {intent : MintIntent A} {stored : Bool}
      {result : Option (Except MintError MintAnswer)} (open_ : call.subscribed = some intent)
      (same : call.stored = stored) (heard : Hears json s intent call result) :
      Acts json gw s call m (s.unsubscribe intent) (.ended (some intent) stored result)

variable {json : SerdeJson F} {gw : MintGateway A} {s later : Nats A} {call next : Call A} {m : Move}

theorem Call.intent_of_subscribed {intent : MintIntent A} (open_ : call.subscribed = some intent) :
    call.intent = some intent := by
  cases call with
  | begun _ => cases open_
  | subscribing _ => cases open_
  | ended _ _ _ => cases open_
  | publishing _ => exact open_
  | acking _ _ => exact open_
  | awaiting _ => exact open_

theorem acts_of_dropCall (acted : dropCall s call = some (later, next)) :
    Acts json gw s call .drop later next := by
  cases call with
  | begun request =>
    cases acted
    exact .unasked
  | subscribing intent =>
    cases acted
    exact .unsubscribed .dropped
  | publishing intent =>
    cases acted
    exact .ended rfl rfl .dropped
  | acking intent stored =>
    cases acted
    exact .ended rfl rfl .dropped
  | awaiting intent =>
    cases acted
    exact .ended rfl rfl .dropped
  | ended _ _ _ => cases acted

theorem acts_of_begin {request : MintRequest} {id : String} {nowMs : Int}
    (acted : begin gw s request id nowMs = (later, next)) :
    Acts json gw s (.begun request) (.begin id nowMs) later next := by
  unfold begin at acted
  split at acted
  · cases acted
    exact .unasked
  · cases acted
    exact .unasked
  · cases acted
    exact .begun rfl

/-- Every move of a call is one of these; a single mint and a batch differ in what they send alone.
-/
theorem acts_of_act (acted : act json gw s call m = some (later, next)) :
    Acts json gw s call m later next := by
  unfold act at acted
  split at acted
  · exact acts_of_begin (Option.some.inj acted)
  · cases acted
    exact .subscribed
  · cases acted
    exact .unsubscribed .failed
  · cases acted
    exact .published
  · cases acted
    exact .unpublished
  · cases acted
    exact .acked
  · cases acted
    exact .ended rfl rfl .failed
  · split at acted
    · next payload rest waits =>
      cases acted
      exact .ended rfl rfl (.reply waits)
    · cases acted
  · cases acted
    exact .ended rfl rfl .timeout
  · cases acted
    exact .ended rfl rfl .failed
  · exact acts_of_dropCall acted
  · cases acted

end MintGateway

end AggregatorBridge
