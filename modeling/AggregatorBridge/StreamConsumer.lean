import AggregatorBridge.CheckedBilling
import AggregatorBridge.StreamEnvelope
import AggregatorBridge.ZoneIngester

/-!
# What becomes of a stream entry

The zone loop and the redelivery loop each take an entry apart on their own: the field map, the
bytes of `event`, the envelope, the event in it, and a reading at the end, which goes to billing.
Here an entry is what Redis has, names and values of bytes, and a consumer answers with the `Fate`
of the entry: whether it was acknowledged, and what billing was left with.

The zone loop reads up to 25 entries in one reply, and turns only names into strings; a name that is
none fails the reply, whatever is in its other entries. It has a task for each entry. The redelivery
loop goes through what it has claimed one by one and turns names and values into strings; what is
none ends the pass, with the entries that come after it.

`EntryPayload` is what an entry turns out to be for `Zone`, and the consumers do with it what `Zone`
has them do (`processEntry_eq`, `reclaimEntry_eq`). Redis is healthy here: a command is answered,
and an `XACK` takes effect. A panic ends the task that made it; a build that aborts on panics ends
the other tasks with it.
-/

namespace AggregatorBridge

open Checked

/-- The fields of an entry as Redis has them. -/
abbrev RawEntry := List (List UInt8 × List UInt8)

namespace RawEntry

/-- `HashMap<String, redis::Value>`. -/
def named (entry : RawEntry) : Option (List (String × List UInt8)) :=
  entry.mapM fun field => (Text.ofUtf8 field.1).map (·, field.2)

/-- `BTreeMap<String, String>`. -/
def texts (entry : RawEntry) : Option (List (String × String)) :=
  entry.mapM fun field => do some (← Text.ofUtf8 field.1, ← Text.ofUtf8 field.2)

end RawEntry

/-- The value of a name in a map that was filled in this order. -/
def lastOf {β : Type} (name : String) : List (String × β) → Option β
  | [] => none
  | field :: rest => (lastOf name rest).or (if field.1 = name then some field.2 else none)

theorem lastOf_map {β γ : Type} (f : β → γ) (name : String) (fields : List (String × β)) :
    lastOf name (fields.map fun field => (field.1, f field.2)) = (lastOf name fields).map f := by
  induction fields with
  | nil => rfl
  | cons field rest ih =>
    rw [List.map_cons, lastOf, ih, lastOf, Option.map_or]
    split <;> rfl

namespace RawEntry

/-- Where values are texts too, the two maps have the same names and values. -/
theorem named_of_texts {entry : RawEntry} {fields : List (String × String)}
    (converted : entry.texts = some fields) :
    ∃ values, entry.named = some values ∧
      values.map (fun v => (v.1, Text.ofUtf8 v.2)) = fields.map fun f => (f.1, some f.2) := by
  induction entry generalizing fields with
  | nil =>
    cases converted
    exact ⟨[], rfl, rfl⟩
  | cons field entry ih =>
    rw [texts, List.mapM_cons] at converted
    obtain ⟨pair, one, converted⟩ := Option.bind_eq_some_iff.mp converted
    obtain ⟨rest, others, converted⟩ := Option.bind_eq_some_iff.mp converted
    obtain ⟨name, nameText, one⟩ := Option.bind_eq_some_iff.mp one
    obtain ⟨value, valueText, one⟩ := Option.bind_eq_some_iff.mp one
    cases one
    cases converted
    obtain ⟨values, named, same⟩ := ih others
    refine ⟨(name, field.2) :: values, ?_, ?_⟩
    · rw [RawEntry.named, List.mapM_cons, nameText, Option.map_some, ← RawEntry.named, named]
      rfl
    · rw [List.map_cons, List.map_cons, same, valueText]

theorem lastOf_texts {entry : RawEntry} {fields : List (String × String)} {name : String}
    (converted : entry.texts = some fields) :
    ∃ values, entry.named = some values ∧
      lastOf name fields = (lastOf name values).bind Text.ofUtf8 := by
  obtain ⟨values, named, same⟩ := named_of_texts converted
  refine ⟨values, named, ?_⟩
  have options := congrArg (lastOf name) same
  rw [lastOf_map, lastOf_map] at options
  calc
    lastOf name fields = ((lastOf name fields).map some).join := by cases lastOf name fields <;> rfl
    _ = ((lastOf name values).map Text.ofUtf8).join := by rw [options]
    _ = (lastOf name values).bind Text.ofUtf8 := by cases lastOf name values <;> rfl

end RawEntry

/-- What a task finds: billing when it gets the lock, the time, and the user of the meter. -/
structure Meeting where
  agg : Aggregator
  now : DateTime
  userId : Uuid

/-- What became of an entry. -/
inductive Fate where
  /-- Its reading was handed to billing, which this is afterwards, and it was acknowledged. -/
  | billed (agg : Aggregator)
  | acknowledged
  /-- It stays pending. -/
  | left
  /-- The handler panicked, and it stays pending. -/
  | panicked

/-- What an ingester has for its entries. -/
structure StreamIngester (F : Type) where
  json : SerdeJson F
  crypto : StreamCrypto
  streamCipher : Option AesKey
  codec : DecimalCodec F
  newV5 : String → Uuid

namespace StreamIngester

variable {F : Type} [Float64 F] (ing : StreamIngester F)

/-- What `handle_iot_reading` hands to billing. -/
def billing (met : Meeting) (reading : DeviceReading F) : BillingReading :=
  .ofDevice ing.codec ing.newV5 met.userId reading

/-- `handle_iot_reading`. -/
def handleIotReading (met : Meeting) (reading : DeviceReading F) : Fate :=
  match met.agg.checkedHandleReading met.now (ing.billing met reading) with
  | .ok (agg, _) => .billed agg
  | .panic => .panicked

/-- The text of an entry, decoded or not, as both consumers go on with it. -/
def dispatch (met : Meeting) : Option String → Fate
  | none => .acknowledged
  | some text =>
    match StreamEvent.fromStr ing.json text with
    | none => .left
    | some event =>
      match event.reading with
      | some reading => ing.handleIotReading met reading
      | none => .acknowledged

/-- The task of `process_zone_stream`. -/
def processEntry (met : Meeting) (fields : List (String × List UInt8)) : Fate :=
  match lastOf "event" fields with
  | none => .left
  | some value =>
    ing.dispatch met
      ((Text.ofUtf8 value).bind (decodeEntry ing.json ing.crypto ing.streamCipher))

/-- One reply of `process_zone_stream`. -/
def processReply (reply : List (RawEntry × Meeting)) : List Fate :=
  match reply.mapM fun e => e.1.named.map (·, e.2) with
  | none => reply.map fun _ => .left
  | some entries => entries.map fun e => ing.processEntry e.2 e.1

/-- An entry that `reclaim_stale_messages` has claimed. -/
def reclaimEntry (met : Meeting) (fields : List (String × String)) : Fate :=
  ing.dispatch met
    ((lastOf "event" fields).bind (decodeEntry ing.json ing.crypto ing.streamCipher))

/-- The loop of `reclaim_stale_messages`. -/
def reclaimClaimed : List (RawEntry × Meeting) → List Fate
  | [] => []
  | (entry, met) :: rest =>
    match entry.texts with
    | none => .left :: rest.map fun _ => .left
    | some fields =>
      match ing.reclaimEntry met fields with
      | .panicked => .panicked :: rest.map fun _ => .left
      | fate => fate :: reclaimClaimed rest

/-! ## Entries as payloads -/

/-- What the text of an entry turns out to be, decoded or not. -/
def textPayload : Option String → EntryPayload F
  | none => .undecodable
  | some text =>
    match StreamEvent.fromStr ing.json text with
    | none => .unparsable
    | some event =>
      match event.reading with
      | some reading => .reading reading
      | none => .otherEvent

/-- What the value of `event` turns out to be. -/
def payload : Option (List UInt8) → EntryPayload F
  | none => .noEvent
  | some value => ing.textPayload
      ((Text.ofUtf8 value).bind (decodeEntry ing.json ing.crypto ing.streamCipher))

/-- What an entry turns out to be. -/
def payloadOf (entry : RawEntry) : EntryPayload F :=
  ing.payload (entry.named.bind (lastOf "event"))

/-- What a stage of a task makes of an entry. -/
def carryOut (met : Meeting) : EntryPayload F → Option TaskStage → Fate
  | .reading reading, some .handle => ing.handleIotReading met reading
  | _, some .ack => .acknowledged
  | _, _ => .left

variable {ing} {met : Meeting}

/-- The consumer does with a text what its payload says. -/
theorem dispatch_eq (decoded : Option String) :
    ing.dispatch met decoded =
      ing.carryOut met (ing.textPayload decoded) (ing.textPayload decoded).spawned := by
  cases decoded with
  | none => rfl
  | some text =>
    cases parsed : StreamEvent.fromStr ing.json text with
    | none =>
      simp only [dispatch, textPayload, parsed]
      rfl
    | some event =>
      cases read : event.reading with
      | none =>
        simp only [dispatch, textPayload, parsed, read]
        rfl
      | some reading =>
        simp only [dispatch, textPayload, parsed, read]
        rfl

/-- The loops differ only where there is no event. -/
theorem reclaimed_textPayload (decoded : Option String) :
    (ing.textPayload decoded).reclaimed = (ing.textPayload decoded).spawned := by
  cases decoded with
  | none => rfl
  | some text =>
    unfold textPayload
    dsimp only
    split
    · rfl
    · split <;> rfl

/-- A task of the zone loop does what `Zone` spawns for the payload. -/
theorem processEntry_eq {entry : RawEntry} {fields : List (String × List UInt8)}
    (converted : entry.named = some fields) :
    ing.processEntry met fields =
      ing.carryOut met (ing.payloadOf entry) (ing.payloadOf entry).spawned := by
  rw [payloadOf, converted, Option.bind_some]
  unfold processEntry
  cases lastOf "event" fields with
  | none => rfl
  | some value => exact dispatch_eq _

/-- An entry that was claimed goes the way `Zone` has it go. -/
theorem reclaimEntry_eq {entry : RawEntry} {fields : List (String × String)}
    (converted : entry.texts = some fields) :
    ing.reclaimEntry met fields =
      ing.carryOut met (ing.payloadOf entry) (ing.payloadOf entry).reclaimed := by
  obtain ⟨values, named, same⟩ := RawEntry.lastOf_texts converted
  unfold reclaimEntry
  rw [same, payloadOf, named, Option.bind_some]
  cases lastOf "event" values with
  | none => rfl
  | some value =>
    rw [payload, reclaimed_textPayload]
    exact dispatch_eq _

end StreamIngester

end AggregatorBridge
