import AggregatorBridge.CheckedBilling
import AggregatorBridge.Ledger
import AggregatorBridge.Lib.Run
import AggregatorBridge.Lib.Text

/-!
# The durable bins

Every bin that changes is written through to a Redis hash: the task that handles a reading
changes the aggregator and sends the updated bin on a channel, both under one lock, and a single
writer takes the bins from the channel and writes them, one `HSET` after the other. A start of the
process loads what it finds.

`DurableBins` is this pipeline in its moves. Of the tasks only the one in the locked section is
there, for the others wait or are done. A crash can come between any two moves: what was in
memory is gone, the channel and the writer included, and the next start restores the hash in the
order in which a `HashMap` happens to yield it. Redis is healthy, and nothing is settled. Entries
that do not parse can come from anywhere at any time.

`updates` and `written` are ghosts: the locked updates, each with the aggregator after it, and
those of them whose write was executed.
-/

namespace AggregatorBridge

open Transition Remote

/-! ## The field of a bin -/

/-- How a UUID is displayed: 8, 4, 4, 4 and 12 digits. -/
def hyphenated (u : Uuid) : String :=
  String.ofList
    (Text.hexDigits 8 (u.toNat / 16 ^ 24) ++ '-' :: (Text.hexDigits 4 (u.toNat / 16 ^ 20) ++
      '-' :: (Text.hexDigits 4 (u.toNat / 16 ^ 16) ++ '-' ::
        (Text.hexDigits 4 (u.toNat / 16 ^ 12) ++ '-' :: Text.hexDigits 12 u.toNat))))

/-- `bin_field`, as it is written to Redis. -/
def binFieldText (key : BinKey) : String :=
  hyphenated key.1 ++ ":" ++ toString key.2.timestampMillis

/-! ## The store -/

/-- `serde_json` on bins. -/
structure BinCodec where
  json : BillingBin → String
  parse : String → Option BillingBin

namespace BinStore

/-- `BinStore::write`. -/
def write (codec : BinCodec) (bins : Hash String String) (bin : BillingBin) :
    Hash String String :=
  AList.insert (binFieldText bin.key) (codec.json bin) bins

/-- `BinStore::load_all`. -/
def loadAll (codec : BinCodec) (bins : Hash String String) : List BillingBin :=
  (Hash.values bins).filterMap codec.parse

end BinStore

/-! ## The pipeline -/

/-- A locked update: whose bin it was, and the aggregator after it. -/
structure BinUpdate where
  key : BinKey
  after : Aggregator

/-- A bin on its way to the hash, with the update it is of. -/
structure SentBin where
  update : BinUpdate
  bin : BillingBin

/-- The task in the locked section of `handle_iot_reading`. -/
inductive LockedSection where
  | entered (now : DateTime) (r : BillingReading)
  | updated (sent : Option SentBin)

/-- The ingester's aggregator with the path to Redis: the lock around it, the channel of the ordered
writer, the bin that the writer has in hand, and the hash. `updates` records what was done under the
lock. -/
structure DurableBins where
  agg : Aggregator
  lock : Option LockedSection
  channel : List SentBin
  /-- The bin that the writer has taken from the channel. -/
  writing : Option SentBin
  /-- The hash `gridtokenx:billing:bins`. -/
  bins : Hash String String
  updates : List BinUpdate
  written : List BinUpdate

/-- A step of a task, of the writer, or of the world around them. -/
inductive BinEvent where
  | lock (now : DateTime) (r : BillingReading)
  | handleReading
  | send
  | recv
  | hset
  /-- The process dies and starts again, with the bins loaded in this order. -/
  | crash (loaded : List BillingBin)
  /-- Someone writes an entry that is not a bin. -/
  | foreign (field text : String)

namespace DurableBins

/-- The first start. -/
def start : DurableBins :=
  ⟨Aggregator.new, none, [], none, ∅, [], []⟩

/-- The reading is billed under the lock. If that panics the lock goes with the task, and the
aggregator stays as the panic left it. -/
def handleReading (s : DurableBins) (now : DateTime) (r : BillingReading) : Option DurableBins :=
  match s.agg.checkedHandleReading now r with
  | .ok (agg, updated) =>
    let update : BinUpdate := ⟨r.key, agg⟩
    some { s with
      agg := agg
      updates := s.updates ++ [update]
      lock := some (.updated (updated.map fun bin => ⟨update, bin⟩)) }
  -- The task is gone and with it its lock, but not what it did.
  | .panic =>
    let agg := s.agg.afterPanic now r
    some { s with agg := agg, updates := s.updates ++ [⟨r.key, agg⟩], lock := none }
  | .error never => nomatch never

/-- The lock excludes other tasks, but not the writer: a bin can be on its way to Redis while the
next reading is being added to it. -/
def step (codec : BinCodec) (s : DurableBins) : BinEvent → Option DurableBins
  | .lock now r =>
    match s.lock with
    | none => some { s with lock := some (.entered now r) }
    | some _ => none
  | .handleReading =>
    match s.lock with
    | some (.entered now r) => s.handleReading now r
    | _ => none
  | .send =>
    match s.lock with
    | some (.updated sent) => some { s with channel := s.channel ++ sent.toList, lock := none }
    | _ => none
  | .recv =>
    match s.writing, s.channel with
    | none, sent :: rest => some { s with writing := some sent, channel := rest }
    | _, _ => none
  | .hset =>
    match s.writing with
    | some sent =>
      some { s with
        bins := BinStore.write codec s.bins sent.bin
        written := s.written ++ [sent.update]
        writing := none }
    | none => none
  | .crash loaded =>
    if loaded.isPerm (BinStore.loadAll codec s.bins) then
      some { s with
        agg := Aggregator.new.restoreBins loaded
        lock := none
        channel := []
        writing := none }
    else none
  | .foreign field text =>
    if codec.parse text = none then some { s with bins := AList.insert field text s.bins }
    else none

/-- `serde_json` reads back what it wrote, of the bin that is written. -/
def RoundTrips (codec : BinCodec) (s : DurableBins) : BinEvent → Prop
  | .hset => ∀ sent ∈ s.writing, codec.parse (codec.json sent.bin) = some sent.bin
  | _ => True

instance (codec : BinCodec) (s : DurableBins) : (e : BinEvent) → Decidable (s.RoundTrips codec e)
  | .hset => inferInstanceAs (Decidable (∀ sent ∈ s.writing, _))
  | .lock _ _ => inferInstanceAs (Decidable True)
  | .handleReading => inferInstanceAs (Decidable True)
  | .send => inferInstanceAs (Decidable True)
  | .recv => inferInstanceAs (Decidable True)
  | .crash _ => inferInstanceAs (Decidable True)
  | .foreign _ _ => inferInstanceAs (Decidable True)

/-- What a step can be. -/
inductive Moves (codec : BinCodec) (s : DurableBins) : BinEvent → DurableBins → Prop
  | locked (now : DateTime) (r : BillingReading) (free : s.lock = none) :
      Moves codec s (.lock now r) { s with lock := some (.entered now r) }
  | handled {now : DateTime} {r : BillingReading} {agg : Aggregator} {updated : Option BillingBin}
      (held : s.lock = some (.entered now r))
      (handled : s.agg.checkedHandleReading now r = .ok (agg, updated)) :
      Moves codec s .handleReading { s with
        agg := agg
        updates := s.updates ++ [⟨r.key, agg⟩]
        lock := some (.updated (updated.map fun bin => ⟨⟨r.key, agg⟩, bin⟩)) }
  | panicked {now : DateTime} {r : BillingReading} (held : s.lock = some (.entered now r)) :
      Moves codec s .handleReading { s with
        agg := s.agg.afterPanic now r
        updates := s.updates ++ [⟨r.key, s.agg.afterPanic now r⟩]
        lock := none }
  | sent {sent : Option SentBin} (held : s.lock = some (.updated sent)) :
      Moves codec s .send { s with channel := s.channel ++ sent.toList, lock := none }
  | received {sent : SentBin} {rest : List SentBin} (idle : s.writing = none)
      (next : s.channel = sent :: rest) :
      Moves codec s .recv { s with writing := some sent, channel := rest }
  | wrote {sent : SentBin} (busy : s.writing = some sent) :
      Moves codec s .hset { s with
        bins := BinStore.write codec s.bins sent.bin
        written := s.written ++ [sent.update]
        writing := none }
  | crashed {loaded : List BillingBin} (order : loaded.Perm (BinStore.loadAll codec s.bins)) :
      Moves codec s (.crash loaded) { s with
        agg := Aggregator.new.restoreBins loaded
        lock := none
        channel := []
        writing := none }
  | spoiled {field text : String} (unparsable : codec.parse text = none) :
      Moves codec s (.foreign field text) { s with bins := AList.insert field text s.bins }

/-- Every step is one of these, with what was read where it was read. -/
theorem moves_of_step {codec : BinCodec} {s t : DurableBins} {e : BinEvent}
    (moved : step codec s e = some t) : Moves codec s e t := by
  cases e with
  | lock now r =>
    simp only [step] at moved
    split at moved
    · next free =>
      cases moved
      exact .locked now r free
    · cases moved
  | handleReading =>
    simp only [step] at moved
    split at moved
    · next held =>
      unfold handleReading at moved
      split at moved
      · next handled =>
        cases moved
        exact .handled held handled
      · cases moved
        exact .panicked held
      · next never _ => exact never.elim
    · cases moved
  | send =>
    simp only [step] at moved
    split at moved
    · next held =>
      cases moved
      exact .sent held
    · cases moved
  | recv =>
    simp only [step] at moved
    split at moved
    · next idle next =>
      cases moved
      exact .received idle next
    · cases moved
  | hset =>
    simp only [step] at moved
    split at moved
    · next busy =>
      cases moved
      exact .wrote busy
    · cases moved
  | crash loaded =>
    simp only [step] at moved
    split at moved
    · next order =>
      cases moved
      exact .crashed (List.isPerm_iff.mp order)
    · cases moved
  | foreign field text =>
    simp only [step] at moved
    split at moved
    · next unparsable =>
      cases moved
      exact .spoiled unparsable
    · cases moved

end DurableBins

end AggregatorBridge
