import AggregatorBridge.Crypto
import AggregatorBridge.KeyCache

/-!
# Device keys, one and many

`SignatureVerifier` and `DeviceKeyRegistry` read keys in the same two ways. A single key is looked
up in the cache and then with a `GET`; for a batch, the cache is asked for every device first, the
INDICES of what it did not know are remembered, one `MGET` reads it, and the answers are filled in
by index. `KeyReader` is what the two have in common, with the field of Redis, the parser and the
texts of the errors that they do not.

Redis does not change, but it may hold anything: what is meant to be a key can be text, bytes that
are no text, or no string at all, and `KeyCache` says how the two commands answer that. It may not
be up, either. `reply` is how it answers a call that has to ask, and the calls that name none are
those that find it up.

`CallTimes` is what the clock showed at the n-th look into the cache and at the n-th store: for a
batch at the n-th device, and for single calls in the n-th of them. The lifetime of an entry is
added to the time without a bound; `KeyCache` has the one that ends in a panic.
-/

namespace AggregatorBridge

open Checked Remote Expiring

/-! ## Reading keys -/

/-- The cache of the verifier: a device without a registered key has an entry, too. -/
abbrev PubkeyCache (K : Type) := PrunedCache String (Option K)

/-- The clock of one call. -/
structure CallTimes where
  look : Nat → Instant
  look_mono : Monotone look
  /-- The time from which on a stored verdict lives. -/
  stamp : Nat → Instant
  /-- The time at which it is stored. -/
  store : Nat → Instant

/-- The vectors of a batch of lookups: a verdict or a placeholder for each device, and the
misses. -/
structure KeyColumns (V : Type) where
  vks : List (Option V)
  missIdx : List Nat
  missKeys : List String

/-- The columns before the first device. -/
def KeyColumns.empty {V : Type} : KeyColumns V :=
  ⟨[], [], []⟩

/-- What a service needs to read its kind of keys: where they are, how they are parsed, and how its
errors begin. -/
structure KeyReader (V : Type) where
  kind : KeyKind V
  field : String → String
  /-- What the errors of `get_with_retry` and `mget_with_retry` begin with. -/
  getFailed : String
  mgetFailed : String
  redis : Hash String RedisValue

namespace KeyReader

variable {V : Type} (r : KeyReader V) (times : CallTimes)

/-- `get_with_retry`. A reply that cannot be read is no better the second time. -/
def getWithRetry (key : String) : Except KeyError (Option String) :=
  (redisGet r.redis key).mapError fun e =>
    .unreachable (r.getFailed ++ key ++ " after reconnect: " ++ e)

/-- `mget_with_retry`: one reply for all keys, so one value that is no text fails them all. -/
def mgetWithRetry (keys : List String) : Except String (List (Option String)) :=
  (redisMget r.redis keys).mapError (r.mgetFailed ++ ·)

/-- A `GET` to which Redis answers, or does not, with the text of its last error. -/
def getGiven (key : String) : Except String Unit → Except KeyError (Option String)
  | .ok () => r.getWithRetry key
  | .error e => .error (.unreachable e)

/-- An `MGET` to which Redis answers, or does not. -/
def mgetGiven (keys : List String) : Except String Unit → Except String (List (Option String))
  | .ok () => r.mgetWithRetry keys
  | .error e => .error e

/-- `pubkey_cache_put` and `key_cache_put`. -/
def cachePut (i : Nat) (cache : PrunedCache String (Option V)) (device : String)
    (key : Option V) : PrunedCache String (Option V) :=
  cache.insertPruned (times.store i) (times.stamp i) device
    ⟨key, times.stamp i + r.kind.ttl key⟩

/-- `resolve_pubkey` and `get_device_aes_key`, where Redis answers so. -/
def resolveKeyGiven (reply : Except String Unit) (i : Nat) (device : String)
    (cache : PrunedCache String (Option V)) :
    Except KeyError (Option V) × PrunedCache String (Option V) :=
  match get (times.look i) device cache.map with
  | (some verdict, map) => (.ok verdict, { cache with map := map })
  | (none, map) =>
    match r.getGiven (r.field device) reply with
    | .error e => (.error e, { cache with map := map })
    | .ok none => (.ok none, r.cachePut times i { cache with map := map } device none)
    | .ok (some raw) =>
      match r.kind.parse device raw with
      | .ok key => (.ok (some key), r.cachePut times i { cache with map := map } device (some key))
      | .error e => (.error (.malformed e), { cache with map := map })

/-- A single lookup that finds Redis up. -/
def resolveKey (i : Nat) (device : String) (cache : PrunedCache String (Option V)) :
    Except KeyError (Option V) × PrunedCache String (Option V) :=
  r.resolveKeyGiven times (.ok ()) i device cache

/-- Single calls, one after the other. -/
def resolveEach (i : Nat) : List String → PrunedCache String (Option V) →
    PrunedCache String (Option V)
  | [], cache => cache
  | device :: rest, cache => resolveEach (i + 1) rest (r.resolveKey times i device cache).2

/-- The first loop of a batch: a verdict or a placeholder for each device, and the misses. -/
def consult (i : Nat) : List String → KeyColumns V → PrunedCache String (Option V) →
    KeyColumns V × PrunedCache String (Option V)
  | [], cols, cache => (cols, cache)
  | device :: rest, cols, cache =>
    match get (times.look i) device cache.map with
    | (some verdict, map) =>
      consult (i + 1) rest { cols with vks := cols.vks ++ [verdict] } { cache with map := map }
    | (none, map) =>
      consult (i + 1) rest
        { vks := cols.vks ++ [none]
          missIdx := cols.missIdx ++ [i]
          missKeys := cols.missKeys ++ [r.field device] }
        { cache with map := map }

/-- What an answer says about a device. A malformed key counts as none and is not cached. -/
def parseSlot (i : Nat) (cache : PrunedCache String (Option V)) (device : String) :
    Option String → Option V × PrunedCache String (Option V)
  | some raw =>
    match r.kind.parse device raw with
    | .ok key => (some key, r.cachePut times i cache device (some key))
    | .error _ => (none, cache)
  | none => (none, r.cachePut times i cache device none)

/-- The second loop: the answers are put where their placeholders are. -/
def backfill (devices : List String) :
    List (Option String × Nat) → List (Option V) → PrunedCache String (Option V) →
      Checked String (List (Option V)) × PrunedCache String (Option V)
  | [], out, cache => (.ok out, cache)
  | (slot, i) :: rest, out, cache =>
    match devices[i]? with
    | none => (.panic, cache)
    | some device =>
      if i < out.length then
        backfill devices rest (out.set i (r.parseSlot times i cache device slot).1)
          (r.parseSlot times i cache device slot).2
      else (.panic, (r.parseSlot times i cache device slot).2)

/-- The keys of a batch, where Redis answers so. It is not asked if there are no misses. -/
def resolveKeysGiven (reply : Except String Unit) (devices : List String)
    (cache : PrunedCache String (Option V)) :
    Checked String (List (Option V)) × PrunedCache String (Option V) :=
  let (cols, cache) := r.consult times 0 devices KeyColumns.empty cache
  if cols.missKeys.isEmpty then (.ok cols.vks, cache)
  else
    match r.mgetGiven cols.missKeys reply with
    | .error e => (.error e, cache)
    | .ok raw => r.backfill times devices (raw.zip cols.missIdx) cols.vks cache

/-- A batch of lookups that finds Redis up. -/
def resolveKeys (devices : List String) (cache : PrunedCache String (Option V)) :
    Checked String (List (Option V)) × PrunedCache String (Option V) :=
  r.resolveKeysGiven times (.ok ()) devices cache

end KeyReader

/-! ## The two services -/

/-- What the services are configured with, what they take from other crates, and Redis. -/
structure KeyServices (K : Type) where
  codecs : KeyCodecs K
  bs58Decode : String → Except String (List UInt8)
  /-- `VerifyingKey::verify` of a message and a 64-byte signature. -/
  verify : K → List UInt8 → List UInt8 → Bool
  pubkeyPositiveTtl : Nat
  pubkeyNegativeTtl : Nat
  enckeyPositiveTtl : Nat
  enckeyNegativeTtl : Nat
  redis : Hash String RedisValue

/-- The field under which the key of a device is registered, by the logical name in its frames. -/
def pubkeyField (meterId : String) : String :=
  "gridtokenx:devices:" ++ meterId ++ ":pubkey"

/-- The field of the key that a device encrypts its frames under. -/
def enckeyField (meterId : String) : String :=
  "gridtokenx:devices:" ++ meterId ++ ":enckey"

/-- One item of a batch to verify. -/
structure SignedItem where
  meterId : String
  payload : List UInt8
  signature : List UInt8
  signature_length : signature.length = 64

namespace KeyServices

variable {K : Type} (svc : KeyServices K) (times : CallTimes)

/-- The keys of `SignatureVerifier`. -/
def pubkeys : KeyReader K where
  kind := pubkeyKind svc.codecs svc.pubkeyPositiveTtl svc.pubkeyNegativeTtl
  field := pubkeyField
  getFailed := "Redis lookup failed for "
  mgetFailed := "Redis MGET failed after reconnect: "
  redis := svc.redis

/-- The keys of `DeviceKeyRegistry`. -/
def enckeys : KeyReader AesKey where
  kind := enckeyKind svc.codecs svc.enckeyPositiveTtl svc.enckeyNegativeTtl
  field := enckeyField
  getFailed := "Redis enckey lookup failed for "
  mgetFailed := "Redis enckey MGET failed after reconnect: "
  redis := svc.redis

/-- The verifier of a single call: its keys are what the call would resolve. -/
def verifier (i : Nat) (cache : PubkeyCache K) : SignatureVerifier K where
  resolvePubkey meterId := (svc.pubkeys.resolveKey times i meterId cache).1
  bs58Decode := svc.bs58Decode
  verify := svc.verify

/-- `verify_telemetry_signature`, and the cache it leaves behind. -/
def verifyTelemetrySignature (i : Nat) (meterId : String) (payload : List UInt8)
    (signatureBase58 : String) (cache : PubkeyCache K) : Except String Bool × PubkeyCache K :=
  ((svc.verifier times i cache).verifyTelemetrySignature meterId payload signatureBase58,
    (svc.pubkeys.resolveKey times i meterId cache).2)

/-- Single calls, one after the other, and the cache they leave behind. -/
def verifyEach (bs58Encode : List UInt8 → String) (i : Nat) :
    List SignedItem → PubkeyCache K → PubkeyCache K
  | [], cache => cache
  | item :: rest, cache =>
    verifyEach bs58Encode (i + 1) rest
      (svc.verifyTelemetrySignature times i item.meterId item.payload
        (bs58Encode item.signature) cache).2

/-- One job of the verification of a batch. -/
def verifyJob (vk : Option K) (payload sig : List UInt8) : Bool :=
  match vk with
  | some verifyingKey => svc.verify verifyingKey payload sig
  | none => false

/-- The jobs, each with the payload and the signature at its index. -/
def verifyJobs (payloads signatures : List (List UInt8)) (i : Nat) :
    List (Option K) → Checked String (List Bool)
  | [] => .ok []
  | vk :: rest => do
    let payload ← index payloads i
    let sig ← index signatures i
    let results ← verifyJobs payloads signatures (i + 1) rest
    .ok (svc.verifyJob vk payload sig :: results)

/-- `verify_telemetry_signature_batch`, where Redis answers so. -/
def verifyTelemetrySignatureBatchGiven (reply : Except String Unit) (meterIds : List String)
    (payloads signatures : List (List UInt8)) (cache : PubkeyCache K) :
    Checked String (List Bool) × PubkeyCache K :=
  if meterIds.length ≠ payloads.length ∨ meterIds.length ≠ signatures.length then
    (.error "Mismatched batch lengths", cache)
  else if meterIds.isEmpty then (.ok [], cache)
  else
    let (vks, cache) := svc.pubkeys.resolveKeysGiven times reply meterIds cache
    (vks >>= svc.verifyJobs payloads signatures 0, cache)

/-- A batch that finds Redis up. -/
def verifyTelemetrySignatureBatch (meterIds : List String) (payloads signatures : List (List UInt8))
    (cache : PubkeyCache K) : Checked String (List Bool) × PubkeyCache K :=
  svc.verifyTelemetrySignatureBatchGiven times (.ok ()) meterIds payloads signatures cache

/-- `get_device_aes_key`. -/
def getDeviceAesKey (i : Nat) (meterId : String) (cache : PrunedCache String (Option AesKey)) :
    Except KeyError (Option AesKey) × PrunedCache String (Option AesKey) :=
  svc.enckeys.resolveKey times i meterId cache

/-- `get_device_aes_keys`. -/
def getDeviceAesKeys (meterIds : List String) (cache : PrunedCache String (Option AesKey)) :
    Checked String (List (Option AesKey)) × PrunedCache String (Option AesKey) :=
  svc.enckeys.resolveKeys times meterIds cache

end KeyServices

end AggregatorBridge
