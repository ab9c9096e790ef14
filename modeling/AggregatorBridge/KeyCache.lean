import AggregatorBridge.Lib.Expiring
import AggregatorBridge.StreamCipher

/-!
# Device keys and their caches

A device has an Ed25519 key in Redis, under which its signatures are verified, an AES key, under
which its frames are decrypted, and, once its keys rotate, numbered versions of the latter,
wrapped by Vault. `SignatureVerifier` and `DeviceKeyRegistry` keep what they have read in three
caches. The first two are one piece of code twice, with other keys and lifetimes: a verdict, a
key or its absence, expires after a lifetime that depends on which it is, and the scan that
drops expired entries runs at most every thirty seconds. The third keeps every version that was
ever unwrapped.

A lookup is a process: it consults the cache for one device after the other, reads what is
missing with one `GET` or `MGET`, and stores it entry by entry. Other lookups, and whoever
provisions keys, may move in between.

Whoever provisions keys may put anything where a key should be: text, bytes that are no text, or no
string at all. Both commands have their answers read as `String`s. For a `GET` the last two are
errors. `MGET` answers for what is no string as for what is absent, and a string that is no text
fails the whole reply. A Redis that cannot be reached fails any of them.

`Source` and `stored` are ghosts: how a lookup came by a verdict, and what was put into the cache.
-/

namespace AggregatorBridge

open Remote Expiring

/-! ## Redis -/

/-- What is stored under the field of a key by whoever provisions devices, which need not be a key.
-/
inductive RedisValue where
  | text (value : String)
  /-- A string of bytes that are no UTF-8. -/
  | binary
  /-- Not a string: a list, a hash. -/
  | other
  deriving DecidableEq, Repr

/-- What a command that wants a `String` makes of a value. -/
def RedisValue.text? : RedisValue → Option String
  | text value => some value
  | _ => none

section

variable {α : Type} [DecidableEq α] (redis : Hash α RedisValue)

/-- `GET`, with the reply read as `Option<String>`. -/
def redisGet (key : α) : Except String (Option String) :=
  match AList.lookup key redis with
  | none => .ok none
  | some (.text value) => .ok (some value)
  | some .binary => .error "Invalid UTF-8"
  | some .other => .error "WRONGTYPE"

/-- One value in the reply to an `MGET`. -/
def redisMgetOne (key : α) : Except String (Option String) :=
  match AList.lookup key redis with
  | none => .ok none
  | some (.text value) => .ok (some value)
  | some .binary => .error "Invalid UTF-8"
  | some .other => .ok none

/-- `MGET`, with the reply read as `Vec<Option<String>>`. -/
def redisMget : List α → Except String (List (Option String))
  | [] => .ok []
  | key :: keys => do
    let value ← redisMgetOne redis key
    let values ← redisMget keys
    .ok (value :: values)

end

/-! ## Reading keys -/

/-- What the source takes from other crates: hexadecimal digits and points of the curve. -/
structure KeyCodecs (K : Type) where
  hexDecode : String → Except String (List UInt8)
  /-- `VerifyingKey::from_bytes`. -/
  verifyingKey : List UInt8 → Except String K

section

variable {K : Type} (codecs : KeyCodecs K)

/-- The bytes of a public key: 64 hexadecimal digits, or as they are. -/
def pubkeyBytes (meterId s : String) : Except String (List UInt8) :=
  if (Text.utf8 s).length = 64 then
    (codecs.hexDecode s).mapError
      ("Failed to decode hex public key for " ++ meterId ++ ": " ++ ·)
  else .ok (Text.utf8 s)

/-- `parse_ed25519_pubkey`: blanks around it aside, 64 hexadecimal digits or the bytes as they are,
32 of them and a point of the curve. -/
def parseEd25519Pubkey (meterId raw : String) : Except String K := do
  let bytes ← pubkeyBytes codecs meterId (Text.trim raw)
  if bytes = [] then .error ("Decoded public key is empty for meter: " ++ meterId)
  else if bytes.length = 32 then
    (codecs.verifyingKey bytes).mapError
      ("Invalid Ed25519 public key for meter " ++ meterId ++ ": " ++ ·)
  else .error ("Invalid public key length " ++ toString bytes.length ++
    " (expected 32) for meter: " ++ meterId)

/-- `decode_aes_key_hex`, with the length checked, so that a key that is returned can be used. -/
def decodeAesKeyHex (meterId raw : String) : Except String AesKey :=
  match codecs.hexDecode (Text.trim raw) with
  | .error e => .error ("Failed to decode hex enckey for " ++ meterId ++ ": " ++ e)
  | .ok bytes =>
    if length : bytes.length = 32 then .ok ⟨bytes, length⟩
    else .error ("enckey for " ++ meterId ++ " has wrong length: " ++ toString bytes.length ++
      " bytes (expected 32)")

end

/-! ## The caches -/

/-- A cache, and when its expired entries were dropped last. -/
structure PrunedCache (K V : Type) where
  map : Cache K V
  lastPruned : Instant

/-- `CACHE_PRUNE_INTERVAL`. -/
def cachePruneInterval : Nat := 30000000000

/-- `insert_pruned`, at `now`. What has expired is judged by the time of the caller. -/
def PrunedCache.insertPruned {K V : Type} [DecidableEq K] (cache : PrunedCache K V)
    (now stamp : Instant) (key : K) (entry : Entry V) : PrunedCache K V :=
  let cache :=
    if cachePruneInterval ≤ now - cache.lastPruned then ⟨prune stamp cache.map, now⟩ else cache
  { cache with map := AList.insert key entry cache.map }

/-- What distinguishes the two kinds of keys that are cached with a lifetime. -/
structure KeyKind (V : Type) where
  /-- The key in a value of Redis, for a device. -/
  parse : String → String → Except String V
  positiveTtl : Nat
  negativeTtl : Nat

namespace KeyKind

variable {V : Type} (kind : KeyKind V)

/-- How long a verdict lives; that a device has no key is believed for a shorter time. -/
def ttl (verdict : Option V) : Nat :=
  if verdict.isSome then kind.positiveTtl else kind.negativeTtl

/-- The verdict on what Redis holds for a device. -/
def verdict (device : String) : Option String → Except String (Option V)
  | none => .ok none
  | some raw => (kind.parse device raw).map some

end KeyKind

/-- `SignatureVerifier`'s keys, `gridtokenx:devices:{meter_id}:pubkey`. -/
def pubkeyKind {K : Type} (codecs : KeyCodecs K) (positiveTtl negativeTtl : Nat) : KeyKind K :=
  ⟨parseEd25519Pubkey codecs, positiveTtl, negativeTtl⟩

/-- `DeviceKeyRegistry`'s keys, `gridtokenx:devices:{meter_id}:enckey`. -/
def enckeyKind {K : Type} (codecs : KeyCodecs K) (positiveTtl negativeTtl : Nat) :
    KeyKind AesKey :=
  ⟨decodeAesKeyHex codecs, positiveTtl, negativeTtl⟩

namespace KeyCache

/-- A verdict that was put into the cache, with the answer of Redis it came from. -/
structure StoredKey (V : Type) where
  device : String
  raw : Option String
  verdict : Option V
  since : Instant

/-- The keys of one kind: in Redis, and in the cache. -/
structure Registry (V : Type) where
  redis : Hash String RedisValue
  cache : PrunedCache String (Option V)
  stored : List (StoredKey V)

/-- Where a lookup has a verdict from. -/
inductive Source (V : Type) where
  | missed
  | cached (verdict : Option V) (time : Instant)
  /-- Redis answered with `raw`. -/
  | read (raw : Option String) (verdict : Option V)

/-- The cache had nothing to say, and Redis is still to be asked. -/
def Source.isMissed {V : Type} : Source V → Bool
  | missed => true
  | _ => false

/-- What a lookup knows of a device so far. -/
structure Found (V : Type) where
  device : String
  source : Source V

/-- A verdict that is still to be put into the cache. -/
structure Put (V : Type) where
  device : String
  raw : Option String
  verdict : Option V

/-- Where a lookup is. The cache is asked for all devices first, then Redis for those it did not
know, and then each verdict is stored; other lookups move in between. -/
inductive KeyStage (V : Type) where
  | checking (found : List (Found V)) (rest : List String)
  | putting (found : List (Found V)) (puts : List (Put V))
  /-- The clock is read, and the lock is not taken. -/
  | storing (found : List (Found V)) (put : Put V) (stamp : Instant) (puts : List (Put V))
  | done (found : List (Found V))
  | failed (reason : String)

/-- A lookup of one device, `resolve_pubkey` and `get_device_aes_key`, or of several,
`verify_telemetry_signature_batch` and `get_device_aes_keys`. -/
structure KeyLookup (V : Type) where
  batch : Bool
  stage : KeyStage V

/-- A look into the cache, an answer of Redis, a look at the clock, a store, and an answer of Vault,
which only versions need. -/
inductive KeyMove where
  | check
  | redis (reply : Except String Unit)
  | stamp
  | store
  | vault (reply : VaultReply)

namespace KeyLookup

variable {V : Type} (kind : KeyKind V)

/-- `pubkey_cache_get` and `key_cache_get`. -/
def check (clock : Instant) (r : Registry V) (found : List (Found V)) (device : String)
    (rest : List String) : Registry V × KeyStage V :=
  match get clock device r.cache.map with
  | (some verdict, map) =>
    ({ r with cache := { r.cache with map := map } },
      .checking (found ++ [⟨device, .cached verdict clock⟩]) rest)
  | (none, map) =>
    ({ r with cache := { r.cache with map := map } },
      .checking (found ++ [⟨device, .missed⟩]) rest)

/-- What Redis answers for one device: by a `GET`, or in the reply to an `MGET`. -/
def answer (batch : Bool) (redis : Hash String RedisValue) (device : String) :
    Except String (Option String) :=
  if batch then redisMgetOne redis device else redisGet redis device

/-- What becomes of one device that the cache did not know. A malformed key is an error of a
single lookup; in a batch it counts as no key, and is not stored. -/
def resolve (batch : Bool) (redis : Hash String RedisValue) (f : Found V) :
    Except String (Found V × List (Put V)) :=
  match f.source with
  | .missed =>
    match answer batch redis f.device with
    | .error e => .error e
    | .ok raw =>
      match kind.verdict f.device raw with
      | .ok verdict => .ok (⟨f.device, .read raw verdict⟩, [⟨f.device, raw, verdict⟩])
      | .error e => if batch then .ok (⟨f.device, .read raw none⟩, []) else .error e
  | _ => .ok (f, [])

/-- One `GET` or `MGET` for all that is missing. An answer that is no text fails all of it. -/
def readMissed (batch : Bool) (redis : Hash String RedisValue) :
    List (Found V) → Except String (List (Found V) × List (Put V))
  | [] => .ok ([], [])
  | f :: rest =>
    match resolve kind batch redis f, readMissed batch redis rest with
    | .ok (f, puts), .ok (found, more) => .ok (f :: found, puts ++ more)
    | .error e, _ => .error e
    | _, .error e => .error e

/-- On to the next verdict to store, or to the end. -/
def next (found : List (Found V)) : List (Put V) → KeyStage V
  | [] => .done found
  | puts => .putting found puts

/-- With every device found in the cache there is nothing to read. -/
def read (batch : Bool) (redis : Hash String RedisValue) (found : List (Found V))
    (reply : Except String Unit) : KeyStage V :=
  if found.any (·.source.isMissed) then
    match reply with
    | .error e => .failed e
    | .ok () =>
      match readMissed kind batch redis found with
      | .ok (found, puts) => next found puts
      | .error e => .failed e
  else .done found

/-- The locked section of `pubkey_cache_put` and `key_cache_put`. -/
def store (clock : Instant) (r : Registry V) (found : List (Found V)) (put : Put V)
    (stamp : Instant) (puts : List (Put V)) : Registry V × KeyStage V :=
  match after stamp (kind.ttl put.verdict) with
  | some expires =>
    ({ r with
        cache := r.cache.insertPruned clock stamp put.device ⟨put.verdict, expires⟩
        stored := r.stored ++ [⟨put.device, put.raw, put.verdict, stamp⟩] },
      next found puts)
  | none => (r, .failed "overflow when adding duration to instant")

/-- The moves of a lookup, single or batch, in the order of the source. -/
def act (clock : Instant) (r : Registry V) (l : KeyLookup V) (m : KeyMove) :
    Option (Registry V × KeyStage V) :=
  match l.stage, m with
  | .checking found (device :: rest), .check => some (check clock r found device rest)
  | .checking found [], .redis reply => some (r, read kind l.batch r.redis found reply)
  | .putting found (put :: puts), .stamp => some (r, .storing found put clock puts)
  | .storing found put stamp puts, .store => some (store kind clock r found put stamp puts)
  | _, _ => none

end KeyLookup

/-! ## Versions -/

/-- A version that was put into the cache, with the wrapped key it came from. -/
structure StoredVersion where
  device : String
  kid : Int
  wrapped : String
  key : AesKey
  since : Instant
  deriving DecidableEq

/-- The versions of the AES keys: wrapped in Redis, `gridtokenx:devices:{id}:enckey:v{kid}`, and
unwrapped in the cache. -/
structure VersionedRegistry where
  redis : Hash (String × Int) RedisValue
  cache : Hash (String × Int) AesKey
  stored : List StoredVersion

/-- Where a lookup of one version is. -/
inductive VersionedStage where
  | checking
  | reading
  | unwrapping (wrapped : String)
  | storing (wrapped : String) (key : AesKey)
  | done (source : Source AesKey)
  | failed (reason : String)

/-- `get_device_aes_key_versioned`. -/
structure VersionedLookup where
  device : String
  kid : Int
  stage : VersionedStage

namespace VersionedLookup

/-- The cache is consulted without regard to time. -/
def check (clock : Instant) (r : VersionedRegistry) (device : String) (kid : Int) :
    VersionedStage :=
  match AList.lookup (device, kid) r.cache with
  | some key => .done (.cached (some key) clock)
  | none => .reading

/-- Redis was asked for a version. That there is none is an answer, and is not cached. -/
def read (vault : Option VaultTransit) (r : VersionedRegistry) (device : String) (kid : Int) :
    Except String Unit → VersionedStage
  | .error e => .failed e
  | .ok () =>
    match redisGet r.redis (device, kid), vault with
    | .error e, _ => .failed e
    | .ok none, _ => .done (.read none none)
    | .ok (some wrapped), some _ => .unwrapping wrapped
    | .ok (some _), none => .failed ("versioned key v" ++ toString kid ++ " present for " ++ device ++
        " but no Vault client configured to unwrap it")

/-- Vault was asked to unwrap; its error is not told apart from a dead version. -/
def unwrap (vault : VaultTransit) (device : String) (kid : Int) (wrapped : String)
    (reply : VaultReply) : VersionedStage :=
  match vault.unwrap reply (Text.trim wrapped) with
  | .ok key => .storing wrapped key
  | .error _ => .failed ("failed to unwrap GUEK v" ++ toString kid ++ " for " ++ device)

/-- The version comes into the cache, which has no lifetime and drops nothing. -/
def store (clock : Instant) (r : VersionedRegistry) (device : String) (kid : Int)
    (wrapped : String) (key : AesKey) : VersionedRegistry × VersionedStage :=
  ({ r with
      cache := AList.insert (device, kid) key r.cache
      stored := r.stored ++ [⟨device, kid, wrapped, key, clock⟩] },
    .done (.read (some wrapped) (some key)))

/-- The moves of a versioned lookup; with a version in the cache there is but one. -/
def act (vault : Option VaultTransit) (clock : Instant) (r : VersionedRegistry)
    (l : VersionedLookup) (m : KeyMove) : Option (VersionedRegistry × VersionedStage) :=
  match l.stage, m, vault with
  | .checking, .check, _ => some (r, check clock r l.device l.kid)
  | .reading, .redis reply, _ => some (r, read vault r l.device l.kid reply)
  | .unwrapping wrapped, .vault reply, some vault =>
    some (r, unwrap vault l.device l.kid wrapped reply)
  | .storing wrapped key, .store, _ => some (store clock r l.device l.kid wrapped key)
  | _, _, _ => none

end VersionedLookup

/-! ## Everything at once -/

/-- What all lookups share: the clock, the three caches, and Redis beside each. -/
structure KeyState (K : Type) where
  clock : Instant
  pubkeys : Registry K
  enckeys : Registry AesKey
  versioned : VersionedRegistry

/-- One call of any of the lookups. -/
inductive Lookup (K : Type) where
  | pubkey (l : KeyLookup K)
  | enckey (l : KeyLookup AesKey)
  | versioned (l : VersionedLookup)

/-- Time passes, and somebody provisions, rotates or removes a key. -/
inductive KeyChange where
  | tick (duration : Nat)
  | pubkey (device : String) (value : Option RedisValue)
  | enckey (device : String) (value : Option RedisValue)
  | version (device : String) (kid : Int) (value : Option RedisValue)

/-- The two kinds of keys with their lifetimes, and Vault, if there is one. -/
structure KeyConfig (K : Type) where
  pubkey : KeyKind K
  enckey : KeyKind AesKey
  vault : Option VaultTransit

variable {K : Type} (cfg : KeyConfig K)

/-- A fresh process, and nobody has provisioned anything yet. -/
def init : KeyState K :=
  ⟨0, ⟨∅, ⟨∅, 0⟩, []⟩, ⟨∅, ⟨∅, 0⟩, []⟩, ⟨∅, ∅, []⟩⟩

/-- A value is set, or deleted. -/
def assign {F : Type} [DecidableEq F] (field : F) (value : Option RedisValue)
    (h : Hash F RedisValue) : Hash F RedisValue :=
  match value with
  | some v => AList.insert field v h
  | none => AList.erase field h

/-- Each lookup moves the part of the state that is its own. -/
def act (s : KeyState K) : Lookup K → KeyMove → Option (KeyState K × Lookup K)
  | .pubkey l, m => (KeyLookup.act cfg.pubkey s.clock s.pubkeys l m).map fun (r, stage) =>
      ({ s with pubkeys := r }, .pubkey { l with stage := stage })
  | .enckey l, m => (KeyLookup.act cfg.enckey s.clock s.enckeys l m).map fun (r, stage) =>
      ({ s with enckeys := r }, .enckey { l with stage := stage })
  | .versioned l, m =>
    (VersionedLookup.act cfg.vault s.clock s.versioned l m).map fun (r, stage) =>
      ({ s with versioned := r }, .versioned { l with stage := stage })

/-- Time passes, and others provision, rotate and remove keys. Nobody but the lookups touches the
caches. -/
def world (s : KeyState K) : KeyChange → KeyState K
  | .tick duration => { s with clock := s.clock + duration }
  | .pubkey device value =>
    { s with pubkeys := { s.pubkeys with redis := assign device value s.pubkeys.redis } }
  | .enckey device value =>
    { s with enckeys := { s.enckeys with redis := assign device value s.enckeys.redis } }
  | .version device kid value =>
    { s with versioned :=
      { s.versioned with redis := assign (device, kid) value s.versioned.redis } }

/-- A lookup begins with the cache; one that is not a batch is about one device. -/
def begins {V : Type} (l : KeyLookup V) : Bool :=
  match l.stage with
  | .checking [] devices => l.batch || devices.length == 1
  | _ => false

/-- Any number of lookups of all kinds, at any times. -/
def system : Pool.System (KeyState K) (Lookup K) KeyMove KeyChange where
  admits
    | .pubkey l => begins l
    | .enckey l => begins l
    | .versioned ⟨_, _, .checking⟩ => true
    | .versioned _ => false
  act := act cfg
  world s change := some (world s change)

end KeyCache

end AggregatorBridge
