import AggregatorBridge.Grpc
import AggregatorBridge.Lib.Pool
import AggregatorBridge.Lib.Remote

/-!
# The stream key

One symmetric key, the SEK, seals every reading in the streams of the whole fleet. Redis holds
it wrapped by a key of Vault's, the KEK, and every instance of the bridge loads it when it
starts: `load_or_create_stream_cipher` reads the wrapped key and has Vault unwrap it, and
creates one if there is none or if what is there cannot be unwrapped.

Instances start side by side, so an instance is a process, and each command to Redis and each
request to Vault is a move of its own, with the answer that it got. The KEK is one and the same
during a run: `decrypt` says what it makes of a ciphertext. A request that does not come back
with what the KEK says fails for a passing reason.
-/

namespace AggregatorBridge

open Remote

/-! ## Vault -/

/-- Vault's transit engine, by what its KEK makes of a ciphertext. -/
structure VaultTransit where
  decrypt : String → Except String (List UInt8)

/-- How a request to Vault went. -/
inductive VaultReply where
  | answered
  /-- Refused, timed out, sealed, an expired token or an error of the server. -/
  | failed (reason : String)
  deriving DecidableEq, Repr

namespace VaultTransit

/-- `VaultTransitClient::unwrap`: the answer has to be 32 bytes. -/
def unwrap (vault : VaultTransit) (reply : VaultReply) (ciphertext : String) :
    Except String AesKey :=
  match reply with
  | .failed reason => .error reason
  | .answered =>
    match vault.decrypt ciphertext with
    | .error e => .error e
    | .ok raw =>
      if length : raw.length = 32 then .ok ⟨raw, length⟩
      else .error
        ("unwrapped key has wrong length: " ++ toString raw.length ++ " (expected 32)")

/-- `VaultTransitClient::wrap`, from the ciphertext that Vault answered with. -/
def wrapped (answer : Except String String) : Except String String :=
  match answer with
  | .error e => .error e
  | .ok ciphertext =>
    if ciphertext = "" then .error "Vault returned empty ciphertext" else .ok ciphertext

/-- The KEK unwraps the blob, as it stands in Redis, to this key. -/
def Opens (vault : VaultTransit) (blob : String) (sek : AesKey) : Prop :=
  vault.unwrap .answered (Text.trim blob) = .ok sek

instance (vault : VaultTransit) (blob : String) (sek : AesKey) :
    Decidable (vault.Opens blob sek) :=
  inferInstanceAs (Decidable (_ = _))

/-- The KEK unwraps the blob. -/
def Usable (vault : VaultTransit) (blob : String) : Prop :=
  ∃ sek, vault.Opens blob sek

theorem Opens.unique {vault : VaultTransit} {blob : String} {a b : AesKey}
    (first : vault.Opens blob a) (second : vault.Opens blob b) : a = b :=
  Except.ok.inj (first.symm.trans second)

end VaultTransit

/-! ## Loading the key -/

/-- An instance on its way through `load_or_create_stream_cipher`. -/
inductive SekStage where
  | reading
  | unwrapping (blob : String)
  /-- A fresh key is needed. `dead` is the blob that could not be unwrapped, if there was one:
  `rotate_dead_blob` is whether there was. -/
  | creating (dead : Option String)
  | wrapping (dead : Option String) (sek : AesKey)
  | setting (dead : Option String) (sek : AesKey) (blob : String)
  /-- Another instance was first. -/
  | rereading
  | adopting (blob : String)
  | ready (sek : AesKey)
  | failed (reason : String)
  deriving DecidableEq

namespace StreamKey

/-- The awaits of `load_or_create_stream_cipher`, each with what it is answered. -/
inductive Move where
  | get (reply : Except String Unit)
  | unwrap (reply : VaultReply)
  | random (bytes : Except String AesKey)
  | wrap (answer : Except String String)
  | set (reply : Reply)

variable (vault : VaultTransit)

/-- `SET NX`. -/
def setNx (blob : String) (stored : Option String) : Option String :=
  stored.or (some blob)

/-- The first `GET`. -/
def read (stored : Option String) : Except String Unit → SekStage
  | .error e => .failed ("read stream SEK from Redis: " ++ e)
  | .ok () =>
    match stored with
    | some blob => .unwrapping blob
    | none => .creating none

/-- A blob that cannot be unwrapped is taken for a dead one, whatever the error was. -/
def unwrapStored (blob : String) (reply : VaultReply) : SekStage :=
  match vault.unwrap reply (Text.trim blob) with
  | .ok sek => .ready sek
  | .error _ => .creating (some blob)

/-- A key is made of 32 random bytes, for nothing or for a blob that is taken for dead. -/
def create (dead : Option String) : Except String AesKey → SekStage
  | .ok sek => .wrapping dead sek
  | .error e => .failed ("SEK RNG failed: " ++ e)

/-- The new key is wrapped before it is stored, so that Redis never has it in the clear. -/
def wrapNew (dead : Option String) (sek : AesKey) (answer : Except String String) : SekStage :=
  match VaultTransit.wrapped answer with
  | .ok blob => .setting dead sek blob
  | .error e => .failed ("wrap new stream SEK: " ++ e)

/-- `SET` over a dead blob, `SET NX` otherwise. -/
def store (stored dead : Option String) (sek : AesKey) (blob : String) (reply : Reply) :
    Option String × SekStage :=
  match dead with
  | some _ =>
    (reply.effect (fun _ => some blob) stored,
      if reply = .ok then .ready sek else .failed "SET rotated stream SEK")
  | none =>
    (reply.effect (setNx blob) stored,
      if reply = .ok then if stored = none then .ready sek else .rereading
      else .failed "SET NX stream SEK")

/-- The second `GET`, which has to find something. -/
def reread (stored : Option String) : Except String Unit → SekStage
  | .error e => .failed ("re-read stream SEK after NX race: " ++ e)
  | .ok () =>
    match stored with
    | some blob => .adopting blob
    | none => .failed "re-read stream SEK after NX race: nil"

/-- The key of the instance that was first is taken, if Vault unwraps it. -/
def adopt (blob : String) (reply : VaultReply) : SekStage :=
  match vault.unwrap reply (Text.trim blob) with
  | .ok sek => .ready sek
  | .error e => .failed ("unwrap raced stream SEK: " ++ e)

/-- The moves of an instance in the order of the source. Any error of the unwrap leads to a new key.
-/
def act (stored : Option String) : SekStage → Move → Option (Option String × SekStage)
  | .reading, .get reply => some (stored, read stored reply)
  | .unwrapping blob, .unwrap reply => some (stored, unwrapStored vault blob reply)
  | .creating dead, .random bytes => some (stored, create dead bytes)
  | .wrapping dead sek, .wrap answer => some (stored, wrapNew dead sek answer)
  | .setting dead sek blob, .set reply => some (store stored dead sek blob reply)
  | .rereading, .get reply => some (stored, reread stored reply)
  | .adopting blob, .unwrap reply => some (stored, adopt vault blob reply)
  | _, _ => none

/-- Any number of instances on one Redis key, `gridtokenx:stream:sek`. Nobody else writes it. -/
def system : Pool.System (Option String) SekStage Move Empty where
  admits
    | .reading => true
    | _ => false
  act := act vault
  world _ e := e.elim

/-- How many moves an instance has left at most. -/
def left : SekStage → Nat
  | .reading => 7
  | .unwrapping _ => 6
  | .creating _ => 5
  | .wrapping _ _ => 4
  | .setting _ _ _ => 3
  | .rereading => 2
  | .adopting _ => 1
  | .ready _ => 0
  | .failed _ => 0

/-! ## The moves as cases -/

/-- What a move of an instance can be. -/
inductive Acts (stored : Option String) : SekStage → Move → Option String → SekStage → Prop
  | found {blob : String} (held : stored = some blob) :
      Acts stored .reading (.get (.ok ())) stored (.unwrapping blob)
  | empty (absent : stored = none) :
      Acts stored .reading (.get (.ok ())) stored (.creating none)
  | unread {e : String} :
      Acts stored .reading (.get (.error e)) stored (.failed ("read stream SEK from Redis: " ++ e))
  | unwrapped {blob : String} {reply : VaultReply} {sek : AesKey}
      (opened : vault.unwrap reply (Text.trim blob) = .ok sek) :
      Acts stored (.unwrapping blob) (.unwrap reply) stored (.ready sek)
  | dead {blob e : String} {reply : VaultReply}
      (error : vault.unwrap reply (Text.trim blob) = .error e) :
      Acts stored (.unwrapping blob) (.unwrap reply) stored (.creating (some blob))
  | created {dead : Option String} {sek : AesKey} :
      Acts stored (.creating dead) (.random (.ok sek)) stored (.wrapping dead sek)
  | noRandom {dead : Option String} {e : String} :
      Acts stored (.creating dead) (.random (.error e)) stored (.failed ("SEK RNG failed: " ++ e))
  | wrapped {dead : Option String} {sek : AesKey} {answer : Except String String} {blob : String}
      (accepted : VaultTransit.wrapped answer = .ok blob) :
      Acts stored (.wrapping dead sek) (.wrap answer) stored (.setting dead sek blob)
  | unwrappable {dead : Option String} {sek : AesKey} {answer : Except String String} {e : String}
      (error : VaultTransit.wrapped answer = .error e) :
      Acts stored (.wrapping dead sek) (.wrap answer) stored
        (.failed ("wrap new stream SEK: " ++ e))
  | rotated {dead : String} {sek : AesKey} {blob : String} :
      Acts stored (.setting (some dead) sek blob) (.set .ok) (some blob) (.ready sek)
  | unrotated {dead : String} {sek : AesKey} {blob : String} {reply : Reply} (lost : reply ≠ .ok) :
      Acts stored (.setting (some dead) sek blob) (.set reply)
        (reply.effect (fun _ => some blob) stored) (.failed "SET rotated stream SEK")
  | first {sek : AesKey} {blob : String} (absent : stored = none) :
      Acts stored (.setting none sek blob) (.set .ok) (some blob) (.ready sek)
  | raced {sek : AesKey} {blob : String} (held : stored ≠ none) :
      Acts stored (.setting none sek blob) (.set .ok) stored .rereading
  | unset {sek : AesKey} {blob : String} {reply : Reply} (lost : reply ≠ .ok) :
      Acts stored (.setting none sek blob) (.set reply) (reply.effect (setNx blob) stored)
        (.failed "SET NX stream SEK")
  | reread {blob : String} (held : stored = some blob) :
      Acts stored .rereading (.get (.ok ())) stored (.adopting blob)
  | vanished (absent : stored = none) :
      Acts stored .rereading (.get (.ok ())) stored
        (.failed "re-read stream SEK after NX race: nil")
  | unreread {e : String} :
      Acts stored .rereading (.get (.error e)) stored
        (.failed ("re-read stream SEK after NX race: " ++ e))
  | adopted {blob : String} {reply : VaultReply} {sek : AesKey}
      (opened : vault.unwrap reply (Text.trim blob) = .ok sek) :
      Acts stored (.adopting blob) (.unwrap reply) stored (.ready sek)
  | unadopted {blob e : String} {reply : VaultReply}
      (error : vault.unwrap reply (Text.trim blob) = .error e) :
      Acts stored (.adopting blob) (.unwrap reply) stored
        (.failed ("unwrap raced stream SEK: " ++ e))

variable {vault} {stored later : Option String} {p q : SekStage} {m : Move}

theorem acts_of_store {dead : Option String} {sek : AesKey} {blob : String} {reply : Reply} :
    Acts vault stored (.setting dead sek blob) (.set reply) (store stored dead sek blob reply).1
      (store stored dead sek blob reply).2 := by
  by_cases ok : reply = .ok
  · subst ok
    cases dead with
    | some dead => exact .rotated
    | none =>
      cases stored with
      | none => exact .first rfl
      | some old => exact .raced (Option.some_ne_none old)
  · cases dead with
    | some dead =>
      simp only [store, if_neg ok]
      exact .unrotated ok
    | none =>
      simp only [store, if_neg ok]
      exact .unset ok

/-- Every move of an instance is one of these. -/
theorem acts_of_act (acted : act vault stored p m = some (later, q)) :
    Acts vault stored p m later q := by
  unfold act at acted
  split at acted
  case h_1 reply =>
    cases acted
    cases reply with
    | error e => exact .unread
    | ok u =>
      cases stored with
      | none => exact .empty rfl
      | some blob => exact .found rfl
  case h_2 blob reply =>
    cases acted
    unfold unwrapStored
    split
    · next opened => exact .unwrapped opened
    · next error => exact .dead error
  case h_3 dead bytes =>
    cases acted
    cases bytes with
    | error e => exact .noRandom
    | ok sek => exact .created
  case h_4 dead sek answer =>
    cases acted
    unfold wrapNew
    split
    · next accepted => exact .wrapped accepted
    · next error => exact .unwrappable error
  case h_5 dead sek blob reply =>
    have stage : Acts vault stored (.setting dead sek blob) (.set reply)
        (store stored dead sek blob reply).1 (store stored dead sek blob reply).2 := acts_of_store
    rwa [Option.some.inj acted] at stage
  case h_6 reply =>
    cases acted
    cases reply with
    | error e => exact .unreread
    | ok u =>
      cases stored with
      | none => exact .vanished rfl
      | some blob => exact .reread rfl
  case h_7 blob reply =>
    cases acted
    unfold adopt
    split
    · next opened => exact .adopted opened
    · next error => exact .unadopted error
  case h_8 => cases acted

end StreamKey

end AggregatorBridge
