import AggregatorBridge.Rest
import AggregatorBridge.Lib.Pool
import AggregatorBridge.Lib.Remote

/-!
# The invocation counter of encrypted frames

`ingest_private_network` handles an encrypted frame in three steps: it authenticates the frame,
with its device and its counter as associated data; it has a script in Redis compare the counter
with the last one of the device and store it; and it goes on with the plaintext. Requests overlap,
and between the steps of one the others move. The script runs as a whole.

The script compares numbers of Lua, which are doubles. `round` is the conversion, to any linear
order.

A request is a process of a pool here. `authenticateEnvelope` and `afterCounter` are the two halves
of `decryptDlmsEnvelope`, and a request that nobody interrupts is answered as `ingestPrivateNetwork`
answers it (`answered_alone`). The frames that the script let through and the ones that were
accepted are remembered in two ghosts, the latest first.
-/

namespace AggregatorBridge

open Remote Transition

/-- An envelope that was opened. -/
structure OpenedFrame where
  counter : Int
  nonce : List UInt8
  ciphertext : List UInt8
  plaintext : List UInt8
  deriving DecidableEq

/-- The associated data of a frame. -/
def frameAad (deviceId : String) (counter : Int) : List UInt8 :=
  Text.utf8 (deviceId ++ ":" ++ toString counter)

theorem frameAad_inj {d d' : String} {c c' : Int} (same : frameAad d c = frameAad d' c') :
    d = d' ∧ c = c' :=
  Text.joined_inj (Text.utf8_inj same)

/-- What a handler meets outside at a moment: the registries, the clock, the stream. -/
structure Surroundings (F K : Type) where
  verifier : SignatureVerifier K
  now : DateTime
  newV4 : Nat → Uuid
  disseminate : DeviceReading F → Bool
  getDeviceAesKey : String → Option Int → Except String (Option (List UInt8))

/-- The services as a request meets them at one of its awaits. -/
def RestServices.within {F K : Type} (svc : RestServices F K) (w : Surroundings F K) :
    RestServices F K :=
  { svc with
    verifier := w.verifier
    now := w.now
    newV4 := w.newV4
    disseminate := w.disseminate
    getDeviceAesKey := w.getDeviceAesKey }

section

variable {F K : Type} (svc : RestServices F K)

/-! ## The two halves of `decrypt_dlms_envelope` -/

/-- The frame, authenticated and decrypted. -/
def authenticateEnvelope (deviceId : String) (payload : Json F) : Except String OpenedFrame :=
  match payload.get "enc" with
  | none => .error "missing 'enc' envelope"
  | some enc =>
    match (enc.get "counter").bind Json.asI64 with
    | none => .error "missing/invalid counter"
    | some counter =>
      let kid := (enc.get "kid").bind Json.asI64
      let nonceB64 := ((enc.get "nonce").bind Json.asStr).getD ""
      let ctB64 := ((enc.get "ciphertext").bind Json.asStr).getD ""
      match (svc.base64Decode nonceB64).filter (·.length = 12) with
      | none => .error "nonce must be 12 bytes base64"
      | some nonce =>
        match svc.base64Decode ctB64 with
        | none => .error "ciphertext not base64"
        | some ct =>
          match svc.getDeviceAesKey deviceId kid with
          | .error e => .error ("key lookup failed: " ++ e)
          | .ok none =>
            match kid with
            | some v => .error ("no AES key v" ++ toString v ++ " for " ++ deviceId)
            | none => .error ("no AES key for " ++ deviceId)
          | .ok (some key) =>
            match svc.gcmDecrypt key nonce ct (frameAad deviceId counter) with
            | none => .error "GCM auth/decrypt failed"
            | some plaintext => .ok ⟨counter, nonce, ct, plaintext⟩

/-- What becomes of an opened frame when the script has answered. -/
def afterCounter (frame : OpenedFrame) : Except String Bool → DecryptOutcome F
  | .error e => .bad ("counter check failed: " ++ e)
  | .ok false => .replay
  | .ok true =>
    match svc.fromSlice frame.plaintext with
    | .error e => .bad ("decrypted payload not JSON: " ++ e)
    | .ok inner => .ok inner

/-- The handler of the source in one piece is its two halves around the script. -/
theorem decryptDlmsEnvelope_eq (deviceId : String) (payload : Json F) :
    decryptDlmsEnvelope svc deviceId payload =
      match authenticateEnvelope svc deviceId payload with
      | .error e => .bad e
      | .ok frame => afterCounter svc frame (svc.checkAndBumpCounter deviceId frame.counter) := by
  unfold decryptDlmsEnvelope authenticateEnvelope
  cases payload.get "enc" with
  | none => rfl
  | some enc =>
    dsimp only
    cases (enc.get "counter").bind Json.asI64 with
    | none => rfl
    | some counter =>
      dsimp only
      cases (svc.base64Decode (((enc.get "nonce").bind Json.asStr).getD "")).filter (·.length = 12) with
      | none => rfl
      | some nonce =>
        dsimp only
        cases svc.base64Decode (((enc.get "ciphertext").bind Json.asStr).getD "") with
        | none => rfl
        | some ct =>
          dsimp only
          cases svc.getDeviceAesKey deviceId ((enc.get "kid").bind Json.asI64) with
          | error e => rfl
          | ok key =>
            cases key with
            | none => cases (enc.get "kid").bind Json.asI64 <;> rfl
            | some key =>
              have same : Text.utf8 (deviceId ++ ":" ++ toString counter) =
                frameAad deviceId counter := rfl
              dsimp only
              rw [same]
              cases svc.gcmDecrypt key nonce ct (frameAad deviceId counter) with
              | none => rfl
              | some plaintext => rfl

/-- A frame that was opened is authentic for the device that was named. -/
theorem gcm_of_authenticateEnvelope {deviceId : String} {payload : Json F} {frame : OpenedFrame}
    (opened : authenticateEnvelope svc deviceId payload = .ok frame) :
    ∃ key, svc.gcmDecrypt key frame.nonce frame.ciphertext (frameAad deviceId frame.counter) =
      some frame.plaintext := by
  unfold authenticateEnvelope at opened
  split at opened
  · cases opened
  · split at opened
    · cases opened
    · dsimp only at opened
      split at opened
      · cases opened
      · split at opened
        · cases opened
        · split at opened
          · cases opened
          · split at opened <;> cases opened
          · next key _ =>
            split at opened
            · cases opened
            · next decrypted =>
              cases opened
              exact ⟨key, decrypted⟩

end

/-! ## Requests -/

/-- Where a request is. The counter of an answer is that of the frame it is an answer to. -/
inductive FrameStage (F : Type) where
  | received (req : PrivateNetworkPayload F)
  /-- The frame is authentic, and the script is next. -/
  | authentic (req : PrivateNetworkPayload F) (frame : OpenedFrame)
  /-- The script let the frame through. -/
  | bumped (req : PrivateNetworkPayload F) (frame : OpenedFrame)
  | answered (req : PrivateNetworkPayload F) (counter : Option Int) (answer : RestAnswer F)
  /-- The client went away before there was an answer. -/
  | dropped (req : PrivateNetworkPayload F)

namespace InvocationCounter

/-- A frame that the script let through. -/
structure Bump where
  deviceId : String
  counter : Int
  nonce : List UInt8
  ciphertext : List UInt8
  deriving DecidableEq

/-- The counters under `gridtokenx:devices:{meter_id}:ic`, and the two ghosts. -/
structure Store where
  counters : Hash String Int
  bumped : List Bump
  /-- Device and counter of the frames that were accepted. -/
  accepted : List (String × Int)

/-- Redis before the first frame. -/
def Store.empty : Store :=
  ⟨∅, [], []⟩

/-- A request authenticates its frame, has the script run, and finishes, or its handler is dropped
at one of these awaits. -/
inductive Move (F K : Type) where
  | authenticate (w : Surroundings F K)
  /-- The script runs, or Redis cannot be reached, with this error. -/
  | script (reply : Reply) (e : String)
  | finish (w : Surroundings F K)
  | drop

variable {R : Type} [LinearOrder R] (round : Int → R)

/-- The script returns 0: `tonumber(cur) >= tonumber(ARGV[1])`. -/
def refuses (stored : Option Int) (counter : Int) : Bool :=
  match stored with
  | some cur => decide (round cur ≥ round counter)
  | none => false

/-- What the script does to the store. -/
def checkAndBump (deviceId : String) (frame : OpenedFrame) (store : Store) : Store :=
  if refuses round (store.counters.lookup deviceId) frame.counter then store
  else { store with
    counters := store.counters.insert deviceId frame.counter
    bumped := ⟨deviceId, frame.counter, frame.nonce, frame.ciphertext⟩ :: store.bumped }

/-- What `check_and_bump_counter` returns. -/
def counterResult (stored : Option Int) (counter : Int) (e : String) : Reply → Except String Bool
  | .ok => .ok (!refuses round stored counter)
  | _ => .error e

variable {F K : Type} [Float64 F] (svc : RestServices F K) (env : Env)

/-- The answer to a request, from what its envelope turned out to be. -/
def answerOutcome (svc : RestServices F K) (deviceId : String) : DecryptOutcome F → RestAnswer F
  | .ok inner => ingestRecovered svc env true "dlms" deviceId inner
  | .replay => refuse .conflict "replayed invocation counter"
  | .bad e => refuse .badRequest ("decrypt failed: " ++ e)

/-- The first step of a request; one that is not encrypted needs no other. -/
def authenticate (svc : RestServices F K) (req : PrivateNetworkPayload F) : FrameStage F :=
  if lowercase req.protocol = "dlms-enc" then
    match authenticateEnvelope svc req.deviceId req.payload with
    | .error e => .answered req none (answerOutcome env svc req.deviceId (.bad e))
    | .ok frame => .authentic req frame
  else
    .answered req none (ingestRecovered svc env false req.protocol req.deviceId req.payload)

/-- A request that was let through goes on; any other answer of the script ends it. -/
def afterScript (req : PrivateNetworkPayload F) (frame : OpenedFrame)
    (result : Except String Bool) : FrameStage F :=
  if result.toOption = some true then .bumped req frame
  else .answered req (some frame.counter)
    (answerOutcome env svc req.deviceId (afterCounter svc frame result))

/-- What is left of the handler once the script has let the frame pass. -/
def finish (svc : RestServices F K) (req : PrivateNetworkPayload F) (frame : OpenedFrame) :
    RestAnswer F :=
  answerOutcome env svc req.deviceId (afterCounter svc frame (.ok true))

/-- A request that is accepted is on record, with the counter of its frame. -/
def Store.accept (store : Store) (deviceId : String) (counter : Int) (answer : RestAnswer F) :
    Store :=
  if answer.status = .accepted then
    { store with accepted := (deviceId, counter) :: store.accepted }
  else store

/-- The handler await by await. The surroundings may be others at each, and the counter is stored
before the reading is accepted. -/
def act (store : Store) : FrameStage F → Move F K → Option (Store × FrameStage F)
  | .received req, .authenticate w => some (store, authenticate env (svc.within w) req)
  | .authentic req frame, .script reply e =>
    some (reply.effect (checkAndBump round req.deviceId frame) store,
      afterScript svc env req frame
        (counterResult round (store.counters.lookup req.deviceId) frame.counter e reply))
  | .bumped req frame, .finish w =>
    let answer := finish env (svc.within w) req frame
    some (store.accept req.deviceId frame.counter answer,
      .answered req (some frame.counter) answer)
  | .received req, .drop => some (store, .dropped req)
  | .authentic req _, .drop => some (store, .dropped req)
  | .bumped req _, .drop => some (store, .dropped req)
  | _, _ => none

/-- Any number of requests that share the counters. -/
def system : Pool.System Store (FrameStage F) (Move F K) Empty where
  admits
    | .received _ => true
    | _ => false
  act := act round svc env
  world _ e := e.elim

/-! ## What a move can be -/

/-- No answer to a plaintext is a 409. -/
theorem ingestRecovered_status_ne {wasEncrypted : Bool} {protocol deviceId : String}
    {payload : Json F} :
    (ingestRecovered svc env wasEncrypted protocol deviceId payload).status ≠ .conflict := by
  have read {protocol : String} :
      (readAndDisseminate svc protocol deviceId payload).status ≠ .conflict := by
    have told {d : Disseminated F} : (disseminateReading svc d).status ≠ .conflict := by
      unfold disseminateReading
      split <;> exact nofun
    unfold readAndDisseminate
    split
    · exact told
    · split
      · exact told
      · exact nofun
  have gate {code : StatusCode}
      (closed : secureModeGate env.secureModeEnabled wasEncrypted = some code) :
      code ≠ .conflict := by
    unfold secureModeGate at closed
    split at closed
    · cases closed
      exact nofun
    · cases closed
  have failure {result : Except String Bool} {code : StatusCode}
      (failed : sigFailureStatus result env.signatureEnforcementDisabled = some code) :
      code ≠ .conflict := by
    unfold sigFailureStatus at failed
    split at failed
    · cases failed
    · split at failed
      · cases failed
      · cases failed
        exact nofun
      · cases failed
        exact nofun
  unfold ingestRecovered
  split
  · next closed => exact gate closed
  · dsimp only
    split
    · split
      · exact read
      · split
        · next failed =>
          split <;> exact failure failed
        · exact read
    · exact nofun

/-- The tag of a frame is right for the device and the counter. -/
def Authentic (deviceId : String) (frame : OpenedFrame) : Prop :=
  ∃ key, svc.gcmDecrypt key frame.nonce frame.ciphertext (frameAad deviceId frame.counter) =
    some frame.plaintext

/-- What a move can be. -/
inductive Acts (store : Store) : FrameStage F → Move F K → Store → FrameStage F → Prop
  | rejected {req : PrivateNetworkPayload F} {w : Surroundings F K} {answer : RestAnswer F}
      (unlike : answer.status ≠ .conflict) :
      Acts store (.received req) (.authenticate w) store (.answered req none answer)
  | opened {req : PrivateNetworkPayload F} {w : Surroundings F K} {frame : OpenedFrame}
      (authentic : Authentic svc req.deviceId frame) :
      Acts store (.received req) (.authenticate w) store (.authentic req frame)
  | unheard {req : PrivateNetworkPayload F} {frame : OpenedFrame} {reply : Reply} {e : String}
      {answer : RestAnswer F} (error : reply ≠ .ok) (unlike : answer.status ≠ .conflict) :
      Acts store (.authentic req frame) (.script reply e)
        (reply.effect (checkAndBump round req.deviceId frame) store)
        (.answered req (some frame.counter) answer)
  | refused {req : PrivateNetworkPayload F} {frame : OpenedFrame} {e : String}
      {answer : RestAnswer F}
      (old : refuses round (store.counters.lookup req.deviceId) frame.counter = true) :
      Acts store (.authentic req frame) (.script .ok e) store
        (.answered req (some frame.counter) answer)
  | passed {req : PrivateNetworkPayload F} {frame : OpenedFrame} {e : String}
      (new : refuses round (store.counters.lookup req.deviceId) frame.counter = false) :
      Acts store (.authentic req frame) (.script .ok e) (checkAndBump round req.deviceId frame store)
        (.bumped req frame)
  | finished {req : PrivateNetworkPayload F} {frame : OpenedFrame} {w : Surroundings F K} :
      Acts store (.bumped req frame) (.finish w)
        (store.accept req.deviceId frame.counter (finish env (svc.within w) req frame))
        (.answered req (some frame.counter) (finish env (svc.within w) req frame))
  | dropped {p : FrameStage F} {req : PrivateNetworkPayload F} :
      Acts store p .drop store (.dropped req)

variable {round svc env} {store later : Store} {p q : FrameStage F} {m : Move F K}

/-- Every move of a request is one of these, with the answer of the script where it was asked. -/
theorem acts_of_act (acted : act round svc env store p m = some (later, q)) :
    Acts round svc env store p m later q := by
  unfold act at acted
  split at acted
  case h_1 req w =>
    cases acted
    unfold authenticate
    split
    · split
      · exact .rejected nofun
      · next opened => exact .opened (gcm_of_authenticateEnvelope (svc.within w) opened)
    · exact .rejected (ingestRecovered_status_ne _ _)
  case h_2 req frame reply e =>
    cases acted
    cases reply with
    | ok =>
      cases said : refuses round (store.counters.lookup req.deviceId) frame.counter with
      | true =>
        have same : checkAndBump round req.deviceId frame store = store := by
          simp only [checkAndBump, said, if_true]
        simp only [Reply.effect_ok, same, counterResult, said, afterScript]
        exact .refused said
      | false =>
        simp only [Reply.effect_ok, counterResult, said, afterScript]
        exact .passed said
    | lost => exact .unheard nofun nofun
    | failed => exact .unheard nofun nofun
  case h_3 =>
    cases acted
    exact .finished
  case h_7 => cases acted
  all_goals
    cases acted
    exact .dropped

/-! ## A request that nobody interrupts -/

/-- It is answered by the handler, whose counter check is what the script says of the store. -/
theorem answered_alone (req : PrivateNetworkPayload F) (w : Surroundings F K)
    (checks : ∀ d c, svc.checkAndBumpCounter d c = .ok (!refuses round (store.counters.lookup d) c)) :
    ∃ later counter, Steps (system round svc env).step Always ⟨store, [.received req]⟩
      ⟨later, [.answered req counter (ingestPrivateNetwork (svc.within w) env req)]⟩ := by
  -- a move of the only process
  have move {store later : Store} {p q : FrameStage F} {m : Move F K}
      (acted : act round svc env store p m = some (later, q)) :
      Steps (system round svc env).step Always ⟨store, [p]⟩ ⟨later, [q]⟩ :=
    Steps.single (e := .move 0 m) trivial (Pool.System.step_move rfl acted)
  by_cases encrypted : lowercase req.protocol = "dlms-enc"
  · simp only [ingestPrivateNetwork, if_pos encrypted, decryptDlmsEnvelope_eq]
    cases opened : authenticateEnvelope (svc.within w) req.deviceId req.payload with
    | error e =>
      refine ⟨store, none, move (m := .authenticate w) ?_⟩
      simp only [act, authenticate, if_pos encrypted, opened]
      rfl
    | ok frame =>
      have first : Steps (system round svc env).step Always ⟨store, [.received req]⟩
          ⟨store, [.authentic req frame]⟩ :=
        move (m := .authenticate w) (by simp only [act, authenticate, if_pos encrypted, opened])
      have checked : (svc.within w).checkAndBumpCounter req.deviceId frame.counter =
          .ok (!refuses round (store.counters.lookup req.deviceId) frame.counter) := checks _ _
      simp only [checked]
      cases said : refuses round (store.counters.lookup req.deviceId) frame.counter with
      | true =>
        refine ⟨store, some frame.counter, first.trans (move (m := .script .ok "") ?_)⟩
        simp [act, afterScript, counterResult, checkAndBump, said, afterCounter, answerOutcome,
          Except.toOption]
      | false =>
        have second : Steps (system round svc env).step Always ⟨store, [.authentic req frame]⟩
            ⟨checkAndBump round req.deviceId frame store, [.bumped req frame]⟩ :=
          move (m := .script .ok "")
            (by simp [act, afterScript, counterResult, said, Except.toOption])
        exact ⟨_, some frame.counter, (first.trans second).trans (move (m := .finish w) rfl)⟩
  · refine ⟨store, none, move (m := .authenticate w) ?_⟩
    simp only [act, authenticate, ingestPrivateNetwork, if_neg encrypted]

end InvocationCounter

end AggregatorBridge
