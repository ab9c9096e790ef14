import AggregatorBridge.InvocationCounter
import Mathlib.Data.Int.ConditionallyCompleteOrder

/-!
# Anti-replay

However requests overlap, the counters that the script lets through for a device increase strictly.
The script stores what it lets through and compares the next counter with it, as a whole. Its numbers
are rounded; a counter whose rounding is greater is greater, so rounding makes it refuse more, and
never less.

A ciphertext authenticates under one associated data, hence for one device and one counter. So the
same frame is let through once, and no request touches the counter of a device that its frame was
not sealed for.

A frame that was let through need not have been accepted: what comes after the script can fail, and
then the frame is refused when it is sent again.
-/

namespace AggregatorBridge

open Remote Transition Pool.System

/-- A ciphertext is sealed with one associated data: no key opens it with another. -/
def Binds (gcmDecrypt : List UInt8 → List UInt8 → List UInt8 → List UInt8 → Option (List UInt8)) :
    Prop :=
  ∀ nonce ct key aad plaintext key' aad' plaintext', gcmDecrypt key nonce ct aad = some plaintext →
    gcmDecrypt key' nonce ct aad' = some plaintext' → aad = aad'

namespace InvocationCounter

variable {R : Type} [LinearOrder R] {round : Int → R} {F K : Type} {svc : RestServices F K}

namespace Bump

/-- What tells a frame from another: the ciphertext under its nonce. -/
def frame (b : Bump) : List UInt8 × List UInt8 :=
  (b.nonce, b.ciphertext)

/-- The frame was sealed for the device and the counter. -/
def Authentic (svc : RestServices F K) (b : Bump) : Prop :=
  ∃ key plaintext,
    svc.gcmDecrypt key b.nonce b.ciphertext (frameAad b.deviceId b.counter) = some plaintext

/-- Of two frames of a device, the later has the greater counter. -/
def After (later earlier : Bump) : Prop :=
  later.deviceId = earlier.deviceId → earlier.counter < later.counter

theorem frame_ne (binds : Binds svc.gcmDecrypt) {a b : Bump} (first : a.Authentic svc)
    (second : b.Authentic svc) (after : After a b) : a.frame ≠ b.frame := by
  intro same
  obtain ⟨key, plaintext, opened⟩ := first
  obtain ⟨key', plaintext', opened'⟩ := second
  obtain ⟨nonce, ct⟩ := Prod.mk.inj same
  rw [nonce, ct] at opened
  obtain ⟨device, counter⟩ := frameAad_inj (binds _ _ _ _ _ _ _ _ opened opened')
  exact absurd (after device) (by rw [counter]; exact lt_irrefl _)

end Bump

/-- What is true of the store: the frames that were let through are authentic, their counters
increase, and none is above the stored one. -/
structure Guarded (svc : RestServices F K) (store : Store) : Prop where
  authentic : ∀ b ∈ store.bumped, b.Authentic svc
  increasing : store.bumped.Pairwise Bump.After
  stored : ∀ b ∈ store.bumped, ∃ cur, store.counters.lookup b.deviceId = some cur ∧ b.counter ≤ cur

/-- What is true of a request: a frame that was opened is authentic. -/
def Opened (svc : RestServices F K) : FrameStage F → Prop
  | .authentic req frame => Authentic svc req.deviceId frame
  | .bumped req frame => Authentic svc req.deviceId frame
  | _ => True

/-- Rounding does not let an old counter through. -/
theorem lt_of_refuses_eq_false (mono : Monotone round) {cur counter : Int}
    (new : refuses round (some cur) counter = false) : cur < counter := by
  simp only [refuses, decide_eq_false_iff_not, not_le] at new
  exact mono.reflect_lt new

theorem Guarded.checkAndBump (mono : Monotone round) {store : Store} (guarded : Guarded svc store)
    {deviceId : String} {frame : OpenedFrame} (authentic : Authentic svc deviceId frame) :
    Guarded svc (checkAndBump round deviceId frame store) := by
  unfold InvocationCounter.checkAndBump
  split
  · exact guarded
  · next new =>
    rw [Bool.not_eq_true] at new
    -- all counters of the device so far are below the one that is let through
    have below (b : Bump) (mem : b ∈ store.bumped) (same : deviceId = b.deviceId) :
        b.counter < frame.counter := by
      obtain ⟨cur, stored, le⟩ := guarded.stored b mem
      rw [same, stored] at new
      exact lt_of_le_of_lt le (lt_of_refuses_eq_false mono new)
    refine ⟨?_, List.pairwise_cons.mpr ⟨below, guarded.increasing⟩, ?_⟩
    · intro b mem
      rcases List.mem_cons.mp mem with rfl | old
      · obtain ⟨key, opened⟩ := authentic
        exact ⟨key, frame.plaintext, opened⟩
      · exact guarded.authentic b old
    · intro b mem
      simp only [Hash.lookup_set]
      rcases List.mem_cons.mp mem with rfl | old
      · exact ⟨frame.counter, if_pos rfl, le_rfl⟩
      · by_cases same : b.deviceId = deviceId
        · exact ⟨frame.counter, if_pos same, (below b old same.symm).le⟩
        · rw [if_neg same]
          exact guarded.stored b old

variable [Float64 F] {env : Env} {store later : Store} {p q : FrameStage F} {m : Move F K}

/-- Each move keeps what is known of the store and of the requests; only the script touches the
counters. -/
theorem guarded_of_acts (mono : Monotone round) (guarded : Guarded svc store) (opened : Opened svc p)
    (acts : Acts round svc env store p m later q) : Guarded svc later ∧ Opened svc q := by
  cases acts with
  | rejected _ => exact ⟨guarded, trivial⟩
  | opened authentic => exact ⟨guarded, authentic⟩
  | @unheard req frame reply _ _ _ _ =>
    refine ⟨?_, trivial⟩
    rcases reply.effect_cases (checkAndBump round req.deviceId frame) store with same | bumped
    · rw [same]
      exact guarded
    · rw [bumped]
      exact guarded.checkAndBump mono opened
  | refused _ => exact ⟨guarded, trivial⟩
  | passed _ => exact ⟨guarded.checkAndBump mono opened, opened⟩
  | finished =>
    refine ⟨?_, trivial⟩
    unfold Store.accept
    split
    · exact ⟨guarded.authentic, guarded.increasing, guarded.stored⟩
    · exact guarded
  | dropped => exact ⟨guarded, trivial⟩

variable {initial : Hash String Int} {s t : Pool.State Store (FrameStage F)}
  {e : Pool.Event (FrameStage F) (Move F K) Empty}

/-- So it holds in every state that requests can lead to, from any counters at all. -/
theorem guarded_of_steps (mono : Monotone round)
    (run : Steps (system round svc env).step Always ⟨⟨initial, [], []⟩, []⟩ s) :
    Holds (Guarded svc) (fun _ => Opened svc) s := by
  refine Pool.System.invariant ?_ ?_ ?_ ?_ run (holds_nil ?_)
  · intro _ p admitted _
    cases p with
    | received _ => trivial
    | _ => cases admitted
  · intro s i m p later q here _ holds acted
    exact guarded_of_acts mono holds.1 (holds.2 p (List.mem_of_getElem? here)) (acts_of_act acted)
  · intro _ _ _ _ _ _ _ _ other _
    exact other
  · intro _ e
    exact e.elim
  · exact ⟨nofun, List.Pairwise.nil, nofun⟩

/-- Only the script of a request for the device changes the counter of the device. -/
theorem scripts_of_lookup_ne (moved : (system round svc env).step s e = some t) {deviceId : String}
    (changed : t.shared.counters.lookup deviceId ≠ s.shared.counters.lookup deviceId) :
    ∃ i reply text req frame, e = .move i (.script reply text) ∧
      s.procs[i]? = some (.authentic req frame) ∧ req.deviceId = deviceId := by
  cases moves_of_step moved with
  | start _ => exact absurd rfl changed
  | outside changed => exact nomatch ‹Empty›
  | @move i m p q later here acted =>
    have bump (req : PrivateNetworkPayload F) (frame : OpenedFrame)
        (changed : (checkAndBump round req.deviceId frame s.shared).counters.lookup deviceId ≠
          s.shared.counters.lookup deviceId) : req.deviceId = deviceId := by
      by_contra unlike
      refine changed ?_
      unfold checkAndBump
      split
      · rfl
      · exact (Hash.lookup_set _ _ _ _).trans (if_neg (Ne.symm unlike))
    cases acts_of_act acted with
    | rejected _ => exact absurd rfl changed
    | opened _ => exact absurd rfl changed
    | @unheard req frame reply text _ _ _ =>
      refine ⟨i, reply, text, req, frame, rfl, here, bump req frame ?_⟩
      rcases reply.effect_cases (checkAndBump round req.deviceId frame) s.shared with same | bumped
      · rw [same] at changed
        exact absurd rfl changed
      · exact bumped ▸ changed
    | refused _ => exact absurd rfl changed
    | @passed req frame text _ => exact ⟨i, .ok, text, req, frame, rfl, here, bump req frame changed⟩
    | finished =>
      unfold Store.accept at changed
      split at changed <;> exact absurd rfl changed
    | dropped => exact absurd rfl changed

omit [Float64 F] in
theorem bumped_checkAndBump {deviceId : String} {frame : OpenedFrame} {store : Store}
    (new : refuses round (store.counters.lookup deviceId) frame.counter = false) :
    (checkAndBump round deviceId frame store).bumped =
      ⟨deviceId, frame.counter, frame.nonce, frame.ciphertext⟩ :: store.bumped := by
  rw [checkAndBump, new, if_neg Bool.false_ne_true]

/-- A request gets past the script in the move that records its frame. -/
theorem bumped_of_acts {req : PrivateNetworkPayload F} {frame : OpenedFrame}
    (acts : Acts round svc env store p m later q) (past : q = .bumped req frame) :
    later.bumped = ⟨req.deviceId, frame.counter, frame.nonce, frame.ciphertext⟩ :: store.bumped := by
  cases acts with
  | passed new =>
    cases past
    exact bumped_checkAndBump new
  | _ => cases past

/-- A request is past the script because it was already, or because this step recorded its frame. -/
theorem bumped_of_step (moved : (system round svc env).step s e = some t) {i : Nat}
    {req : PrivateNetworkPayload F} {frame : OpenedFrame}
    (past : t.procs[i]? = some (.bumped req frame)) :
    s.procs[i]? = some (.bumped req frame) ∨ t.shared.bumped =
      ⟨req.deviceId, frame.counter, frame.nonce, frame.ciphertext⟩ :: s.shared.bumped := by
  cases moves_of_step moved with
  | @start p admitted =>
    by_cases inside : i < s.procs.length
    · exact .inl ((List.getElem?_append_left inside).symm.trans past)
    · -- a request that begins is not past anything
      rw [List.getElem?_append_right (Nat.le_of_not_lt inside)] at past
      cases List.mem_singleton.mp (List.mem_of_getElem? past)
      cases admitted
  | outside changed => exact nomatch ‹Empty›
  | @move j m p q later here acted =>
    by_cases same : j = i
    · subst same
      rw [List.getElem?_set_self (List.getElem?_eq_some_iff.mp here).1] at past
      exact .inr (bumped_of_acts (acts_of_act acted) (Option.some.inj past))
    · exact .inl ((List.getElem?_set_ne same).symm.trans past)

/-- For every run of requests: the counters of each device increase, no frame is let through twice,
and a counter changes only with an authentic frame of its device. A request gets past the script only
in the step that records its frame as let through, which none was before it. -/
theorem anti_replay (mono : Monotone round) (binds : Binds svc.gcmDecrypt)
    (run : Steps (system round svc env).step Always ⟨⟨initial, [], []⟩, []⟩ s) :
    s.shared.bumped.Pairwise Bump.After ∧ (s.shared.bumped.map Bump.frame).Nodup ∧
      (∀ e t deviceId, (system round svc env).step s e = some t →
        t.shared.counters.lookup deviceId ≠ s.shared.counters.lookup deviceId →
        ∃ i reply text req frame, e = .move i (.script reply text) ∧
          s.procs[i]? = some (.authentic req frame) ∧ req.deviceId = deviceId ∧
          Authentic svc deviceId frame) ∧
      ∀ e t (i : Nat) req frame, (system round svc env).step s e = some t →
        t.procs[i]? = some (.bumped req frame) → s.procs[i]? = some (.bumped req frame) ∨
          t.shared.bumped =
            ⟨req.deviceId, frame.counter, frame.nonce, frame.ciphertext⟩ :: s.shared.bumped ∧
          (frame.nonce, frame.ciphertext) ∉ s.shared.bumped.map Bump.frame := by
  have distinct {s : Pool.State Store (FrameStage F)}
      (run : Steps (system round svc env).step Always ⟨⟨initial, [], []⟩, []⟩ s) :
      (s.shared.bumped.map Bump.frame).Nodup := by
    have guarded := (guarded_of_steps mono run).1
    refine List.pairwise_map.mpr (guarded.increasing.imp_of_mem ?_)
    intro a b first second after
    exact Bump.frame_ne binds (guarded.authentic a first) (guarded.authentic b second) after
  have holds := guarded_of_steps mono run
  refine ⟨holds.1.increasing, distinct run, ?_, ?_⟩
  · intro e t deviceId moved changed
    obtain ⟨i, reply, text, req, frame, rfl, here, rfl⟩ := scripts_of_lookup_ne moved changed
    exact ⟨i, reply, text, req, frame, rfl, here, rfl, holds.2 _ (List.mem_of_getElem? here)⟩
  · intro e t i req frame moved past
    refine (bumped_of_step moved past).imp_right fun recorded => ⟨recorded, ?_⟩
    have all := distinct (run.tail trivial moved)
    rw [recorded, List.map_cons] at all
    exact (List.nodup_cons.mp all).1

/-! ## Two frames of a meter -/

/-- What the meter sends for a counter: the associated data, with its length before it. -/
def sealedFrame (deviceId : String) (counter : Int) : List UInt8 :=
  let aad := frameAad deviceId counter
  UInt8.ofNat aad.length :: aad

/-- Opens what `sealedFrame` seals, with whatever key. -/
def openFrame (_key _nonce ct aad : List UInt8) : Option (List UInt8) :=
  match ct with
  | [] => none
  | n :: rest =>
    if n.toNat = aad.length ∧ rest.take n.toNat = aad then some (rest.drop n.toNat) else none

theorem binds_openFrame : Binds openFrame := by
  intro nonce ct key aad plaintext key' aad' plaintext' opened opened'
  cases ct with
  | nil => cases opened
  | cons n rest =>
    simp only [openFrame, Option.ite_none_right_eq_some] at opened opened'
    exact opened.1.2.symm.trans opened'.1.2

/-- A deployment with a meter `M`, which has sealed the frames `a` and `b`. -/
def twoFrames : RestServices ℚ Unit where
  verifier :=
    { resolvePubkey := fun _ => .ok (some ())
      bs58Decode := fun _ => .ok (List.replicate 64 0)
      verify := fun _ _ _ => true }
  toVec := fun _ => []
  rfc3339 := { parse := fun _ => none, parse_empty := rfl }
  now := DateTime.ofSecs 0
  newV4 := fun position => BitVec.ofNat 128 position
  disseminate := fun _ => true
  base64Decode := fun text =>
    if text = "n" then some (List.replicate 12 0)
    else if text = "a" then some (sealedFrame "M" 5)
    else if text = "b" then some (sealedFrame "M" 6)
    else none
  getDeviceAesKey := fun _ _ => .ok (some [])
  gcmDecrypt := openFrame
  checkAndBumpCounter := fun _ _ => .ok true
  fromSlice := fun _ => .ok (.obj [])

/-- All registries answer, and the stream takes readings or does not. -/
def weather (streams : Bool) : Surroundings ℚ Unit where
  verifier := twoFrames.verifier
  now := twoFrames.now
  newV4 := twoFrames.newV4
  disseminate := fun _ => streams
  getDeviceAesKey := twoFrames.getDeviceAesKey

def envelope (deviceId : String) (counter : Nat) (ct : String) : PrivateNetworkPayload ℚ :=
  ⟨"dlms-enc", deviceId, .obj [("enc", .obj [("counter", .num (.posInt counter)),
    ("nonce", .str "n"), ("ciphertext", .str ct)])]⟩

/-- An environment without switches. -/
def plainEnv : Env :=
  ⟨false, false, false, false, false⟩

/-- Both frames, the first of them twice at a time, and with the names of another device and another
counter on it. -/
private def replays : List (Pool.Event (FrameStage ℚ) (Move ℚ Unit) Empty) :=
  [.start (.received (envelope "M" 5 "a")), .start (.received (envelope "M" 5 "a")),
    .start (.received (envelope "N" 5 "a")), .start (.received (envelope "M" 7 "a")),
    .start (.received (envelope "M" 6 "b")), .move 0 (.authenticate (weather true)),
    .move 1 (.authenticate (weather true)), .move 2 (.authenticate (weather true)),
    .move 3 (.authenticate (weather true)), .move 4 (.authenticate (weather true)),
    .move 1 (.script .ok ""), .move 0 (.script .ok ""), .move 4 (.script .lost "timed out"),
    .move 1 (.finish (weather true))]

private theorem replays_run :
    (Transition.run (system id twoFrames plainEnv).step Always replays
      ⟨⟨∅, [], []⟩, []⟩).isSome := by
  decide +kernel

private def afterReplays : Pool.State Store (FrameStage ℚ) :=
  (Transition.run (system id twoFrames plainEnv).step Always replays
    ⟨⟨∅, [], []⟩, []⟩).get replays_run

/-- The two frames are let through once each. -/
theorem two_frames_let_through :
    afterReplays.shared.bumped.map Bump.counter = [6, 5] ∧
      (afterReplays.shared.bumped.map Bump.frame).Nodup :=
  ⟨by decide +kernel,
    (anti_replay monotone_id binds_openFrame (Steps.of_run_get replays_run)).2.1⟩

end InvocationCounter

end AggregatorBridge
