import AggregatorBridge.Laws.AntiReplay

/-!
# What a replay rejection means

A 409 should say that the frame, or a later one of its device, was accepted before. It says less:
the counter is stored before the plaintext is parsed, its signature checked and the reading handed
on, and each of these can still fail. The frame is then lost: sent again, it is refused as a replay
of itself (`resent_frame_refused`).

`Orderly` says what has to hold of the steps of a run for a 409 to mean what it should: what follows
the script goes well, the answer of a script that stores does not get lost, a counter is not compared
with one whose request is still under way, and rounding does not make it equal to a smaller one.

The law says what a 409 tells, and nothing of a request that is answered otherwise: it may be
accepted or not.
-/

namespace AggregatorBridge

open Remote Transition Pool.System

namespace InvocationCounter

variable {F K : Type}

/-- The request has stored this counter of the device, and is not answered yet. -/
def holdsCounter (deviceId : String) (counter : Int) : FrameStage F → Bool
  | .bumped req frame => decide (req.deviceId = deviceId) && decide (frame.counter = counter)
  | _ => false

/-- A request that holds a counter holds it while another moves. -/
theorem exists_holds_set {deviceId : String} {cur : Int} {procs : List (FrameStage F)} {i : Nat}
    {p q : FrameStage F} (here : procs[i]? = some p) (free : holdsCounter deviceId cur p = false)
    (holds : ∃ r ∈ procs, holdsCounter deviceId cur r = true) :
    ∃ r ∈ procs.set i q, holdsCounter deviceId cur r = true := by
  obtain ⟨r, mem, holding⟩ := holds
  obtain ⟨j, there⟩ := List.getElem?_of_mem mem
  refine ⟨r, List.mem_of_getElem? (i := j) ?_, holding⟩
  have differ : i ≠ j := by
    rintro rfl
    cases here.symm.trans there
    rw [free] at holding
    cases holding
  rw [List.getElem?_set_ne differ]
  exact there

/-! ## What a 409 should mean -/

variable {R : Type} [LinearOrder R] {round : Int → R} {s : Pool.State Store (FrameStage F)} {i : Nat}
  {p q : FrameStage F}

/-- A request that was answered 409 has a counter, and a frame of its device with that counter or a
greater one was accepted. -/
def Deserved (s : Pool.State Store (FrameStage F)) : Prop :=
  ∀ req counter answer, .answered req counter answer ∈ s.procs → answer.status = .conflict →
    ∃ own later, counter = some own ∧ own ≤ later ∧ (req.deviceId, later) ∈ s.shared.accepted

/-- Every 409 was deserved, and a counter that is stored is of a frame that was accepted, or of a
request that is not answered yet. -/
structure Meaningful (s : Pool.State Store (FrameStage F)) : Prop where
  deserved : Deserved s
  stored : ∀ deviceId cur, s.shared.counters.lookup deviceId = some cur →
    (deviceId, cur) ∈ s.shared.accepted ∨ ∃ p ∈ s.procs, holdsCounter deviceId cur p = true

namespace Meaningful

/-- A move that neither stores nor accepts, of a request that holds nothing. -/
theorem quiet (meaningful : Meaningful s) (here : s.procs[i]? = some p)
    (free : ∀ deviceId cur, holdsCounter deviceId cur p = false)
    (deserved : ∀ req counter answer, q = .answered req counter answer → answer.status = .conflict →
      ∃ own later, counter = some own ∧ own ≤ later ∧ (req.deviceId, later) ∈ s.shared.accepted) :
    Meaningful ⟨s.shared, s.procs.set i q⟩ where
  deserved req counter answer mem conflict := by
    rcases List.mem_or_eq_of_mem_set mem with old | rfl
    · exact meaningful.deserved req counter answer old conflict
    · exact deserved req counter answer rfl conflict
  stored deviceId cur found :=
    (meaningful.stored deviceId cur found).imp_right (exists_holds_set here (free deviceId cur))

/-- The script lets a frame through. -/
theorem bumped (meaningful : Meaningful s) {req : PrivateNetworkPayload F} {frame : OpenedFrame}
    (here : s.procs[i]? = some (.authentic req frame))
    (new : refuses round (s.shared.counters.lookup req.deviceId) frame.counter = false) :
    Meaningful
      ⟨checkAndBump round req.deviceId frame s.shared, s.procs.set i (.bumped req frame)⟩ := by
  simp only [checkAndBump, new, Bool.false_eq_true, if_false]
  refine ⟨fun r counter answer mem conflict => ?_, fun deviceId cur found => ?_⟩
  · rcases List.mem_or_eq_of_mem_set mem with old | made
    · exact meaningful.deserved r counter answer old conflict
    · cases made
  · rw [Hash.lookup_set] at found
    split at found
    · next same =>
      cases found
      have inside := (List.getElem?_eq_some_iff.mp here).1
      refine .inr ⟨.bumped req frame, List.mem_set inside _, ?_⟩
      simp [holdsCounter, same]
    · exact (meaningful.stored deviceId cur found).imp_right (exists_holds_set here rfl)

/-- A request that was let through is accepted. -/
theorem accepted (meaningful : Meaningful s) {req : PrivateNetworkPayload F} {frame : OpenedFrame}
    (here : s.procs[i]? = some (.bumped req frame)) {answer : RestAnswer F}
    (status : answer.status = .accepted) :
    Meaningful ⟨s.shared.accept req.deviceId frame.counter answer,
      s.procs.set i (.answered req (some frame.counter) answer)⟩ := by
  simp only [Store.accept, status, if_true]
  refine ⟨fun r counter other mem conflict => ?_, fun deviceId cur found => ?_⟩
  · rcases List.mem_or_eq_of_mem_set mem with old | made
    · obtain ⟨own, later, rfl, le, mem⟩ := meaningful.deserved r counter other old conflict
      exact ⟨own, later, rfl, le, List.mem_cons_of_mem _ mem⟩
    · cases made
      rw [status] at conflict
      cases conflict
  · by_cases mine : holdsCounter deviceId cur (.bumped req frame) = true
    · simp only [holdsCounter, Bool.and_eq_true, decide_eq_true_eq] at mine
      obtain ⟨rfl, rfl⟩ := mine
      exact .inl List.mem_cons_self
    · rw [Bool.not_eq_true] at mine
      exact (meaningful.stored deviceId cur found).imp (List.mem_cons_of_mem _)
        (exists_holds_set here mine)

end Meaningful

/-! ## Orderly runs -/

variable (round) [Float64 F] (svc : RestServices F K) (env : Env)

/-- The plaintext is JSON, its signature passes the gate, the stack reads it, and the reading is
taken. -/
def completes (svc : RestServices F K) (req : PrivateNetworkPayload F) (frame : OpenedFrame) : Bool :=
  match svc.fromSlice frame.plaintext with
  | .error _ => false
  | .ok inner =>
    (sigFailureStatus (verifyPayload svc req.deviceId inner)
      env.signatureEnforcementDisabled).isNone &&
    match DlmsStack.handleMessage svc.rfc3339 svc.now (svc.newV4 0) req.deviceId inner with
    | .ok reading => svc.disseminate reading
    | .error _ => false

/-- If the counter is refused for the stored one, then that one is not smaller, and it is of a request
that was answered. -/
def Comparable (s : Pool.State Store (FrameStage F)) (deviceId : String) (counter : Int) : Prop :=
  match s.shared.counters.lookup deviceId with
  | none => True
  | some cur => round cur ≥ round counter →
      counter ≤ cur ∧ ∀ other ∈ s.procs, holdsCounter deviceId cur other = false

instance (s : Pool.State Store (FrameStage F)) (deviceId : String) (counter : Int) :
    Decidable (Comparable round s deviceId counter) :=
  match stored : s.shared.counters.lookup deviceId with
  | none => .isTrue (by simp only [Comparable, stored])
  | some cur => decidable_of_iff (round cur ≥ round counter →
      counter ≤ cur ∧ ∀ other ∈ s.procs, holdsCounter deviceId cur other = false)
      (by simp only [Comparable, stored])

/-- What the step of a request has to meet. -/
def OrderlyMove (s : Pool.State Store (FrameStage F)) : FrameStage F → Move F K → Prop
  | .authentic req frame, .script reply _ => Comparable round s req.deviceId frame.counter ∧
      (reply = .lost →
        refuses round (s.shared.counters.lookup req.deviceId) frame.counter = true)
  | .bumped req frame, .finish w => completes env (svc.within w) req frame = true
  | .bumped _ _, .drop => False
  | _, _ => True

instance (s : Pool.State Store (FrameStage F)) (p : FrameStage F) :
    (m : Move F K) → Decidable (OrderlyMove round svc env s p m)
  | .authenticate _ =>
    match p with
    | .received _ | .authentic _ _ | .bumped _ _ | .answered _ _ _ | .dropped _ => .isTrue trivial
  | .script _ _ =>
    match p with
    | .authentic _ _ => inferInstanceAs (Decidable (_ ∧ _))
    | .received _ | .bumped _ _ | .answered _ _ _ | .dropped _ => .isTrue trivial
  | .finish _ =>
    match p with
    | .bumped _ _ => inferInstanceAs (Decidable (_ = _))
    | .received _ | .authentic _ _ | .answered _ _ _ | .dropped _ => .isTrue trivial
  | .drop =>
    match p with
    | .bumped _ _ => .isFalse id
    | .received _ | .authentic _ _ | .answered _ _ _ | .dropped _ => .isTrue trivial

/-- Every move of a request that is under way is an orderly one; new requests may come in at any
time. -/
def Orderly (s : Pool.State Store (FrameStage F)) :
    Pool.Event (FrameStage F) (Move F K) Empty → Prop
  | .move i m =>
    match s.procs[i]? with
    | some p => OrderlyMove round svc env s p m
    | none => True
  | _ => True

instance (s : Pool.State Store (FrameStage F)) :
    (e : Pool.Event (FrameStage F) (Move F K) Empty) → Decidable (Orderly round svc env s e)
  | .start _ => .isTrue trivial
  | .outside _ => .isTrue trivial
  | .move i m =>
    match here : s.procs[i]? with
    | some p => decidable_of_iff (OrderlyMove round svc env s p m) (by simp only [Orderly, here])
    | none => .isTrue (by simp only [Orderly, here])

variable {round svc env} {m : Move F K}

theorem Orderly.holds (orderly : Orderly round svc env s (.move i m))
    (here : s.procs[i]? = some p) : OrderlyMove round svc env s p m := by
  simpa only [Orderly, here] using orderly

/-- What follows the script went well. -/
theorem finish_status (w : Surroundings F K) {req : PrivateNetworkPayload F} {frame : OpenedFrame}
    (complete : completes env (svc.within w) req frame = true) :
    (finish env (svc.within w) req frame).status = .accepted := by
  unfold completes at complete
  cases parsed : (svc.within w).fromSlice frame.plaintext with
  | error e => simp [parsed] at complete
  | ok inner =>
    simp only [parsed, Bool.and_eq_true, Option.isNone_iff_eq_none] at complete
    obtain ⟨gate, taken⟩ := complete
    have open_ : secureModeGate env.secureModeEnabled true = none := by simp [secureModeGate]
    have named : resolveProtocol "dlms" = "dlms" := by decide
    have known : isSupportedProtocol "dlms" = true := by decide
    have other : ¬ ("dlms" = "simulator" ∧ env.simulatorBypassAllowed = true) :=
      fun simulator => absurd simulator.1 (by decide)
    have dlms : "dlms" ≠ "simulator" := by decide
    cases read : DlmsStack.handleMessage (svc.within w).rfc3339 (svc.within w).now
        ((svc.within w).newV4 0) req.deviceId inner with
    | error e => simp [read] at taken
    | ok reading =>
      simp only [read] at taken
      simp only [finish, afterCounter, parsed, answerOutcome, ingestRecovered, open_, named, known,
        if_true, if_neg other, gate, readAndDisseminate, if_neg dlms, read, disseminateReading, taken]

namespace Meaningful

theorem move (meaningful : Meaningful s) (here : s.procs[i]? = some p)
    (orderly : OrderlyMove round svc env s p m) {later : Store}
    (acts : Acts round svc env s.shared p m later q) : Meaningful ⟨later, s.procs.set i q⟩ := by
  cases acts with
  | rejected unlike =>
    refine meaningful.quiet here (fun _ _ => rfl) fun req counter answer made conflict => ?_
    cases made
    exact absurd conflict unlike
  | opened _ =>
    refine meaningful.quiet here (fun _ _ => rfl) fun req counter answer made => ?_
    cases made
  | @unheard req frame reply _ answer error unlike =>
    have same : reply.effect (checkAndBump round req.deviceId frame) s.shared = s.shared := by
      cases reply with
      | ok => exact absurd rfl error
      | lost =>
        have old := orderly.2 rfl
        simp only [Reply.effect, Reply.took, if_true, checkAndBump, old]
      | failed => rfl
    rw [same]
    refine meaningful.quiet here (fun _ _ => rfl) fun r counter other made conflict => ?_
    cases made
    exact absurd conflict unlike
  | @refused req frame _ answer old =>
    refine meaningful.quiet here (fun _ _ => rfl) fun r counter other made conflict => ?_
    cases made
    -- the counter that the frame is refused for was accepted: nobody holds it any more
    have compared := orderly.1
    unfold Comparable at compared
    cases stored : s.shared.counters.lookup req.deviceId with
    | none =>
      rw [stored] at old
      cases old
    | some cur =>
      rw [stored] at old compared
      obtain ⟨le, free⟩ := compared (of_decide_eq_true old)
      refine ⟨frame.counter, cur, rfl, le, ?_⟩
      refine (meaningful.stored req.deviceId cur stored).resolve_right ?_
      rintro ⟨r, mem, holding⟩
      rw [free r mem] at holding
      cases holding
  | passed new => exact meaningful.bumped here new
  | finished => exact meaningful.accepted here (finish_status _ orderly)
  | dropped =>
    cases p with
    | bumped _ _ => exact orderly.elim
    | _ =>
      refine meaningful.quiet here (fun _ _ => rfl) fun req counter answer made => ?_
      cases made

end Meaningful

/-- In every orderly run, a 409 means that the frame or a later one of its device was accepted, and
what did not get accepted has left no counter behind. In other runs a frame can be refused as a
replay of itself, though it was never accepted. -/
theorem orderly_replays_were_accepted
    (run : Steps (system round svc env).step (Orderly round svc env) ⟨.empty, []⟩ s) :
    Meaningful s := by
  have start : Meaningful (⟨.empty, []⟩ : Pool.State Store (FrameStage F)) :=
    ⟨fun _ _ _ mem => absurd mem List.not_mem_nil, fun _ _ found => by cases found⟩
  refine Steps.invariant ?_ run start
  intro s e t meaningful orderly moved
  cases moves_of_step moved with
  | @start p admitted =>
    refine ⟨fun req counter answer mem conflict => ?_, fun deviceId cur found => ?_⟩
    · rcases List.mem_append.mp mem with old | new
      · exact meaningful.deserved req counter answer old conflict
      · cases List.mem_singleton.mp new
        cases admitted
    · refine (meaningful.stored deviceId cur found).imp_right ?_
      rintro ⟨r, mem, holding⟩
      exact ⟨r, List.mem_append_left _ mem, holding⟩
  | move here acted => exact meaningful.move here (orderly.holds here) (acts_of_act acted)
  | outside _ => exact nomatch ‹Empty›

private def conflicts : FrameStage F → Bool
  | .answered _ _ answer => decide (answer.status = .conflict)
  | _ => false

/-- A frame is sent twice, and the second time it is a replay. -/
private def sentTwice (streams : Bool) : List (Pool.Event (FrameStage ℚ) (Move ℚ Unit) Empty) :=
  [.start (.received (envelope "M" 5 "a")), .move 0 (.authenticate (weather streams)),
    .move 0 (.script .ok ""), .move 0 (.finish (weather streams)),
    .start (.received (envelope "M" 5 "a")), .move 1 (.authenticate (weather true)),
    .move 1 (.script .ok "")]

private theorem sentTwice_run :
    (Transition.run (system id twoFrames plainEnv).step (Orderly id twoFrames plainEnv)
      (sentTwice true) ⟨.empty, []⟩).isSome := by
  decide +kernel

private def afterReplay : Pool.State Store (FrameStage ℚ) :=
  (Transition.run (system id twoFrames plainEnv).step (Orderly id twoFrames plainEnv)
    (sentTwice true) ⟨.empty, []⟩).get sentTwice_run

/-- The frame was accepted, so the 409 is deserved. -/
theorem accepted_frame_refused :
    afterReplay.procs.map conflicts = [false, true] ∧ Meaningful afterReplay :=
  ⟨by decide +kernel, orderly_replays_were_accepted (Steps.of_run_get sentTwice_run)⟩

private theorem sentAgain_run :
    (Transition.run (system id twoFrames plainEnv).step Always (sentTwice false)
      ⟨.empty, []⟩).isSome := by
  decide +kernel

private def afterResend : Pool.State Store (FrameStage ℚ) :=
  (Transition.run (system id twoFrames plainEnv).step Always (sentTwice false)
    ⟨.empty, []⟩).get sentAgain_run

private theorem afterResend_refused : afterResend.procs.any conflicts = true := by
  decide +kernel

private theorem afterResend_accepted : afterResend.shared.accepted = [] := by
  decide +kernel

/-- The stream does not take the reading, and the client is told so. When it sends the frame again,
the frame is a replay, of a frame that nobody accepted. -/
theorem resent_frame_refused :
    ¬ ∀ s, Steps (system id twoFrames plainEnv).step Always ⟨.empty, []⟩ s → Deserved s := by
  intro law
  obtain ⟨p, mem, conflict⟩ := List.any_eq_true.mp afterResend_refused
  cases p with
  | answered req counter answer =>
    obtain ⟨_, _, _, _, accepted⟩ := law afterResend (Steps.of_run_get sentAgain_run) req counter
      answer mem (of_decide_eq_true conflict)
    rw [afterResend_accepted] at accepted
    cases accepted
  | _ => cases conflict

end InvocationCounter

end AggregatorBridge
