import AggregatorBridge.ApiKeyAuth

/-!
# API-key decisions are justified

A request is let through on the word of IAM, or on the static list while IAM is unavailable,
and the word may be an earlier request's as long as it is not older than its lifetime. What
carries this is an invariant of the cache: each of its entries is a verdict that some request
had a right to store, stored at the moment that its expiry says (`Backed`). Neither the pruning
nor the breaker is part of the argument, and neither is the order of the requests.

A verdict is no more than a name for what a request met, so the law also says what that was: on every
run to the state, the request itself met a reply with that meaning (`ToldTo`). It does not say that
IAM is right, or that a key that was withdrawn is turned away before its verdict expires.
-/

namespace AggregatorBridge

open Remote Expiring Transition

namespace ApiKeyAuth

variable (cfg : AuthConfig)

/-- A verdict that lets a key through. -/
def Grants (key : String) (verdict : IamVerdict) : Prop :=
  verdict = .authorized ∨ verdict = .unavailable ∧ key ∈ cfg.apiKeys

/-- A verdict of that validity is stored on the word of IAM or of the static list. -/
def Sound (v : StoredVerdict) : Prop :=
  if v.valid then Grants cfg v.key v.verdict else v.verdict = .rejected

/-- The answer was given on this stored verdict, within its lifetime. -/
def AnsweredFrom (s : AuthState) (answer : AuthAnswer) (v : StoredVerdict) : Prop :=
  v ∈ s.stored ∧ answer.key = some v.key ∧ answer.passed = v.valid ∧ v.since ≤ answer.time ∧
    answer.time < v.since + cfg.ttl v.valid

/-- IAM is asked: there is a client, and the breaker lets the request through. -/
def Asked (reply : IamReply) : Prop :=
  cfg.identityClient = true ∧ (cfg.breaker = true → reply.shouldAllow = true)

/-- What a verdict says of the reply that a request met. -/
def Said (reply : IamReply) : IamVerdict → Prop
  | .authorized => Asked cfg reply ∧ reply.response = .ok true
  | .rejected => Asked cfg reply ∧ reply.response = .ok false
  | .unavailable => Asked cfg reply → ∃ e, reply.response = .error e

/-- Request `i` met a reply that says the verdict of the key, on every run. -/
def ToldTo (i : Nat) (key : String) (verdict : IamVerdict) (s : Pool.State AuthState AuthStage) :
    Prop :=
  Passes (system cfg).step Always (fun u e => ∃ reply, e = .move i (.iam reply) ∧
    u.procs[i]? = some (.missed key) ∧ Said cfg reply verdict) ⟨init, []⟩ s

/-- Every decision there was, and every verdict in the cache, has its justification. -/
structure Justified (s : Pool.State AuthState AuthStage) : Prop where
  /-- Let through on a verdict of this request, or on a stored one that is young enough. -/
  passed : ∀ answer, .answered answer ∈ s.procs → answer.passed = true →
    ∃ key verdict, answer.key = some key ∧ Grants cfg key verdict ∧
      (answer.verdict = some verdict ∨
        ∃ v ∈ s.shared.stored, v.key = key ∧ v.verdict = verdict ∧ v.valid = true ∧
          v.since ≤ answer.time ∧ answer.time < v.since + cfg.positiveTtl)
  /-- Turned away from the cache on a definitive rejection that is young enough. -/
  cachedReject : ∀ answer key, .answered answer ∈ s.procs → answer.key = some key →
    answer.verdict = none → answer.passed = false →
    ∃ v ∈ s.shared.stored, v.key = key ∧ v.verdict = .rejected ∧ v.valid = false ∧
      v.since ≤ answer.time ∧ answer.time < v.since + cfg.negativeTtl
  rejected : ∀ answer, .answered answer ∈ s.procs → answer.verdict = some .rejected →
    answer.passed = false
  /-- Nothing negative is stored while IAM is unavailable. -/
  unavailable : ∀ v ∈ s.shared.stored, v.verdict = .unavailable → v.valid = true
  /-- A request that was answered on a verdict of its own was told so. -/
  told : ∀ i answer key verdict, s.procs[i]? = some (.answered answer) → answer.key = some key →
    answer.verdict = some verdict → ToldTo cfg i key verdict s
  /-- A verdict was stored by a request that was told so. -/
  toldStored : ∀ v ∈ s.shared.stored, Passes (system cfg).step Always (fun u e => ∃ i,
    e = .move i .store ∧ u.procs[i]? = some (.storing v.key v.verdict v.valid v.since) ∧
      ToldTo cfg i v.key v.verdict u) ⟨init, []⟩ s

variable {cfg} {s t : AuthState} {p q r : AuthStage} {m : Move}

/-! ## The invariant -/

/-- An entry of the cache is a verdict that was stored. -/
def StoredAt (s : AuthState) (key : String) (valid : Bool) (since : Instant) : Prop :=
  ∃ v ∈ s.stored, v.key = key ∧ v.valid = valid ∧ v.since = since

/-- What is true of the shared state. -/
structure Inv (cfg : AuthConfig) (s : AuthState) : Prop where
  backed : Backed (StoredAt s) cfg.ttl s.cache
  sound : ∀ v ∈ s.stored, Sound cfg v ∧ v.since ≤ s.clock

/-- What is true of an answer: without a key, from the cache, and on a verdict of its own. -/
def Answered (cfg : AuthConfig) (s : AuthState) : AuthAnswer → Prop
  | ⟨none, _, passed, _⟩ => passed = false
  | ⟨some key, none, passed, time⟩ => ∃ v, AnsweredFrom cfg s ⟨some key, none, passed, time⟩ v
  | ⟨some key, some verdict, passed, _⟩ => passed = false ∨
      passed = true ∧ verdict ≠ .rejected ∧ Grants cfg key verdict

/-- What is true of a request that is about to store, and of one that was answered. -/
def Own (cfg : AuthConfig) (s : AuthState) : AuthStage → Prop
  | .storing key verdict valid now => Sound cfg ⟨key, verdict, valid, now⟩ ∧ now ≤ s.clock ∧
      passes (postIamAction verdict) = valid
  | .answered answer => Answered cfg s answer
  | _ => True

/-- A verdict that may be stored says what its key deserves at the time it is stored. -/
theorem sound_of_cacheable {key : String} {verdict : IamVerdict} {valid : Bool} (now : Instant)
    (known : cacheVerdictFor (postIamAction verdict) = some valid) :
    Sound cfg ⟨key, verdict, valid, now⟩ ∧ passes (postIamAction verdict) = valid := by
  cases verdict with
  | authorized =>
    cases known
    exact ⟨.inl rfl, rfl⟩
  | rejected =>
    cases known
    exact ⟨rfl, rfl⟩
  | unavailable => cases known

/-- Storing is only ever added to, and the clock does not go back. -/
structure Extends (s t : AuthState) : Prop where
  stored : ∀ v ∈ s.stored, v ∈ t.stored
  clock : s.clock ≤ t.clock

theorem Own.mono (ext : Extends s t) (own : Own cfg s r) : Own cfg t r := by
  cases r with
  | storing key verdict valid now => exact ⟨own.1, le_trans own.2.1 ext.clock, own.2.2⟩
  | answered answer =>
    obtain ⟨key, verdict, passed, time⟩ := answer
    cases key with
    | none => exact own
    | some key =>
      cases verdict with
      | none =>
        obtain ⟨v, mem, rest⟩ := own
        exact ⟨v, ext.stored v mem, rest⟩
      | some verdict => exact own
  | _ => trivial

/-- What was stored stays on record, and the clock does not go back. -/
theorem extends_of_acts (acts : Acts cfg s p m t q) : Extends s t := by
  cases acts with
  | store _ => exact ⟨fun v mem => List.mem_append_left _ mem, le_refl _⟩
  | _ => exact ⟨fun v mem => mem, le_refl _⟩

/-- A move keeps the invariant, and the request that makes it keeps its own. -/
theorem inv_of_acts (inv : Inv cfg s) (own : Own cfg s p) (acts : Acts cfg s p m t q) :
    Inv cfg t ∧ Own cfg t q := by
  cases acts with
  | noKey => exact ⟨inv, rfl⟩
  | @hit key valid found =>
    obtain ⟨since, ⟨v, mem, rfl, rfl, rfl⟩, fresh⟩ := inv.backed.of_get found
    exact ⟨⟨inv.backed.get _ _, inv.sound⟩, v, mem, rfl, rfl, (inv.sound v mem).2, fresh⟩
  | miss _ => exact ⟨⟨inv.backed.get _ _, inv.sound⟩, trivial⟩
  | iam => exact ⟨inv, trivial⟩
  | @cacheable key verdict valid known =>
    have sound : Sound cfg ⟨key, verdict, valid, s.clock⟩ ∧ _ := sound_of_cacheable s.clock known
    exact ⟨inv, sound.1, le_refl _, sound.2⟩
  | listed known => exact ⟨inv, .inr ⟨rfl, known⟩, le_refl _, rfl⟩
  | unlisted _ => exact ⟨inv, .inl rfl⟩
  | @store key verdict valid now expires fits =>
    obtain ⟨sound, earlier, passed⟩ := own
    refine ⟨⟨?_, ?_⟩, ?_⟩
    · refine Backed.insert (Backed.mono (inv.backed.prune now) ?_)
        ⟨_, List.mem_append_right _ (List.mem_singleton.mpr rfl), rfl, rfl, rfl⟩ fits
      rintro k v since ⟨w, mem, rest⟩
      exact ⟨w, List.mem_append_left _ mem, rest⟩
    · intro v mem
      rcases List.mem_append.mp mem with old | new
      · exact inv.sound v old
      · cases List.mem_singleton.mp new
        exact ⟨sound, earlier⟩
    · -- The request goes the way of what it stored.
      cases valid with
      | false => exact .inl passed
      | true =>
        refine .inr ⟨passed, ?_, sound⟩
        rintro rfl
        cases passed
  | overflow => exact ⟨⟨inv.backed.prune _, inv.sound⟩, trivial⟩

/-- In every run the cache holds what was stored, and every request knows what it may. -/
theorem inv_of_steps {s : Pool.State AuthState AuthStage}
    (run : Steps (system cfg).step Always ⟨init, []⟩ s) :
    Pool.System.Holds (Inv cfg) (Own cfg) s := by
  refine Pool.System.invariant ?_ ?_ ?_ ?_ run
    (Pool.System.holds_nil ⟨Backed.empty, fun v mem => absurd mem List.not_mem_nil⟩)
  · intro s p admitted _
    cases p with
    | arrived _ => trivial
    | _ => cases admitted
  · intro s i m p t q here _ holds acted
    exact inv_of_acts holds.1 (holds.2 p (List.mem_of_getElem? here)) (acts_of_act acted)
  · intro s p m t q r _ _ other acted
    exact other.mono (extends_of_acts (acts_of_act acted))
  · intro s duration t inv moved
    cases moved
    refine ⟨⟨inv.backed, fun v mem => ?_⟩, fun r own => own.mono ?_⟩
    · exact ⟨(inv.sound v mem).1, le_trans (inv.sound v mem).2 (Nat.le_add_right _ _)⟩
    · exact ⟨fun v mem => mem, Nat.le_add_right _ _⟩

/-! ## What IAM said -/

theorem said_iamVerdict (reply : IamReply) : Said cfg reply (iamVerdict cfg reply) := by
  unfold iamVerdict
  split
  · next stopped =>
    rw [Bool.and_eq_true, Bool.not_eq_true'] at stopped
    intro asked
    rw [asked.2 stopped.1] at stopped
    cases stopped.2
  · next goesOn =>
    split
    · next client =>
      have asked : Asked cfg reply := by
        refine ⟨client, fun breaker => ?_⟩
        simpa [breaker] using goesOn
      split
      · next said => exact ⟨asked, said⟩
      · next said => exact ⟨asked, said⟩
      · next e said => exact fun _ => ⟨e, said⟩
    · next none_ => exact fun asked => absurd asked.1 none_

/-- The request has the verdict of the key. -/
def Carries (key : String) (verdict : IamVerdict) : AuthStage → Prop
  | .decided k v => k = key ∧ v = verdict
  | .storing k v _ _ => k = key ∧ v = verdict
  | .answered answer => answer.key = some key ∧ answer.verdict = some verdict
  | _ => False

/-- A request has a verdict because it had it, or because IAM answered in this move. -/
theorem carries_of_acts {key : String} {verdict : IamVerdict} (acts : Acts cfg s p m t q)
    (carries : Carries key verdict q) :
    Carries key verdict p ∨ ∃ reply, m = .iam reply ∧ p = .missed key ∧ Said cfg reply verdict := by
  cases acts with
  | noKey => exact absurd carries.1 nofun
  | hit _ => exact absurd carries.2 nofun
  | miss _ => exact carries.elim
  | @iam key' reply =>
    obtain ⟨rfl, rfl⟩ := carries
    exact .inr ⟨reply, rfl, rfl, said_iamVerdict reply⟩
  | cacheable _ => exact .inl carries
  | listed _ => exact .inl carries
  | unlisted _ => exact .inl ⟨Option.some.inj carries.1, Option.some.inj carries.2⟩
  | store _ => exact .inl ⟨Option.some.inj carries.1, Option.some.inj carries.2⟩
  | overflow => exact carries.elim

theorem toldTo_of_carries {s : Pool.State AuthState AuthStage} {i : Nat} {p : AuthStage}
    {key : String} {verdict : IamVerdict} (here : s.procs[i]? = some p)
    (carries : Carries key verdict p) : ToldTo cfg i key verdict s := by
  have begins : ∀ p, (system cfg).admits p = true → ¬ Carries key verdict p := by
    intro p admitted
    cases p with
    | arrived _ => exact id
    | _ => cases admitted
  refine (Pool.System.origin begins
    (fun _ _ _ _ _ acted => carries_of_acts (acts_of_act acted)) here carries).mono ?_
  rintro u e - - ⟨m, _, rfl, there, reply, rfl, rfl, said⟩
  exact ⟨reply, rfl, there, said⟩

/-- What is on record was there, or was stored in this move by a request that had decided. -/
theorem stored_of_acts {v : StoredVerdict} (acts : Acts cfg s p m t q) (mem : v ∈ t.stored) :
    v ∈ s.stored ∨ m = .store ∧ p = .storing v.key v.verdict v.valid v.since := by
  cases acts with
  | store fits =>
    rcases List.mem_append.mp mem with old | new
    · exact .inl old
    · cases List.mem_singleton.mp new
      exact .inr ⟨rfl, rfl⟩
  | _ => exact .inl mem

theorem told_of_stored {s : Pool.State AuthState AuthStage} {v : StoredVerdict}
    (mem : v ∈ s.shared.stored) :
    Passes (system cfg).step Always (fun u e => ∃ i, e = .move i .store ∧
      u.procs[i]? = some (.storing v.key v.verdict v.valid v.since) ∧
        ToldTo cfg i v.key v.verdict u) ⟨init, []⟩ s := by
  let logged : AuthState → Prop := fun s => v ∈ s.stored
  have initially : ¬ logged init := List.not_mem_nil
  have records : ∀ s p m t q, (system cfg).act s p m = some (t, q) → logged t →
      logged s ∨ m = .store ∧ p = .storing v.key v.verdict v.valid v.since :=
    fun _ _ _ _ _ acted => stored_of_acts (acts_of_act acted)
  have kept : ∀ s (duration : Nat) t, (system cfg).world s duration = some t → logged t →
      logged s := by
    intro s duration t moved mem
    cases moved
    exact mem
  refine (Pool.System.recorded initially records kept mem).mono ?_
  rintro u e - - ⟨i, m, p, rfl, here, rfl, rfl⟩
  exact ⟨i, rfl, here, toldTo_of_carries here ⟨rfl, rfl⟩⟩

/-! ## The decisions -/

/-- Whatever the requests, the replies and the times are. A request that passes was let through by a
verdict of IAM on its key, fresh or stored less than its lifetime before, or by a static key while
IAM had nothing to say; no other request passes, and no refusal is stored while IAM is unavailable.
-/
theorem api_key_decisions_justified {s : Pool.State AuthState AuthStage}
    (run : Steps (system cfg).step Always ⟨init, []⟩ s) : Justified cfg s := by
  have holds := inv_of_steps run
  refine ⟨?_, ?_, ?_, ?_, ?_, fun v mem => told_of_stored mem⟩
  · rintro ⟨key, verdict, passed, time⟩ mem rfl
    have own := holds.2 _ mem
    cases key with
    | none => cases own
    | some key =>
      cases verdict with
      | none =>
        obtain ⟨v, stored, named, valid, since, fresh⟩ := own
        have sound := (holds.1.sound v stored).1
        unfold Sound at sound
        cases named
        simp only [AuthConfig.ttl, ← valid, if_true] at sound fresh
        exact ⟨v.key, v.verdict, rfl, sound, .inr ⟨v, stored, rfl, rfl, valid.symm, since, fresh⟩⟩
      | some verdict =>
        rcases own with refused | ⟨_, _, grants⟩
        · cases refused
        · exact ⟨key, verdict, rfl, grants, .inl rfl⟩
  · rintro ⟨_, _, _, time⟩ key mem rfl rfl rfl
    obtain ⟨v, stored, named, valid, since, fresh⟩ := holds.2 _ mem
    have sound := (holds.1.sound v stored).1
    unfold Sound at sound
    cases named
    simp only [AuthConfig.ttl, ← valid, if_false, Bool.false_eq_true] at sound fresh
    exact ⟨v, stored, rfl, sound, valid.symm, since, fresh⟩
  · rintro ⟨key, _, passed, time⟩ mem rfl
    have own := holds.2 _ mem
    cases key with
    | none => exact own
    | some key =>
      rcases own with refused | ⟨_, notRejected, _⟩
      · exact refused
      · exact absurd rfl notRejected
  · intro v mem unreached
    have sound := (holds.1.sound v mem).1
    unfold Sound at sound
    split at sound
    · assumption
    · rw [unreached] at sound
      cases sound
  · intro i answer key verdict here keyed own
    exact toldTo_of_carries here ⟨keyed, own⟩

/-- A minute and ten seconds, one static key, and a client. -/
private def minuteConfig : AuthConfig :=
  ⟨60000000000, 10000000000, ["fallback"], false, true⟩

/-- One key is authorized and comes back within the minute, one is rejected and comes back
within ten seconds, and one is on the static list while IAM is down. -/
private def threeKeys : List (Pool.Event AuthStage Move Nat) :=
  [.start (.arrived (some "meter")), .move 0 .lookup, .move 0 (.iam ⟨true, .ok true⟩),
    .move 0 .decide, .move 0 .store, .start (.arrived (some "stolen")), .move 1 .lookup,
    .move 1 (.iam ⟨true, .ok false⟩), .move 1 .decide, .move 1 .store, .outside 9000000000,
    .start (.arrived (some "stolen")), .move 2 .lookup, .outside 50000000000,
    .start (.arrived (some "meter")), .move 3 .lookup, .start (.arrived (some "fallback")),
    .move 4 .lookup, .move 4 (.iam ⟨true, .error "unreachable"⟩), .move 4 .decide, .move 4 .store]

private theorem threeKeys_run :
    (Transition.run (system minuteConfig).step Always threeKeys ⟨init, []⟩).isSome := by
  decide +kernel

/-- The decisions of a run with a hit, a cached rejection and a fallback. -/
theorem three_keys_justified :
    ∃ s, Steps (system minuteConfig).step Always ⟨init, []⟩ s ∧
      .answered ⟨some "stolen", none, false, 9000000000⟩ ∈ s.procs ∧
      .answered ⟨some "meter", none, true, 59000000000⟩ ∈ s.procs ∧
      .answered ⟨some "fallback", some .unavailable, true, 59000000000⟩ ∈ s.procs ∧
      Justified minuteConfig s :=
  ⟨_, Steps.of_run_get threeKeys_run, by decide +kernel, by decide +kernel, by decide +kernel,
    api_key_decisions_justified (Steps.of_run_get threeKeys_run)⟩

end ApiKeyAuth

end AggregatorBridge
