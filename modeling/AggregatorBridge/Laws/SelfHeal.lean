import AggregatorBridge.Dissemination
import AggregatorBridge.Laws.StreamRoundTrip

/-!
# Retries of the router

Whatever the calls beside it do, a call that returns an id has that entry in the stream of its zone,
told to it, and at most one more there: a first try whose answer was lost. A call that returns an
error may have two. All of them are one envelope of its reading, so each decodes to its event. The
entries of a call are its own, the sinks are offered the readings of the calls that returned an id,
and no call tries again over the connection that failed it.

The laws are about what was appended. They do not say that an entry is still there: `MAXLEN` may have
trimmed it. And the connection of a second try came into the cache after the one that failed, but it
may have been built before it.
-/

namespace AggregatorBridge

open Transition Pool.System

namespace DisseminateCall

variable {F : Type}

/-- What the call has appended. -/
def entries (call : DisseminateCall F) : List StreamEntry :=
  call.zoned.map Prod.fst ++ call.unified

/-- The call returned an id. -/
def answered (call : DisseminateCall F) : Bool :=
  match call.stage with
  | .returned (.ok _) => true
  | _ => false

end DisseminateCall

/-- The other operand of one that is not a number is the larger one. -/
instance : SignedFloat64 WholeDouble where
  neg := Option.map Neg.neg
  max
    | some x, some y => some (Max.max x y)
    | some x, none => some x
    | none, y => y

namespace Router

variable {F : Type} {cfg : RouterConfig F}

/-! ## Zones -/

theorem hashedZone_lt {hash : String → Nat} {numZones idx : Nat} {text : String}
    (found : hashedZone hash numZones text = .ok idx) : idx < numZones := by
  unfold hashedZone at found
  split at found
  · cases found
  · next some_ =>
    cases found
    exact Nat.mod_lt _ (Nat.pos_of_ne_zero some_)

theorem calculateZoneIndex_lt {hash : String → Nat} {numZones idx : Nat} {reading : DeviceReading F}
    (found : calculateZoneIndex hash numZones reading = .ok idx) : idx < numZones := by
  unfold calculateZoneIndex at found
  split at found
  · dsimp only at found
    split at found
    · split at found
      · next inside =>
        cases found
        exact inside
      · exact hashedZone_lt found
    · exact hashedZone_lt found
  · exact hashedZone_lt found

/-! ## What a call has done -/

/-- Appended by at most `n` tries that were not answered. -/
def Unheard (n : Nat) (zoned : List (StreamEntry × Bool)) : Prop :=
  zoned.length ≤ n ∧ ∀ z ∈ zoned, z.2 = false

/-- The last try was answered with `id`, and the one before it, if it appended, was not answered. -/
def Heard (id : Nat) (zoned : List (StreamEntry × Bool)) : Prop :=
  ∃ before entry, zoned = before ++ [(entry, true)] ∧ entry.id = id ∧ Unheard 1 before

/-- What was appended is `event`, an envelope of the reading, in the streams it belongs to. -/
structure Wrote (cfg : RouterConfig F) (reading : DeviceReading F)
    (zoned : List (StreamEntry × Bool)) (unified : List StreamEntry) (event : String) : Prop where
  made : ∃ nonce, envelope cfg.json cfg.crypto cfg.streamCipher nonce reading = some event
  zoned : ∀ z ∈ zoned, zoneOf cfg reading = .ok z.1.stream ∧ z.1.event = event
  unified : ∀ e ∈ unified, e.stream = reading.deviceType.targetStream ∧ e.event = event

/-- What a call has appended when it is at a stage. -/
def Progress (cfg : RouterConfig F) (reading : DeviceReading F)
    (zoned : List (StreamEntry × Bool)) (unified : List StreamEntry) : DisseminateStage → Prop
  | .connecting => zoned = [] ∧ unified = []
  | .building => zoned = [] ∧ unified = []
  | .caching => zoned = [] ∧ unified = []
  | .panicked => zoned = [] ∧ unified = []
  | .publishing _ event => zoned = [] ∧ unified = [] ∧ Wrote cfg reading zoned unified event
  | .invalidating _ event => Unheard 1 zoned ∧ unified = [] ∧ Wrote cfg reading zoned unified event
  | .reconnecting _ event => Unheard 1 zoned ∧ unified = [] ∧ Wrote cfg reading zoned unified event
  | .rebuilding _ event => Unheard 1 zoned ∧ unified = [] ∧ Wrote cfg reading zoned unified event
  | .recaching _ event => Unheard 1 zoned ∧ unified = [] ∧ Wrote cfg reading zoned unified event
  | .republishing _ _ event =>
    Unheard 1 zoned ∧ unified = [] ∧ Wrote cfg reading zoned unified event
  | .unifying event id => Heard id zoned ∧ unified = [] ∧ Wrote cfg reading zoned unified event
  | .mirroring id =>
    Heard id zoned ∧ unified.length ≤ 1 ∧ ∃ event, Wrote cfg reading zoned unified event
  | .returned (.ok id) =>
    Heard id zoned ∧ unified.length ≤ 1 ∧ ∃ event, Wrote cfg reading zoned unified event
  | .returned (.error _) => unified = [] ∧
    (zoned = [] ∨ Unheard 2 zoned ∧ ∃ event, Wrote cfg reading zoned unified event)
  | .dropped => zoned = [] ∧ unified = [] ∨
    zoned.length ≤ 2 ∧ unified.length ≤ 1 ∧ ∃ event, Wrote cfg reading zoned unified event

variable {s later : RouterState F} {call next : DisseminateCall F} {m : Move}
  {reading : DeviceReading F} {zoned : List (StreamEntry × Bool)} {unified : List StreamEntry}
  {event stream : String} {id : Nat} {stage onError : DisseminateStage}

theorem unheard_nil (n : Nat) : Unheard n [] :=
  ⟨n.zero_le, nofun⟩

theorem Unheard.append {n : Nat} (before : Unheard n zoned) (entry : StreamEntry) :
    Unheard (n + 1) (zoned ++ [(entry, false)]) := by
  refine ⟨by simpa using before.1, fun z mem => ?_⟩
  rcases List.mem_append.mp mem with old | new
  · exact before.2 z old
  · cases List.mem_singleton.mp new
    rfl

theorem Unheard.mono {n k : Nat} (before : Unheard n zoned) (le : n ≤ k) : Unheard k zoned :=
  ⟨before.1.trans le, before.2⟩

theorem Heard.length_le (heard : Heard id zoned) : zoned.length ≤ 2 := by
  obtain ⟨before, entry, rfl, -, short, -⟩ := heard
  simpa using short

theorem wrote_nil {nonce : GcmNonce}
    (made : envelope cfg.json cfg.crypto cfg.streamCipher nonce reading = some event) :
    Wrote cfg reading [] [] event :=
  ⟨⟨nonce, made⟩, nofun, nofun⟩

theorem Wrote.zone (wrote : Wrote cfg reading zoned unified event)
    (zone : zoneOf cfg reading = .ok stream) (id : Nat) (heard : Bool) :
    Wrote cfg reading (zoned ++ [(⟨stream, id, event⟩, heard)]) unified event where
  made := wrote.made
  zoned z mem := by
    rcases List.mem_append.mp mem with old | new
    · exact wrote.zoned z old
    · cases List.mem_singleton.mp new
      exact ⟨zone, rfl⟩
  unified := wrote.unified

theorem Wrote.unify (wrote : Wrote cfg reading zoned unified event) (id : Nat) :
    Wrote cfg reading zoned (unified ++ [⟨reading.deviceType.targetStream, id, event⟩]) event where
  made := wrote.made
  zoned := wrote.zoned
  unified e mem := by
    rcases List.mem_append.mp mem with old | new
    · exact wrote.unified e old
    · cases List.mem_singleton.mp new
      exact ⟨rfl, rfl⟩

/-- Before a try, what an earlier one appended was not answered. -/
theorem Progress.tries (progress : Progress cfg reading zoned unified stage)
    (at_ : Tries stage event onError) :
    Unheard 1 zoned ∧ unified = [] ∧ Wrote cfg reading zoned unified event := by
  cases at_ with
  | first =>
    obtain ⟨rfl, rfl, wrote⟩ := progress
    exact ⟨unheard_nil 1, rfl, wrote⟩
  | second => exact progress

theorem Progress.answered (progress : Progress cfg reading zoned unified stage)
    (at_ : Tries stage event onError) (zone : zoneOf cfg reading = .ok stream) (id : Nat) :
    Progress cfg reading (zoned ++ [(⟨stream, id, event⟩, true)]) unified (.unifying event id) := by
  obtain ⟨unheard, none, wrote⟩ := progress.tries at_
  exact ⟨⟨zoned, _, rfl, rfl, unheard⟩, none, wrote.zone zone id true⟩

theorem Progress.lost (progress : Progress cfg reading zoned unified stage)
    (at_ : Tries stage event onError) (zone : zoneOf cfg reading = .ok stream) (id : Nat) :
    Progress cfg reading (zoned ++ [(⟨stream, id, event⟩, false)]) unified onError := by
  cases at_ with
  | first =>
    obtain ⟨rfl, rfl, wrote⟩ := progress
    exact ⟨(unheard_nil 0).append _, rfl, wrote.zone zone id false⟩
  | second =>
    obtain ⟨unheard, none, wrote⟩ := progress
    exact ⟨none, .inr ⟨unheard.append _, _, wrote.zone zone id false⟩⟩

theorem Progress.failed (progress : Progress cfg reading zoned unified stage)
    (at_ : Tries stage event onError) : Progress cfg reading zoned unified onError := by
  obtain ⟨unheard, none, wrote⟩ := progress.tries at_
  cases at_ with
  | first => exact ⟨unheard, none, wrote⟩
  | second => exact ⟨none, .inr ⟨unheard.mono (by decide), _, wrote⟩⟩

theorem Prepared.progress {conn : Nat} (prepared : Prepared cfg reading conn stage) :
    Progress cfg reading [] [] stage := by
  cases prepared with
  | ready zone made => exact ⟨rfl, rfl, wrote_nil made⟩
  | unsealed => exact ⟨rfl, .inl rfl⟩
  | panicked => exact ⟨rfl, rfl⟩

theorem Progress.drop (progress : Progress cfg reading zoned unified stage)
    (running : Running stage) : Progress cfg reading zoned unified .dropped := by
  cases stage with
  | connecting => exact .inl progress
  | building => exact .inl progress
  | caching => exact .inl progress
  | publishing conn event => exact .inl ⟨progress.1, progress.2.1⟩
  | invalidating failed event | reconnecting failed event | rebuilding failed event
  | recaching failed event | republishing failed conn event =>
    obtain ⟨unheard, rfl, wrote⟩ := progress
    exact .inr ⟨unheard.1.trans (by decide), by decide, _, wrote⟩
  | unifying event id =>
    obtain ⟨heard, rfl, wrote⟩ := progress
    exact .inr ⟨heard.length_le, by decide, _, wrote⟩
  | mirroring id =>
    obtain ⟨heard, short, wrote⟩ := progress
    exact .inr ⟨heard.length_le, short, wrote⟩
  | returned _ => exact running.elim
  | panicked => exact running.elim
  | dropped => exact running.elim

theorem Wrote.of_entries (wrote : Wrote cfg reading zoned unified event) {entry : StreamEntry}
    (mem : entry ∈ zoned.map Prod.fst ++ unified) :
    entry.event = event ∧ (zoneOf cfg reading = .ok entry.stream ∨
      entry.stream = reading.deviceType.targetStream) := by
  rcases List.mem_append.mp mem with inZone | inUnified
  · obtain ⟨z, written, rfl⟩ := List.mem_map.mp inZone
    exact ⟨(wrote.zoned z written).2, .inl (wrote.zoned z written).1⟩
  · exact ⟨(wrote.unified entry inUnified).2, .inr (wrote.unified entry inUnified).1⟩

theorem Progress.wrote (progress : Progress cfg reading zoned unified stage)
    (some_ : zoned.map Prod.fst ++ unified ≠ []) :
    ∃ event, Wrote cfg reading zoned unified event := by
  have quiet (silent : zoned = [] ∧ unified = []) :
      ∃ event, Wrote cfg reading zoned unified event :=
    absurd (by rw [silent.1, silent.2]; rfl) some_
  cases stage with
  | connecting => exact quiet progress
  | building => exact quiet progress
  | caching => exact quiet progress
  | panicked => exact quiet progress
  | publishing conn event | invalidating failed event | reconnecting failed event
  | rebuilding failed event | recaching failed event | republishing failed conn event
  | unifying event id =>
    exact ⟨event, progress.2.2⟩
  | mirroring id => exact progress.2.2
  | returned result =>
    cases result with
    | ok id => exact progress.2.2
    | error e =>
      obtain ⟨none, none' | ⟨-, wrote⟩⟩ := progress
      · exact quiet ⟨none', none⟩
      · exact wrote
  | dropped =>
    rcases progress with silent | ⟨-, -, wrote⟩
    · exact quiet silent
    · exact wrote

theorem Prepared.not_answered {conn : Nat} (prepared : Prepared cfg reading conn stage)
    (nth : Nat) : (⟨nth, reading, stage, zoned, unified⟩ : DisseminateCall F).answered = false := by
  cases prepared <;> rfl

theorem Tries.not_answered (at_ : Tries stage event onError) (nth : Nat) :
    (⟨nth, reading, stage, zoned, unified⟩ : DisseminateCall F).answered = false ∧
      (⟨nth, reading, onError, zoned, unified⟩ : DisseminateCall F).answered = false := by
  cases at_ <;> exact ⟨rfl, rfl⟩

theorem Running.not_answered (running : Running call.stage) : call.answered = false := by
  unfold DisseminateCall.answered
  split
  · next at_ =>
    rw [at_] at running
    exact running.elim
  · rfl

variable [Float64 F] [SignedFloat64 F]

/-- Every move of a call keeps the books of what it has appended, tries without an answer included.
-/
theorem Progress.act (progress : Progress cfg call.reading call.zoned call.unified call.stage)
    (acted : Acts cfg s call m later next) :
    Progress cfg next.reading next.zoned next.unified next.stage := by
  cases acted with
  | found at_ cached prepared =>
    rw [at_] at progress
    obtain ⟨none, none'⟩ := progress
    rw [none, none']
    exact prepared.progress
  | missed at_ | built at_ =>
    rw [at_] at progress
    exact progress
  | stored at_ prepared =>
    rw [at_] at progress
    obtain ⟨none, none'⟩ := progress
    rw [none, none']
    exact prepared.progress
  | unbuilt at_ =>
    rcases at_ with at_ | ⟨failed, event, at_⟩
    · rw [at_] at progress
      exact ⟨progress.2, .inl progress.1⟩
    · rw [at_] at progress
      obtain ⟨unheard, none, wrote⟩ := progress
      exact ⟨none, .inr ⟨unheard.mono (by decide), _, wrote⟩⟩
  | answered at_ zone => exact progress.answered at_ zone _
  | lost at_ zone => exact progress.lost at_ zone _
  | failed at_ => exact progress.failed at_
  | invalidated at_ | refound at_ _ | remissed at_ | rebuilt at_ | restored at_ =>
    rw [at_] at progress
    exact progress
  | unified at_ =>
    rw [at_] at progress
    obtain ⟨heard, none, wrote⟩ := progress
    exact ⟨heard, by simp [none], _, wrote.unify _⟩
  | ununified at_ =>
    rw [at_] at progress
    obtain ⟨heard, none, wrote⟩ := progress
    exact ⟨heard, by simp [none], _, wrote⟩
  | mirrored at_ =>
    rw [at_] at progress
    exact progress
  | dropped running => exact progress.drop running

/-! ## Any number of calls -/

variable {t : Pool.State (RouterState F) (DisseminateCall F)}

/-- So the books of all calls are right after every run. -/
theorem progress_of_chain (chain : Steps (system cfg).step Always ⟨init, []⟩ t) :
    ∀ call ∈ t.procs, Progress cfg call.reading call.zoned call.unified call.stage := by
  have kept : Holds (fun _ => True)
      (fun _ call => Progress cfg call.reading call.zoned call.unified call.stage) t := by
    refine invariant ?_ ?_ ?_ ?_ chain (holds_nil trivial)
    · intro _ call admitted _
      obtain ⟨at_, none⟩ := of_decide_eq_true admitted
      rw [at_]
      exact none
    · intro s i m call _ _ here _ kept acted
      exact ⟨trivial, (kept.2 call (List.mem_of_getElem? here)).act (acts_of_act acted)⟩
    · exact fun _ _ _ _ _ _ _ _ kept _ => kept
    · exact fun _ e => e.elim
  exact kept.2

theorem entries_act (acted : Acts cfg s call m later next) :
    later.entries = s.entries ∧ next.entries = call.entries ∨
      ∃ entry : StreamEntry, entry.id = s.entries.length ∧
        later.entries = s.entries ++ [entry] ∧ next.entries.Perm (entry :: call.entries) := by
  have zoned (entry : StreamEntry) (heard : Bool) :
      ((call.zoned ++ [(entry, heard)]).map Prod.fst ++ call.unified).Perm
        (entry :: call.entries) := by
    rw [List.map_append, List.append_assoc]
    exact List.perm_middle
  have unified (entry : StreamEntry) :
      (call.zoned.map Prod.fst ++ (call.unified ++ [entry])).Perm (entry :: call.entries) := by
    rw [← List.append_assoc]
    exact List.perm_append_comm
  cases acted with
  | answered at_ zone => exact .inr ⟨_, rfl, rfl, zoned _ true⟩
  | lost at_ zone => exact .inr ⟨_, rfl, rfl, zoned _ false⟩
  | unified at_ => exact .inr ⟨_, rfl, rfl, unified _⟩
  | _ => exact .inl ⟨rfl, rfl⟩

/-- The streams and what of them is gone are as they were, or as after an `XADD`. -/
theorem streams_act (acted : Acts cfg s call m later next) :
    later.entries = s.entries ∧ later.gone = s.gone ∨ ∃ stream event trim,
      later.entries = (appended cfg s stream event trim).entries ∧
        later.gone = (appended cfg s stream event trim).gone := by
  cases acted with
  | answered at_ zone => exact .inr ⟨_, _, _, rfl, rfl⟩
  | lost at_ zone => exact .inr ⟨_, _, _, rfl, rfl⟩
  | unified at_ => exact .inr ⟨_, _, _, rfl, rfl⟩
  | _ => exact .inl ⟨rfl, rfl⟩

theorem entries_owned (chain : Steps (system cfg).step Always ⟨init, []⟩ t) :
    t.shared.entries.Perm (t.procs.flatMap DisseminateCall.entries) := by
  have begins : Owns RouterState.entries DisseminateCall.entries
      (⟨init, []⟩ : Pool.State (RouterState F) (DisseminateCall F)) := List.Perm.refl _
  refine owns ?_ ?_ ?_ chain begins
  · intro call admitted
    obtain ⟨-, none, none'⟩ := of_decide_eq_true admitted
    rw [DisseminateCall.entries, none, none']
    rfl
  · intro s call m later next rest acted held
    rcases entries_act (acts_of_act acted) with ⟨same, same'⟩ | ⟨entry, -, grown, grown'⟩
    · rw [same, same']
      exact held
    · rw [grown]
      have owned : (entry :: s.entries).Perm (next.entries ++ rest) :=
        (held.cons entry).trans (grown'.append_right rest).symm
      exact List.perm_append_comm.trans owned
  · exact fun _ e => e.elim

/-- Entries are numbered as they were appended. -/
theorem ids_of_chain (chain : Steps (system cfg).step Always ⟨init, []⟩ t) :
    t.shared.entries.map StreamEntry.id = List.range t.shared.entries.length := by
  refine shared_invariant
    (G := fun s => s.entries.map StreamEntry.id = List.range s.entries.length) ?_ ?_ chain rfl
  · intro _ _ _ _ _ _ _ _ ids acted
    rcases entries_act (acts_of_act acted) with ⟨same, -⟩ | ⟨entry, id, grown, -⟩
    · rw [same]
      exact ids
    · rw [grown, List.map_append, ids, List.length_append, List.length_singleton, List.range_succ,
        List.map_singleton, id]
  · exact fun _ e => e.elim

/-- Every entry is of one call. A call that returned an id has appended the entry of that id to the
stream of its zone, after at most one more whose answer was lost, and at most one to the stream of
its device type; one that returned an error has appended at most two, neither answered. All that a
call appended is one envelope of its reading. -/
theorem appended_by_one_call (chain : Steps (system cfg).step Always ⟨init, []⟩ t) :
    t.shared.entries.Perm (t.procs.flatMap DisseminateCall.entries) ∧
      t.shared.entries.Nodup ∧
      ∀ call ∈ t.procs, ∀ result, call.stage = .returned result →
        (call.entries ≠ [] → ∃ event, Wrote cfg call.reading call.zoned call.unified event) ∧
        match result with
        | .ok id => Heard id call.zoned ∧ call.unified.length ≤ 1
        | .error _ => Unheard 2 call.zoned ∧ call.unified = [] := by
  have ids : (t.shared.entries.map StreamEntry.id).Nodup :=
    ids_of_chain chain ▸ List.nodup_range
  refine ⟨entries_owned chain, ids.of_map _, fun call mem result at_ => ?_⟩
  have progress := progress_of_chain chain call mem
  refine ⟨progress.wrote, ?_⟩
  rw [at_] at progress
  cases result with
  | ok id => exact ⟨progress.1, progress.2.1⟩
  | error e =>
    obtain ⟨none, none' | ⟨unheard, -⟩⟩ := progress
    · exact ⟨none' ▸ unheard_nil 2, none⟩
    · exact ⟨unheard, none⟩

/-- Four zones, and no cipher. -/
private noncomputable def fourZones : RouterConfig WholeDouble :=
  ⟨compactJson, idleCrypto, none, fun _ => 0, 4, 2, true, true⟩

private def thirdZone : DeviceReading WholeDouble :=
  { kwhReading "5" with zoneCode := some "ZONE3" }

/-- Two calls share the connection that fails. One appends and is not told. -/
private def failing : List (Pool.Event (DisseminateCall WholeDouble) Move Empty) :=
  [.start ⟨0, thirdZone, .connecting, [], []⟩, .start ⟨1, thirdZone, .connecting, [], []⟩,
    .move 0 (.connect zeroNonce), .move 1 (.connect zeroNonce), .move 0 (.xadd .lost 0),
    .move 1 (.xadd .failed 0), .move 0 .invalidate, .move 0 (.connect zeroNonce),
    .move 1 .invalidate, .move 0 (.build (.ok ())), .move 0 (.store zeroNonce),
    .move 1 (.connect zeroNonce)]

private theorem failing_run :
    (Transition.run (system fourZones).step Always failing ⟨init, []⟩).isSome := by
  decide +kernel

private noncomputable def failingState :
    Pool.State (RouterState WholeDouble) (DisseminateCall WholeDouble) :=
  (Transition.run (system fourZones).step Always failing ⟨init, []⟩).get failing_run

/-- Both try again and are answered, and one has returned. The last entry of the zone has trimmed the
first. -/
private def healing : List (Pool.Event (DisseminateCall WholeDouble) Move Empty) :=
  failing ++ [.move 1 (.xadd .ok 0), .move 0 (.xadd .ok 5), .move 0 (.xadd .ok 0), .move 0 .mirror]

private theorem healing_run :
    (Transition.run (system fourZones).step Always healing ⟨init, []⟩).isSome := by
  decide +kernel

private noncomputable def healedState :
    Pool.State (RouterState WholeDouble) (DisseminateCall WholeDouble) :=
  (Transition.run (system fourZones).step Always healing ⟨init, []⟩).get healing_run

private theorem healed_call :
    ∃ call ∈ healedState.procs, call.stage = .returned (.ok 2) := by
  refine ⟨_, List.mem_of_getElem? (i := 0) rfl, rfl⟩

/-- The call that returned has the entry it was told of and the one it was not. -/
theorem healed_appended :
    healedState.shared.entries.Nodup ∧
      ∃ call ∈ healedState.procs, call.stage = .returned (.ok 2) ∧ Heard 2 call.zoned := by
  obtain ⟨-, nodup, of_call⟩ := appended_by_one_call (Steps.of_run_get healing_run)
  obtain ⟨call, mem, returned⟩ := healed_call
  exact ⟨nodup, call, mem, returned, (of_call call mem _ returned).2.1⟩

/-! ### Sinks -/

/-- Only the move with which a call returns an id offers anything. -/
theorem offered_act (acted : Acts cfg s call m later next) :
    call.answered = false ∧ (next.answered = false ∧ later.points = s.points ∧ later.rows = s.rows ∨
      next.answered = true ∧ later.points = s.points ++ offeredPoints cfg next ∧
        later.rows = s.rows ++ offeredRows cfg next) := by
  have stays {stage : DisseminateStage} (at_ : call.stage = stage) (running : Running stage) :
      call.answered = false := Running.not_answered (at_ ▸ running)
  cases acted with
  | found at_ _ prepared => exact ⟨stays at_ trivial, .inl ⟨prepared.not_answered _, rfl, rfl⟩⟩
  | stored at_ prepared => exact ⟨stays at_ trivial, .inl ⟨prepared.not_answered _, rfl, rfl⟩⟩
  | unbuilt at_ =>
    rcases at_ with at_ | ⟨_, _, at_⟩ <;> exact ⟨stays at_ trivial, .inl ⟨rfl, rfl, rfl⟩⟩
  | answered at_ _ => exact ⟨(at_.not_answered call.nth).1, .inl ⟨rfl, rfl, rfl⟩⟩
  | lost at_ _ | failed at_ =>
    exact ⟨(at_.not_answered call.nth).1, .inl ⟨(at_.not_answered call.nth).2, rfl, rfl⟩⟩
  | mirrored at_ => exact ⟨stays at_ trivial, .inr ⟨rfl, rfl, rfl⟩⟩
  | dropped running => exact ⟨running.not_answered, .inl ⟨rfl, rfl, rfl⟩⟩
  | missed at_ | built at_ | invalidated at_ | refound at_ _ | remissed at_ | rebuilt at_
  | restored at_ | unified at_ | ununified at_ => exact ⟨stays at_ trivial, .inl ⟨rfl, rfl, rfl⟩⟩

/-- What the calls that returned an id have offered. -/
theorem owned_of_answered {κ : Type} (given : RouterState F → List κ)
    (offered : DisseminateCall F → List κ) (begins : given init = [])
    (acts : ∀ {s later call next m}, Acts cfg s call m later next →
      call.answered = false ∧ (next.answered = false ∧ given later = given s ∨
        next.answered = true ∧ given later = given s ++ offered next))
    (chain : Steps (system cfg).step Always ⟨init, []⟩ t) :
    (given t.shared).Perm ((t.procs.filter DisseminateCall.answered).flatMap offered) := by
  let held : DisseminateCall F → List κ := fun call => if call.answered then offered call else []
  have owned : Owns given held t := by
    have start : Owns given held
        (⟨init, []⟩ : Pool.State (RouterState F) (DisseminateCall F)) := by
      rw [Owns, begins]
      exact List.Perm.refl _
    refine owns ?_ ?_ ?_ chain start
    · intro call admitted
      obtain ⟨at_, -⟩ := of_decide_eq_true admitted
      have running : Running call.stage := at_ ▸ trivial
      exact if_neg (by simp [running.not_answered])
    · intro s call m later next rest acted owned
      obtain ⟨before, ⟨after, same⟩ | ⟨after, grown⟩⟩ := acts (acts_of_act acted)
      · simpa [held, before, after, same] using owned
      · simp only [held, before, after, grown] at owned ⊢
        exact (owned.append_right _).trans List.perm_append_comm
    · exact fun _ e => e.elim
  refine owned.trans (List.Perm.of_eq ?_)
  induction t.procs with
  | nil => rfl
  | cons call procs ih =>
    cases answered : call.answered <;> simp [held, answered, ih]

/-- The sinks are offered the readings of the calls that returned an id, each once. That the sinks
keep what they are offered is a law of the sinks. -/
theorem answered_are_offered (chain : Steps (system cfg).step Always ⟨init, []⟩ t) :
    t.shared.points.Perm
        ((t.procs.filter DisseminateCall.answered).flatMap (offeredPoints cfg)) ∧
      t.shared.rows.Perm
        ((t.procs.filter DisseminateCall.answered).flatMap (offeredRows cfg)) := by
  constructor
  · refine owned_of_answered RouterState.points _ rfl ?_ chain
    intro _ _ _ _ _ acted
    obtain ⟨before, ⟨after, same, -⟩ | ⟨after, grown, -⟩⟩ := offered_act acted
    · exact ⟨before, .inl ⟨after, same⟩⟩
    · exact ⟨before, .inr ⟨after, grown⟩⟩
  · refine owned_of_answered RouterState.rows _ rfl ?_ chain
    intro _ _ _ _ _ acted
    obtain ⟨before, ⟨after, -, same⟩ | ⟨after, -, grown⟩⟩ := offered_act acted
    · exact ⟨before, .inl ⟨after, same⟩⟩
    · exact ⟨before, .inr ⟨after, grown⟩⟩

/-- One of the two is in the sinks. -/
theorem healed_offered :
    healedState.shared.points.Perm
        ((healedState.procs.filter DisseminateCall.answered).flatMap (offeredPoints fourZones)) ∧
      healedState.shared.rows.length = 1 :=
  ⟨(answered_are_offered (Steps.of_run_get healing_run)).1, by decide +kernel⟩

/-! ### Connections -/

/-- The connections of a call beside the one that is cached. -/
def Avoids (s : RouterState F) : DisseminateStage → Prop
  | .publishing conn _ => conn < s.built
  | .invalidating failed _ => failed < s.built
  | .reconnecting failed _ => failed < s.built ∧ ∀ conn ∈ s.cached, failed < conn
  | .rebuilding failed _ => failed < s.built
  | .recaching failed _ => failed < s.built
  | .republishing failed conn _ => failed < conn
  | _ => True

theorem cached_act (acted : Acts cfg s call m later next) :
    later.cached = s.cached ∧ later.built = s.built ∨
      later.cached = some s.built ∧ later.built = s.built + 1 ∨
      later.cached = none ∧ later.built = s.built := by
  cases acted with
  | stored at_ prepared => exact .inr (.inl ⟨rfl, rfl⟩)
  | restored at_ => exact .inr (.inl ⟨rfl, rfl⟩)
  | invalidated at_ => exact .inr (.inr ⟨rfl, rfl⟩)
  | _ => exact .inl ⟨rfl, rfl⟩

/-- Another call stores a newer connection, or drops the one that is cached. -/
theorem Avoids.other (avoids : Avoids s stage) (acted : Acts cfg s call m later next) :
    Avoids later stage := by
  have built : s.built ≤ later.built := by
    rcases cached_act acted with ⟨-, same⟩ | ⟨-, more⟩ | ⟨-, same⟩ <;> omega
  cases stage with
  | publishing conn event => exact avoids.trans_le built
  | invalidating failed event => exact avoids.trans_le built
  | rebuilding failed event => exact avoids.trans_le built
  | recaching failed event => exact avoids.trans_le built
  | reconnecting failed event =>
    refine ⟨avoids.1.trans_le built, fun conn found => ?_⟩
    rcases cached_act acted with ⟨same, -⟩ | ⟨new, -⟩ | ⟨none, -⟩
    · exact avoids.2 conn (same ▸ found)
    · cases new.symm.trans found
      exact avoids.1
    · cases none.symm.trans found
  | _ => exact avoids

/-- A connection that failed a call does not come back to it, whoever moves. -/
theorem Avoids.act (fresh : ∀ conn ∈ s.cached, conn < s.built) (avoids : Avoids s call.stage)
    (acted : Acts cfg s call m later next) : Avoids later next.stage := by
  have others := avoids.other acted
  cases acted with
  | found at_ cached prepared =>
    cases prepared with
    | ready zone made => exact fresh _ cached
    | unsealed => trivial
    | panicked => trivial
  | stored at_ prepared =>
    cases prepared with
    | ready zone made => exact Nat.lt_succ_self _
    | unsealed => trivial
    | panicked => trivial
  | lost at_ zone =>
    generalize call.stage = stage at at_ others
    cases at_ with
    | first => exact others
    | second => trivial
  | failed at_ =>
    generalize call.stage = stage at at_ others
    cases at_ with
    | first => exact others
    | second => trivial
  | invalidated at_ =>
    rw [at_] at others
    exact ⟨others, nofun⟩
  | refound at_ cached =>
    rw [at_] at avoids
    exact avoids.2 _ cached
  | remissed at_ =>
    rw [at_] at avoids
    exact avoids.1
  | rebuilt at_ | restored at_ =>
    rw [at_] at avoids
    exact avoids
  | _ => trivial

/-- A call that tries again has a connection that came into the cache after the one that failed it.
It may have been built before the other one failed, or by another call. -/
theorem retries_over_newer (chain : Steps (system cfg).step Always ⟨init, []⟩ t) :
    ∀ call ∈ t.procs, ∀ failed conn event, call.stage = .republishing failed conn event →
      failed < conn := by
  have kept : Holds (fun s => ∀ conn ∈ s.cached, conn < s.built)
      (fun s call => Avoids s call.stage) t := by
    have fresh : ∀ conn ∈ (init : RouterState F).cached, conn < (init : RouterState F).built := by
      rintro conn ⟨⟩
      exact Nat.one_pos
    refine invariant ?_ ?_ ?_ ?_ chain (holds_nil fresh)
    · intro _ call admitted _
      obtain ⟨at_, -⟩ := of_decide_eq_true admitted
      rw [at_]
      trivial
    · intro s i m call later next here _ kept acted
      have acted := acts_of_act acted
      refine ⟨fun conn found => ?_, (kept.2 call (List.mem_of_getElem? here)).act kept.1 acted⟩
      rcases cached_act acted with ⟨same, built⟩ | ⟨new, built⟩ | ⟨none, -⟩
      · exact built ▸ kept.1 conn (same ▸ found)
      · cases new.symm.trans found
        exact built ▸ Nat.lt_succ_self _
      · cases none.symm.trans found
    · exact fun _ _ _ _ _ _ _ _ kept acted => kept.other (acts_of_act acted)
    · exact fun _ e => e.elim
  intro call mem failed conn event at_
  have avoids : Avoids t.shared call.stage := kept.2 call mem
  rw [at_] at avoids
  exact avoids

/-- Both calls saw the seeded connection fail. -/
theorem failing_newer :
    ∃ call ∈ failingState.procs, ∃ conn event,
      call.stage = .republishing 0 conn event ∧ 0 < conn := by
  have here : failingState.procs[1]? = some ⟨1, thirdZone, .republishing 0 1 _, [], []⟩ := rfl
  have mem := List.mem_of_getElem? here
  exact ⟨_, mem, 1, _, rfl, retries_over_newer (Steps.of_run_get failing_run) _ mem 0 1 _ rfl⟩

/-! ### Consumers -/

omit [SignedFloat64 F] in
theorem Wrote.decodes (wrote : Wrote cfg reading zoned unified event)
    (trips : cfg.json.RoundTripsWithin SerdeJson.recursionLimit) (sound : cfg.crypto.Sound)
    (legible : reading.Legible cfg.json) :
    ∃ plain, decodeEntry cfg.json cfg.crypto cfg.streamCipher event = some plain ∧
      StreamEvent.fromStr cfg.json plain = some (.ofReading reading) := by
  obtain ⟨nonce, made⟩ := wrote.made
  obtain ⟨plain, decoded, read⟩ :=
    decodeEntry_envelope trips sound legible.typed legible.shallow made
  refine ⟨plain, decoded, ?_⟩
  rw [StreamEvent.fromStr, read, Option.bind_some, fromJson_payload,
    DeviceReading.fromJson_written trips legible.typed, if_pos legible.finite, Option.map_some]
  rfl

/-- Whatever was appended to a stream decodes to the event of a reading that was disseminated, and is
in the stream of its zone or of its device type, if the readings can be read back at all. -/
theorem entries_decode (trips : cfg.json.RoundTripsWithin SerdeJson.recursionLimit)
    (sound : cfg.crypto.Sound) (chain : Steps (system cfg).step Always ⟨init, []⟩ t)
    (legible : ∀ call ∈ t.procs, call.reading.Legible cfg.json) :
    ∀ entry ∈ t.shared.entries, ∃ call ∈ t.procs,
      (decodeEntry cfg.json cfg.crypto cfg.streamCipher entry.event).bind
          (StreamEvent.fromStr cfg.json) = some (.ofReading call.reading) ∧
        (entry.stream = call.reading.deviceType.targetStream ∨
          ∃ idx < cfg.numZones, calculateZoneIndex cfg.hash cfg.numZones call.reading = .ok idx ∧
            entry.stream = zoneStream idx) := by
  intro entry mem
  obtain ⟨call, running, mine⟩ := List.mem_flatMap.mp ((entries_owned chain).mem_iff.mp mem)
  obtain ⟨event, wrote⟩ := (progress_of_chain chain call running).wrote (List.ne_nil_of_mem mine)
  obtain ⟨same, stream⟩ := wrote.of_entries mine
  obtain ⟨plain, decoded, read⟩ := wrote.decodes trips sound (legible call running)
  refine ⟨call, running, ?_, ?_⟩
  · rw [same, decoded, Option.bind_some, read]
  · rcases stream with zone | target
    · obtain ⟨idx, found, named⟩ := exists_zone zone
      exact .inr ⟨idx, calculateZoneIndex_lt found, found, named.symm⟩
    · exact .inl target

/-- What is told of an entry and what is not decode alike. -/
theorem healed_decode :
    healedState.shared.entries.length = 4 ∧ ∀ entry ∈ healedState.shared.entries,
      (decodeEntry compactJson idleCrypto none entry.event).bind
        (StreamEvent.fromStr compactJson) = some (.ofReading thirdZone) := by
  have readings : ∀ call ∈ healedState.procs, call.reading = thirdZone := by
    have all : healedState.procs.map DisseminateCall.reading = [thirdZone, thirdZone] := rfl
    intro call mem
    have listed := List.mem_map_of_mem (f := DisseminateCall.reading) mem
    rw [all] at listed
    simpa using listed
  refine ⟨by decide +kernel, fun entry mem => ?_⟩
  have trips : fourZones.json.RoundTripsWithin SerdeJson.recursionLimit :=
    compactJson_roundTrips.within _
  have legible : thirdZone.Legible fourZones.json :=
    ⟨⟨trivial, List.nodup_nil, nofun⟩, rfl, by decide⟩
  obtain ⟨call, running, decodes, -⟩ := entries_decode trips idleCrypto_sound
    (Steps.of_run_get healing_run) (fun call mem => readings call mem ▸ legible) entry mem
  exact readings call running ▸ decodes

end Router

end AggregatorBridge
