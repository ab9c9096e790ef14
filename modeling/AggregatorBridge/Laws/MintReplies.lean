import AggregatorBridge.MintGateway

/-!
# Replies to mint calls

Every call has a correlation id of its own, so a reply subject of its own, and its intent is in
the stream only after the call has subscribed. The bridge replies to what is in the stream. So
whatever is published to the subject of a call that has not ended waits for it (`Listening`), the
reply a call reads is the first that was ever sent to it, and what is dropped was sent to calls
that had ended.

What is sent here is what arrives at the connection. The laws say nothing of a reply that the
connection loses, which a call waits for in vain, nothing of whether the bridge replies at all, and
nothing of whether a reply is true. They are about one connection, and a call that is repeated after
a timeout is another call, with another subject.
-/

namespace AggregatorBridge

open Transition Pool.System Subjects

/-! ## Subjects -/

namespace MintIntent

variable {A : Type}

/-- The reply subject is made of the correlation id. -/
def Addressed (intent : MintIntent A) : Prop :=
  match intent with
  | single msg => msg.replySubject = "chain.mint.result." ++ msg.correlationId
  | batch msg => msg.replySubject = "chain.mint.batch.result." ++ msg.correlationId

theorem single_ne_batch (id id' : String) :
    "chain.mint.result." ++ id ≠ "chain.mint.batch.result." ++ id' := by
  intro same
  have chars := congrArg String.toList same
  simp at chars

/-- Two calls with one reply subject are one call. -/
theorem correlationId_of_replySubject {a b : MintIntent A} (ha : a.Addressed) (hb : b.Addressed)
    (same : a.replySubject = b.replySubject) : a.correlationId = b.correlationId := by
  cases a with
  | single msg =>
    cases b with
    | single other => exact String.append_right_inj _ |>.mp (ha.symm.trans (same.trans hb))
    | batch other => exact absurd (ha.symm.trans (same.trans hb)) (single_ne_batch _ _)
  | batch msg =>
    cases b with
    | single other => exact absurd (hb.symm.trans (same.symm.trans ha)) (single_ne_batch _ _)
    | batch other => exact String.append_right_inj _ |>.mp (ha.symm.trans (same.trans hb))

end MintIntent

theorem NatsMintGateway.addressed_intent {A : Type} (gw : NatsMintGateway A) (id : String)
    (nowMs : Int) (request : MintRequest) : (gw.intent id nowMs request).Addressed := by
  cases request <;> rfl

namespace MintGateway

variable {F A : Type} {json : SerdeJson F} {gw : MintGateway A}
  {s later : Nats A} {call next r : Call A} {m : Move} {intent : MintIntent A}

/-! ## What is kept -/

/-- What is true of the connection: the bridge has replied to stored intents only, and these have
ids that were given out. -/
structure Nats.Kept (s : Nats A) : Prop where
  replies : ∀ m ∈ s.subjects.sent, ∃ intent ∈ s.stored, intent.replySubject = m.1
  stored : ∀ intent ∈ s.stored, intent.Addressed ∧ intent.correlationId ∈ s.correlationIds

/-- What the result of a call says about the connection. -/
def Told (json : SerdeJson F) (s : Nats A) (intent : MintIntent A) (stored : Bool) :
    Option (Except MintError MintAnswer) → Prop
  | some (.ok answer) => stored = true ∧
      ∃ payload, (s.subjects.sentTo intent.replySubject).head? = some payload ∧
        intent.read json payload = .ok answer
  | some (.error .replyTimeout) => stored = true
  | _ => True

/-- What is true of a call beside the connection. -/
structure Sound (json : SerdeJson F) (s : Nats A) (call : Call A) : Prop where
  known : ∀ intent ∈ call.intent, intent.Addressed ∧ intent.correlationId ∈ s.correlationIds
  kept : ∀ intent ∈ call.storedIntents, intent ∈ s.stored
  unseen : call.stored = false → ∀ intent ∈ call.intent,
    ∀ other ∈ s.stored, other.correlationId ≠ intent.correlationId
  listens : ∀ intent ∈ call.subscribed, s.subjects.Listening intent.replySubject
  told : ∀ intent stored result, call = .ended (some intent) stored result →
    Told json s intent stored result

theorem mem_ids (made : intent ∈ call.intent) : intent.correlationId ∈ call.ids :=
  List.mem_map_of_mem (Option.mem_toList.mpr made)

theorem subject_ne {other : MintIntent A} (sound : Sound json s call) (sound' : Sound json s r)
    (apart : call.ids.Disjoint r.ids) (made : intent ∈ call.intent) (made' : other ∈ r.intent) :
    other.replySubject ≠ intent.replySubject := by
  intro same
  have id := MintIntent.correlationId_of_replySubject (sound'.known other made').1
    (sound.known intent made).1 same
  exact apart (mem_ids made) (id ▸ mem_ids made')

/-! ### The others -/

/-- A new id is nobody's, so what a call knows stays true. -/
theorem Sound.newId (sound : Sound json s r) (id : String) :
    Sound json ⟨id :: s.correlationIds, s.subjects, s.stored⟩ r where
  known := fun intent made =>
    ⟨(sound.known intent made).1, List.mem_cons_of_mem _ (sound.known intent made).2⟩
  kept := sound.kept
  unseen := sound.unseen
  listens := sound.listens
  told := sound.told

/-- Another call's subscription is about another subject. -/
theorem Sound.subscribe (sound : Sound json s r)
    (apart : ∀ other ∈ r.intent, other.replySubject ≠ intent.replySubject) :
    Sound json (s.subscribe intent) r where
  known := sound.known
  kept := sound.kept
  unseen := sound.unseen
  listens := fun other open_ =>
    (sound.listens other open_).subscribe_other (apart other (Call.intent_of_subscribed open_))
  told := sound.told

/-- The end of another call takes nothing from this one. -/
theorem Sound.unsubscribe (sound : Sound json s r)
    (apart : ∀ other ∈ r.intent, other.replySubject ≠ intent.replySubject) :
    Sound json (s.unsubscribe intent) r where
  known := sound.known
  kept := sound.kept
  unseen := sound.unseen
  listens := fun other open_ =>
    (sound.listens other open_).unsubscribe_other (apart other (Call.intent_of_subscribed open_))
  told := sound.told

theorem mem_store {other : MintIntent A} {stored : Bool} :
    other ∈ (s.store intent stored).stored ↔
      other ∈ s.stored ∨ stored = true ∧ other = intent := by
  unfold Nats.store
  cases stored <;> simp

/-- Another call's intent in the stream is not this one's. -/
theorem Sound.store (sound : Sound json s r) (stored : Bool)
    (apart : ∀ other ∈ r.intent, intent.correlationId ≠ other.correlationId) :
    Sound json (s.store intent stored) r := by
  cases stored with
  | false => exact sound
  | true =>
    refine ⟨sound.known, fun other mem => mem_store.mpr (.inl (sound.kept other mem)), ?_,
      sound.listens, sound.told⟩
    intro not_stored other made third mem
    rcases mem_store.mp mem with before | ⟨_, rfl⟩
    · exact sound.unseen not_stored other made third before
    · exact apart other made

/-- A reply goes to the end of what was sent. -/
theorem Told.publish {stored : Bool} {result : Option (Except MintError MintAnswer)}
    (told : Told json s intent stored result) (subject : String) (payload : List UInt8) :
    Told json ⟨s.correlationIds, s.subjects.publish subject payload, s.stored⟩ intent stored
      result := by
  rcases result with _ | (_ | text) | answer
  · trivial
  · exact told
  · trivial
  · obtain ⟨in_stream, first, head, read⟩ := told
    refine ⟨in_stream, first, ?_, read⟩
    rw [Broker.sentTo_publish, List.head?_append, head]
    rfl

/-- A reply arrives where its subject is listened to, be it this call's or not. -/
theorem Sound.publish (sound : Sound json s r) (subject : String) (payload : List UInt8) :
    Sound json ⟨s.correlationIds, s.subjects.publish subject payload, s.stored⟩ r where
  known := sound.known
  kept := sound.kept
  unseen := sound.unseen
  listens := fun intent open_ => (sound.listens intent open_).publish subject payload
  told := fun intent stored result ended => (sound.told intent stored result ended).publish _ _

/-- A move of one call does not disturb the others. -/
theorem Sound.of_other (sound : Sound json s call) (sound' : Sound json s r)
    (apart : call.ids.Disjoint r.ids) (acts : Acts json gw s call m later next) :
    Sound json later r := by
  have subjects {intent : MintIntent A} (made : intent ∈ call.intent) :
      ∀ other ∈ r.intent, other.replySubject ≠ intent.replySubject :=
    fun other made' => subject_ne sound sound' apart made made'
  have ids {intent : MintIntent A} (made : intent ∈ call.intent) :
      ∀ other ∈ r.intent, intent.correlationId ≠ other.correlationId :=
    fun other made' same => apart (mem_ids made) (same ▸ mem_ids made')
  cases acts with
  | unasked => exact sound'
  | begun _ => exact sound'.newId _
  | subscribed => exact sound'.subscribe (subjects rfl)
  | unsubscribed _ => exact sound'
  | published => exact sound'.store _ (ids rfl)
  | unpublished => exact (sound'.store _ (ids rfl)).unsubscribe (subjects rfl)
  | acked => exact sound'
  | ended open_ _ _ => exact sound'.unsubscribe (subjects (Call.intent_of_subscribed open_))

/-! ### The call itself -/

/-- What is in the stream is known, as its call had an id. -/
theorem Nats.Kept.store (kept : s.Kept) (stored : Bool)
    (known : intent.Addressed ∧ intent.correlationId ∈ s.correlationIds) :
    (s.store intent stored).Kept := by
  cases stored with
  | false => exact kept
  | true =>
    constructor
    · intro m mem
      obtain ⟨other, listed, same⟩ := kept.replies m mem
      exact ⟨other, mem_store.mpr (.inl listed), same⟩
    · intro other mem
      rcases mem_store.mp mem with before | ⟨_, rfl⟩
      · exact kept.stored other before
      · exact known

/-- Nothing was sent to a call whose intent is not in the stream. -/
theorem not_mem_sent (kept : s.Kept) (sound : Sound json s call) (made : intent ∈ call.intent)
    (not_stored : call.stored = false) (payload : List UInt8) :
    (intent.replySubject, payload) ∉ s.subjects.sent := by
  intro mem
  obtain ⟨other, listed, same⟩ := kept.replies _ mem
  apply sound.unseen not_stored intent made other listed
  exact MintIntent.correlationId_of_replySubject (kept.stored other listed).1
    (sound.known intent made).1 same

/-- What a call hears is so when it has left. -/
theorem told_of_hears {result : Option (Except MintError MintAnswer)} (sound : Sound json s call)
    (open_ : call.subscribed = some intent) (heard : Hears json s intent call result) :
    Told json s intent call.stored result := by
  cases heard with
  | dropped => trivial
  | failed => trivial
  | timeout => rfl
  | @reply payload rest waits =>
    have all := (sound.listens intent open_).waits
    rw [waits] at all
    cases read : intent.read json payload with
    | ok answer => exact ⟨rfl, payload, by rw [← Option.some.inj all]; rfl, read⟩
    | error e =>
      cases e with
      | replyTimeout => rfl
      | other text => trivial

theorem storedIntents_eq (made : call.intent = some intent) :
    call.storedIntents = if call.stored then [intent] else [] := by
  rw [Call.storedIntents, made]
  rfl

/-- A call that ends keeps what it stored. -/
theorem Sound.ended {result : Option (Except MintError MintAnswer)} (sound : Sound json s call)
    (made : call.intent = some intent) (told : Told json s intent call.stored result) :
    Sound json (s.unsubscribe intent) (.ended (some intent) call.stored result) where
  known := fun other same => sound.known other (made.trans same)
  kept := fun other mem => sound.kept other (storedIntents_eq made ▸ mem)
  unseen := fun not_stored other same => sound.unseen not_stored other (made.trans same)
  listens := fun _ open_ => nomatch open_
  told := by
    rintro other stored result' ⟨⟩
    exact told

/-- The publish of a call that listens. -/
theorem Sound.published (sound : Sound json s (.publishing intent)) (stored : Bool) :
    Sound json (s.store intent stored) (.acking intent stored) := by
  have known := sound.known intent rfl
  have listens := sound.listens intent rfl
  cases stored with
  | false => exact ⟨sound.known, (nofun), sound.unseen, sound.listens, (nofun)⟩
  | true =>
    constructor
    · rintro _ ⟨⟩
      exact known
    · intro other mem
      cases List.mem_singleton.mp mem
      exact mem_store.mpr (.inr ⟨rfl, rfl⟩)
    · rintro ⟨⟩
    · rintro _ ⟨⟩
      exact listens
    · rintro _ _ _ ⟨⟩

/-- A move of a call keeps what is true of it. -/
theorem Sound.of_acts (kept : s.Kept) (sound : Sound json s call)
    (fresh : NewId s call m) (acts : Acts json gw s call m later next) :
    later.Kept ∧ Sound json later next := by
  cases acts with
  | unasked =>
    refine ⟨kept, ?_, ?_, ?_, ?_, ?_⟩
    · rintro _ ⟨⟩
    · rintro _ ⟨⟩
    · rintro _ _ ⟨⟩
    · rintro _ ⟨⟩
    · rintro _ _ _ ⟨⟩
  | @begun request id nowMs intent nats made =>
    have named : intent.correlationId = id := made ▸ nats.correlationId_intent id nowMs request
    refine ⟨⟨kept.replies, fun other mem => ?_⟩, ?_, ?_, ?_, ?_, ?_⟩
    · exact ⟨(kept.stored other mem).1, List.mem_cons_of_mem _ (kept.stored other mem).2⟩
    · rintro _ ⟨⟩
      exact ⟨made ▸ nats.addressed_intent id nowMs request, named ▸ List.mem_cons_self⟩
    · rintro _ ⟨⟩
    · rintro _ _ ⟨⟩ other mem same
      -- an id that is new is not the id of a stored intent
      exact fresh (named ▸ same ▸ (kept.stored other mem).2)
    · rintro _ ⟨⟩
    · rintro _ _ _ ⟨⟩
  | @subscribed intent =>
    refine ⟨⟨kept.replies, kept.stored⟩, sound.known, sound.kept, sound.unseen, ?_, ?_⟩
    · rintro _ ⟨⟩
      exact Broker.listening_subscribe (not_mem_sent kept sound rfl rfl)
    · rintro _ _ _ ⟨⟩
  | @unsubscribed intent _ result heard =>
    have told : Told json s intent false result := by
      cases heard with
      | dropped => trivial
      | failed => trivial
    have left := sound.ended rfl told
    exact ⟨kept, left.known, left.kept, left.unseen, (nofun), left.told⟩
  | @published intent stored =>
    exact ⟨kept.store stored (sound.known intent rfl), sound.published stored⟩
  | @unpublished intent stored _ _ =>
    have stores := kept.store stored (sound.known intent rfl)
    exact ⟨⟨stores.replies, stores.stored⟩, (sound.published stored).ended rfl trivial⟩
  | acked =>
    refine ⟨kept, sound.known, sound.kept, ?_, sound.listens, ?_⟩
    · rintro ⟨⟩
    · rintro _ _ _ ⟨⟩
  | ended open_ same heard =>
    subst same
    exact ⟨⟨kept.replies, kept.stored⟩,
      sound.ended (Call.intent_of_subscribed open_) (told_of_hears sound open_ heard)⟩

/-! ## Runs -/

variable {t : Pool.State (Nats A) (Call A)}

/-- The ids that were given out are those of the calls. -/
theorem perm_ids_of_acts {rest : List String} (acts : Acts json gw s call m later next)
    (owned : s.correlationIds.Perm (call.ids ++ rest)) :
    later.correlationIds.Perm (next.ids ++ rest) := by
  cases acts with
  | unasked => exact owned
  | @begun request id nowMs intent nats made =>
    have named : intent.correlationId = id := made ▸ nats.correlationId_intent id nowMs request
    subst named
    exact owned.cons intent.correlationId
  | subscribed => exact owned
  | unsubscribed _ => exact owned
  | @published intent stored =>
    cases stored <;> exact owned
  | @unpublished intent stored _ _ =>
    cases stored <;> exact owned
  | acked => exact owned
  | ended open_ _ _ =>
    rw [Call.ids, Call.intent_of_subscribed open_] at owned
    exact owned

/-- The stream holds what the calls have put into it. -/
theorem perm_stored_of_acts {rest : List (MintIntent A)} (acts : Acts json gw s call m later next)
    (owned : s.stored.Perm (call.storedIntents ++ rest)) :
    later.stored.Perm (next.storedIntents ++ rest) := by
  cases acts with
  | unasked => exact owned
  | begun _ => exact owned
  | subscribed => exact owned
  | unsubscribed _ => exact owned
  | @published intent stored =>
    cases stored with
    | false => exact owned
    | true => exact (List.perm_append_singleton intent s.stored).trans (owned.cons intent)
  | @unpublished intent stored _ _ =>
    cases stored with
    | false => exact owned
    | true => exact (List.perm_append_singleton intent s.stored).trans (owned.cons intent)
  | acked => exact owned
  | ended open_ same _ =>
    subst same
    rw [storedIntents_eq (Call.intent_of_subscribed open_)] at owned
    exact owned

/-- A subject that is open after a move was open before, and the call has not left it, or the call
has just subscribed to it. -/
theorem open_of_acts {subject : String} (acts : Acts json gw s call m later next)
    (open_ : later.subjects.waiting subject ≠ none) :
    (s.subjects.waiting subject ≠ none ∧
        ∀ intent ∈ call.subscribed, intent.replySubject = subject → intent ∈ next.subscribed) ∨
      ∃ intent ∈ next.subscribed, intent.replySubject = subject := by
  have left {s : Nats A} {intent : MintIntent A}
      (open_ : (s.unsubscribe intent).subjects.waiting subject ≠ none) :
      subject ≠ intent.replySubject ∧ s.subjects.waiting subject ≠ none := by
    rw [Nats.unsubscribe, Broker.waiting_unsubscribe] at open_
    split at open_
    · exact absurd rfl open_
    · next other => exact ⟨other, open_⟩
  have stores (intent : MintIntent A) (stored : Bool) :
      (s.store intent stored).subjects = s.subjects := by
    cases stored <;> rfl
  -- a call that has not subscribed yet
  have nothing {P : MintIntent A → Prop} : ∀ intent ∈ (none : Option (MintIntent A)), P intent := by
    rintro _ ⟨⟩
  cases acts with
  | unasked => exact .inl ⟨open_, nothing⟩
  | begun _ => exact .inl ⟨open_, nothing⟩
  | @subscribed intent =>
    rw [Nats.subscribe, Broker.waiting_subscribe] at open_
    split at open_
    · next same => exact .inr ⟨intent, rfl, same.symm⟩
    · exact .inl ⟨open_, nothing⟩
  | unsubscribed _ => exact .inl ⟨open_, nothing⟩
  | @published intent stored =>
    rw [stores] at open_
    exact .inl ⟨open_, fun _ mem _ => mem⟩
  | @unpublished intent stored _ _ =>
    obtain ⟨other, open_⟩ := left open_
    rw [stores] at open_
    refine .inl ⟨open_, ?_⟩
    rintro _ ⟨⟩ same
    exact absurd same.symm other
  | acked => exact .inl ⟨open_, fun _ mem _ => mem⟩
  | ended subscribed _ _ =>
    obtain ⟨other, open_⟩ := left open_
    refine .inl ⟨open_, fun intent mem same => ?_⟩
    cases Option.some.inj (subscribed.symm.trans mem)
    exact absurd same.symm other

section Run

variable (chain : Steps (system json gw).step (Meets NewId) ⟨Nats.init, []⟩ t)

include chain

theorem owns_ids : Owns Nats.correlationIds Call.ids t := by
  refine owns ?_ ?_ ?_ chain (List.Perm.refl _)
  · intro call admitted
    cases call with
    | begun _ => rfl
    | _ => cases admitted
  · intro s call m later next rest acted owned
    exact perm_ids_of_acts (acts_of_act acted) owned
  · intro s e later changed
    obtain ⟨intent, _, rfl⟩ := Option.map_eq_some_iff.mp changed
    rfl

theorem owns_stored : Owns Nats.stored Call.storedIntents t := by
  refine owns ?_ ?_ ?_ chain (List.Perm.refl _)
  · intro call admitted
    cases call with
    | begun _ => rfl
    | _ => cases admitted
  · intro s call m later next rest acted owned
    exact perm_stored_of_acts (acts_of_act acted) owned
  · intro s e later changed
    obtain ⟨intent, _, rfl⟩ := Option.map_eq_some_iff.mp changed
    rfl

/-- No id is drawn twice. -/
theorem nodup_correlationIds : t.shared.correlationIds.Nodup := by
  refine shared_invariant (G := fun s => s.correlationIds.Nodup) ?_ ?_ chain List.nodup_nil
  · intro s i m call later next here meets nodup acted
    have fresh := meets.holds here
    cases acts_of_act acted with
    | begun _ => exact List.nodup_cons.mpr ⟨fresh, nodup⟩
    | @published intent stored => cases stored <;> exact nodup
    | @unpublished intent stored _ _ => cases stored <;> exact nodup
    | _ => exact nodup
  · intro s e later nodup changed
    obtain ⟨intent, _, rfl⟩ := Option.map_eq_some_iff.mp changed
    exact nodup

/-- So no two calls have one. -/
theorem nodup_ids : (t.procs.flatMap Call.ids).Nodup :=
  (owns_ids chain).nodup (nodup_correlationIds chain)

/-- In every run each call knows the truth about its own intent and about the replies to it. -/
theorem sound_of_run : Holds Nats.Kept (Sound json) t := by
  refine invariant_apart (fun _ prior => nodup_ids prior) ?_ ?_ ?_ ?_ chain ?_
  · intro s call admitted kept
    cases call with
    | begun _ => exact ⟨nofun, nofun, nofun, nofun, nofun⟩
    | _ => cases admitted
  · intro s i m call later next here meets holds acted
    have sound := holds.2 call (List.mem_of_getElem? here)
    exact sound.of_acts holds.1 (meets.holds here) (acts_of_act acted)
  · intro s call m later next r _ sound sound' apart acted
    exact sound.of_other sound' apart (acts_of_act acted)
  · intro s e later kept changed
    obtain ⟨intent, at_, rfl⟩ := Option.map_eq_some_iff.mp changed
    refine ⟨⟨fun m mem => ?_, kept.stored⟩, fun r sound => sound.publish _ _⟩
    rw [Broker.sent_publish] at mem
    rcases List.mem_append.mp mem with before | now
    · exact kept.replies m before
    · cases List.mem_singleton.mp now
      exact ⟨intent, List.mem_of_getElem? at_, rfl⟩
  · exact holds_nil ⟨nofun, nofun⟩

/-- No other call has the reply subject of a call. -/
theorem own_subject {i j : Nat} {other : MintIntent A} (here : t.procs[i]? = some call)
    (there : t.procs[j]? = some r) (made : intent ∈ call.intent) (made' : other ∈ r.intent)
    (same : other.replySubject = intent.replySubject) : i = j := by
  by_contra apart
  have sound := (sound_of_run chain).2 call (List.mem_of_getElem? here)
  have sound' := (sound_of_run chain).2 r (List.mem_of_getElem? there)
  have disjoint := disjoint_held (nodup_ids chain) here there apart
  exact subject_ne sound sound' disjoint made made' same

/-- A call that returned an answer has put its intent into the stream, and the answer is the first
reply that was ever sent to its subject. A timeout is reported only of an intent that is in the
stream. No two calls, whether they returned or not, have one reply subject. -/
theorem answer_is_first_reply {i : Nat} {stored : Bool} {result : Except MintError MintAnswer}
    (ended : t.procs[i]? = some (.ended (some intent) stored (some result))) :
    (stored = true ↔ intent ∈ t.shared.stored) ∧
      (∀ answer, result = .ok answer → stored = true ∧
        ∃ payload, (t.shared.subjects.sentTo intent.replySubject).head? = some payload ∧
          intent.read json payload = .ok answer) ∧
      (result = .error .replyTimeout → stored = true) ∧
      ∀ (j k : Nat) (call call' : Call A), t.procs[j]? = some call → t.procs[k]? = some call' →
        ∀ a ∈ call.intent, ∀ b ∈ call'.intent, b.replySubject = a.replySubject → j = k := by
  have sound := (sound_of_run chain).2 _ (List.mem_of_getElem? ended)
  have told := sound.told intent stored _ rfl
  refine ⟨⟨?_, ?_⟩, ?_, ?_, ?_⟩
  · rintro rfl
    exact sound.kept intent (List.mem_singleton.mpr rfl)
  · intro mem
    by_contra not_stored
    rw [Bool.not_eq_true] at not_stored
    exact sound.unseen not_stored intent rfl intent mem rfl
  · rintro answer rfl
    exact told
  · rintro rfl
    exact told
  · intro j k call call' here there a made b made' same
    exact own_subject chain here there made made' same

/-- Every open subscription is that of a call that has not ended. -/
theorem subscribed_of_waiting {subject : String}
    (open_ : t.shared.subjects.waiting subject ≠ none) :
    ∃ call ∈ t.procs, ∃ intent ∈ call.subscribed, intent.replySubject = subject := by
  refine Steps.invariant (P := fun s => ∀ subject, s.shared.subjects.waiting subject ≠ none →
    ∃ call ∈ s.procs, ∃ intent ∈ call.subscribed, intent.replySubject = subject) ?_ chain ?_
    subject open_
  · intro s e t inv _ moved subject open_
    cases moves_of_step moved with
    | start _ =>
      obtain ⟨call, mem, rest⟩ := inv subject open_
      exact ⟨call, List.mem_append_left _ mem, rest⟩
    | @move i m call next later here acted =>
      have inside := (List.getElem?_eq_some_iff.mp here).1
      have mine : next ∈ s.procs.set i next := List.mem_set inside next
      rcases open_of_acts (acts_of_act acted) open_ with ⟨before, stays⟩ | ⟨intent, now, same⟩
      · obtain ⟨r, mem, intent, open', same⟩ := inv subject before
        obtain ⟨j, at_⟩ := List.mem_iff_getElem?.mp mem
        by_cases other : i = j
        · subst other
          cases Option.some.inj (here.symm.trans at_)
          exact ⟨next, mine, intent, stays intent open' same, same⟩
        · exact ⟨r, List.mem_of_getElem? ((List.getElem?_set_ne other).trans at_), intent, open', same⟩
      · exact ⟨next, mine, intent, now, same⟩
    | outside changed =>
      obtain ⟨intent, _, rfl⟩ := Option.map_eq_some_iff.mp changed
      rw [Broker.waiting_publish] at open_
      refine inv subject fun closed => open_ ?_
      rw [closed]
      split
      · rfl
      · rfl
  · intro subject open_
    exact absurd rfl open_

/-- No reply is missed: one that was dropped was sent to a call that had ended, and a call that
waits finds all that was sent to it, the first one first. No subscription outlives its call. -/
theorem no_reply_missed :
    (∀ m ∈ t.shared.subjects.dropped, ∃ call ∈ t.procs, ∃ intent result,
        call = .ended (some intent) true result ∧ intent.replySubject = m.1) ∧
      (∀ call ∈ t.procs, ∀ intent, call = .awaiting intent →
        t.shared.subjects.waiting intent.replySubject =
          some (t.shared.subjects.sentTo intent.replySubject)) ∧
      ∀ subject, t.shared.subjects.waiting subject ≠ none →
        ∃ call ∈ t.procs, ∃ intent ∈ call.subscribed, intent.replySubject = subject := by
  obtain ⟨kept, sound⟩ := sound_of_run chain
  refine ⟨?_, ?_, fun subject => subscribed_of_waiting chain⟩
  · intro m mem
    obtain ⟨intent, listed, same⟩ := kept.replies m (t.shared.subjects.dropped_sent mem)
    obtain ⟨call, here, stored⟩ :=
      List.mem_flatMap.mp ((owns_stored chain).mem_iff.mp listed)
    refine ⟨call, here, intent, ?_⟩
    have unheard : intent ∉ call.subscribed := by
      intro open_
      exact ((sound call here).listens intent open_).kept m.2 (same ▸ mem)
    cases call with
    | begun _ => cases stored
    | subscribing _ => cases stored
    | publishing _ => cases stored
    | acking other flag =>
      cases flag with
      | false => cases stored
      | true =>
        cases List.mem_singleton.mp stored
        exact absurd rfl unheard
    | awaiting other =>
      cases List.mem_singleton.mp stored
      exact absurd rfl unheard
    | ended other flag result =>
      cases flag with
      | false => cases stored
      | true =>
        have made : other = some intent := Option.mem_toList.mp stored
        subst made
        exact ⟨result, rfl, same⟩
  · rintro call mem intent rfl
    exact ((sound _ mem).listens intent rfl).waits

end Run

/-- Two replies of the bridge, as documents. -/
private def bridgeJson : SerdeJson Unit where
  isFinite _ := true
  fromStr text :=
    if text = "\x7b\"success\":true,\"signature\":\"5xq\",\"slot\":7\x7d" then
      some (.obj [("success", .bool true), ("signature", .str "5xq"), ("slot", .num (.posInt 7))])
    else if text = "\x7b\"results\":[]\x7d" then some (.obj [("results", .arr [])])
    else none
  toString _ := ""
  uuid := ⟨fun _ => none, fun _ => ""⟩
  parseTime _ := none
  displayTime _ := ""

private def unsigned : MintGateway Unit :=
  .nats ⟨"aggregator-bridge", none, fun _ => [], fun _ => []⟩

private def minted : List UInt8 :=
  Text.utf8 "\x7b\"success\":true,\"signature\":\"5xq\",\"slot\":7\x7d"

private def noResults : List UInt8 :=
  Text.utf8 "\x7b\"results\":[]\x7d"

/-- Two calls overlap. The bridge replies to the batch first, and before its acknowledgement has
arrived; it replies to the single call twice, the second time when the call has returned. -/
private def crossing : List (Pool.Event (Call Unit) Move BridgeReply) :=
  let input : BatchMintInput := ⟨"9xQe", 2, 0, "m", 900⟩
  [.start (.begun (.single input)), .start (.begun (.batch [input])), .move 0 (.begin "a" 5),
    .move 1 (.begin "b" 6), .move 0 (.subscribe none), .move 1 (.subscribe none),
    .move 1 (.publish none true), .outside ⟨0, noResults⟩, .move 0 (.publish none true),
    .move 1 (.ack none), .move 0 (.ack none), .outside ⟨1, minted⟩, .move 0 .receive,
    .outside ⟨1, noResults⟩]

private theorem crossing_run :
    (Transition.run (system bridgeJson unsigned).step (Meets NewId) crossing
      ⟨Nats.init, []⟩).isSome := by
  decide +kernel

private def crossed : Pool.State (Nats Unit) (Call Unit) :=
  (Transition.run (system bridgeJson unsigned).step (Meets NewId) crossing ⟨Nats.init, []⟩).get
    crossing_run

private def single : MintIntent Unit :=
  .single ⟨"a", "mint:m:900", "chain.mint.result.a", "9xQe", 2, 0, 900, "aggregator-bridge", 5, none⟩

private theorem single_answered :
    crossed.procs[0]? = some (.ended (some single) true (some (.ok (.outcome ⟨"5xq", 7⟩)))) := by
  decide +kernel

/-- The single call has the first reply to its own subject, not the one to the batch that came
before it and not the second one. -/
theorem crossed_answer :
    ∃ payload, (crossed.shared.subjects.sentTo "chain.mint.result.a").head? = some payload ∧
      single.read bridgeJson payload = .ok (.outcome ⟨"5xq", 7⟩) := by
  have first := answer_is_first_reply (Steps.of_run_get crossing_run) single_answered
  exact (first.2.1 _ rfl).2

/-- The second reply was dropped, and the reply to the batch waits. -/
theorem crossed_replies :
    (∃ call ∈ crossed.procs, ∃ intent result, call = .ended (some intent) true result ∧
        intent.replySubject = "chain.mint.result.a") ∧
      crossed.shared.subjects.waiting "chain.mint.batch.result.b" = some [noResults] := by
  have kept := no_reply_missed (Steps.of_run_get crossing_run)
  constructor
  · exact kept.1 ("chain.mint.result.a", noResults) (by decide +kernel)
  · decide +kernel

end MintGateway

end AggregatorBridge
