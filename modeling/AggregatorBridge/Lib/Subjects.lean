import AggregatorBridge.Lib.Remote

/-!
# Subjects

A broker without a memory: what is published to a subject goes to the subscription that is open
at that moment, waits there until it is read, and is dropped if there is none. So a subscriber
that subscribes before anybody has published misses nothing while it stays (`Listening`).

A subject has one subscription at a time. What was ever published is kept beside the
subscriptions, and what of it was dropped: no operation looks at either.
-/

namespace Subjects

open Remote

/-- Subscriptions by subject, with a record of what was sent and of what found nobody. -/
structure Broker (S M : Type) where
  /-- The open subscriptions, each with what waits in it, the oldest first. -/
  subscriptions : Hash S (List M)
  sent : List (S × M)
  dropped : List (S × M)
  dropped_sent : dropped ⊆ sent

namespace Broker

variable {S M : Type} [DecidableEq S]

/-- Nobody listens, and nothing was sent. -/
def init : Broker S M :=
  ⟨∅, [], [], List.nil_subset _⟩

/-- What waits in a subscription, if there is one. -/
def waiting (subject : S) (b : Broker S M) : Option (List M) :=
  AList.lookup subject b.subscriptions

/-- A subscription begins empty, whatever was sent before. -/
def subscribe (subject : S) (b : Broker S M) : Broker S M :=
  { b with subscriptions := AList.insert subject [] b.subscriptions }

/-- What was waiting is gone with the subscription. -/
def unsubscribe (subject : S) (b : Broker S M) : Broker S M :=
  { b with subscriptions := AList.erase subject b.subscriptions }

/-- A message waits where its subject has a subscription, or is dropped. -/
def publish (subject : S) (m : M) (b : Broker S M) : Broker S M :=
  match b.waiting subject with
  | some ms =>
    { b with
      subscriptions := AList.insert subject (ms ++ [m]) b.subscriptions
      sent := b.sent ++ [(subject, m)]
      dropped_sent := List.subset_append_of_subset_left _ b.dropped_sent }
  | none =>
    { b with
      sent := b.sent ++ [(subject, m)]
      dropped := b.dropped ++ [(subject, m)]
      dropped_sent :=
        List.append_subset.mpr ⟨List.subset_append_of_subset_left _ b.dropped_sent,
          List.subset_append_right _ _⟩ }

/-- What was ever published to a subject. -/
def sentTo (subject : S) (b : Broker S M) : List M :=
  (b.sent.filter fun m => m.1 = subject).map Prod.snd

/-- The subscription is open, all that was ever published to its subject waits in it, and none of
it was dropped. -/
structure Listening (subject : S) (b : Broker S M) : Prop where
  waits : b.waiting subject = some (b.sentTo subject)
  kept : ∀ m, (subject, m) ∉ b.dropped

variable {b : Broker S M} {subject other : S} {m : M}

theorem waiting_subscribe (b : Broker S M) (subject other : S) :
    (b.subscribe subject).waiting other = if other = subject then some [] else b.waiting other :=
  Hash.lookup_set b.subscriptions subject other []

theorem waiting_unsubscribe (b : Broker S M) (subject other : S) :
    (b.unsubscribe subject).waiting other = if other = subject then none else b.waiting other :=
  Hash.lookup_del b.subscriptions subject other

theorem sent_publish (b : Broker S M) (subject : S) (m : M) :
    (b.publish subject m).sent = b.sent ++ [(subject, m)] := by
  unfold publish
  split
  · rfl
  · rfl

theorem waiting_publish (b : Broker S M) (subject other : S) (m : M) :
    (b.publish subject m).waiting other =
      if other = subject then (b.waiting other).map (· ++ [m]) else b.waiting other := by
  unfold publish
  split
  · next ms open_ =>
    rw [waiting, Hash.lookup_set]
    by_cases same : other = subject
    · subst same
      rw [if_pos rfl, if_pos rfl, open_]
      rfl
    · rw [if_neg same, if_neg same]
      rfl
  · next closed =>
    by_cases same : other = subject
    · subst same
      rw [if_pos rfl, closed]
      exact closed
    · rw [if_neg same]
      rfl

/-- What is published is dropped where nobody listens, and only there. -/
theorem dropped_publish (b : Broker S M) (subject : S) (m : M) :
    (b.publish subject m).dropped =
      b.dropped ++ if b.waiting subject = none then [(subject, m)] else [] := by
  unfold publish
  split
  · next ms open_ => rw [open_, if_neg (Option.some_ne_none ms), List.append_nil]
  · next closed => rw [if_pos closed]

theorem sentTo_publish (b : Broker S M) (subject other : S) (m : M) :
    (b.publish subject m).sentTo other =
      b.sentTo other ++ if other = subject then [m] else [] := by
  rw [sentTo, sent_publish, List.filter_append, List.map_append, sentTo]
  congr 1
  by_cases same : other = subject
  · rw [if_pos same, List.filter_cons_of_pos (by simpa using same.symm)]
    rfl
  · rw [if_neg same, List.filter_cons_of_neg (by simpa using Ne.symm same)]
    rfl

theorem mem_sentTo_iff : m ∈ b.sentTo subject ↔ (subject, m) ∈ b.sent := by
  rw [sentTo, List.mem_map]
  constructor
  · rintro ⟨⟨s, m'⟩, mem, rfl⟩
    obtain ⟨mem, same⟩ := List.mem_filter.mp mem
    rw [decide_eq_true_eq] at same
    exact same ▸ mem
  · intro mem
    exact ⟨(subject, m), List.mem_filter.mpr ⟨mem, by simp⟩, rfl⟩

/-- Whoever subscribes before anything is published listens. -/
theorem listening_subscribe (silent : ∀ m, (subject, m) ∉ b.sent) :
    Listening subject (b.subscribe subject) where
  waits := by
    rw [waiting_subscribe, if_pos rfl]
    refine congrArg some (List.eq_nil_iff_forall_not_mem.mpr fun m mem => ?_).symm
    exact silent m (mem_sentTo_iff.mp mem)
  kept := fun m mem => silent m (b.dropped_sent mem)

theorem Listening.subscribe_other (listens : Listening other b) (apart : other ≠ subject) :
    Listening other (b.subscribe subject) where
  waits := by
    rw [waiting_subscribe, if_neg apart]
    exact listens.waits
  kept := listens.kept

theorem Listening.unsubscribe_other (listens : Listening other b) (apart : other ≠ subject) :
    Listening other (b.unsubscribe subject) where
  waits := by
    rw [waiting_unsubscribe, if_neg apart]
    exact listens.waits
  kept := listens.kept

theorem Listening.publish (listens : Listening other b) (subject : S) (m : M) :
    Listening other (b.publish subject m) where
  waits := by
    rw [waiting_publish, sentTo_publish, listens.waits]
    by_cases same : other = subject
    · rw [if_pos same, if_pos same]
      rfl
    · rw [if_neg same, if_neg same, List.append_nil]
  kept := by
    intro m' mem
    rw [dropped_publish] at mem
    rcases List.mem_append.mp mem with before | now
    · exact listens.kept m' before
    · split at now
      · next closed =>
        cases List.mem_singleton.mp now
        rw [listens.waits] at closed
        cases closed
      · cases now

end Broker

end Subjects
