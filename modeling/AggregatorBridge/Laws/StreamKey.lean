import AggregatorBridge.StreamCipher

/-!
# One stream key for the fleet

Two laws of `load_or_create_stream_cipher`. From an empty key, with Redis and Vault well, all
instances end up with the key whose wrapping is in Redis: `SET NX` lets one of them write, and
whoever was later reads what was written. And once there is a key that the KEK unwraps, it is
not written over, unless by an instance that found a dead one before: rotating instances do not
look again, and the last of them wins.

The second law is about unwrapping that works on what can be unwrapped. The source takes every
error of Vault for a dead key, so while Vault is down a starting instance may rotate a live one;
nothing here speaks of such runs.
-/

namespace AggregatorBridge

open Remote Transition Pool.System

namespace StreamKey

variable (vault : VaultTransit)

/-! ## First boot -/

/-- Vault answered with a wrapping of the key that the instance had it wrap. -/
def wrapsKey : SekStage → Except String String → Bool
  | .wrapping _ sek, .ok blob => blob ≠ "" && vault.Opens blob sek
  | _, _ => false

/-- The move gets the answer of a Redis and a Vault that are well. -/
def Healthy (_stored : Option String) (p : SekStage) : Move → Prop
  | .get reply => reply.isOk = true
  | .unwrap reply => reply = .answered
  | .random bytes => bytes.isOk = true
  | .wrap answer => wrapsKey vault p answer = true
  | .set reply => reply = .ok

instance (stored : Option String) (p : SekStage) : (m : Move) → Decidable (Healthy vault stored p m)
  | .get _ => inferInstanceAs (Decidable (_ = _))
  | .unwrap _ => inferInstanceAs (Decidable (_ = _))
  | .random _ => inferInstanceAs (Decidable (_ = _))
  | .wrap _ => inferInstanceAs (Decidable (_ = _))
  | .set _ => inferInstanceAs (Decidable (_ = _))

/-- What is true of an instance during a first boot: it never finds a dead key, and once it has
seen something in Redis, that is there to stay. -/
def Booting (stored : Option String) : SekStage → Prop
  | .reading => True
  | .unwrapping blob => stored = some blob
  | .creating dead => dead = none
  | .wrapping dead _ => dead = none
  | .setting dead sek blob => dead = none ∧ vault.Opens blob sek
  | .rereading => stored ≠ none
  | .adopting blob => stored = some blob
  | .ready sek => ∃ blob, stored = some blob ∧ vault.Opens blob sek
  | .failed _ => False

/-- What is in Redis is a key. -/
def Intact (stored : Option String) : Prop :=
  ∀ blob, stored = some blob → vault.Usable blob

variable {vault} {stored later : Option String} {p q : SekStage} {m : Move}

variable (vault) in
/-- The key is as it was, or it was empty and is filled. -/
def Filled (stored later : Option String) : Prop :=
  later = stored ∨ stored = none ∧ ∃ sek blob, later = some blob ∧ vault.Opens blob sek

theorem filled_setNx {sek : AesKey} {blob : String} (opens : vault.Opens blob sek) (reply : Reply) :
    Filled vault stored (reply.effect (setNx blob) stored) := by
  rcases reply.effect_cases (setNx blob) stored with same | set
  · exact .inl same
  · cases stored with
    | none => exact .inr ⟨rfl, sek, blob, set, opens⟩
    | some old => exact .inl set

/-- An instance that has found no dead key only fills an empty key. -/
theorem filled_of_acts (booting : Booting vault stored p) (acts : Acts vault stored p m later q) :
    Filled vault stored later := by
  cases acts with
  | @first sek blob absent => exact .inr ⟨absent, sek, blob, rfl, booting.2⟩
  | @unset sek blob reply lost => exact filled_setNx booting.2 reply
  | rotated => cases booting.1
  | unrotated lost => cases booting.1
  | _ => exact .inl rfl

/-- What one instance has seen is not undone by another. -/
theorem Booting.stable (other : Booting vault stored q) (change : Filled vault stored later) :
    Booting vault later q := by
  rcases change with rfl | ⟨rfl, sek, blob, rfl, opens⟩
  · exact other
  · cases q with
    | unwrapping _ => cases other
    | rereading => exact absurd rfl other
    | adopting _ => cases other
    | ready _ =>
      obtain ⟨_, absent, _⟩ := other
      cases absent
    | _ => exact other

theorem Intact.stable (intact : Intact vault stored) (change : Filled vault stored later) :
    Intact vault later := by
  rcases change with rfl | ⟨rfl, sek, blob, rfl, opens⟩
  · exact intact
  · intro other same
    cases same
    exact ⟨sek, opens⟩

/-- A healthy move of an instance leads on. -/
theorem booting_of_acts (intact : Intact vault stored) (booting : Booting vault stored p)
    (healthy : Healthy vault stored p m) (acts : Acts vault stored p m later q) :
    Booting vault later q := by
  -- what is in Redis is a key, so asking Vault for it gives one
  have opens {blob : String} (held : stored = some blob) {result : Except String AesKey}
      (asked : vault.unwrap .answered (Text.trim blob) = result) :
      ∃ sek, vault.Opens blob sek ∧ result = .ok sek := by
    obtain ⟨sek, opens⟩ := intact blob held
    exact ⟨sek, opens, asked.symm.trans opens⟩
  cases acts with
  | found held => exact held
  | empty absent => rfl
  | unread => cases healthy
  | @unwrapped blob reply sek opened =>
    cases healthy
    exact ⟨blob, booting, opened⟩
  | dead error =>
    cases healthy
    obtain ⟨_, _, ok⟩ := opens booting error
    cases ok
  | created => exact booting
  | noRandom => cases healthy
  | @wrapped dead sek answer blob accepted =>
    cases answer with
    | error e => cases healthy
    | ok sealed =>
      obtain ⟨filled, opensIt⟩ := Bool.and_eq_true_iff.mp healthy
      rw [VaultTransit.wrapped, if_neg (of_decide_eq_true filled)] at accepted
      cases accepted
      exact ⟨booting, of_decide_eq_true opensIt⟩
  | @unwrappable dead sek answer e error =>
    cases answer with
    | error e => cases healthy
    | ok sealed =>
      obtain ⟨filled, -⟩ := Bool.and_eq_true_iff.mp healthy
      rw [VaultTransit.wrapped, if_neg (of_decide_eq_true filled)] at error
      cases error
  | rotated => cases booting.1
  | unrotated lost => cases booting.1
  | @first sek blob absent => exact ⟨blob, rfl, booting.2⟩
  | raced held => exact held
  | unset lost => exact absurd healthy lost
  | reread held => exact held
  | vanished absent => exact absurd absent booting
  | unreread => cases healthy
  | @adopted blob reply sek opened =>
    cases healthy
    exact ⟨blob, booting, opened⟩
  | unadopted error =>
    cases healthy
    obtain ⟨_, _, ok⟩ := opens booting error
    cases ok

/-- A first boot: no key, and any number of instances with healthy answers. -/
abbrev Boots (vault : VaultTransit) (s : Pool.State (Option String) SekStage) : Prop :=
  Steps (system vault).step (Meets (Healthy vault)) ⟨none, []⟩ s

theorem booting_of_boots {s : Pool.State (Option String) SekStage} (boots : Boots vault s) :
    Holds (Intact vault) (Booting vault) s := by
  refine Pool.System.invariant ?_ ?_ ?_ ?_ boots (holds_nil fun blob absent => by cases absent)
  · intro stored p admitted _
    cases p with
    | reading => trivial
    | _ => cases admitted
  · intro s i m p later q here meets holds acted
    have mine := holds.2 p (List.mem_of_getElem? here)
    have acts := acts_of_act acted
    exact ⟨holds.1.stable (filled_of_acts mine acts),
      booting_of_acts holds.1 mine (meets.holds here) acts⟩
  · intro stored p m later q r _ mine other acted
    exact other.stable (filled_of_acts mine (acts_of_act acted))
  · intro stored e
    exact e.elim

/-- Every move brings an instance closer to its end. -/
theorem left_of_acts (acts : Acts vault stored p m later q) : left q < left p := by
  cases acts <;> simp [left]

/-- An instance that has not ended has a healthy move, if Vault can wrap every key. -/
theorem exists_healthy_move (wraps : ∀ sek, ∃ blob, blob ≠ "" ∧ vault.Opens blob sek)
    (booting : Booting vault stored p) :
    (∃ sek, p = .ready sek) ∨
      ∃ m later q, Healthy vault stored p m ∧ act vault stored p m = some (later, q) := by
  cases p with
  | reading => exact .inr ⟨.get (.ok ()), _, _, rfl, rfl⟩
  | unwrapping blob => exact .inr ⟨.unwrap .answered, _, _, rfl, rfl⟩
  | creating dead =>
    exact .inr ⟨.random (.ok ⟨List.replicate 32 0, List.length_replicate⟩), _, _, rfl, rfl⟩
  | wrapping dead sek =>
    obtain ⟨blob, filled, opens⟩ := wraps sek
    exact .inr ⟨.wrap (.ok blob), _, _, by simp [Healthy, wrapsKey, filled, opens], rfl⟩
  | setting dead sek blob => exact .inr ⟨.set .ok, _, _, rfl, rfl⟩
  | rereading => exact .inr ⟨.get (.ok ()), _, _, rfl, rfl⟩
  | adopting blob => exact .inr ⟨.unwrap .answered, _, _, rfl, rfl⟩
  | ready sek => exact .inl ⟨sek, rfl⟩
  | failed reason => cases booting

/-- Whatever has happened so far, the instances can all be brought to their end. -/
theorem exists_all_ready (wraps : ∀ sek, ∃ blob, blob ≠ "" ∧ vault.Opens blob sek)
    {s : Pool.State (Option String) SekStage} (boots : Boots vault s) :
    ∃ t, Steps (system vault).step (Meets (Healthy vault)) s t ∧
      t.procs.length = s.procs.length ∧ ∀ p ∈ t.procs, ∃ sek, p = .ready sek := by
  -- The instances together have so many moves left, and each move takes one of them.
  induction n : (s.procs.map left).sum using Nat.strong_induction_on generalizing s with
  | _ n ih =>
    by_cases unfinished : ∃ (i : Nat) (p : SekStage), s.procs[i]? = some p ∧ ∀ sek, p ≠ .ready sek
    · obtain ⟨i, p, here, notReady⟩ := unfinished
      have booting := (booting_of_boots boots).2 p (List.mem_of_getElem? here)
      rcases exists_healthy_move wraps booting with ⟨sek, rfl⟩ | ⟨m, later, q, healthy, acted⟩
      · exact absurd rfl (notReady sek)
      · have meets : Meets (η := Empty) (Healthy vault) s (.move i m) := by
          simpa only [Meets, here] using healthy
        have moved : (system vault).step s (.move i m) = some ⟨later, s.procs.set i q⟩ :=
          step_move here acted
        have less := sum_set_lt here (left_of_acts (acts_of_act acted))
        obtain ⟨t, rest, same, all⟩ := ih _ (n ▸ less) (boots.tail meets moved) rfl
        exact ⟨t, (Steps.single meets moved).trans rest, by simpa using same, all⟩
    · push Not at unfinished
      refine ⟨s, .refl s, rfl, fun p mem => ?_⟩
      obtain ⟨i, here⟩ := List.getElem?_of_mem mem
      exact unfinished i p here

/-- In every interleaving of a first boot nobody fails, everybody who has ended holds the key whose
wrapping is in Redis, and everybody can end. How many instances there are, and in which order they
move, does not matter. -/
theorem first_boot_agrees (wraps : ∀ sek, ∃ blob, blob ≠ "" ∧ vault.Opens blob sek)
    {s : Pool.State (Option String) SekStage} (boots : Boots vault s) :
    (∀ reason, .failed reason ∉ s.procs) ∧
      (∀ a b, .ready a ∈ s.procs → .ready b ∈ s.procs → a = b) ∧
      (∀ sek, .ready sek ∈ s.procs → ∃ blob, s.shared = some blob ∧ vault.Opens blob sek) ∧
      ∃ t, Steps (system vault).step (Meets (Healthy vault)) s t ∧
        t.procs.length = s.procs.length ∧ ∀ p ∈ t.procs, ∃ sek, p = .ready sek := by
  have holds := booting_of_boots boots
  refine ⟨fun reason mem => holds.2 _ mem, ?_, fun sek mem => holds.2 _ mem,
    exists_all_ready wraps boots⟩
  intro a b first second
  obtain ⟨blob, stored, opensA⟩ := holds.2 _ first
  obtain ⟨other, same, opensB⟩ := holds.2 _ second
  cases stored.symm.trans same
  exact opensA.unique opensB

/-- A KEK for concrete runs: a letter for every byte, and a single one for 32 equal ones. -/
private def letterVault : VaultTransit where
  decrypt text :=
    match Text.stripPrefixOpt "vault:v1:" text with
    | some body =>
      .ok (if body.toList.length = 1 then List.replicate 32 (Text.byteOf (body.toList.headD 'a'))
        else body.toList.map Text.byteOf)
    | none => .error "Vault decrypt returned 400 Bad Request: invalid ciphertext"

private def letters (sek : AesKey) : String :=
  "vault:v1:" ++ String.ofList (sek.1.map Text.letter)

private theorem letters_plain (sek : AesKey) :
    ∀ c ∈ (letters sek).toList, Text.isWhiteSpace c = false := by
  intro c mem
  simp only [letters, String.toList_append, String.toList_ofList, List.mem_append,
    List.mem_map] at mem
  rcases mem with head | ⟨b, _, rfl⟩
  · have plain : ("vault:v1:".toList.all fun c => !Text.isWhiteSpace c) = true := by decide
    simpa using List.all_eq_true.mp plain c head
  · exact Text.isWhiteSpace_letter b

private theorem letterVault_opens (sek : AesKey) : letterVault.Opens (letters sek) sek := by
  have decrypted : letterVault.decrypt (letters sek) = .ok sek.1 := by
    simp only [letterVault, letters, Text.stripPrefixOpt_append, String.toList_ofList,
      List.length_map, sek.2, Text.map_byteOf_letter]
    rfl
  simp only [VaultTransit.Opens, VaultTransit.unwrap, Text.trim_of_plain (letters_plain sek),
    decrypted, sek.2, dite_true]

private def keyOf (b : UInt8) : AesKey :=
  ⟨List.replicate 32 b, List.length_replicate⟩

private def blobOf (b : UInt8) : String :=
  "vault:v1:" ++ String.singleton (Text.letter b)

/-- Two instances find nothing and create a key each. The second is first to store its own. -/
private def raceOfTwo : List (Pool.Event SekStage Move Empty) :=
  [.start .reading, .start .reading, .move 0 (.get (.ok ())), .move 1 (.get (.ok ())),
    .move 0 (.random (.ok (keyOf 1))), .move 1 (.random (.ok (keyOf 2))),
    .move 0 (.wrap (.ok (blobOf 1))), .move 1 (.wrap (.ok (blobOf 2))),
    .move 1 (.set .ok), .move 0 (.set .ok), .move 0 (.get (.ok ())), .move 0 (.unwrap .answered)]

private theorem raceOfTwo_run :
    (Transition.run (system letterVault).step (Meets (Healthy letterVault)) raceOfTwo
      ⟨none, []⟩).isSome := by
  decide +kernel

/-- Both of them end with the key of the second. -/
theorem race_of_two_agrees :
    ∃ s, Boots letterVault s ∧ s.procs = [.ready (keyOf 2), .ready (keyOf 2)] ∧
      ∃ blob, s.shared = some blob ∧ letterVault.Opens blob (keyOf 2) := by
  have boots : Boots letterVault _ := Steps.of_run_get raceOfTwo_run
  have procs : ((Transition.run (system letterVault).step (Meets (Healthy letterVault)) raceOfTwo
      ⟨none, []⟩).get raceOfTwo_run).procs = [.ready (keyOf 2), .ready (keyOf 2)] := by
    decide +kernel
  have wraps : ∀ sek, ∃ blob, blob ≠ "" ∧ letterVault.Opens blob sek := by
    intro sek
    refine ⟨letters sek, ?_, letterVault_opens sek⟩
    intro empty
    have length := congrArg String.length empty
    simp [letters] at length
  refine ⟨_, boots, procs, (first_boot_agrees wraps boots).2.2.1 (keyOf 2) ?_⟩
  rw [procs]
  exact List.mem_cons_self

/-! ## A key that is there -/

/-- The move does not fail to unwrap what the KEK unwraps. -/
def Steady (vault : VaultTransit) (_stored : Option String) : SekStage → Move → Prop
  | .unwrapping blob, .unwrap (.failed _) => ¬ vault.Usable blob
  | _, _ => True

/-- What an instance that rotates has read could not be unwrapped by the KEK. -/
def Rotating (vault : VaultTransit) (_stored : Option String) : SekStage → Prop
  | .creating (some dead) => ¬ vault.Usable dead
  | .wrapping (some dead) _ => ¬ vault.Usable dead
  | .setting (some dead) _ _ => ¬ vault.Usable dead
  | _ => True

/-- An instance goes on to rotate only from a blob that the KEK cannot unwrap. -/
theorem rotating_of_acts (rotating : Rotating vault stored p) (steady : Steady vault stored p m)
    (acts : Acts vault stored p m later q) : Rotating vault later q := by
  cases acts with
  | @dead blob e reply error =>
    cases reply with
    | failed _ => exact steady
    | answered =>
      rintro ⟨sek, opens⟩
      cases opens.symm.trans error
  | @created dead sek =>
    cases dead with
    | none => trivial
    | some dead => exact rotating
  | @wrapped dead sek answer blob accepted =>
    cases dead with
    | none => trivial
    | some dead => exact rotating
  | _ => trivial

/-- The stored blob that an instance which rotates, or may yet do so, has read. -/
def Carries : SekStage → String → Prop
  | .unwrapping blob, dead => blob = dead
  | .creating found, dead => found = some dead
  | .wrapping found _, dead => found = some dead
  | .setting found _ _, dead => found = some dead
  | _, _ => False

/-- The first `GET`, over this blob. -/
def Reads (stored : Option String) : Move → String → Prop
  | .get (.ok ()), blob => stored = some blob
  | _, _ => False

/-- The blob that an instance rotates it carries since it read it. -/
theorem reads_of_acts {dead : String} (acts : Acts vault stored p m later q)
    (carries : Carries q dead) : Carries p dead ∨ Reads stored m dead := by
  cases acts with
  | found held =>
    cases carries
    exact .inr held
  | empty _ => cases carries
  | dead error =>
    cases carries
    exact .inl rfl
  | created => exact .inl carries
  | wrapped _ => exact .inl carries
  | _ => cases carries

/-- An instance that carries a blob got it from Redis: on every run the blob was stored at some
point, and the instance read it there. -/
theorem carried_blob_was_read {C : Pool.State (Option String) SekStage →
      Pool.Event SekStage Move Empty → Prop} {initial : Option String}
    {s : Pool.State (Option String) SekStage} {i : Nat} {dead : String}
    (here : s.procs[i]? = some p) (carries : Carries p dead) :
    Passes (system vault).step C
      (fun u e => e = .move i (.get (.ok ())) ∧ u.shared = some dead) ⟨initial, []⟩ s := by
  have begins : ∀ r, (system vault).admits r = true → ¬ Carries r dead := by
    intro r admitted carries
    cases r with
    | reading => cases carries
    | _ => cases admitted
  have read : Passes (system vault).step C (fun u e => ∃ m p, e = .move i m ∧
      u.procs[i]? = some p ∧ Reads u.shared m dead) ⟨initial, []⟩ s :=
    origin begins (fun _ _ _ _ _ acted => reads_of_acts (acts_of_act acted)) here carries
  refine read.mono ?_
  rintro u e - - ⟨m, _, rfl, -, reads⟩
  unfold Reads at reads
  split at reads
  · exact ⟨rfl, reads⟩
  · cases reads

/-- Only a rotating instance takes away what is stored, and it leaves its own blob there. -/
theorem rotates_of_acts {blob : String} (acts : Acts vault (some blob) p m later q)
    (gone : later ≠ some blob) :
    ∃ dead sek fresh reply, p = .setting (some dead) sek fresh ∧ m = .set reply ∧
      later = some fresh := by
  cases acts with
  | @rotated dead sek fresh => exact ⟨dead, sek, fresh, .ok, rfl, rfl, rfl⟩
  | @unrotated dead sek fresh reply lost =>
    rcases reply.effect_cases (fun _ => some fresh) (some blob) with same | set
    · exact absurd same gone
    · exact ⟨dead, sek, fresh, reply, rfl, rfl, set⟩
  | first absent => cases absent
  | @unset sek fresh reply lost =>
    rcases reply.effect_cases (setNx fresh) (some blob) with same | set
    · exact absurd same gone
    · exact absurd set gone
  | _ => exact absurd rfl gone

/-- As long as unwrapping does not fail on keys that are alive, what is stored is written over
only by an instance that rotates: on every run that leads there, it read from the same place a blob
that the KEK cannot unwrap. What it writes is what is stored then, so the last of several wins. -/
theorem live_key_replaced_only_by_rotation {initial : Option String}
    {s t : Pool.State (Option String) SekStage} {e : Pool.Event SekStage Move Empty} {blob : String}
    (run : Steps (system vault).step (Meets (Steady vault)) ⟨initial, []⟩ s)
    (moved : (system vault).step s e = some t) (held : s.shared = some blob)
    (gone : t.shared ≠ some blob) :
    ∃ i dead sek fresh reply, e = .move i (.set reply) ∧
      s.procs[i]? = some (.setting (some dead) sek fresh) ∧ t.shared = some fresh ∧
      ¬ vault.Usable dead ∧
      Passes (system vault).step (Meets (Steady vault))
        (fun u e => e = .move i (.get (.ok ())) ∧ u.shared = some dead) ⟨initial, []⟩ s := by
  have holds : Holds (fun _ => True) (Rotating vault) s := by
    refine Pool.System.invariant ?_ ?_ ?_ ?_ run (holds_nil trivial)
    · intro stored p admitted _
      cases p with
      | reading => trivial
      | _ => cases admitted
    · intro s i m p later q here meets holds acted
      have mine := holds.2 p (List.mem_of_getElem? here)
      exact ⟨trivial, rotating_of_acts mine (meets.holds here) (acts_of_act acted)⟩
    · intro stored p m later q r _ _ other _
      exact other
    · intro stored e
      exact e.elim
  cases moves_of_step moved with
  | start _ => exact absurd held gone
  | outside changed => exact Empty.elim ‹Empty›
  | @move i m p q later here acted =>
    have acts : Acts vault s.shared p m later q := acts_of_act acted
    rw [held] at acts
    obtain ⟨dead, sek, fresh, reply, rfl, rfl, stored⟩ := rotates_of_acts acts gone
    exact ⟨i, dead, sek, fresh, reply, rfl, here, stored, holds.2 _ (List.mem_of_getElem? here),
      carried_blob_was_read here rfl⟩

/-- Two instances find a key that the KEK does not know. Both rotate, one after the other. -/
private def rotationOfTwo : List (Pool.Event SekStage Move Empty) :=
  [.start .reading, .start .reading, .move 0 (.get (.ok ())), .move 1 (.get (.ok ())),
    .move 0 (.unwrap .answered), .move 1 (.unwrap .answered),
    .move 0 (.random (.ok (keyOf 1))), .move 1 (.random (.ok (keyOf 2))),
    .move 0 (.wrap (.ok (blobOf 1))), .move 1 (.wrap (.ok (blobOf 2))),
    .move 0 (.set .ok)]

instance (vault : VaultTransit) (blob : String) : Decidable (vault.Usable blob) :=
  match unwrapped : vault.unwrap .answered (Text.trim blob) with
  | .ok sek => .isTrue ⟨sek, unwrapped⟩
  | .error _ => .isFalse fun ⟨_, opens⟩ => by cases unwrapped.symm.trans opens

instance (vault : VaultTransit) (stored : Option String) (p : SekStage) (m : Move) :
    Decidable (Steady vault stored p m) := by
  unfold Steady
  split
  · exact inferInstanceAs (Decidable (¬ _))
  · exact inferInstanceAs (Decidable True)

private theorem rotationOfTwo_run :
    (Transition.run (system letterVault).step (Meets (Steady letterVault)) rotationOfTwo
      ⟨some "vault:v0:lost", []⟩).isSome := by
  decide +kernel

/-- The state in which the first of them has stored its key and the second is about to. -/
private def rotated : Pool.State (Option String) SekStage :=
  (Transition.run (system letterVault).step (Meets (Steady letterVault)) rotationOfTwo
    ⟨some "vault:v0:lost", []⟩).get rotationOfTwo_run

private theorem rotated_next : ((system letterVault).step rotated (.move 1 (.set .ok))).isSome := by
  decide +kernel

private theorem rotated_shared : rotated.shared = some (blobOf 1) := by
  decide +kernel

private theorem rotated_gone :
    (((system letterVault).step rotated (.move 1 (.set .ok))).get rotated_next).shared ≠
      some (blobOf 1) := by
  decide +kernel

/-- The second rotation destroys the key of the first, with every answer in order. -/
theorem second_rotation_destroys_key :
    ¬ ∀ (s t : Pool.State (Option String) SekStage) (e : Pool.Event SekStage Move Empty)
      (blob : String),
      Steps (system letterVault).step Always ⟨some "vault:v0:lost", []⟩ s →
      (system letterVault).step s e = some t → s.shared = some blob →
      letterVault.Usable blob → t.shared = some blob := by
  intro law
  have run : Steps (system letterVault).step Always ⟨some "vault:v0:lost", []⟩ rotated :=
    (Steps.of_run_get rotationOfTwo_run).mono fun _ _ _ => trivial
  have usable : letterVault.Usable (blobOf 1) := ⟨keyOf 1, by decide +kernel⟩
  exact rotated_gone
    (law rotated _ _ _ run (Option.some_get rotated_next).symm rotated_shared usable)

/-- There, too, it is an instance that read the dead key. -/
theorem second_rotation_read_dead_key :
    ∃ (i : Nat) (dead : String) (sek : AesKey) (fresh : String),
      rotated.procs[i]? = some (.setting (some dead) sek fresh) ∧ ¬ letterVault.Usable dead ∧
      ∃ u, Steps (system letterVault).step (Meets (Steady letterVault))
          ⟨some "vault:v0:lost", []⟩ u ∧ u.shared = some dead := by
  have run := Steps.of_run_get rotationOfTwo_run
  obtain ⟨i, dead, sek, fresh, _, _, here, _, lost, read⟩ :=
    live_key_replaced_only_by_rotation run (Option.some_get rotated_next).symm rotated_shared
      rotated_gone
  obtain ⟨u, _, _, reached, _, ⟨-, stored⟩, _⟩ := read.exists_step run
  exact ⟨i, dead, sek, fresh, here, lost, u, reached, stored⟩

end StreamKey

end AggregatorBridge
