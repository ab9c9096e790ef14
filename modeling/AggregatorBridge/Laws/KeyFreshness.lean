import AggregatorBridge.KeyCache

/-!
# When a revoked key stops being accepted

A key that a lookup returns was read from Redis by that lookup, or by one that put it into the
cache less than its lifetime ago. For the two caches with a lifetime this is so whatever is
provisioned or removed in between, whichever path filled the cache and whenever it was pruned. It
is not so for the versions: their cache knows no time, so a version that was pruned from Redis is
accepted for as long as the process lives.

The law is about the past, and says what every run to a state has passed: the read of a verdict
that a lookup returns, the look into the cache that found one, the store that put it there, and
the read that came before the store. What can be said of a state alone, that entries expire when
they should and are verdicts on well-formed answers, is an invariant below it. Nothing is said
about how long a lookup takes between its look into the cache and its end.
-/

namespace AggregatorBridge

open Remote Expiring Transition Pool.System

namespace KeyCache

/-! ## Moves of a lookup -/

section

variable {V : Type} (kind : KeyKind V)

/-- What a move of a lookup can be, without its text where it fails. -/
inductive Acts (clock : Instant) (r : Registry V) (batch : Bool) :
    KeyStage V → KeyMove → Registry V → KeyStage V → Prop
  | hit {found : List (Found V)} {device : String} {rest : List String} {verdict : Option V}
      {map : Cache String (Option V)} (got : get clock device r.cache.map = (some verdict, map)) :
      Acts clock r batch (.checking found (device :: rest)) .check
        { r with cache := { r.cache with map := map } }
        (.checking (found ++ [⟨device, .cached verdict clock⟩]) rest)
  | miss {found : List (Found V)} {device : String} {rest : List String}
      {map : Cache String (Option V)} (got : get clock device r.cache.map = (none, map)) :
      Acts clock r batch (.checking found (device :: rest)) .check
        { r with cache := { r.cache with map := map } }
        (.checking (found ++ [⟨device, .missed⟩]) rest)
  | known {found : List (Found V)} {reply : Except String Unit}
      (all : ∀ f ∈ found, f.source ≠ .missed) :
      Acts clock r batch (.checking found []) (.redis reply) r (.done found)
  | unread {found : List (Found V)} {reply : Except String Unit} {reason : String} :
      Acts clock r batch (.checking found []) (.redis reply) r (.failed reason)
  | read {found read : List (Found V)} {puts : List (Put V)}
      (answered : KeyLookup.readMissed kind batch r.redis found = .ok (read, puts)) :
      Acts clock r batch (.checking found []) (.redis (.ok ())) r (KeyLookup.next read puts)
  | stamp {found : List (Found V)} {put : Put V} {puts : List (Put V)} :
      Acts clock r batch (.putting found (put :: puts)) .stamp r (.storing found put clock puts)
  | store {found : List (Found V)} {put : Put V} {stamp expires : Instant} {puts : List (Put V)}
      (fits : after stamp (kind.ttl put.verdict) = some expires) :
      Acts clock r batch (.storing found put stamp puts) .store
        { r with
          cache := r.cache.insertPruned clock stamp put.device ⟨put.verdict, expires⟩
          stored := r.stored ++ [⟨put.device, put.raw, put.verdict, stamp⟩] }
        (KeyLookup.next found puts)
  | overflow {found : List (Found V)} {put : Put V} {stamp : Instant} {puts : List (Put V)}
      {reason : String} :
      Acts clock r batch (.storing found put stamp puts) .store r (.failed reason)

variable {kind} {clock later : Instant} {r t : Registry V} {batch : Bool} {l : KeyLookup V}
  {m : KeyMove} {stage next : KeyStage V}

/-- Every move of a lookup is one of these. -/
theorem acts_of_act (acted : KeyLookup.act kind clock r l m = some (t, next)) :
    Acts kind clock r l.batch l.stage m t next := by
  obtain ⟨batch, stage⟩ := l
  unfold KeyLookup.act at acted
  split at acted
  case h_1 found device rest here =>
    cases here
    simp only [KeyLookup.check] at acted
    split at acted
    · next got =>
      cases acted
      exact .hit got
    · next got =>
      cases acted
      exact .miss got
  case h_2 found reply here =>
    cases here
    cases acted
    unfold KeyLookup.read
    split
    · cases reply with
      | error e => exact .unread
      | ok answer =>
        dsimp only
        split
        · next answered => exact .read answered
        · exact .unread
    · next none =>
      refine .known fun f mem missing => none (List.any_eq_true.mpr ⟨f, mem, ?_⟩)
      rw [missing]
      rfl
  case h_3 found put puts here =>
    cases here
    cases acted
    exact .stamp
  case h_4 found put stamp puts here =>
    cases here
    simp only [KeyLookup.store] at acted
    split at acted
    · next fits =>
      cases acted
      exact .store fits
    · cases acted
      exact .overflow
  case h_5 => cases acted

/-- A verdict on what Redis answered. A batch takes a malformed key for none. -/
def ReadAs (kind : KeyKind V) (batch : Bool) (device : String) (raw : Option String)
    (verdict : Option V) : Prop :=
  kind.verdict device raw = .ok verdict ∨
    batch = true ∧ verdict = none ∧ ∃ e, kind.verdict device raw = .error e

/-- What reading one device can come to. -/
theorem resolve_cases {redis : Hash String RedisValue} {f g : Found V} {puts : List (Put V)}
    (resolved : KeyLookup.resolve kind batch redis f = .ok (g, puts)) :
    f.source ≠ .missed ∧ g = f ∧ puts = [] ∨
      ∃ raw verdict, KeyLookup.answer batch redis f.device = .ok raw ∧
        g = ⟨f.device, .read raw verdict⟩ ∧ ReadAs kind batch f.device raw verdict ∧
        ∀ p ∈ puts, p = ⟨f.device, raw, verdict⟩ ∧ kind.verdict f.device raw = .ok verdict := by
  unfold KeyLookup.resolve at resolved
  split at resolved
  · split at resolved
    · cases resolved
    · next raw answered =>
      split at resolved
      · next verdict parsed =>
        cases resolved
        refine .inr ⟨raw, verdict, answered, rfl, .inl parsed, fun p mem => ?_⟩
        exact ⟨List.mem_singleton.mp mem, parsed⟩
      · next e malformed =>
        split at resolved
        · next isBatch =>
          cases resolved
          exact .inr ⟨raw, none, answered, rfl, .inr ⟨isBatch, rfl, e, malformed⟩,
            List.forall_mem_nil _⟩
        · cases resolved
  · next known =>
    cases resolved
    exact .inl ⟨known, rfl, rfl⟩

/-- Reading all that is missing, device by device. -/
theorem readMissed_cases {redis : Hash String RedisValue} {found read : List (Found V)}
    {puts : List (Put V)}
    (resolved : KeyLookup.readMissed kind batch redis found = .ok (read, puts)) :
    (∀ g ∈ read, g.source ≠ .missed ∧ g ∈ found ∨
      ∃ raw verdict, KeyLookup.answer batch redis g.device = .ok raw ∧
        g.source = .read raw verdict ∧ ReadAs kind batch g.device raw verdict) ∧
    ∀ p ∈ puts, KeyLookup.answer batch redis p.device = .ok p.raw ∧
      kind.verdict p.device p.raw = .ok p.verdict := by
  induction found generalizing read puts with
  | nil =>
    cases resolved
    exact ⟨List.forall_mem_nil _, List.forall_mem_nil _⟩
  | cons f rest ih =>
    simp only [KeyLookup.readMissed] at resolved
    split at resolved
    · next g own found others first remaining =>
      cases resolved
      obtain ⟨there, putThere⟩ := ih remaining
      have behind : ∀ g ∈ found, g.source ≠ .missed ∧ g ∈ f :: rest ∨ _ := fun g mem =>
        (there g mem).imp_left fun ⟨known, mem⟩ => ⟨known, List.mem_cons_of_mem _ mem⟩
      rcases resolve_cases first with ⟨known, rfl, rfl⟩ | ⟨raw, verdict, answered, rfl, as, put⟩
      · exact ⟨List.forall_mem_cons.mpr ⟨.inl ⟨known, List.mem_cons_self⟩, behind⟩, putThere⟩
      · refine ⟨List.forall_mem_cons.mpr ⟨.inr ⟨raw, verdict, answered, rfl, as⟩, behind⟩, ?_⟩
        refine List.forall_mem_append.mpr ⟨fun p mem => ?_, putThere⟩
        obtain ⟨rfl, parsed⟩ := put p mem
        exact ⟨answered, parsed⟩
    · cases resolved
    · cases resolved

/-- The devices that a lookup has come to know about. -/
def KeyStage.found : KeyStage V → List (Found V)
  | checking found _ => found
  | putting found _ => found
  | storing found _ _ _ => found
  | done found => found
  | failed _ => []

/-- The verdicts that a lookup has yet to store. -/
def KeyStage.puts : KeyStage V → List (Put V)
  | putting _ puts => puts
  | storing _ put _ puts => put :: puts
  | _ => []

@[simp] theorem found_next (found : List (Found V)) (puts : List (Put V)) :
    (KeyLookup.next found puts).found = found := by
  cases puts <;> rfl

@[simp] theorem puts_next (found : List (Found V)) (puts : List (Put V)) :
    (KeyLookup.next found puts).puts = puts := by
  cases puts <;> rfl

/-- What a move adds to what a lookup knows. -/
theorem found_of_acts (acts : Acts kind clock r batch stage m t next) {f : Found V}
    (mem : f ∈ next.found) :
    f ∈ stage.found ∨ f.source = .missed ∨
      (m = .check ∧ ∃ verdict, f.source = .cached verdict clock ∧
        (get clock f.device r.cache.map).1 = some verdict) ∨
      m = .redis (.ok ()) ∧ ∃ raw verdict, f.source = .read raw verdict ∧
        KeyLookup.answer batch r.redis f.device = .ok raw ∧
        ReadAs kind batch f.device raw verdict := by
  cases acts with
  | hit got =>
    rcases List.mem_append.mp mem with old | new
    · exact .inl old
    · cases List.mem_singleton.mp new
      exact .inr (.inr (.inl ⟨rfl, _, rfl, congrArg Prod.fst got⟩))
  | miss got =>
    rcases List.mem_append.mp mem with old | new
    · exact .inl old
    · cases List.mem_singleton.mp new
      exact .inr (.inl rfl)
  | read answered =>
    rw [found_next] at mem
    rcases (readMissed_cases answered).1 f mem with ⟨-, old⟩ | ⟨raw, verdict, answer, is, as⟩
    · exact .inl old
    · exact .inr (.inr (.inr ⟨rfl, raw, verdict, is, answer, as⟩))
  | store fits =>
    rw [found_next] at mem
    exact .inl mem
  | unread => exact absurd mem List.not_mem_nil
  | overflow => exact absurd mem List.not_mem_nil
  | _ => exact .inl mem

/-- What a move adds to what a lookup has to store. -/
theorem puts_of_acts (acts : Acts kind clock r batch stage m t next) {p : Put V}
    (mem : p ∈ next.puts) :
    p ∈ stage.puts ∨ m = .redis (.ok ()) ∧ KeyLookup.answer batch r.redis p.device = .ok p.raw ∧
      kind.verdict p.device p.raw = .ok p.verdict := by
  cases acts with
  | read answered =>
    rw [puts_next] at mem
    exact .inr ⟨rfl, (readMissed_cases answered).2 p mem⟩
  | stamp => exact .inl mem
  | store fits =>
    rw [puts_next] at mem
    exact .inl (List.mem_cons_of_mem _ mem)
  | _ => exact absurd mem List.not_mem_nil

/-- A lookup knows what Redis answered for a device, or has a verdict on it to store. -/
def KeyStage.Carries (stage : KeyStage V) (device : String) (raw : Option String) : Prop :=
  (∃ f ∈ stage.found, f.device = device ∧ ∃ verdict, f.source = .read raw verdict) ∨
    ∃ p ∈ stage.puts, p.device = device ∧ p.raw = raw

/-- What a lookup carries it had, or Redis answered it in this move. -/
theorem carries_of_acts (acts : Acts kind clock r batch stage m t next) {device : String}
    {raw : Option String} (carries : next.Carries device raw) :
    stage.Carries device raw ∨
      m = .redis (.ok ()) ∧ KeyLookup.answer batch r.redis device = .ok raw := by
  rcases carries with ⟨f, mem, rfl, verdict, is⟩ | ⟨p, mem, rfl, rfl⟩
  · rcases found_of_acts acts mem with
      old | missed | ⟨-, _, cached, -⟩ | ⟨at_, _, _, read, asked, -⟩
    · exact .inl (.inl ⟨f, old, rfl, verdict, is⟩)
    · cases missed.symm.trans is
    · cases cached.symm.trans is
    · cases read.symm.trans is
      exact .inr ⟨at_, asked⟩
  · rcases puts_of_acts acts mem with old | ⟨at_, asked, -⟩
    · exact .inl (.inr ⟨p, old, rfl, rfl⟩)
    · exact .inr ⟨at_, asked⟩

/-! ## What is true of the keys of one kind -/

variable (kind)

/-- An entry of the cache is a verdict that was stored. -/
def Recorded (stored : List (StoredKey V)) (device : String) (verdict : Option V)
    (since : Instant) : Prop :=
  ∃ v ∈ stored, v.device = device ∧ v.verdict = verdict ∧ v.since = since

/-- What is true of the keys of one kind. -/
structure RegistryInv (clock : Instant) (r : Registry V) : Prop where
  backed : Backed (Recorded r.stored) kind.ttl r.cache.map
  genuine : ∀ v ∈ r.stored, kind.verdict v.device v.raw = .ok v.verdict ∧ v.since ≤ clock

/-- A lookup that is done asking Redis has asked for everything. -/
def Asked : KeyStage V → Prop
  | .checking _ _ => True
  | .failed _ => True
  | stage => ∀ f ∈ stage.found, f.source ≠ .missed

/-- What is true of a lookup. -/
structure LookupInv (clock : Instant) (batch : Bool) (stage : KeyStage V) : Prop where
  read : ∀ f ∈ stage.found, ∀ raw verdict, f.source = .read raw verdict →
    ReadAs kind batch f.device raw verdict
  genuine : ∀ p ∈ stage.puts, kind.verdict p.device p.raw = .ok p.verdict
  asked : Asked stage
  stamped : ∀ found put stamp puts, stage = .storing found put stamp puts → stamp ≤ clock

variable {kind}

theorem LookupInv.mono (goesOn : clock ≤ later) (inv : LookupInv kind clock batch stage) :
    LookupInv kind later batch stage :=
  { inv with stamped := fun _ _ _ _ is => (inv.stamped _ _ _ _ is).trans goesOn }

theorem RegistryInv.mono (goesOn : clock ≤ later) (inv : RegistryInv kind clock r)
    (redis : Hash String RedisValue) : RegistryInv kind later { r with redis := redis } :=
  ⟨inv.backed, fun v mem => ⟨(inv.genuine v mem).1, (inv.genuine v mem).2.trans goesOn⟩⟩

theorem asked_next {found : List (Found V)} {puts : List (Put V)}
    (all : ∀ f ∈ found, f.source ≠ .missed) : Asked (KeyLookup.next found puts) := by
  cases puts with
  | nil => exact all
  | cons put puts => exact all

theorem next_ne_storing {found found' : List (Found V)} {puts puts' : List (Put V)} {put : Put V}
    {stamp : Instant} : KeyLookup.next found puts ≠ .storing found' put stamp puts' := by
  cases puts <;> exact fun is => by cases is

/-- A move of a lookup keeps what is true of it. -/
theorem lookupInv_of_acts (inv : LookupInv kind clock batch stage)
    (acts : Acts kind clock r batch stage m t next) : LookupInv kind clock batch next where
  read f mem raw verdict is := by
    rcases found_of_acts acts mem with old | missed | ⟨-, _, cached, -⟩ | ⟨-, _, _, read, -, as⟩
    · exact inv.read f old raw verdict is
    · cases missed.symm.trans is
    · cases cached.symm.trans is
    · cases read.symm.trans is
      exact as
  genuine p mem := by
    rcases puts_of_acts acts mem with old | ⟨-, -, parsed⟩
    · exact inv.genuine p old
    · exact parsed
  asked := by
    cases acts with
    | known all => exact all
    | read answered =>
      refine asked_next fun f mem missed => ?_
      rcases (readMissed_cases answered).1 f mem with ⟨asked, -⟩ | ⟨raw, verdict, -, is, -⟩
      · exact asked missed
      · cases missed.symm.trans is
    | stamp => exact inv.asked
    | store fits => exact asked_next inv.asked
    | _ => trivial
  stamped found put stamp puts is := by
    cases acts with
    | stamp =>
      cases is
      exact le_rfl
    | read answered => exact absurd is next_ne_storing
    | store fits => exact absurd is next_ne_storing
    | _ => cases is

theorem backed_insertPruned {cache : PrunedCache String (Option V)}
    {reason : String → Option V → Instant → Prop}
    {ttl : Option V → Nat} {now stamp expires : Instant} {device : String} {verdict : Option V}
    (backed : Backed reason ttl cache.map) (since : reason device verdict stamp)
    (fits : after stamp (ttl verdict) = some expires) :
    Backed reason ttl (cache.insertPruned now stamp device ⟨verdict, expires⟩).map := by
  unfold PrunedCache.insertPruned
  dsimp only
  split
  · exact (backed.prune stamp).insert since fits
  · exact backed.insert since fits

/-- A move of a lookup keeps what is true of the keys. -/
theorem registryInv_of_acts (inv : RegistryInv kind clock r)
    (own : LookupInv kind clock batch stage) (acts : Acts kind clock r batch stage m t next) :
    RegistryInv kind clock t := by
  cases acts with
  | @hit _ device _ _ map got =>
    have kept := inv.backed.get clock device
    rw [congrArg Prod.snd got] at kept
    exact ⟨kept, inv.genuine⟩
  | @miss _ device _ map got =>
    have kept := inv.backed.get clock device
    rw [congrArg Prod.snd got] at kept
    exact ⟨kept, inv.genuine⟩
  | @store found put stamp expires puts fits =>
    -- What is put into the cache is a verdict on what was read, under a stamp that is not later.
    have new : (⟨put.device, put.raw, put.verdict, stamp⟩ : StoredKey V) ∈
        r.stored ++ [⟨put.device, put.raw, put.verdict, stamp⟩] :=
      List.mem_append_right _ (List.mem_singleton_self _)
    constructor
    · refine backed_insertPruned (inv.backed.mono ?_) ⟨_, new, rfl, rfl, rfl⟩ fits
      rintro device verdict since ⟨v, mem, rest⟩
      exact ⟨v, List.mem_append_left _ mem, rest⟩
    · refine List.forall_mem_append.mpr ⟨inv.genuine, fun v mem => ?_⟩
      cases List.mem_singleton.mp mem
      exact ⟨own.genuine put List.mem_cons_self, own.stamped _ _ _ _ rfl⟩
  | _ => exact inv

/-- What a move puts on record is what its lookup was about to store. -/
theorem stored_of_acts (acts : Acts kind clock r batch stage m t next) {v : StoredKey V}
    (mem : v ∈ t.stored) :
    v ∈ r.stored ∨ m = .store ∧ ∃ found puts,
      stage = .storing found ⟨v.device, v.raw, v.verdict⟩ v.since puts := by
  cases acts with
  | store fits =>
    rcases List.mem_append.mp mem with old | new
    · exact .inl old
    · cases List.mem_singleton.mp new
      exact .inr ⟨rfl, _, _, rfl⟩
  | _ => exact .inl mem

end

/-! ## Where a key comes from -/

variable {K : Type} (cfg : KeyConfig K)
  (C : Pool.State (KeyState K) (Lookup K) → Pool.Event (Lookup K) KeyMove KeyChange → Prop)

/-- A move is one of a lookup of a device's key, or of a version, and touches nothing else. -/
inductive Moved (s : KeyState K) (m : KeyMove) : Lookup K → KeyState K → Lookup K → Prop
  | pubkey {l : KeyLookup K} {r : Registry K} {stage : KeyStage K}
      (moved : KeyLookup.act cfg.pubkey s.clock s.pubkeys l m = some (r, stage)) :
      Moved s m (.pubkey l) { s with pubkeys := r } (.pubkey { l with stage := stage })
  | enckey {l : KeyLookup AesKey} {r : Registry AesKey} {stage : KeyStage AesKey}
      (moved : KeyLookup.act cfg.enckey s.clock s.enckeys l m = some (r, stage)) :
      Moved s m (.enckey l) { s with enckeys := r } (.enckey { l with stage := stage })
  | versioned {l : VersionedLookup} {r : VersionedRegistry} {stage : VersionedStage}
      (moved : VersionedLookup.act cfg.vault s.clock s.versioned l m = some (r, stage)) :
      Moved s m (.versioned l) { s with versioned := r } (.versioned { l with stage := stage })

variable {cfg} in
/-- A move of a lookup leaves the keys of other kinds alone. -/
theorem moved_of_act {s t : KeyState K} {p q : Lookup K} {m : KeyMove}
    (acted : act cfg s p m = some (t, q)) : Moved cfg s m p t q := by
  cases p with
  | pubkey l =>
    obtain ⟨⟨r, stage⟩, moved, same⟩ := Option.map_eq_some_iff.mp acted
    cases same
    exact .pubkey moved
  | enckey l =>
    obtain ⟨⟨r, stage⟩, moved, same⟩ := Option.map_eq_some_iff.mp acted
    cases same
    exact .enckey moved
  | versioned l =>
    obtain ⟨⟨r, stage⟩, moved, same⟩ := Option.map_eq_some_iff.mp acted
    cases same
    exact .versioned moved

/-- On every run to this state, lookup `i` got its answer from Redis when Redis held this. -/
def ReadBy (i : Nat) (held : KeyState K → Prop) (s : Pool.State (KeyState K) (Lookup K)) : Prop :=
  Passes (system cfg).step C (fun u e => e = .move i (.redis (.ok ())) ∧ held u.shared)
    ⟨init, []⟩ s

/-- One of the two kinds of keys as a part of the whole: its keys, and the lookups that are about
them. -/
structure Part (V : Type) where
  kind : KeyKind V
  registry : KeyState K → Registry V
  lookup : KeyLookup V → Lookup K
  injective : Function.Injective lookup
  begins : ∀ l, (system cfg).admits (lookup l) = KeyCache.begins l
  empty : registry init = ⟨∅, ⟨∅, 0⟩, []⟩
  provisions : ∀ s change, ∃ redis, registry (world s change) = { registry s with redis := redis }
  /-- A move is one of a lookup of this kind, or the keys of this kind are as they were. -/
  moves : ∀ s p m t q, act cfg s p m = some (t, q) → t.clock = s.clock ∧
    ((∃ l stage, p = lookup l ∧ q = lookup { l with stage := stage } ∧
        KeyLookup.act kind s.clock (registry s) l m = some (registry t, stage)) ∨
      registry t = registry s ∧ ∀ l, q ≠ lookup l)

namespace Part

variable {cfg} {V : Type} (part : Part cfg V)

/-- On every run to this state, some lookup had read from Redis what it parsed as this verdict on
the device, and then stored it in the cache, under the time `since`. -/
def StoredAt (device : String) (verdict : Option V) (since : Instant)
    (s : Pool.State (KeyState K) (Lookup K)) : Prop :=
  ∃ raw, part.kind.verdict device raw = .ok verdict ∧
    Passes (system cfg).step C (fun u e => ∃ j batch found puts, e = .move j .store ∧
      u.procs[j]? =
        some (part.lookup ⟨batch, .storing found ⟨device, raw, verdict⟩ since puts⟩) ∧
      since ≤ u.shared.clock ∧
      ReadBy cfg C j (fun x => KeyLookup.answer batch (part.registry x).redis device = .ok raw) u)
      ⟨init, []⟩ s

/-- Where a verdict on a device that lookup `i` has returned may come from: an answer of Redis to
this lookup, or the cache, where it was stored less than its lifetime before. -/
def Fresh (i : Nat) (batch : Bool) (device : String) (s : Pool.State (KeyState K) (Lookup K)) :
    Source V → Prop
  | .missed => False
  | .cached verdict time =>
    Passes (system cfg).step C (fun u e => e = .move i .check ∧ u.shared.clock = time ∧
      ∃ since, part.StoredAt C device verdict since u ∧
        since ≤ time ∧ time < since + part.kind.ttl verdict) ⟨init, []⟩ s
  | .read raw verdict =>
    ReadBy cfg C i (fun x => KeyLookup.answer batch (part.registry x).redis device = .ok raw) s ∧
      ReadAs part.kind batch device raw verdict

variable {C} {s : Pool.State (KeyState K) (Lookup K)}

theorem eq_checking_of_begins {l : KeyLookup V} (admitted : KeyCache.begins l = true) :
    ∃ devices, l.stage = .checking [] devices := by
  unfold KeyCache.begins at admitted
  split at admitted
  · next devices here => exact ⟨devices, here⟩
  · cases admitted

/-- What is true of the keys and of the lookups, on every run. -/
theorem holds (run : Steps (system cfg).step C ⟨init, []⟩ s) :
    Holds (fun u => RegistryInv part.kind u.clock (part.registry u))
      (fun u p => ∀ l, p = part.lookup l → LookupInv part.kind u.clock l.batch l.stage) s := by
  have start : RegistryInv part.kind (init : KeyState K).clock (part.registry init) := by
    rw [part.empty]
    exact ⟨Backed.empty, List.forall_mem_nil _⟩
  refine Pool.System.invariant ?_ ?_ ?_ ?_ run (holds_nil start)
  · rintro u p admitted - l rfl
    obtain ⟨devices, first⟩ := eq_checking_of_begins (part.begins l ▸ admitted)
    rw [first]
    exact ⟨List.forall_mem_nil _, List.forall_mem_nil _, trivial, fun _ _ _ _ is => by cases is⟩
  · intro u i m p t q here _ holds acted
    obtain ⟨sameClock, ⟨l, stage, rfl, rfl, moved⟩ | ⟨same, others⟩⟩ :=
      part.moves _ _ _ _ _ acted
    · have own := holds.2 _ (List.mem_of_getElem? here) l rfl
      have acts := acts_of_act moved
      rw [sameClock]
      refine ⟨registryInv_of_acts holds.1 own acts, fun l' is => ?_⟩
      cases part.injective is
      exact lookupInv_of_acts own acts
    · rw [sameClock, same]
      exact ⟨holds.1, fun l is => absurd is (others l)⟩
  · intro u p m t q r _ _ other acted l is
    rw [(part.moves _ _ _ _ _ acted).1]
    exact other l is
  · intro u change t inv moved
    cases moved
    have goesOn : u.clock ≤ (world u change).clock := by
      cases change with
      | tick duration => exact Nat.le_add_right _ _
      | _ => exact le_rfl
    obtain ⟨redis, same⟩ := part.provisions u change
    rw [same]
    exact ⟨inv.mono goesOn redis, fun r own l is => (own l is).mono goesOn⟩

/-- A lookup of this kind, single or not, that carries this answer. -/
def Carries (batch : Bool) (device : String) (raw : Option String) (p : Lookup K) : Prop :=
  ∃ l, p = part.lookup l ∧ l.batch = batch ∧ l.stage.Carries device raw

/-- What a lookup carries it has read. -/
theorem readBy_of_carries {i : Nat} {l : KeyLookup V} {device : String} {raw : Option String}
    (here : s.procs[i]? = some (part.lookup l)) (carried : l.stage.Carries device raw) :
    ReadBy cfg C i
      (fun x => KeyLookup.answer l.batch (part.registry x).redis device = .ok raw) s := by
  have begins : ∀ p, (system cfg).admits p = true → ¬ part.Carries l.batch device raw p := by
    rintro p admitted ⟨k, rfl, -, carries⟩
    obtain ⟨devices, first⟩ := eq_checking_of_begins (part.begins k ▸ admitted)
    rw [first] at carries
    rcases carries with ⟨f, mem, -⟩ | ⟨p, mem, -⟩
    · exact absurd mem List.not_mem_nil
    · exact absurd mem List.not_mem_nil
  have hands : ∀ u p m t q, act cfg u p m = some (t, q) → part.Carries l.batch device raw q →
      part.Carries l.batch device raw p ∨ m = .redis (.ok ()) ∧
        KeyLookup.answer l.batch (part.registry u).redis device = .ok raw := by
    rintro u p m t q acted ⟨k, rfl, same, carries⟩
    obtain ⟨-, ⟨k', stage, rfl, is, moved⟩ | ⟨-, others⟩⟩ := part.moves _ _ _ _ _ acted
    · cases part.injective is
      rw [← same]
      exact (carries_of_acts (acts_of_act moved) carries).imp_left fun old => ⟨k', rfl, rfl, old⟩
    · exact absurd rfl (others k)
  have read : Passes (system cfg).step C (fun u e => ∃ m p, e = .move i m ∧
      u.procs[i]? = some p ∧ m = .redis (.ok ()) ∧
        KeyLookup.answer l.batch (part.registry u.shared).redis device = .ok raw) ⟨init, []⟩ s :=
    origin begins hands here ⟨l, rfl, rfl, carried⟩
  refine read.mono ?_
  rintro u e - - ⟨m, _, rfl, -, rfl, answered⟩
  exact ⟨rfl, answered⟩

/-- What is on record was stored by a lookup that had read it. -/
theorem storedAt_of_mem (run : Steps (system cfg).step C ⟨init, []⟩ s) {v : StoredKey V}
    (mem : v ∈ (part.registry s.shared).stored) : part.StoredAt C v.device v.verdict v.since s := by
  have records : ∀ u p m t q, act cfg u p m = some (t, q) → v ∈ (part.registry t).stored →
      v ∈ (part.registry u).stored ∨ m = .store ∧ ∃ batch found puts,
        p = part.lookup ⟨batch, .storing found ⟨v.device, v.raw, v.verdict⟩ v.since puts⟩ := by
    intro u p m t q acted mem
    obtain ⟨-, ⟨l, stage, rfl, -, moved⟩ | ⟨same, -⟩⟩ := part.moves _ _ _ _ _ acted
    · refine (stored_of_acts (acts_of_act moved) mem).imp_right fun ⟨at_, found, puts, is⟩ => ?_
      exact ⟨at_, l.batch, found, puts, by rw [← is]⟩
    · rw [same] at mem
      exact .inl mem
  have kept : ∀ u change t, (system cfg).world u change = some t →
      v ∈ (part.registry t).stored → v ∈ (part.registry u).stored := by
    intro u change t moved mem
    cases moved
    obtain ⟨redis, same⟩ := part.provisions u change
    rw [same] at mem
    exact mem
  have initially : ¬ v ∈ (part.registry init).stored := by
    rw [part.empty]
    exact List.not_mem_nil
  refine ⟨v.raw, ((part.holds run).1.genuine v mem).1, ?_⟩
  refine (recorded (C := C) initially records kept mem).mono ?_
  rintro u e reached - ⟨j, m, p, rfl, here, rfl, batch, found, puts, rfl⟩
  have own := (part.holds reached).2 _ (List.mem_of_getElem? here) _ rfl
  exact ⟨j, batch, found, puts, rfl, here, own.stamped _ _ _ _ rfl,
    part.readBy_of_carries here (.inr ⟨_, List.mem_cons_self, rfl, rfl⟩)⟩

/-- Every entry of the cache was stored by a lookup that had read it, and expires its lifetime
after that. -/
theorem storedAt_of_cached (run : Steps (system cfg).step C ⟨init, []⟩ s) {device : String}
    {e : Entry (Option V)}
    (cached : AList.lookup device (part.registry s.shared).cache.map = some e) :
    ∃ since, part.StoredAt C device e.value since s ∧
      e.expires = since + part.kind.ttl e.value := by
  obtain ⟨since, ⟨v, mem, rfl, same, rfl⟩, expires⟩ := (part.holds run).1.backed device e cached
  exact ⟨v.since, same ▸ part.storedAt_of_mem run mem, expires⟩

/-- A lookup that found a verdict in the cache. -/
def Hits (device : String) (verdict : Option V) (time : Instant) (p : Lookup K) : Prop :=
  ∃ l, p = part.lookup l ∧ ∃ f ∈ l.stage.found, f.device = device ∧ f.source = .cached verdict time

/-- What a lookup found in the cache was young. -/
theorem fresh_of_hit {i : Nat} {l : KeyLookup V} {f : Found V} {verdict : Option V}
    {time : Instant} (here : s.procs[i]? = some (part.lookup l)) (mem : f ∈ l.stage.found)
    (is : f.source = .cached verdict time) :
    part.Fresh C i l.batch f.device s (.cached verdict time) := by
  have begins : ∀ p, (system cfg).admits p = true → ¬ part.Hits f.device verdict time p := by
    rintro p admitted ⟨k, rfl, g, mem, -⟩
    obtain ⟨devices, first⟩ := eq_checking_of_begins (part.begins k ▸ admitted)
    rw [first] at mem
    exact List.not_mem_nil mem
  have hands : ∀ u p m t q, act cfg u p m = some (t, q) → part.Hits f.device verdict time q →
      part.Hits f.device verdict time p ∨ m = .check ∧ u.clock = time ∧
        (get u.clock f.device (part.registry u).cache.map).1 = some verdict := by
    rintro u p m t q acted ⟨k, rfl, g, mem, device, is⟩
    obtain ⟨-, ⟨k', stage, rfl, same, moved⟩ | ⟨-, others⟩⟩ := part.moves _ _ _ _ _ acted
    · cases part.injective same
      rcases found_of_acts (acts_of_act moved) mem with
        old | missed | ⟨at_, _, cached, got⟩ | ⟨-, _, _, read, -⟩
      · exact .inl ⟨k', rfl, g, old, device, is⟩
      · cases missed.symm.trans is
      · cases cached.symm.trans is
        exact .inr ⟨at_, rfl, device ▸ got⟩
      · cases read.symm.trans is
    · exact absurd rfl (others k)
  have found : Passes (system cfg).step C (fun u e => ∃ m p, e = .move i m ∧
      u.procs[i]? = some p ∧ m = .check ∧ u.shared.clock = time ∧
        (get u.shared.clock f.device (part.registry u.shared).cache.map).1 = some verdict)
      ⟨init, []⟩ s :=
    origin begins hands here ⟨l, rfl, f, mem, rfl, is⟩
  refine found.mono ?_
  rintro u e reached - ⟨m, _, rfl, -, rfl, rfl, got⟩
  obtain ⟨since, ⟨v, mem, device, same, rfl⟩, young⟩ := (part.holds reached).1.backed.of_get got
  have stored := part.storedAt_of_mem reached mem
  rw [device, same] at stored
  exact ⟨rfl, rfl, v.since, stored, ((part.holds reached).1.genuine v mem).2, young⟩

/-- Every verdict that a lookup has returned is fresh. -/
theorem fresh_of_done (run : Steps (system cfg).step C ⟨init, []⟩ s) {i : Nat} {batch : Bool}
    {found : List (Found V)} (here : s.procs[i]? = some (part.lookup ⟨batch, .done found⟩)) :
    ∀ f ∈ found, part.Fresh C i batch f.device s f.source := by
  intro f mem
  have own := (part.holds run).2 _ (List.mem_of_getElem? here) _ rfl
  cases is : f.source with
  | missed => exact own.asked f mem is
  | cached verdict time => exact part.fresh_of_hit here mem is
  | read raw verdict =>
    exact ⟨part.readBy_of_carries here (.inl ⟨f, mem, rfl, verdict, is⟩),
      own.read f mem raw verdict is⟩

end Part

/-! ## Versions -/

/-- What a move of the lookup of a version can be. -/
inductive VersionActs (vault : Option VaultTransit) (clock : Instant) (r : VersionedRegistry)
    (device : String) (kid : Int) :
    VersionedStage → KeyMove → VersionedRegistry → VersionedStage → Prop
  | hit {key : AesKey} (known : AList.lookup (device, kid) r.cache = some key) :
      VersionActs vault clock r device kid .checking .check r (.done (.cached (some key) clock))
  | miss : VersionActs vault clock r device kid .checking .check r .reading
  | absent (answered : redisGet r.redis (device, kid) = .ok none) :
      VersionActs vault clock r device kid .reading (.redis (.ok ())) r (.done (.read none none))
  | present {wrapped : String} (answered : redisGet r.redis (device, kid) = .ok (some wrapped)) :
      VersionActs vault clock r device kid .reading (.redis (.ok ())) r (.unwrapping wrapped)
  | unwrapped {client : VaultTransit} {wrapped : String} {reply : VaultReply} {key : AesKey}
      (configured : vault = some client) (opens : client.Opens wrapped key) :
      VersionActs vault clock r device kid (.unwrapping wrapped) (.vault reply) r
        (.storing wrapped key)
  | stored {wrapped : String} {key : AesKey} :
      VersionActs vault clock r device kid (.storing wrapped key) .store
        { r with
          cache := AList.insert (device, kid) key r.cache
          stored := r.stored ++ [⟨device, kid, wrapped, key, clock⟩] }
        (.done (.read (some wrapped) (some key)))
  | failed {stage : VersionedStage} {m : KeyMove} {reason : String} :
      VersionActs vault clock r device kid stage m r (.failed reason)

section

variable {vault : Option VaultTransit} {clock : Instant} {r t : VersionedRegistry}
  {l : VersionedLookup} {m : KeyMove} {device : String} {kid : Int} {stage next : VersionedStage}

/-- Every move of a versioned lookup is one of these. -/
theorem versionActs_of_act (acted : VersionedLookup.act vault clock r l m = some (t, next)) :
    VersionActs vault clock r l.device l.kid l.stage m t next := by
  obtain ⟨device, kid, stage⟩ := l
  unfold VersionedLookup.act at acted
  split at acted
  case h_1 here =>
    cases here
    cases acted
    unfold VersionedLookup.check
    split
    · next known => exact .hit known
    · exact .miss
  case h_2 reply here =>
    cases here
    cases acted
    cases reply with
    | error e => exact .failed
    | ok answer =>
      unfold VersionedLookup.read
      dsimp only
      split
      · exact .failed
      · next answered => exact .absent answered
      · next answered => exact .present answered
      · exact .failed
  case h_3 wrapped reply client here =>
    cases here
    cases acted
    unfold VersionedLookup.unwrap
    split
    · next key unwrapped =>
      refine .unwrapped rfl ?_
      cases reply with
      | failed _ => cases unwrapped
      | answered => exact unwrapped
    · exact .failed
  case h_4 wrapped key here =>
    cases here
    cases acted
    exact .stored
  case h_5 => cases acted

variable (vault) in
/-- What the KEK makes of a wrapped version, or of none. -/
def OpenedAs (raw : Option String) (verdict : Option AesKey) : Prop :=
  raw = none ∧ verdict = none ∨
    ∃ wrapped client key, raw = some wrapped ∧ verdict = some key ∧ vault = some client ∧
      client.Opens wrapped key

variable (vault) in
/-- What is true of the lookup of a version. -/
def VersionInv : VersionedStage → Prop
  | .storing wrapped key => OpenedAs vault (some wrapped) (some key)
  | .done .missed => False
  | .done (.read raw verdict) => OpenedAs vault raw verdict
  | _ => True

variable (vault) in
/-- What is true of the versions: those that are cached are on record, and were opened. -/
structure VersionedInv (r : VersionedRegistry) : Prop where
  recorded : ∀ device kid key, AList.lookup (device, kid) r.cache = some key →
    ∃ v ∈ r.stored, v.device = device ∧ v.kid = kid ∧ v.key = key
  opened : ∀ v ∈ r.stored, OpenedAs vault (some v.wrapped) (some v.key)

/-- A versioned lookup that is done has a key that was unwrapped, or has learnt that there is none.
-/
theorem versionInv_of_acts (inv : VersionInv vault stage)
    (acts : VersionActs vault clock r device kid stage m t next) : VersionInv vault next := by
  cases acts with
  | absent answered => exact .inl ⟨rfl, rfl⟩
  | unwrapped configured opens => exact .inr ⟨_, _, _, rfl, rfl, configured, opens⟩
  | stored => exact inv
  | _ => trivial

/-- The cache of versions holds nothing but keys that Vault unwrapped. -/
theorem versionedInv_of_acts (inv : VersionedInv vault r) (own : VersionInv vault stage)
    (acts : VersionActs vault clock r device kid stage m t next) : VersionedInv vault t := by
  cases acts with
  | stored =>
    refine ⟨fun device' kid' key' known => ?_, List.forall_mem_append.mpr ⟨inv.opened, ?_⟩⟩
    · rw [Hash.lookup_set] at known
      split at known
      · next same =>
        cases same
        cases known
        exact ⟨_, List.mem_append_right _ (List.mem_singleton_self _), rfl, rfl, rfl⟩
      · obtain ⟨v, mem, rest⟩ := inv.recorded device' kid' key' known
        exact ⟨v, List.mem_append_left _ mem, rest⟩
    · exact List.forall_mem_singleton.mpr own
  | _ => exact inv

/-- The wrapped version that a lookup has read, or that there is none. -/
def VersionCarries (raw : Option String) : VersionedStage → Prop
  | .unwrapping wrapped => raw = some wrapped
  | .storing wrapped _ => raw = some wrapped
  | .done (.read answer _) => raw = answer
  | _ => False

/-- As for the other keys: it had it, or Redis answered it in this move. -/
theorem versionCarries_of_acts {raw : Option String}
    (acts : VersionActs vault clock r device kid stage m t next)
    (carries : VersionCarries raw next) :
    VersionCarries raw stage ∨ m = .redis (.ok ()) ∧ redisGet r.redis (device, kid) = .ok raw := by
  cases acts with
  | absent answered =>
    cases carries
    exact .inr ⟨rfl, answered⟩
  | present answered =>
    cases carries
    exact .inr ⟨rfl, answered⟩
  | unwrapped configured opens => exact .inl carries
  | stored => exact .inl carries
  | _ => exact carries.elim

theorem known_of_hit {verdict : Option AesKey} {time : Instant}
    (acts : VersionActs vault clock r device kid stage m t (.done (.cached verdict time))) :
    m = .check ∧ ∃ key, AList.lookup (device, kid) r.cache = some key := by
  cases acts with
  | hit known => exact ⟨rfl, _, known⟩

theorem versionActs_grows (acts : VersionActs vault clock r device kid stage m t next)
    {v : StoredVersion} (mem : v ∈ r.stored) : v ∈ t.stored := by
  cases acts with
  | stored => exact List.mem_append_left _ mem
  | _ => exact mem

/-- What a move puts on record is what its lookup was about to store. -/
theorem versionStored_of_acts (acts : VersionActs vault clock r device kid stage m t next)
    {v : StoredVersion} (mem : v ∈ t.stored) :
    v ∈ r.stored ∨ m = .store ∧ device = v.device ∧ kid = v.kid ∧
      stage = .storing v.wrapped v.key ∧ clock = v.since := by
  cases acts with
  | stored =>
    rcases List.mem_append.mp mem with old | new
    · exact .inl old
    · cases List.mem_singleton.mp new
      exact .inr ⟨rfl, rfl, rfl, rfl, rfl⟩
  | _ => exact .inl mem

end

section

variable {cfg} {C} {s t : Pool.State (KeyState K) (Lookup K)} {device : String} {kid : Int}

variable (cfg C) in
/-- On every run to this state, some lookup had read from Redis what the KEK opened as this key of
the device and version, and then stored it in the cache at the time `since`. -/
def VersionStoredAt (device : String) (kid : Int) (key : AesKey) (since : Instant)
    (s : Pool.State (KeyState K) (Lookup K)) : Prop :=
  ∃ wrapped, OpenedAs cfg.vault (some wrapped) (some key) ∧
    Passes (system cfg).step C (fun u e => ∃ j, e = .move j .store ∧
      u.procs[j]? = some (.versioned ⟨device, kid, .storing wrapped key⟩) ∧
      u.shared.clock = since ∧
      ReadBy cfg C j (fun x => redisGet x.versioned.redis (device, kid) = .ok (some wrapped)) u)
      ⟨init, []⟩ s

variable (cfg C) in
/-- Where a version that lookup `i` has returned may come from, if `bound` were the lifetime of
their cache. -/
def VersionFresh (bound i : Nat) (device : String) (kid : Int)
    (s : Pool.State (KeyState K) (Lookup K)) : Source AesKey → Prop
  | .missed => False
  | .cached verdict time => ∃ key, verdict = some key ∧
    Passes (system cfg).step C (fun u e => e = .move i .check ∧ u.shared.clock = time ∧
      ∃ since, VersionStoredAt cfg C device kid key since u ∧ time < since + bound) ⟨init, []⟩ s
  | .read raw verdict =>
    ReadBy cfg C i (fun x => redisGet x.versioned.redis (device, kid) = .ok raw) s ∧
      OpenedAs cfg.vault raw verdict

/-- A move is one of the lookup of a version, or the versions are as they were. -/
theorem versioned_cases {s t : KeyState K} {p q : Lookup K} {m : KeyMove}
    (acted : act cfg s p m = some (t, q)) :
    (∃ l stage, p = .versioned l ∧ q = .versioned { l with stage := stage } ∧
      VersionActs cfg.vault s.clock s.versioned l.device l.kid l.stage m t.versioned stage) ∨
    t.versioned = s.versioned ∧ ∀ l, q ≠ .versioned l := by
  cases moved_of_act acted with
  | versioned moved => exact .inl ⟨_, _, rfl, rfl, versionActs_of_act moved⟩
  | _ => exact .inr ⟨rfl, fun l is => by cases is⟩

theorem eq_checking_of_admits {l : VersionedLookup}
    (admitted : (system cfg).admits (.versioned l) = true) : l.stage = .checking := by
  obtain ⟨device, kid, stage⟩ := l
  cases stage with
  | checking => rfl
  | _ => cases admitted

/-- Others change what Redis holds of versions, and not what is cached. -/
theorem versioned_world (s : KeyState K) (change : KeyChange) :
    ∃ redis, (world s change).versioned = { s.versioned with redis := redis } := by
  cases change <;> exact ⟨_, rfl⟩

/-- What is true of the versions and of their lookups, on every run. -/
theorem versions_hold (run : Steps (system cfg).step C ⟨init, []⟩ s) :
    Holds (fun u => VersionedInv cfg.vault u.versioned)
      (fun _ p => ∀ l, p = .versioned l → VersionInv cfg.vault l.stage) s := by
  have start : VersionedInv cfg.vault (init : KeyState K).versioned :=
    ⟨fun _ _ _ known => (by cases known), List.forall_mem_nil _⟩
  refine Pool.System.invariant ?_ ?_ ?_ ?_ run (holds_nil start)
  · rintro u p admitted - l rfl
    rw [eq_checking_of_admits admitted]
    trivial
  · intro u i m p t q here _ holds acted
    rcases versioned_cases acted with ⟨l, stage, rfl, rfl, acts⟩ | ⟨same, others⟩
    · have own := holds.2 _ (List.mem_of_getElem? here) l rfl
      refine ⟨versionedInv_of_acts holds.1 own acts, fun l' is => ?_⟩
      cases is
      exact versionInv_of_acts own acts
    · rw [same]
      exact ⟨holds.1, fun l is => absurd is (others l)⟩
  · intro u p m t q r _ _ other _
    exact other
  · intro u change t inv moved
    cases moved
    obtain ⟨redis, same⟩ := versioned_world u change
    rw [same]
    exact ⟨⟨inv.recorded, inv.opened⟩, fun r own => own⟩

/-- The lookup of this version that carries this answer. -/
def CarriesVersion (device : String) (kid : Int) (raw : Option String) (p : Lookup K) : Prop :=
  ∃ stage, p = .versioned ⟨device, kid, stage⟩ ∧ VersionCarries raw stage

/-- What the lookup of a version carries it has read. -/
theorem version_readBy {i : Nat} {stage : VersionedStage} {raw : Option String}
    (here : s.procs[i]? = some (.versioned ⟨device, kid, stage⟩))
    (carried : VersionCarries raw stage) :
    ReadBy cfg C i (fun x => redisGet x.versioned.redis (device, kid) = .ok raw) s := by
  have begins : ∀ p, (system cfg).admits p = true → ¬ CarriesVersion device kid raw p := by
    rintro p admitted ⟨stage, rfl, carries⟩
    cases eq_checking_of_admits admitted
    exact carries
  have hands : ∀ u p m t q, act cfg u p m = some (t, q) → CarriesVersion device kid raw q →
      CarriesVersion device kid raw p ∨
        m = .redis (.ok ()) ∧ redisGet u.versioned.redis (device, kid) = .ok raw := by
    rintro u p m t q acted ⟨stage, rfl, carries⟩
    rcases versioned_cases acted with ⟨⟨_, _, before⟩, _, rfl, is, acts⟩ | ⟨-, others⟩
    · cases is
      exact (versionCarries_of_acts acts carries).imp_left fun old => ⟨before, rfl, old⟩
    · exact absurd rfl (others _)
  have read : Passes (system cfg).step C (fun u e => ∃ m p, e = .move i m ∧
      u.procs[i]? = some p ∧ m = .redis (.ok ()) ∧
        redisGet u.shared.versioned.redis (device, kid) = .ok raw) ⟨init, []⟩ s :=
    origin begins hands here ⟨stage, rfl, carried⟩
  refine read.mono ?_
  rintro u e - - ⟨m, _, rfl, -, rfl, answered⟩
  exact ⟨rfl, answered⟩

/-- Every version in the cache was stored by a lookup that had read it, and the KEK opened it. -/
theorem versionStoredAt_of_cached (run : Steps (system cfg).step C ⟨init, []⟩ s) {key : AesKey}
    (cached : AList.lookup (device, kid) s.shared.versioned.cache = some key) :
    ∃ since, VersionStoredAt cfg C device kid key since s := by
  obtain ⟨v, mem, rfl, rfl, rfl⟩ := (versions_hold run).1.recorded _ _ _ cached
  have records : ∀ u p m t q, act cfg u p m = some (t, q) → v ∈ t.versioned.stored →
      v ∈ u.versioned.stored ∨ m = .store ∧ u.clock = v.since ∧
        p = .versioned ⟨v.device, v.kid, .storing v.wrapped v.key⟩ := by
    intro u p m t q acted mem
    rcases versioned_cases acted with ⟨l, stage, rfl, -, acts⟩ | ⟨same, -⟩
    · refine (versionStored_of_acts acts mem).imp_right ?_
      rintro ⟨at_, device, kid, is, since⟩
      exact ⟨at_, since, by rw [← device, ← kid, ← is]⟩
    · rw [same] at mem
      exact .inl mem
  have kept : ∀ u change t, (system cfg).world u change = some t →
      v ∈ t.versioned.stored → v ∈ u.versioned.stored := by
    intro u change t moved mem
    cases moved
    obtain ⟨redis, same⟩ := versioned_world u change
    rw [same] at mem
    exact mem
  have initially : ¬ v ∈ (init : KeyState K).versioned.stored := List.not_mem_nil
  refine ⟨v.since, v.wrapped, (versions_hold run).1.opened v mem, ?_⟩
  refine (recorded (C := C) initially records kept mem).mono ?_
  rintro u e - - ⟨j, m, p, rfl, here, rfl, since, rfl⟩
  exact ⟨j, rfl, here, since, version_readBy here rfl⟩

/-- What is on record stays there. -/
theorem version_stays_recorded {v : StoredVersion} (chain : Steps (system cfg).step C s t)
    (mem : v ∈ s.shared.versioned.stored) : v ∈ t.shared.versioned.stored := by
  refine Pool.System.shared_invariant (G := fun u => v ∈ u.versioned.stored) ?_ ?_ chain mem
  · intro u i m p t q _ _ mem acted
    rcases versioned_cases acted with ⟨l, stage, rfl, -, acts⟩ | ⟨same, -⟩
    · exact versionActs_grows acts mem
    · rwa [same]
  · intro u change t mem moved
    cases moved
    obtain ⟨redis, same⟩ := versioned_world u change
    rwa [same]

/-- What a lookup stores is on record. -/
theorem recorded_of_store {j : Nat} {wrapped : String} {key : AesKey}
    (here : s.procs[j]? = some (.versioned ⟨device, kid, .storing wrapped key⟩))
    (made : (system cfg).step s (.move j .store) = some t) :
    ⟨device, kid, wrapped, key, s.shared.clock⟩ ∈ t.shared.versioned.stored := by
  rw [step_move here rfl] at made
  cases made
  exact List.mem_append_right _ (List.mem_singleton_self _)

/-- No lookup of a version is answered by the cache. -/
def NoVersionHit (s : KeyState K) : Lookup K → KeyMove → Prop
  | .versioned l, .check => AList.lookup (l.device, l.kid) s.versioned.cache = none
  | _, _ => True

/-- The lookup of a version that was answered by the cache. -/
def HitsVersion (p : Lookup K) : Prop :=
  ∃ device kid verdict time, p = .versioned ⟨device, kid, .done (.cached verdict time)⟩

/-- A lookup of a version that does not find it in the cache has read what it returns. -/
theorem versionFresh_of_done (bound : Nat)
    (run : Steps (system cfg).step (Meets NoVersionHit) ⟨init, []⟩ s) {i : Nat}
    {source : Source AesKey} (here : s.procs[i]? = some (.versioned ⟨device, kid, .done source⟩)) :
    VersionFresh cfg (Meets NoVersionHit) bound i device kid s source := by
  have own := (versions_hold run).2 _ (List.mem_of_getElem? here) _ rfl
  cases source with
  | missed => exact own
  | read raw verdict => exact ⟨version_readBy here rfl, own⟩
  | cached verdict time =>
    have none_ : Holds (fun _ => True) (fun _ p => ¬ HitsVersion p) s := by
      refine Pool.System.invariant ?_ ?_ ?_ ?_ run (holds_nil trivial)
      · rintro u p admitted - ⟨_, _, _, _, rfl⟩
        cases admitted
      · rintro u j m p t q there meets holds acted
        refine ⟨trivial, ?_⟩
        rintro ⟨device, kid, verdict, time, rfl⟩
        rcases versioned_cases acted with ⟨l, _, rfl, is, acts⟩ | ⟨-, others⟩
        · cases is
          obtain ⟨rfl, key, known⟩ := known_of_hit acts
          have misses : AList.lookup (l.device, l.kid) u.shared.versioned.cache = none :=
            meets.holds there
          cases misses.symm.trans known
        · exact others _ rfl
      · exact fun u p m t q r _ _ other _ => other
      · exact fun u change t _ _ => ⟨trivial, fun r own => own⟩
    exact absurd ⟨_, _, _, _, rfl⟩ (none_.2 _ (List.mem_of_getElem? here))

end

/-! ## All lookups -/

/-- The lookups of signing keys among all lookups of the registry. -/
def pubkeyPart : Part cfg K where
  kind := cfg.pubkey
  registry := KeyState.pubkeys
  lookup := .pubkey
  injective _ _ same := Lookup.pubkey.inj same
  begins _ := rfl
  empty := rfl
  provisions s change := by cases change <;> exact ⟨_, rfl⟩
  moves s p m t q acted := by
    cases moved_of_act acted with
    | pubkey moved => exact ⟨rfl, .inl ⟨_, _, rfl, rfl, moved⟩⟩
    | _ => exact ⟨rfl, .inr ⟨rfl, fun l is => by cases is⟩⟩

/-- The lookups of encryption keys among all lookups of the registry. -/
def enckeyPart : Part cfg AesKey where
  kind := cfg.enckey
  registry := KeyState.enckeys
  lookup := .enckey
  injective _ _ same := Lookup.enckey.inj same
  begins _ := rfl
  empty := rfl
  provisions s change := by cases change <;> exact ⟨_, rfl⟩
  moves s p m t q acted := by
    cases moved_of_act acted with
    | enckey moved => exact ⟨rfl, .inl ⟨_, _, rfl, rfl, moved⟩⟩
    | _ => exact ⟨rfl, .inr ⟨rfl, fun l is => by cases is⟩⟩

/-- Every key that a lookup returned is fresh, and so is, but for its age, every entry of the three
caches. `bound` is the lifetime that the versions are held to. -/
structure AllFresh (bound : Nat) (s : Pool.State (KeyState K) (Lookup K)) : Prop where
  pubkeys : ∀ i batch found, s.procs[i]? = some (.pubkey ⟨batch, .done found⟩) →
    ∀ f ∈ found, (pubkeyPart cfg).Fresh C i batch f.device s f.source
  enckeys : ∀ i batch found, s.procs[i]? = some (.enckey ⟨batch, .done found⟩) →
    ∀ f ∈ found, (enckeyPart cfg).Fresh C i batch f.device s f.source
  versions : ∀ i device kid source, s.procs[i]? = some (.versioned ⟨device, kid, .done source⟩) →
    VersionFresh cfg C bound i device kid s source
  pubkeyCache : ∀ device e, AList.lookup device s.shared.pubkeys.cache.map = some e →
    ∃ since, (pubkeyPart cfg).StoredAt C device e.value since s ∧
      e.expires = since + cfg.pubkey.ttl e.value
  enckeyCache : ∀ device e, AList.lookup device s.shared.enckeys.cache.map = some e →
    ∃ since, (enckeyPart cfg).StoredAt C device e.value since s ∧
      e.expires = since + cfg.enckey.ttl e.value
  versionedCache : ∀ device kid key,
    AList.lookup (device, kid) s.shared.versioned.cache = some key →
      ∃ since, VersionStoredAt cfg C device kid key since s

/-- In every run in which no version is answered from its cache, every key is fresh. What a lookup
returns it read from Redis itself, or found in a cache where it had been stored less than its
lifetime before by a lookup that had read it; and the same is known of every entry of the three
caches. -/
theorem keys_fresh_without_version_hits (cfg : KeyConfig K) (bound : Nat)
    {s : Pool.State (KeyState K) (Lookup K)}
    (run : Steps (system cfg).step (Meets NoVersionHit) ⟨init, []⟩ s) :
    AllFresh cfg (Meets NoVersionHit) bound s where
  pubkeys _ _ _ here := (pubkeyPart cfg).fresh_of_done run here
  enckeys _ _ _ here := (enckeyPart cfg).fresh_of_done run here
  versions _ _ _ _ here := versionFresh_of_done bound run here
  pubkeyCache _ _ cached := (pubkeyPart cfg).storedAt_of_cached run cached
  enckeyCache _ _ cached := (enckeyPart cfg).storedAt_of_cached run cached
  versionedCache _ _ _ cached := versionStoredAt_of_cached run cached

/-! ## A version that was pruned -/

private def sevens : AesKey :=
  ⟨List.replicate 32 7, List.length_replicate⟩

/-- A KEK that knows one ciphertext. -/
private def oneKeyVault : VaultTransit where
  decrypt text :=
    if text = "vault:v1:sevens" then .ok sevens.1
    else .error "Vault decrypt returned 400 Bad Request: invalid ciphertext"

/-- Keys as they are, a minute and five, and ten seconds for an absence. -/
private def plainConfig : KeyConfig (List UInt8) :=
  let codecs : KeyCodecs (List UInt8) := ⟨fun _ => .error "Odd number of digits", .ok⟩
  ⟨pubkeyKind codecs 60000000000 10000000000, enckeyKind codecs 300000000000 10000000000,
    some oneKeyVault⟩

instance (s : KeyState K) : (p : Lookup K) → (m : KeyMove) → Decidable (NoVersionHit s p m)
  | .versioned _, .check => inferInstanceAs (Decidable (_ = _))
  | .versioned _, .redis _ => inferInstanceAs (Decidable True)
  | .versioned _, .stamp => inferInstanceAs (Decidable True)
  | .versioned _, .store => inferInstanceAs (Decidable True)
  | .versioned _, .vault _ => inferInstanceAs (Decidable True)
  | .pubkey _, _ => inferInstanceAs (Decidable True)
  | .enckey _, _ => inferInstanceAs (Decidable True)

/-- A public key of 32 zero bytes. -/
private def zeros : String :=
  String.ofList (List.replicate 32 (Char.ofNat 0))

/-- A key is provisioned, looked up and removed. A batch of two finds it in the cache within the
minute, next to a meter that has none, and a version is unwrapped. -/
private def removedKey : List (Pool.Event (Lookup (List UInt8)) KeyMove KeyChange) :=
  [.outside (.pubkey "meter" (some (.text zeros))),
    .start (.pubkey ⟨false, .checking [] ["meter"]⟩), .move 0 .check, .move 0 (.redis (.ok ())),
    .move 0 .stamp, .move 0 .store, .outside (.pubkey "meter" none), .outside (.tick 59000000000),
    .start (.pubkey ⟨true, .checking [] ["meter", "other"]⟩), .move 1 .check, .move 1 .check,
    .move 1 (.redis (.ok ())), .move 1 .stamp, .move 1 .store,
    .outside (.version "meter" 1 (some (.text "vault:v1:sevens"))),
    .start (.versioned ⟨"meter", 1, .checking⟩), .move 2 .check, .move 2 (.redis (.ok ())),
    .move 2 (.vault .answered), .move 2 .store]

private theorem removedKey_run :
    (Transition.run (system plainConfig).step (Meets NoVersionHit) removedKey
      ⟨init, []⟩).isSome := by
  decide +kernel

/-- Three lookups, one of them answered by the cache, and all keys fresh. -/
theorem removed_key_fresh :
    ∃ s, Steps (system plainConfig).step (Meets NoVersionHit) ⟨init, []⟩ s ∧
      s.shared.pubkeys.stored.length = 2 ∧ s.procs.length = 3 ∧
      AllFresh plainConfig (Meets NoVersionHit) 0 s :=
  ⟨_, Steps.of_run_get removedKey_run, by decide +kernel, by decide +kernel,
    keys_fresh_without_version_hits plainConfig 0 (Steps.of_run_get removedKey_run)⟩

/-- A version is provisioned, looked up, and pruned from Redis. -/
private def pruned : List (Pool.Event (Lookup (List UInt8)) KeyMove KeyChange) :=
  [.outside (.version "meter" 1 (some (.text "vault:v1:sevens"))),
    .start (.versioned ⟨"meter", 1, .checking⟩), .move 0 .check, .move 0 (.redis (.ok ())),
    .move 0 (.vault .answered), .move 0 .store, .outside (.version "meter" 1 none)]

private theorem pruned_run :
    (Transition.run (system plainConfig).step Always pruned ⟨init, []⟩).isSome := by
  decide +kernel

private def afterPruning : Pool.State (KeyState (List UInt8)) (Lookup (List UInt8)) :=
  (Transition.run (system plainConfig).step Always pruned ⟨init, []⟩).get pruned_run

private theorem afterPruning_gone :
    AList.lookup ("meter", 1) afterPruning.shared.versioned.redis = none := by
  decide +kernel

private theorem afterPruning_cached :
    AList.lookup ("meter", 1) afterPruning.shared.versioned.cache = some sevens := by
  decide +kernel

private theorem afterPruning_stored :
    afterPruning.shared.versioned.stored = [⟨"meter", 1, "vault:v1:sevens", sevens, 0⟩] := by
  decide +kernel

private theorem afterPruning_clock : afterPruning.shared.clock = 0 := by
  decide +kernel

private theorem afterPruning_procs : afterPruning.procs.length = 1 := by
  decide +kernel

/-- However long one waits, the version is accepted. -/
private theorem pruned_version_accepted (wait : Nat) :
    ∃ s, Steps (system plainConfig).step Always ⟨init, []⟩ s ∧
      s.procs[1]? = some (.versioned ⟨"meter", 1, .done (.cached (some sevens) wait)⟩) ∧
      s.shared.versioned.stored = [⟨"meter", 1, "vault:v1:sevens", sevens, 0⟩] ∧
      AList.lookup ("meter", 1) s.shared.versioned.redis = none := by
  let waited : KeyState (List UInt8) := { afterPruning.shared with clock := wait }
  let asked : Lookup (List UInt8) := .versioned ⟨"meter", 1, .checking⟩
  let answered : Lookup (List UInt8) := .versioned ⟨"meter", 1, .done (.cached (some sevens) wait)⟩
  have first : Steps (system plainConfig).step Always ⟨init, []⟩ afterPruning :=
    Steps.of_run_get pruned_run
  have second : Steps (system plainConfig).step Always ⟨init, []⟩ ⟨waited, afterPruning.procs⟩ := by
    refine first.tail (e := .outside (.tick wait)) trivial ?_
    simp only [Pool.System.step, system, world, Option.map_some, afterPruning_clock, Nat.zero_add]
    rfl
  have third : Steps (system plainConfig).step Always ⟨init, []⟩
      ⟨waited, afterPruning.procs ++ [asked]⟩ :=
    second.tail (e := .start asked) trivial rfl
  have here : (afterPruning.procs ++ [asked])[1]? = some asked := by
    rw [List.getElem?_append_right (le_of_eq afterPruning_procs), afterPruning_procs]
    rfl
  have acted : act plainConfig waited asked .check = some (waited, answered) := by
    simp only [act, asked, VersionedLookup.act, VersionedLookup.check, waited, Option.map_some,
      afterPruning_cached]
    rfl
  have fourth := third.tail (e := .move 1 .check) trivial (step_move here acted)
  refine ⟨_, fourth, List.getElem?_set_self ?_, afterPruning_stored, afterPruning_gone⟩
  simp [afterPruning_procs]

/-- There is no lifetime within which a pruned version stops being accepted. -/
theorem pruned_version_never_expires :
    ¬ ∃ bound, ∀ s, Steps (system plainConfig).step Always ⟨init, []⟩ s →
      AllFresh plainConfig Always bound s := by
  rintro ⟨bound, law⟩
  obtain ⟨s, run, answered, stored, _⟩ := pruned_version_accepted bound
  obtain ⟨key, -, looked⟩ := (law s run).versions 1 "meter" 1 _ answered
  obtain ⟨u, _, v, reached, _, ⟨rfl, -, since, ⟨wrapped, -, put⟩, young⟩, moved, rest⟩ :=
    looked.exists_step run
  -- the store that the look found is on record in the end, and there is but one, at time zero
  obtain ⟨x, _, y, _, _, ⟨j, rfl, here, rfl, -⟩, made, after⟩ := put.exists_step reached
  have recorded := version_stays_recorded ((after.tail trivial moved).trans rest)
    (recorded_of_store here made)
  rw [stored] at recorded
  have since := congrArg StoredVersion.since (List.mem_singleton.mp recorded)
  rw [show x.shared.clock = 0 from since, Nat.zero_add] at young
  exact absurd young (lt_irrefl _)

end KeyCache

end AggregatorBridge
