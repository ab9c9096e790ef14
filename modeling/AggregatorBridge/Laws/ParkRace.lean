import AggregatorBridge.MintOutbox
import AggregatorBridge.Lib.Run

/-!
# Parking against confirming

`park` and `remove` are two commands each, on the same two hashes. `remove` deletes from both,
so a field that is parked while its confirming `remove` is still running is cleared by it. A
drain tick parks from the list its load returned, though, and can begin to park a field whose
`remove` is over: the field is then set in the parked hash after the last command that would
have deleted it.

The law is about every interleaving, single command by single command, without Redis errors:
if no `HSET` of a `park` is executed for a field that was confirmed and whose removal is over
(`parksInTime`), then a confirmed field is in neither hash once the calls have finished. The
invariant says what protects a confirmed field in the meantime: a `remove` that has yet to
touch the outbox, or one that has yet to touch the parked hash, or nothing is left of it.

It says nothing of a field that is enqueued again: the runs here have no `enqueue`.
-/

namespace AggregatorBridge.ParkRace

open Remote Transition Outbox

variable {τ : Type}

/-- The parties of the race: attempts the sweep spawns, and the drain loop. -/
inductive Event (τ : Type) where
  | spawn (p : Owed τ)
  | drain (e : Outbox.Event)

def step (cfg : DrainConfig) (s : Outbox τ) : Event τ → Option (Outbox τ)
  | .spawn p => some (s.spawn p)
  | .drain e => s.step cfg e

/-- Redis executed the command and said so. -/
def noRedisError : Event τ → Bool
  | .drain (.command _ reply) => decide (reply = .ok)
  | _ => true

/-- A `remove` of the field is in progress. -/
def Removing (s : Outbox τ) (field : String) : Prop :=
  .removeOutbox field ∈ s.calls ∨ .removeParked field ∈ s.calls

instance [DecidableEq τ] (s : Outbox τ) (field : String) : Decidable (Removing s field) :=
  inferInstanceAs (Decidable (_ ∨ _))

/-- The `HSET` of a `park` is for a field that is not confirmed, or whose `remove` is still in
progress. -/
def parksInTime [DecidableEq τ] (s : Outbox τ) : Event τ → Bool
  | .drain (.command k _) =>
    match s.calls[k]? with
    | some (.parkSet p) => decide (p.field ∈ s.replied → Removing s p.field)
    | _ => true
  | _ => true

/-- The state a run begins in: no call in progress, nothing confirmed. -/
def Fresh (s : Outbox τ) : Prop :=
  s.calls = [] ∧ s.replied = []

/-- Neither hash holds an entry under this field. -/
def Gone (s : Outbox τ) (field : String) : Prop :=
  s.outbox.lookup field = none ∧ s.parked.lookup field = none

/-! ## The invariant -/

/-- What protects a confirmed field. -/
def Covered (s : Outbox τ) (field : String) : Prop :=
  .removeOutbox field ∈ s.calls ∨
    s.outbox.lookup field = none ∧
      (.removeParked field ∈ s.calls ∨ s.parked.lookup field = none)

/-- Covering survives a move that leaves the hashes alone and only adds calls. -/
theorem Covered.mono {s t : Outbox τ} {field : String} (covered : Covered s field)
    (outbox : t.outbox = s.outbox) (parked : t.parked = s.parked) (calls : s.calls ⊆ t.calls) :
    Covered t field := by
  rcases covered with removing | ⟨absent, removing | absent'⟩
  · exact .inl (calls removing)
  · exact .inr ⟨outbox ▸ absent, .inl (calls removing)⟩
  · exact .inr ⟨outbox ▸ absent, .inr (parked ▸ absent')⟩

/-- A field deleted from a hash is not in it, and no other field came into it. -/
private theorem lookup_erase_none {V : Type} {h : Hash String V} {field g : String}
    (absent : h.lookup field = none) : (h.erase g).lookup field = none := by
  rw [Hash.lookup_del]
  split
  · rfl
  · exact absent

/-- One command keeps a confirmed field covered, unless it parks the field too late. -/
theorem covered_execute {s : Outbox τ} {k : Nat} {call : OutboxCall τ} {field : String}
    (called : s.calls[k]? = some call)
    (inTime : ∀ p, call = .parkSet p → p.field = field → Removing s field)
    (covered : Covered s field) :
    Covered (execute { s with calls := s.calls.eraseIdx k } call .ok) field := by
  have kept {c : OutboxCall τ} (mem : c ∈ s.calls) (other : c ≠ call) :
      c ∈ s.calls.eraseIdx k := mem_calls_of_ne called mem other
  cases call with
  | parkSet p =>
    by_cases same : p.field = field
    · -- The field is parked under the eyes of its own `remove`.
      rcases covered with removing | ⟨absent, _⟩
      · exact .inl (List.mem_append_left _ (kept removing nofun))
      · rcases inTime p rfl same with removing | removing
        · exact .inl (List.mem_append_left _ (kept removing nofun))
        · exact .inr ⟨absent, .inl (List.mem_append_left _ (kept removing nofun))⟩
    · rcases covered with removing | ⟨absent, removing | absent'⟩
      · exact .inl (List.mem_append_left _ (kept removing nofun))
      · exact .inr ⟨absent, .inl (List.mem_append_left _ (kept removing nofun))⟩
      · refine .inr ⟨absent, .inr ?_⟩
        change AList.lookup field (AList.insert p.field p s.parked) = none
        rw [Hash.lookup_set, if_neg (Ne.symm same)]
        exact absent'
  | parkDel g =>
    rcases covered with removing | ⟨absent, removing | absent'⟩
    · exact .inl (kept removing nofun)
    · exact .inr ⟨lookup_erase_none absent, .inl (kept removing nofun)⟩
    · exact .inr ⟨lookup_erase_none absent, .inr absent'⟩
  | removeOutbox g =>
    by_cases same : g = field
    · subst same
      refine .inr ⟨AList.lookup_erase _ _, .inl ?_⟩
      exact List.mem_append_right _ (List.mem_singleton.mpr rfl)
    · have other : (.removeOutbox field : OutboxCall τ) ≠ .removeOutbox g := by
        rintro ⟨⟩
        exact same rfl
      rcases covered with removing | ⟨absent, removing | absent'⟩
      · exact .inl (List.mem_append_left _ (kept removing other))
      · exact .inr ⟨lookup_erase_none absent,
          .inl (List.mem_append_left _ (kept removing nofun))⟩
      · exact .inr ⟨lookup_erase_none absent, .inr absent'⟩
  | removeParked g =>
    rcases covered with removing | ⟨absent, removing | absent'⟩
    · exact .inl (kept removing nofun)
    · by_cases same : g = field
      · subst same
        exact .inr ⟨absent, .inr (AList.lookup_erase _ _)⟩
      · have other : (.removeParked field : OutboxCall τ) ≠ .removeParked g := by
          rintro ⟨⟩
          exact same rfl
        exact .inr ⟨absent, .inl (kept removing other)⟩
    · exact .inr ⟨absent, .inr (lookup_erase_none absent')⟩

private theorem replied_execute (s : Outbox τ) (call : OutboxCall τ) (reply : Reply) :
    (execute s call reply).replied = s.replied := by
  cases call <;> rfl

/-- A confirmed field stays protected by a removal that is still to come, or is gone already. -/
theorem covered_step [DecidableEq τ] {cfg : DrainConfig} {s t : Outbox τ} {e : Event τ}
    (covered : ∀ field ∈ s.replied, Covered s field)
    (meets : noRedisError e = true ∧ parksInTime s e = true) (moved : step cfg s e = some t) :
    ∀ field ∈ t.replied, Covered t field := by
  intro field confirmed
  cases e with
  | spawn p =>
    cases moved
    exact (covered field confirmed).mono rfl rfl fun _ mem => mem
  | drain e =>
    obtain ⟨noError, inTime⟩ := meets
    cases effect_of_step moved with
    | quiet outbox parked replied calls =>
      rw [replied] at confirmed
      exact (covered field confirmed).mono outbox parked (calls ▸ fun _ mem => mem)
    | parks p outbox parked replied calls =>
      rw [replied] at confirmed
      refine (covered field confirmed).mono outbox parked ?_
      rw [calls]
      exact List.subset_append_left _ _
    | confirms fields outbox parked replied calls =>
      rw [replied] at confirmed
      rcases List.mem_append.mp confirmed with before | new
      · refine (covered field before).mono outbox parked ?_
        rw [calls]
        exact List.subset_append_left _ _
      · left
        rw [calls]
        exact List.mem_append_right _ (List.mem_map_of_mem new)
    | executes k call reply event called after =>
      subst event after
      have ok : reply = .ok := by simpa [noRedisError] using noError
      subst ok
      rw [replied_execute] at confirmed
      refine covered_execute called ?_ (covered field confirmed)
      -- Only the `HSET` of a `park` can bring a field back.
      rintro p rfl rfl
      simp only [parksInTime, called, decide_eq_true_eq] at inTime
      exact inTime confirmed

/-! ## The law -/

/-- In every interleaving without Redis errors whose parks are in time, a confirmed field is in
neither hash once all calls have finished. While calls are still going on there may be a copy in
either. -/
theorem confirmed_leaves_no_copy [DecidableEq τ] (cfg : DrainConfig) {s t : Outbox τ}
    (fresh : Fresh s)
    (chain : Steps (step cfg) (fun s e => noRedisError e = true ∧ parksInTime s e = true) s t)
    (finished : t.calls = []) :
    ∀ field ∈ t.replied, Gone t field := by
  intro field confirmed
  have covered : ∀ field ∈ t.replied, Covered t field := by
    refine chain.invariant (P := fun s => ∀ field ∈ s.replied, Covered s field) ?_ ?_
    · intro s e t before meets moved
      exact covered_step before meets moved
    · intro field mem
      rw [fresh.2] at mem
      cases mem
  rcases covered field confirmed with removing | ⟨absent, removing | absent'⟩
  · rw [finished] at removing
    cases removing
  · rw [finished] at removing
    cases removing
  · exact ⟨absent, absent'⟩

/-! ## A race lost -/

/-- Five kilowatt hours, enqueued at time zero. -/
private def fiveKwh : Owed Unit :=
  ⟨⟨"MTR-1", 0, 900000, 5, 0⟩, ()⟩

/-- The outbox holds the entry, and the attempt the sweep spawned for it has not begun. -/
private def enqueued : Outbox Unit :=
  { init with outbox := AList.insert fiveKwh.field fiveKwh ∅, spawned := [.single fiveKwh] }

private def halfMinute : DrainConfig :=
  ⟨30, 15⟩

private def minted : BridgeReply :=
  .single ⟨true, some "SIG", 7, none⟩

/-- The entry ages past the bound while its attempt waits for the bridge. A tick loads it; the
attempt is confirmed and removes it from both hashes; the tick comes to it and parks it. -/
private def lateParking : List (Event Unit) :=
  [.drain (.publish 0 fun _ => true), .drain (.load 30001), .drain (.reply 0 minted),
    .drain (.command 0 .ok), .drain (.command 0 .ok), .drain (.examine 0),
    .drain (.command 0 .ok), .drain (.command 0 .ok)]

/-- The same, but the tick comes to the entry before the attempt is confirmed. -/
private def earlyParking : List (Event Unit) :=
  [.drain (.publish 0 fun _ => true), .drain (.load 30001), .drain (.examine 0),
    .drain (.reply 0 minted), .drain (.command 0 .ok), .drain (.command 0 .ok),
    .drain (.command 0 .ok), .drain (.command 0 .ok)]

private theorem lateParking_runs :
    (run (step halfMinute) (fun _ e => noRedisError e = true) lateParking enqueued).isSome := by
  decide

/-- A confirmed entry can stay parked although every call has finished. -/
theorem confirmed_entry_stays_parked :
    ¬ ∀ s t : Outbox Unit, Fresh s →
      Steps (step halfMinute) (fun _ e => noRedisError e = true) s t → t.calls = [] →
      ∀ field ∈ t.replied, Gone t field := by
  intro law
  have chain := Steps.of_run_get lateParking_runs
  have gone := law _ _ ⟨rfl, rfl⟩ chain (by decide) fiveKwh.field (by decide)
  exact absurd gone.2 (by decide)

private theorem earlyParking_runs :
    (run (step halfMinute) (fun s e => noRedisError e = true ∧ parksInTime s e = true)
      earlyParking enqueued).isSome := by
  decide

/-- Where the park comes first, the attempt clears what it parked. -/
theorem early_parking_is_cleared :
    fiveKwh.field ∈ ((run (step halfMinute)
        (fun s e => noRedisError e = true ∧ parksInTime s e = true)
        earlyParking enqueued).get earlyParking_runs).replied ∧
      Gone ((run (step halfMinute)
        (fun s e => noRedisError e = true ∧ parksInTime s e = true)
        earlyParking enqueued).get earlyParking_runs) fiveKwh.field := by
  have confirmed : fiveKwh.field ∈ ((run (step halfMinute)
      (fun s e => noRedisError e = true ∧ parksInTime s e = true)
      earlyParking enqueued).get earlyParking_runs).replied := by
    decide
  refine ⟨confirmed, ?_⟩
  have chain := Steps.of_run_get earlyParking_runs
  exact confirmed_leaves_no_copy halfMinute ⟨rfl, rfl⟩ chain (by decide) _ confirmed

end AggregatorBridge.ParkRace
