import AggregatorBridge.Lib.Run

/-!
# Batching writers

A writer takes items from a bounded queue and collects them in a batch, which it flushes when it
is full, when a timer fires and it holds something, and once more when no sender is left and the
queue is empty. Senders never wait: an item that finds the queue full is refused.

What was accepted, refused and flushed is kept beside the queue; no step looks at it. `Kept` says
that nothing else happens to an item: what was accepted is what was flushed, what is in the batch
and what is in the queue, in this order.

A `Sink` is a writer and the target it flushes to, which can change in other ways, too. What holds
of the flushed items and the target before a delivery and after it holds in every run
(`Sink.invariant`).
-/

namespace Batching

/-- How much the queue holds, and how many records make a batch full. -/
structure Bounds where
  capacity : Nat
  size : Nat
  size_pos : 0 < size

/-- The queue, the batch in hand, and a record of what was accepted, refused and handed on. -/
structure Writer (R : Type) where
  queue : List R
  batch : List R
  /-- No sender is left. -/
  closed : Bool
  exited : Bool
  accepted : List R
  refused : List R
  flushed : List (List R)

/-- A sender offers a record, the writer takes one or is woken by its timer, or the last sender
goes. -/
inductive Event (R : Type) where
  | record (r : R)
  /-- The last sender is dropped. -/
  | close
  | receive
  | tick
  /-- The writer sees that the queue is closed, and exits. -/
  | finish

namespace Writer

variable {R : Type} (b : Bounds)

/-- Nothing was recorded. -/
def init : Writer R :=
  ⟨[], [], false, false, [], [], []⟩

/-- A sender offers an item. -/
def record (w : Writer R) (r : R) : Writer R :=
  if w.queue.length < b.capacity then
    { w with queue := w.queue ++ [r], accepted := w.accepted ++ [r] }
  else { w with refused := w.refused ++ [r] }

/-- The batch goes out and is empty afterwards. -/
def flush (w : Writer R) : Writer R × Option (List R) :=
  ({ w with batch := [], flushed := w.flushed ++ [w.batch] }, some w.batch)

/-- An item joins the batch. -/
def push (w : Writer R) (r : R) : Writer R × Option (List R) :=
  let w := { w with batch := w.batch ++ [r] }
  if b.size ≤ w.batch.length then w.flush else (w, none)

/-- One step, and the batch that goes out in it. -/
def step (w : Writer R) : Event R → Option (Writer R × Option (List R))
  | .record r => if w.closed then none else some (w.record b r, none)
  | .close => some ({ w with closed := true }, none)
  | .receive =>
    match w.exited, w.queue with
    | false, r :: rest => some (push b { w with queue := rest } r)
    | _, _ => none
  | .tick =>
    if w.exited then none
    else if w.batch.isEmpty then some (w, none)
    else some w.flush
  | .finish =>
    if w.closed ∧ ¬ w.exited ∧ w.queue.isEmpty then
      some ({ w with exited := true }.flush)
    else none

/-- What is true of a writer. -/
structure Kept (w : Writer R) : Prop where
  order : w.accepted = w.flushed.flatten ++ (w.batch ++ w.queue)
  batch_lt : w.batch.length < b.size
  queue_le : w.queue.length ≤ b.capacity
  flushed_le : ∀ batch ∈ w.flushed, batch.length ≤ b.size
  done : w.exited = true → w.closed = true ∧ w.batch = [] ∧ w.queue = []

/-- What a step can be. -/
inductive Moves (w : Writer R) : Event R → Writer R → Option (List R) → Prop
  | accepted {r : R} (open_ : w.closed = false) (room : w.queue.length < b.capacity) :
      Moves w (.record r)
        ⟨w.queue ++ [r], w.batch, w.closed, w.exited, w.accepted ++ [r], w.refused, w.flushed⟩ none
  | refused {r : R} (open_ : w.closed = false) (full : ¬ w.queue.length < b.capacity) :
      Moves w (.record r)
        ⟨w.queue, w.batch, w.closed, w.exited, w.accepted, w.refused ++ [r], w.flushed⟩ none
  | closed :
      Moves w .close ⟨w.queue, w.batch, true, w.exited, w.accepted, w.refused, w.flushed⟩ none
  | collected {r : R} {rest : List R} (running : w.exited = false) (queue : w.queue = r :: rest)
      (room : (w.batch ++ [r]).length < b.size) :
      Moves w .receive
        ⟨rest, w.batch ++ [r], w.closed, w.exited, w.accepted, w.refused, w.flushed⟩ none
  | filled {r : R} {rest : List R} (running : w.exited = false) (queue : w.queue = r :: rest)
      (full : b.size ≤ (w.batch ++ [r]).length) :
      Moves w .receive
        ⟨rest, [], w.closed, w.exited, w.accepted, w.refused, w.flushed ++ [w.batch ++ [r]]⟩
        (some (w.batch ++ [r]))
  | idle (empty : w.batch = []) : Moves w .tick w none
  | ticked (running : w.exited = false) :
      Moves w .tick
        ⟨w.queue, [], w.closed, w.exited, w.accepted, w.refused, w.flushed ++ [w.batch]⟩
        (some w.batch)
  | finished (closed : w.closed = true) (empty : w.queue = []) :
      Moves w .finish
        ⟨w.queue, [], w.closed, true, w.accepted, w.refused, w.flushed ++ [w.batch]⟩
        (some w.batch)

variable {b} {w w' : Writer R} {e : Event R} {out : Option (List R)}

/-- Every step of a writer is one of these. -/
theorem moves_of_step (moved : w.step b e = some (w', out)) : Moves b w e w' out := by
  cases e with
  | record r =>
    simp only [step] at moved
    split at moved
    · cases moved
    · next open_ =>
      rw [Bool.not_eq_true] at open_
      cases moved
      unfold record
      split
      · next room => exact .accepted open_ room
      · next full => exact .refused open_ full
  | close =>
    cases moved
    exact .closed
  | receive =>
    simp only [step] at moved
    split at moved
    · next r rest running queue =>
      unfold push at moved
      simp only [Option.some.injEq] at moved
      split at moved
      · next full =>
        cases moved
        exact running ▸ .filled running queue full
      · next room =>
        cases moved
        exact running ▸ .collected running queue (Nat.lt_of_not_le room)
    · cases moved
  | tick =>
    simp only [step] at moved
    split at moved
    · cases moved
    · next running =>
      rw [Bool.not_eq_true] at running
      split at moved
      · next empty =>
        cases moved
        exact .idle (List.isEmpty_iff.mp empty)
      · cases moved
        exact .ticked running
  | finish =>
    simp only [step] at moved
    split at moved
    · next ready =>
      cases moved
      exact .finished ready.1 (List.isEmpty_iff.mp ready.2.2)
    · cases moved

/-- An empty writer is within its bounds. -/
theorem kept_init (b : Bounds) : (init : Writer R).Kept b :=
  ⟨rfl, b.size_pos, Nat.zero_le _, nofun, nofun⟩

/-- Every step keeps the bounds, and what was accepted in its order. -/
theorem Kept.step (kept : w.Kept b) (moved : Moves b w e w' out) : w'.Kept b := by
  have grown {batches : List (List R)} {batch : List R} (le : batch.length ≤ b.size)
      (all : ∀ batch ∈ batches, batch.length ≤ b.size) :
      ∀ batch' ∈ batches ++ [batch], batch'.length ≤ b.size := by
    intro batch' mem
    rcases List.mem_append.mp mem with before | now
    · exact all batch' before
    · cases List.mem_singleton.mp now
      exact le
  cases moved with
  | @accepted r open_ room =>
    refine ⟨?_, kept.batch_lt, ?_, kept.flushed_le, fun exited => ?_⟩
    · simp [kept.order]
    · simpa using Nat.succ_le_of_lt room
    · exact absurd (kept.done exited).1 (by simp [open_])
  | refused _ _ => exact ⟨kept.order, kept.batch_lt, kept.queue_le, kept.flushed_le, kept.done⟩
  | closed =>
    exact ⟨kept.order, kept.batch_lt, kept.queue_le, kept.flushed_le,
      fun exited => ⟨rfl, (kept.done exited).2⟩⟩
  | collected running queue room =>
    have order := kept.order
    have queue_le := kept.queue_le
    rw [queue] at order queue_le
    refine ⟨by simpa using order, room, Nat.le_of_succ_le queue_le, kept.flushed_le, ?_⟩
    intro exited
    exact absurd exited (by simp [running])
  | @filled r rest running queue full =>
    have order := kept.order
    have queue_le := kept.queue_le
    rw [queue] at order queue_le
    have le : (w.batch ++ [r]).length ≤ b.size := by
      rw [List.length_append]
      exact kept.batch_lt
    refine ⟨by simpa using order, b.size_pos, Nat.le_of_succ_le queue_le,
      grown le kept.flushed_le, ?_⟩
    intro exited
    exact absurd exited (by simp [running])
  | idle _ => exact kept
  | ticked running =>
    refine ⟨by simpa using kept.order, b.size_pos, kept.queue_le,
      grown (Nat.le_of_lt kept.batch_lt) kept.flushed_le, ?_⟩
    intro exited
    exact absurd exited (by simp [running])
  | finished closed empty =>
    exact ⟨by simpa using kept.order, b.size_pos, kept.queue_le,
      grown (Nat.le_of_lt kept.batch_lt) kept.flushed_le, fun _ => ⟨closed, rfl, empty⟩⟩

/-- What goes out in a step is what is put on record as flushed. -/
theorem Moves.flushed (moved : Moves b w e w' out) : w'.flushed = w.flushed ++ out.toList := by
  cases moved <;> simp

end Writer

/-! ## Targets -/

/-- A writer and what its batches go to. -/
structure State (R τ : Type) where
  writer : Writer R
  target : τ

/-- What a batch does to the target, given how it is answered, and what else can happen to it. -/
structure Sink (R τ O η : Type) where
  bounds : Bounds
  deliver : τ → List R → O → τ
  world : τ → η → Option τ

namespace Sink

variable {R τ O η : Type} (sink : Sink R τ O η)

/-- A step of the writer or of the target's surroundings. -/
inductive Event (R O η : Type) where
  /-- A step of the writer, and the answer to the batch that goes out in it. -/
  | writer (e : Batching.Event R) (answer : O)
  | outside (e : η)

/-- A batch that goes out reaches the target in the same step, with the answer that the target gives
to it. -/
def step (s : State R τ) : Event R O η → Option (State R τ)
  | .writer e answer => (s.writer.step sink.bounds e).map fun (writer, out) =>
    ⟨writer, out.elim s.target fun batch => sink.deliver s.target batch answer⟩
  | .outside e => (sink.world s.target e).map fun target => ⟨s.writer, target⟩

variable {sink} {s t : State R τ} {C : State R τ → Event R O η → Prop}

/-- The rule of deliveries: `P` relates what was flushed so far to the target. -/
theorem invariant {P : List R → τ → Prop}
    (delivers : ∀ (s : State R τ) e answer batch, C s (.writer e answer) →
      P s.writer.flushed.flatten s.target →
      P (s.writer.flushed.flatten ++ batch) (sink.deliver s.target batch answer))
    (world : ∀ (s : State R τ) e later, P s.writer.flushed.flatten s.target →
      sink.world s.target e = some later → P s.writer.flushed.flatten later)
    (chain : Transition.Steps sink.step C s t)
    (holds : s.writer.Kept sink.bounds ∧ P s.writer.flushed.flatten s.target) :
    t.writer.Kept sink.bounds ∧ P t.writer.flushed.flatten t.target := by
  refine Transition.Steps.invariant (P := fun s => s.writer.Kept sink.bounds ∧
    P s.writer.flushed.flatten s.target) ?_ chain holds
  intro s e t holds meets moved
  cases e with
  | writer e answer =>
    obtain ⟨⟨writer, out⟩, stepped, rfl⟩ := Option.map_eq_some_iff.mp moved
    have moves := Writer.moves_of_step stepped
    refine ⟨holds.1.step moves, ?_⟩
    show P writer.flushed.flatten _
    rw [moves.flushed, List.flatten_append]
    cases out with
    | none => simpa using holds.2
    | some batch => simpa using delivers s e answer batch meets holds.2
  | outside e =>
    obtain ⟨target, changed, rfl⟩ := Option.map_eq_some_iff.mp moved
    exact ⟨holds.1, world s e target holds.2 changed⟩

end Sink

end Batching
