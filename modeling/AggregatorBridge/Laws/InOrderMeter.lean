import AggregatorBridge.Laws.EnergyBalance
import AggregatorBridge.Laws.SettledOnce
import Mathlib.Data.List.Chain

/-!
# A meter that sends in order

A window is over when the watermark of its meter has passed it, or when the meter has been quiet
for the grace period. For a meter that sends in order and without long pauses the second never
happens between two of its readings, and the first says that all that is still to come lies
behind the window. So its bins are whole when a sweep takes them, wherever its clock stands.

The argument looks ahead: `Unharmed` says of a state and of the operations still to come that no
reading of the meter is going to meet a settled window. The wall clock is the service's own and
is not read inside a leap second.

The law says nothing of a meter that comes late once: its window may be settled by then, and what it
sent dropped.
-/

namespace AggregatorBridge

namespace DateTime

theorem secs_le_of_le {a b : DateTime} (before : a ≤ b) : a.secs ≤ b.secs := by
  have ab : a.secs < b.secs ∨ a.secs = b.secs ∧ a.nanos ≤ b.nanos := before
  omega

/-- Outside leap seconds a later instant is further from an earlier one. -/
theorem durationSince_mono {a b c : DateTime} (a_plain : a.nanos < 1000000000)
    (b_plain : b.nanos < 1000000000) (c_plain : c.nanos < 1000000000) (before : a ≤ b) :
    a.durationSince c ≤ b.durationSince c := by
  have ab : a.secs < b.secs ∨ a.secs = b.secs ∧ a.nanos ≤ b.nanos := before
  have plain : ∀ {t : DateTime}, t.nanos < 1000000000 →
      t.durationSince c = (t.secs - c.secs) * 1000000000 + ((t.nanos : Int) - c.nanos) := by
    intro t t_plain
    simp only [durationSince]
    rw [if_neg (by omega), if_neg (by omega), add_zero]
  rw [plain a_plain, plain b_plain]
  omega

end DateTime

namespace BillingOp

def now : BillingOp → DateTime
  | reading now _ => now
  | sweep now _ => now

/-- The arrival of a reading of a meter. -/
def arrivalOf (meter : Uuid) : BillingOp → Option (DateTime × BillingReading)
  | reading now r => if r.meterId = meter then some (now, r) else none
  | sweep _ _ => none

end BillingOp

/-- The readings of one meter with the times at which they came in, in order. -/
def arrivalsOf (meter : Uuid) (ops : List BillingOp) : List (DateTime × BillingReading) :=
  ops.filterMap (BillingOp.arrivalOf meter)

/-- A meter sends in order, and never pauses for the grace period, while the wall clock goes on
and all sweeps use one grace period. -/
structure Punctual (meter : Uuid) (grace : Int) (ops : List BillingOp) : Prop where
  sweeps : ∀ now used, .sweep now used ∈ ops → used = grace
  clock : (ops.map BillingOp.now).Pairwise (· ≤ ·)
  plain : ∀ op ∈ ops, op.now.nanos < 1000000000
  inOrder : (arrivalsOf meter ops).Pairwise fun a b => a.2.timestamp ≤ b.2.timestamp
  prompt : grace = 0 ∨ (arrivalsOf meter ops).IsChain fun a b =>
    b.1.durationSince a.1 < grace * 1000000000

section

variable {meter : Uuid} {grace : Int} {op : BillingOp} {ops : List BillingOp}

theorem arrivalsOf_mine {now : DateTime} {r : BillingReading} (mine : r.meterId = meter) :
    arrivalsOf meter (.reading now r :: ops) = (now, r) :: arrivalsOf meter ops := by
  rw [arrivalsOf, List.filterMap_cons_some]
  · rfl
  · exact if_pos mine

theorem arrivalsOf_other {now : DateTime} {r : BillingReading} (other : r.meterId ≠ meter) :
    arrivalsOf meter (.reading now r :: ops) = arrivalsOf meter ops := by
  rw [arrivalsOf, List.filterMap_cons_none]
  · rfl
  · exact if_neg other

theorem arrivalsOf_sweep {now : DateTime} {used : Int} :
    arrivalsOf meter (.sweep now used :: ops) = arrivalsOf meter ops := rfl

theorem meterId_of_arrival {a : DateTime × BillingReading} (mem : a ∈ arrivalsOf meter ops) :
    a.2.meterId = meter ∧ .reading a.1 a.2 ∈ ops := by
  obtain ⟨op, listed, arrives⟩ := List.mem_filterMap.mp mem
  cases op with
  | sweep now used => cases arrives
  | reading now r =>
    simp only [BillingOp.arrivalOf] at arrives
    split at arrives
    · next mine =>
      cases arrives
      exact ⟨mine, listed⟩
    · cases arrives

theorem Punctual.tail (punctual : Punctual meter grace (op :: ops)) : Punctual meter grace ops := by
  have later : arrivalsOf meter ops <:+ arrivalsOf meter (op :: ops) := by
    cases arrives : op.arrivalOf meter with
    | none =>
      have same : arrivalsOf meter (op :: ops) = arrivalsOf meter ops :=
        List.filterMap_cons_none arrives
      exact ⟨[], by rw [same, List.nil_append]⟩
    | some a =>
      rw [arrivalsOf, arrivalsOf, List.filterMap_cons_some arrives]
      exact List.suffix_cons a _
  refine ⟨?_, ?_, ?_, ?_, ?_⟩
  · exact fun now used mem => punctual.sweeps now used (List.mem_cons_of_mem _ mem)
  · exact (List.pairwise_cons.mp punctual.clock).2
  · exact fun op mem => punctual.plain op (List.mem_cons_of_mem _ mem)
  · exact punctual.inOrder.sublist later.sublist
  · exact punctual.prompt.imp_right fun chain => chain.suffix later

end

/-! ## Looking ahead -/

/-- No reading of the meter that is still to come meets a settled window. -/
structure Unharmed (meter : Uuid) (grace : Int) (b : Billing) (rest : List BillingOp) :
    Prop where
  watermark : ∀ p, b.agg.progress.lookup meter = some p →
    ∀ a ∈ arrivalsOf meter rest, p.watermark ≤ a.2.timestamp
  arrival : ∀ p, b.agg.progress.lookup meter = some p → p.lastArrival.nanos < 1000000000 ∧
    (grace = 0 ∨ ∀ a, (arrivalsOf meter rest).head? = some a →
      a.1.durationSince p.lastArrival < grace * 1000000000)
  seen : ∀ key bin, key.1 = meter → b.agg.activeBins.lookup key = some bin →
    ∃ p, b.agg.progress.lookup meter = some p
  fresh : ∀ key, key.1 = meter → (b.parts key).restored = none
  settled : ∀ key, key.1 = meter → b.agg.IsSettled key → ∀ a ∈ arrivalsOf meter rest, a.2.key ≠ key
  output : ∀ out ∈ b.output, out.1.key.1 = meter → b.parts out.1.key = Parts.none ∧
    ∀ a ∈ arrivalsOf meter rest, a.2.key ≠ out.1.key

/-- A reading from the end of a window on lies in another one. -/
theorem windowStart_ne {time start : DateTime} (later : start.secs + 900 ≤ time.secs) :
    windowStart time ≠ start := by
  rintro rfl
  rw [windowStart_eq, DateTime.ofSecs_secs] at later
  have := Int.emod_lt_of_pos time.secs (show (0 : Int) < 900 by decide)
  omega

/-- A bin that was not restored ends a window after its start. -/
theorem endTime_of_fresh {parts : Parts} {bin : BillingBin} (fresh : parts.restored = none)
    (made : parts.bin = some bin) : bin.endTime = .ofSecs (bin.startTime.secs + 900) := by
  refine Parts.invariant (P := fun bin => bin.endTime = .ofSecs (bin.startTime.secs + 900))
    ?_ ?_ ?_ made
  · intro start found
    rw [fresh] at found
    cases found
  · intro r
    show (windowStart r.timestamp).addSecs 900 = .ofSecs ((windowStart r.timestamp).secs + 900)
    rw [windowStart_eq]
    rfl
  · exact fun bin r _ same => same

section

variable {meter : Uuid} {grace : Int} {restored : List BillingBin} {b : Billing}
  {rest : List BillingOp}

/-- What a sweep takes from the meter is over for the meter. -/
theorem Punctual.completed {now : DateTime}
    (punctual : Punctual meter grace (.sweep now grace :: rest))
    (unharmed : Unharmed meter grace b (.sweep now grace :: rest))
    (accounted : b.Accounted restored) (grace_nonneg : 0 ≤ grace) {bin : BillingBin}
    (mine : bin.key.1 = meter) (taken : bin ∈ b.agg.peekCompletedBinsAt now grace) :
    ∀ a ∈ arrivalsOf meter rest, a.2.key ≠ bin.key := by
  have clock : ∀ op ∈ rest, now ≤ op.now := fun op mem =>
    (List.pairwise_cons.mp punctual.clock).1 _ (List.mem_map.mpr ⟨op, mem, rfl⟩)
  have plain : ∀ op ∈ rest, op.now.nanos < 1000000000 :=
    fun op mem => punctual.plain op (List.mem_cons_of_mem _ mem)
  have now_plain : now.nanos < 1000000000 := punctual.plain _ List.mem_cons_self
  obtain ⟨active, completed⟩ := List.mem_filter.mp taken
  have found := accounted.keyed.mem_bins.mp active
  have made : (b.parts bin.key).bin = some bin := by rw [← accounted.active, found]
  have ends := endTime_of_fresh (unharmed.fresh bin.key mine) made
  obtain ⟨p, progress⟩ := unharmed.seen bin.key bin mine found
  intro a mem same
  have owner : b.agg.progress.lookup bin.meterId = some p :=
    (show bin.meterId = meter from mine) ▸ progress
  simp only [Aggregator.isCompleted, owner, Bool.or_eq_true, Bool.and_eq_true,
    decide_eq_true_eq] at completed
  rcases completed with passed | ⟨⟨positive, quiet⟩, _⟩
  · -- the watermark has passed the window, and the reading the watermark
    have reached := DateTime.le_trans' passed (unharmed.watermark p progress a mem)
    have later : bin.startTime.secs + 900 + grace ≤ a.2.timestamp.secs := by
      rw [ends] at reached
      exact DateTime.secs_le_of_le reached
    exact windowStart_ne (show bin.startTime.secs + 900 ≤ _ by omega) (congrArg Prod.snd same)
  · -- the meter is quiet, but its next reading comes in time
    obtain ⟨last_plain, next⟩ := unharmed.arrival p progress
    obtain ⟨first, others, split⟩ := List.exists_cons_of_ne_nil (List.ne_nil_of_mem mem)
    have listed : first ∈ arrivalsOf meter rest := split ▸ List.mem_cons_self
    have op := (meterId_of_arrival listed).2
    rcases next with zero | inTime
    · omega
    · have soon := inTime first (by rw [arrivalsOf_sweep, split, List.head?_cons])
      have longer := DateTime.durationSince_mono now_plain (plain _ op) last_plain (clock _ op)
      exact absurd (longer.trans_lt soon) (not_lt.mpr quiet)

/-- A reading of the meter itself is accepted and harms none of the later ones. -/
theorem Unharmed.reading_mine {now : DateTime} {r : BillingReading} (mine : r.meterId = meter)
    (punctual : Punctual meter grace (.reading now r :: rest))
    (unharmed : Unharmed meter grace b (.reading now r :: rest)) :
    ¬ b.agg.IsSettled r.key ∧ Unharmed meter grace (b.step (.reading now r)) rest := by
  have arrivals : arrivalsOf meter (.reading now r :: rest) = (now, r) :: arrivalsOf meter rest :=
    arrivalsOf_mine mine
  have first : (now, r) ∈ arrivalsOf meter (.reading now r :: rest) := arrivals ▸ List.mem_cons_self
  have open_ : ¬ b.agg.IsSettled r.key := fun late =>
    unharmed.settled r.key mine late (now, r) first rfl
  have later : ∀ a ∈ arrivalsOf meter rest, a ∈ arrivalsOf meter (.reading now r :: rest) :=
    fun a mem => arrivals ▸ List.mem_cons_of_mem _ mem
  have progress : (b.step (.reading now r)).agg.progress.lookup meter =
      some (b.agg.nextProgress now r) := by
    rw [Billing.step_accepted open_]
    show (b.agg.handleReading now r).1.progress.lookup meter = _
    rw [Aggregator.handleReading_progress, ← mine, AList.lookup_insert]
  have inOrder := punctual.inOrder
  rw [arrivals] at inOrder
  have after := (List.pairwise_cons.mp inOrder).1
  refine ⟨open_, ?_, ?_, ?_, ?_, ?_, ?_⟩
  · intro p found a mem
    rw [progress] at found
    cases found
    show (if _ then _ else _ : DateTime) ≤ _
    split
    · cases known : b.agg.progress.lookup r.meterId with
      | none => exact after a mem
      | some p => exact unharmed.watermark p (mine ▸ known) a (later a mem)
    · exact after a mem
  · intro p found
    rw [progress] at found
    cases found
    refine ⟨punctual.plain _ List.mem_cons_self, punctual.prompt.imp_right ?_⟩
    intro chain a head
    rw [arrivals] at chain
    obtain ⟨others, split⟩ : ∃ others, arrivalsOf meter rest = a :: others :=
      List.head?_eq_some_iff.mp head
    rw [split] at chain
    exact (List.isChain_cons_cons.mp chain).1
  · exact fun key bin _ _ => ⟨_, progress⟩
  · intro key ours
    rw [Billing.step_accepted open_]
    show (Function.update b.parts r.key _ key).restored = none
    by_cases here : key = r.key
    · subst here
      rw [Function.update_self]
      exact unharmed.fresh r.key ours
    · rw [Function.update_of_ne here]
      exact unharmed.fresh key ours
  · intro key ours late a mem
    rw [Billing.step_accepted open_] at late
    exact unharmed.settled key ours (Aggregator.isSettled_handleReading.mp late) a (later a mem)
  · intro out mem ours
    rw [Billing.step_accepted open_] at mem ⊢
    obtain ⟨gone, others⟩ := unharmed.output out mem ours
    refine ⟨?_, fun a mem => others a (later a mem)⟩
    show Function.update b.parts r.key _ out.1.key = Parts.none
    rw [Function.update_of_ne fun same => others (now, r) first same.symm]
    exact gone

/-- A reading of another meter does not touch what concerns this one. -/
theorem Unharmed.reading_other {now : DateTime} {r : BillingReading} (other : r.meterId ≠ meter)
    (unharmed : Unharmed meter grace b (.reading now r :: rest)) :
    Unharmed meter grace (b.step (.reading now r)) rest := by
  have arrivals : arrivalsOf meter (.reading now r :: rest) = arrivalsOf meter rest :=
    arrivalsOf_other other
  have elsewhere : ∀ key : BinKey, key.1 = meter → key ≠ r.key := by
    rintro key ours rfl
    exact other ours
  have agg : (b.step (.reading now r)).agg = (b.agg.handleReading now r).1 :=
    b.agg_run [.reading now r]
  have output : (b.step (.reading now r)).output = b.output := by
    by_cases late : b.agg.IsSettled r.key
    · rw [Billing.step_late late]
    · rw [Billing.step_accepted late]
  have parts : ∀ key : BinKey, key.1 = meter → (b.step (.reading now r)).parts key = b.parts key := by
    intro key ours
    by_cases late : b.agg.IsSettled r.key
    · rw [Billing.step_late late]
    · rw [Billing.step_accepted late]
      exact Function.update_of_ne (elsewhere key ours) _ _
  have progress : (b.step (.reading now r)).agg.progress.lookup meter =
      b.agg.progress.lookup meter := by
    rw [agg, Aggregator.handleReading_progress, AList.lookup_insert_ne (Ne.symm other)]
  have active : ∀ key : BinKey, key.1 = meter →
      (b.step (.reading now r)).agg.activeBins.lookup key = b.agg.activeBins.lookup key := by
    intro key ours
    rw [agg]
    by_cases late : b.agg.IsSettled r.key
    · rw [Aggregator.handleReading_late late]
    · rw [Aggregator.lookup_handleReading_accepted late, if_neg (elsewhere key ours)]
  refine ⟨?_, ?_, ?_, ?_, ?_, ?_⟩
  · intro p found
    rw [← arrivals]
    exact unharmed.watermark p (progress ▸ found)
  · intro p found
    rw [← arrivals]
    exact unharmed.arrival p (progress ▸ found)
  · intro key bin ours found
    rw [progress]
    exact unharmed.seen key bin ours (active key ours ▸ found)
  · intro key ours
    rw [parts key ours]
    exact unharmed.fresh key ours
  · intro key ours late
    rw [← arrivals]
    rw [agg] at late
    exact unharmed.settled key ours (Aggregator.isSettled_handleReading.mp late)
  · intro out mem ours
    rw [← arrivals, parts _ ours]
    exact unharmed.output out (output ▸ mem) ours

theorem Unharmed.sweep (accounted : b.Accounted restored) (grace_nonneg : 0 ≤ grace)
    {now : DateTime} {used : Int} (punctual : Punctual meter grace (.sweep now used :: rest))
    (unharmed : Unharmed meter grace b (.sweep now used :: rest)) :
    Unharmed meter grace (b.step (.sweep now used)) rest := by
  obtain rfl : used = grace := punctual.sweeps now used List.mem_cons_self
  let bins := b.agg.peekCompletedBinsAt now used
  have before : Unharmed meter used b rest :=
    ⟨unharmed.watermark, unharmed.arrival, unharmed.seen, unharmed.fresh, unharmed.settled,
      unharmed.output⟩
  have passed : ∀ bin ∈ bins, bin.key.1 = meter → ∀ a ∈ arrivalsOf meter rest, a.2.key ≠ bin.key :=
    fun bin taken ours => punctual.completed unharmed accounted grace_nonneg ours taken
  have progress : (b.step (.sweep now used)).agg.progress = b.agg.progress :=
    Aggregator.progress_removeBins _
  have active : ∀ key, (b.step (.sweep now used)).agg.activeBins.lookup key =
      if key ∈ bins.map BillingBin.key then none else b.agg.activeBins.lookup key :=
    fun key => Aggregator.lookup_removeBins _
  have parts : ∀ key, (b.step (.sweep now used)).parts key =
      if key ∈ bins.map BillingBin.key then Parts.none else b.parts key := fun key => rfl
  refine ⟨?_, ?_, ?_, ?_, ?_, ?_⟩
  · intro p found
    exact before.watermark p (progress ▸ found)
  · intro p found
    exact before.arrival p (progress ▸ found)
  · intro key bin ours found
    rw [progress]
    rw [active] at found
    split at found
    · cases found
    · exact before.seen key bin ours found
  · intro key ours
    rw [parts]
    split
    · rfl
    · exact before.fresh key ours
  · intro key ours late
    rcases Aggregator.isSettled_of_removeBins late with earlier | removed
    · exact before.settled key ours earlier
    · obtain ⟨bin, taken, rfl⟩ := List.mem_map.mp removed
      exact passed bin taken ours
  · intro out mem ours
    rw [parts]
    rcases List.mem_append.mp mem with earlier | taken
    · obtain ⟨gone, others⟩ := before.output out earlier ours
      rw [gone, ite_self]
      exact ⟨rfl, others⟩
    · obtain ⟨bin, listed, rfl⟩ := List.mem_map.mp taken
      rw [if_pos (List.mem_map.mpr ⟨bin, listed, rfl⟩)]
      exact ⟨rfl, passed bin listed ours⟩

/-- A run keeps a punctual meter unharmed, and accepts all of its readings. -/
theorem Unharmed.run (grace_nonneg : 0 ≤ grace) {before : List BillingOp}
    (accounted : b.Accounted restored) (punctual : Punctual meter grace (before ++ rest))
    (unharmed : Unharmed meter grace b (before ++ rest)) :
    Unharmed meter grace (b.run before) rest ∧
      (b.run before).accepted.filter (fun r => r.meterId = meter) =
        b.accepted.filter (fun r => r.meterId = meter) ++
          (arrivalsOf meter before).map Prod.snd := by
  induction before generalizing b with
  | nil => exact ⟨unharmed, (List.append_nil _).symm⟩
  | cons op before ih =>
    cases op with
    | reading now r =>
      have next := Billing.accounted_reading accounted now r
      by_cases mine : r.meterId = meter
      · obtain ⟨open_, still⟩ := Unharmed.reading_mine mine punctual unharmed
        obtain ⟨ends, accepted⟩ := ih next punctual.tail still
        refine ⟨ends, ?_⟩
        show ((b.step (.reading now r)).run before).accepted.filter _ = _
        rw [accepted, arrivalsOf_mine mine, Billing.step_accepted open_, List.map_cons]
        simp [mine]
      · obtain ⟨ends, accepted⟩ := ih next punctual.tail (unharmed.reading_other mine)
        refine ⟨ends, ?_⟩
        show ((b.step (.reading now r)).run before).accepted.filter _ = _
        rw [accepted, arrivalsOf_other mine]
        by_cases late : b.agg.IsSettled r.key
        · rw [Billing.step_late late]
        · rw [Billing.step_accepted late]
          simp [mine]
    | sweep now used =>
      exact ih (Billing.accounted_sweep accounted now used) punctual.tail
        (Unharmed.sweep accounted grace_nonneg punctual unharmed)

end

theorem Punctual.suffix {meter : Uuid} {grace : Int} {rest : List BillingOp}
    (before : List BillingOp) (punctual : Punctual meter grace (before ++ rest)) :
    Punctual meter grace rest := by
  induction before with
  | nil => exact punctual
  | cons op before ih => exact ih punctual.tail

/-- What a sweep takes from a punctual meter holds all its readings of the window. -/
theorem Unharmed.whole {meter : Uuid} {grace : Int} {restored : List BillingBin} {b : Billing}
    {now : DateTime} {after : List BillingOp} {bin : BillingBin} {seen : List BillingReading}
    (unharmed : Unharmed meter grace b (.sweep now grace :: after))
    (accounted : b.Accounted restored) (grace_nonneg : 0 ≤ grace)
    (punctual : Punctual meter grace (.sweep now grace :: after)) (mine : bin.meterId = meter)
    (taken : bin ∈ b.agg.peekCompletedBinsAt now grace)
    (accepted : b.accepted.filter (fun r => r.meterId = meter) = seen) :
    Parts.bin ⟨none, (seen ++ (arrivalsOf meter after).map Prod.snd).filter
      fun r => r.key = bin.key⟩ = some bin := by
  have made : (b.parts bin.key).bin = some bin := by
    rw [← accounted.active]
    exact accounted.keyed.mem_bins.mp (List.mem_of_mem_filter taken)
  -- no earlier sweep took this window
  have first : b.output.filter (fun out => out.1.key = bin.key) = [] := by
    rw [List.filter_eq_nil_iff]
    intro out mem same
    have here : out.1.key = bin.key := of_decide_eq_true same
    have gone := (unharmed.output out mem ((congrArg Prod.fst here).trans mine)).1
    rw [here] at gone
    rw [gone] at made
    cases made
  -- no later reading lies in it
  have none_later :
      ((arrivalsOf meter after).map Prod.snd).filter (fun r => r.key = bin.key) = [] := by
    rw [List.filter_eq_nil_iff]
    intro r mem same
    obtain ⟨a, listed, rfl⟩ := List.mem_map.mp mem
    exact punctual.completed unharmed accounted grace_nonneg mine taken a listed
      (of_decide_eq_true same)
  have ofMeter : (b.accepted.filter fun r => r.key = bin.key) =
      seen.filter fun r => r.key = bin.key := by
    rw [← accepted, List.filter_filter]
    apply List.filter_congr
    intro r _
    by_cases here : r.key = bin.key
    · have theirs : r.meterId = meter := (congrArg Prod.fst here).trans mine
      simp [here, theirs]
    · simp [here]
  have readings := accounted.readings bin.key
  rw [first, ofMeter] at readings
  rw [List.filter_append, none_later, List.append_nil, readings]
  have fresh := unharmed.fresh bin.key mine
  rw [← made]
  show Parts.bin ⟨none, (b.parts bin.key).readings⟩ = _
  rw [← fresh]

theorem unharmed_start {meter : Uuid} {grace : Int} {restored : List BillingBin}
    (unrestored : ∀ bin ∈ restored, bin.meterId ≠ meter) (rest : List BillingOp) :
    Unharmed meter grace (Billing.start restored) rest := by
  have absent : ∀ key : BinKey, key.1 = meter →
      (Aggregator.new.restoreBins restored).activeBins.lookup key = none := by
    intro key ours
    rw [Aggregator.lookup_restoreBins_of_not_mem]
    · rfl
    · rintro bin mem rfl
      exact unrestored bin mem ours
  obtain ⟨progress, settled⟩ := Aggregator.new.restoreBins_else restored
  have nothing : (Billing.start restored).agg.progress.lookup meter = none :=
    congrArg (AList.lookup meter) progress
  refine ⟨?_, ?_, ?_, absent, ?_, ?_⟩
  · intro p found
    rw [nothing] at found
    cases found
  · intro p found
    rw [nothing] at found
    cases found
  · intro key bin ours found
    rw [show (Billing.start restored).agg.activeBins.lookup key = none from absent key ours] at found
    cases found
  · intro key ours late
    have listed : key.2 ∈
        ((Aggregator.new.restoreBins restored).settled.lookup key.1).getD [] := late
    rw [settled] at listed
    cases listed
  · exact fun out mem => absurd mem List.not_mem_nil

/-- A meter that sends in order and never pauses for the grace period loses no reading, and a sweep
that takes a bin of it takes all its readings of that window. Other meters may send as they like. -/
theorem punctual_meter_never_cut_short (meter : Uuid) (grace : Int) (grace_nonneg : 0 ≤ grace)
    (restored : List BillingBin) (unrestored : ∀ bin ∈ restored, bin.meterId ≠ meter)
    (ops : List BillingOp) (punctual : Punctual meter grace ops) :
    (∀ before now r after, ops = before ++ .reading now r :: after → r.meterId = meter →
      (((Aggregator.new.restoreBins restored).after before).handleReading now r).2 ≠ none) ∧
    ∀ before now after, ops = before ++ .sweep now grace :: after →
      ∀ bin ∈ ((Aggregator.new.restoreBins restored).after before).peekCompletedBinsAt now grace,
        bin.meterId = meter →
        Parts.bin ⟨none, ((arrivalsOf meter ops).map Prod.snd).filter fun r => r.key = bin.key⟩ =
          some bin := by
  have accounted : (Billing.start restored).Accounted _ :=
    Billing.accounted_bins (Aggregator.Keyed.restoreBins restored)
  have agg : ∀ before, (Billing.run (Billing.start restored) before).agg =
      (Aggregator.new.restoreBins restored).after before :=
    fun before => Billing.agg_run _ before
  constructor
  · rintro before now r after rfl mine dropped
    have ends := (Unharmed.run grace_nonneg accounted punctual (unharmed_start unrestored _)).1
    rw [Aggregator.handleReading_eq_none, ← agg] at dropped
    refine ends.settled r.key mine dropped (now, r) ?_ rfl
    rw [arrivalsOf_mine mine]
    exact List.mem_cons_self
  · rintro before now after rfl bin taken mine
    obtain ⟨ends, accepted⟩ :=
      Unharmed.run grace_nonneg accounted punctual (unharmed_start unrestored _)
    rw [← agg] at taken
    rw [arrivalsOf, List.filterMap_append, List.map_append]
    exact ends.whole (Billing.accounted_run accounted before) grace_nonneg (punctual.suffix before)
      mine taken accepted

/-- A meter whose clock is far behind: its window is taken when it has moved on, and is whole. -/
theorem slow_clock_window_is_whole :
    let r := fun secs => (⟨1, 2, "M1", 3, 1, .ofSecs secs, none, none, none⟩ : BillingReading)
    let before : List BillingOp :=
      [.reading (.ofSecs 5000) (r 900), .sweep (.ofSecs 5005) 100, .reading (.ofSecs 5010) (r 1700),
        .reading (.ofSecs 5020) (r 2000)]
    ∀ bin ∈ ((Aggregator.new.restoreBins []).after before).peekCompletedBinsAt (.ofSecs 5030) 100,
      Parts.bin ⟨none, [r 900, r 1700]⟩ = some bin := by
  intro r before bin taken
  have punctual : Punctual 1 100 (before ++ [.sweep (.ofSecs 5030) 100]) := by
    refine ⟨?_, by decide +kernel, by decide +kernel, by decide +kernel, .inr (by decide +kernel)⟩
    intro now used mem
    simp [before] at mem
    omega
  have mine : ∀ bin ∈ ((Aggregator.new.restoreBins []).after before).peekCompletedBinsAt
      (.ofSecs 5030) 100, bin.meterId = 1 := by
    decide +kernel
  have whole := (punctual_meter_never_cut_short 1 100 (by decide) []
    (fun bin mem => absurd mem List.not_mem_nil) _ punctual).2 before (.ofSecs 5030) [] rfl bin taken
    (mine bin taken)
  have key : bin.key = (1, .ofSecs 900) := by
    revert bin
    decide +kernel
  rw [key] at whole
  exact whole

end AggregatorBridge
