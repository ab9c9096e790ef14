import AggregatorBridge.Laws.CountedOnce
import AggregatorBridge.Laws.SelfHeal
import AggregatorBridge.Laws.StuckEntries
import AggregatorBridge.Pipeline

/-!
# Every reading that was disseminated is billed, or trimmed

The worker of a zone sees a stream that somebody appends to and trims; that the router does is all it
needs (`zone_of_chain`). The readings can be read back, so every entry is a reading to the worker, and
none is stuck. What was read and not billed is pending, whatever fails and however often the process
restarts, unless the router has trimmed it; the latest entries, as many as the maximum length, are
never trimmed. When nothing fails, no task is slow and nothing is trimmed unread, what is billed is
what was appended, once for each time it was.

Billed means that `handle_reading` was called for the entry; what becomes of the energy is for the
laws of the settlement. A reading whose metadata is nested too deep for `serde_json` is outside: its
envelope is written, and the worker acknowledges it without having read it. And nothing here says that
what is pending is billed in the end.
-/

namespace AggregatorBridge

open Transition Remote

namespace Pipeline

variable {F : Type} [Float64 F] [SignedFloat64 F] {cfg : Config F} {p q : Pipeline F} {e : Event F}

/-! ## The steps as cases -/

/-- What a step can be. -/
inductive Moves (cfg : Config F) (p : Pipeline F) : Event F → Pipeline F → Prop
  | router {e : Pool.Event (DisseminateCall F) Router.Move Empty}
      {router : Pool.State (RouterState F) (DisseminateCall F)}
      (moved : (Router.system cfg.router).step p.router e = some router) :
      Moves cfg p (.router e)
        ⟨router, p.group,
          { p.zone with
            entries := visible cfg router.shared p.group
            gone := trimmed cfg router.shared p.group }, p.billed⟩
  | created {reply : Reply} (first : p.group = none) :
      Moves cfg p (.setup reply)
        ⟨p.router, some (payloads cfg p.router.shared).length, p.zone, p.billed⟩
  | ignored {reply : Reply} : Moves cfg p (.setup reply) p
  | zone {e : Zone.Event F} {zone : Zone F} (others : ∀ payload trim, e ≠ .xadd payload trim)
      (moved : Zone.step cfg.codec cfg.settlement p.zone e = some zone) :
      Moves cfg p (.zone e) ⟨p.router, p.group, zone, p.billed ++ billedBy p.zone e⟩

/-- Every step is one of the router, of the worker, or of the creation of the group. -/
theorem moves_of_step (moved : step cfg p e = some q) : Moves cfg p e q := by
  unfold step at moved
  split at moved
  · obtain ⟨router, acted, rfl⟩ := Option.map_eq_some_iff.mp moved
    exact .router acted
  · next reply =>
    cases moved
    unfold setup
    split
    · next creates => exact .created creates.2
    · exact .ignored
  · cases moved
  · next others =>
    obtain ⟨zone, acted, rfl⟩ := Option.map_eq_some_iff.mp moved
    exact .zone (fun payload trim same => others payload trim same) acted

/-! ## The worker and its stream -/

variable {C : Pipeline F → Event F → Prop}

/-- The router's part of a run is a run of the router, which the worker does not touch. -/
theorem router_of_chain (chain : Steps (step cfg) C init p) :
    Steps (Router.system cfg.router).step Always ⟨Router.init, []⟩ p.router := by
  induction chain with
  | refl => exact .refl _
  | tail _ _ moved ih =>
    cases moves_of_step moved with
    | router acted => exact .tail ih trivial acted
    | created first => exact ih
    | ignored => exact ih
    | zone others acted => exact ih

/-- What the router can do to the stream of the zone: nothing, or one entry is appended and of the
oldest ones some are trimmed, as long as the maximum is left. -/
def Grows (cfg : Config F) (s later : RouterState F) : Prop :=
  payloads cfg later = payloads cfg s ∧
      later.gone (zoneStream cfg.idx) = s.gone (zoneStream cfg.idx) ∨
    ∃ payload trim, payloads cfg later = payloads cfg s ++ [payload] ∧
      later.gone (zoneStream cfg.idx) = max (s.gone (zoneStream cfg.idx))
        (min trim ((payloads cfg s).length + 1 - cfg.router.maxStreamLen))

variable (cfg) in
omit [SignedFloat64 F] in
/-- What `MAXLEN` counts is what the worker has a payload of. -/
theorem lengthOf_eq (s : RouterState F) :
    Router.lengthOf s.entries (zoneStream cfg.idx) = (payloads cfg s).length := by
  rw [payloads, List.length_map, Router.lengthOf, List.countP_eq_length_filter]

variable (cfg) in
omit [SignedFloat64 F] in
theorem grows_appended (s : RouterState F) (stream event : String) (trim : Nat) :
    Grows cfg s (Router.appended cfg.router s stream event trim) := by
  by_cases mine : stream = zoneStream cfg.idx
  · subst mine
    have grown : payloads cfg (Router.appended cfg.router s (zoneStream cfg.idx) event trim) =
        payloads cfg s ++ [(cfg.router.ingester cfg.codec cfg.settlement.newV5).payloadOf
          (StreamEntry.raw ⟨zoneStream cfg.idx, s.entries.length, event⟩)] := by
      simp [payloads, Router.appended]
    refine .inr ⟨_, trim, grown, ?_⟩
    have length := lengthOf_eq cfg
      (Router.appended cfg.router s (zoneStream cfg.idx) event trim)
    rw [grown, List.length_append, List.length_singleton] at length
    rw [← length]
    exact Function.update_self ..
  · refine .inl ⟨?_, Function.update_of_ne (Ne.symm mine) _ _⟩
    simp [payloads, Router.appended, mine]

/-- A step of the router appends one entry to the stream of the zone at most, and may trim it only
then. -/
theorem grows_of_step {r later : Pool.State (RouterState F) (DisseminateCall F)}
    {e : Pool.Event (DisseminateCall F) Router.Move Empty}
    (moved : (Router.system cfg.router).step r e = some later) :
    Grows cfg r.shared later.shared := by
  cases Pool.System.moves_of_step moved with
  | start admitted => exact .inl ⟨rfl, rfl⟩
  | @move i m call next later here acted =>
    rcases Router.streams_act (Router.acts_of_act acted) with
      ⟨same, kept⟩ | ⟨stream, event, trim, grown, less⟩
    · exact .inl ⟨by rw [payloads, payloads, same], congrFun kept _⟩
    · have appended := grows_appended cfg r.shared stream event trim
      unfold Grows payloads at appended ⊢
      rw [grown, less]
      exact appended
  | @outside e _ _ => exact e.elim

omit [SignedFloat64 F] in
/-- Only an `XADD` changes the entries, or what of them is gone. -/
theorem entries_of_step {codec : DecimalCodec F} {settlement : SettlementConfig} {z t : Zone F}
    {e : Zone.Event F} (others : ∀ payload trim, e ≠ .xadd payload trim)
    (moved : Zone.step codec settlement z e = some t) : t.entries = z.entries ∧ t.gone = z.gone := by
  cases Zone.moves_of_step moved with
  | added => exact absurd rfl (others _ _)
  | _ => exact ⟨rfl, rfl⟩

/-- The worker has the entries of the stream from where its group begins, less what is gone, and the
stream is left its maximum. -/
structure Linked (cfg : Config F) (p : Pipeline F) : Prop where
  entries : p.zone.entries = visible cfg p.router.shared p.group
  gone : p.zone.gone = trimmed cfg p.router.shared p.group
  inside : ∀ start ∈ p.group, start ≤ (payloads cfg p.router.shared).length
  left : p.router.shared.gone (zoneStream cfg.idx) = 0 ∨
    p.router.shared.gone (zoneStream cfg.idx) + cfg.router.maxStreamLen ≤
      (payloads cfg p.router.shared).length

omit [SignedFloat64 F] in
/-- To the worker, what the router does to the stream is an `XADD`, or nothing. -/
theorem visible_step {s later : RouterState F} {group : Option Nat}
    (inside : ∀ start ∈ group, start ≤ (payloads cfg s).length)
    (bounded : s.gone (zoneStream cfg.idx) ≤ (payloads cfg s).length) (grows : Grows cfg s later) :
    visible cfg later group = visible cfg s group ∧ trimmed cfg later group = trimmed cfg s group ∨
      ∃ payload trim, visible cfg later group = visible cfg s group ++ [payload] ∧
        trimmed cfg later group =
          max (trimmed cfg s group) (min trim ((visible cfg s group).length + 1)) := by
  cases group with
  | none => exact .inl ⟨rfl, rfl⟩
  | some start =>
    rcases grows with ⟨same, kept⟩ | ⟨payload, trim, grown, less⟩
    · exact .inl ⟨congrArg (List.drop start) same, congrArg (· - start) kept⟩
    · refine .inr ⟨payload, later.gone (zoneStream cfg.idx) - start, ?_, ?_⟩
      · show (payloads cfg later).drop start = (payloads cfg s).drop start ++ [payload]
        rw [grown, List.drop_append_of_le_length (inside start rfl)]
      · have begun := inside start rfl
        simp only [trimmed, visible, List.length_drop]
        omega

omit [SignedFloat64 F] in
theorem Linked.bounded (linked : p.Linked cfg) :
    p.router.shared.gone (zoneStream cfg.idx) ≤ (payloads cfg p.router.shared).length := by
  have left := linked.left
  omega

/-- The worker's entries stay those of the stream, and what is gone for the one is gone for the
other. -/
theorem linked_step (linked : p.Linked cfg) (moved : step cfg p e = some q) : q.Linked cfg := by
  cases moves_of_step moved with
  | @router e router acted =>
    refine ⟨rfl, rfl, fun start begun => ?_, ?_⟩
    · have before := linked.inside start begun
      rcases grows_of_step acted with ⟨same, -⟩ | ⟨payload, -, grown, -⟩
      · exact same ▸ before
      · rw [grown, List.length_append]
        exact Nat.le_add_right_of_le before
    · have left := linked.left
      rcases grows_of_step acted with ⟨same, kept⟩ | ⟨payload, trim, grown, less⟩
      · rw [same, kept]
        exact left
      · rw [grown, less, List.length_append, List.length_singleton]
        omega
  | created first =>
    refine ⟨?_, ?_, fun start begun => ?_, linked.left⟩
    · rw [linked.entries, first]
      exact (List.drop_length).symm
    · rw [linked.gone, first]
      exact (Nat.sub_eq_zero_of_le linked.bounded).symm
    · cases begun
      exact Nat.le_refl _
  | ignored => exact linked
  | zone others acted =>
    obtain ⟨entries, gone⟩ := entries_of_step others acted
    exact ⟨entries.trans linked.entries, gone.trans linked.gone, linked.inside, linked.left⟩

/-- So the two agree after every run, from before the group is created. -/
theorem linked_of_chain (chain : Steps (step cfg) C init p) : p.Linked cfg :=
  chain.invariant (fun _ _ _ linked _ => linked_step linked) ⟨rfl, rfl, nofun, .inl rfl⟩

/-- A step of the router is one of the worker, in which others append, or the worker sees none. -/
theorem zone_of_router {e : Pool.Event (DisseminateCall F) Router.Move Empty}
    {router : Pool.State (RouterState F) (DisseminateCall F)} (linked : p.Linked cfg)
    (moved : (Router.system cfg.router).step p.router e = some router) {zone : Zone F}
    (seen : zone =
      { p.zone with
        entries := visible cfg router.shared p.group
        gone := trimmed cfg router.shared p.group }) :
    zone = p.zone ∨ ∃ payload trim,
      Zone.step cfg.codec cfg.settlement p.zone (.xadd payload trim) = some zone := by
  rw [seen]
  rcases visible_step linked.inside linked.bounded (grows_of_step moved) with
    ⟨same, kept⟩ | ⟨payload, trim, grown, less⟩
  · left
    rw [same, kept, ← linked.entries, ← linked.gone]
  · refine .inr ⟨payload, trim, ?_⟩
    rw [grown, less, ← linked.entries, ← linked.gone]
    rfl

/-- The worker's part of a run is a run over a stream that others append to and trim. -/
theorem ran_of_chain (chain : Steps (step cfg) C init p) :
    Steps (Zone.step cfg.codec cfg.settlement) Always Zone.init p.zone := by
  induction chain with
  | refl => exact .refl _
  | @tail p q e before _ moved ih =>
    cases moves_of_step moved with
    | router acted =>
      rcases zone_of_router (linked_of_chain before) acted rfl with same | ⟨payload, trim, added⟩
      · exact same.symm ▸ ih
      · exact .tail ih trivial added
    | created first => exact ih
    | ignored => exact ih
    | zone others acted => exact .tail ih trivial acted

/-- What the worker does beside the router is a run of a worker whose stream anybody appends to and
trims. It has what was appended to its stream since its group was created; gone is what the router has
trimmed of that, and never any of the latest entries, as many as the maximum length. -/
theorem zone_of_chain (chain : Steps (step cfg) C init p) :
    Steps (Zone.step cfg.codec cfg.settlement) Always Zone.init p.zone ∧
      p.zone.entries = visible cfg p.router.shared p.group ∧
      p.zone.gone = trimmed cfg p.router.shared p.group ∧
      (p.zone.gone = 0 ∨ p.zone.gone + cfg.router.maxStreamLen ≤ p.zone.entries.length) := by
  have linked := linked_of_chain chain
  refine ⟨ran_of_chain chain, linked.entries, linked.gone, ?_⟩
  have left := linked.left
  rw [linked.gone, linked.entries]
  cases group : p.group with
  | none => exact .inl rfl
  | some start =>
    simp only [trimmed, visible, List.length_drop]
    omega

/-! ## The readings -/

/-- The readings that are disseminated can be read back. -/
def Legible (cfg : Config F) : Event F → Prop
  | .router (.start call) => call.reading.Legible cfg.router.json
  | _ => True

theorem reading_act {s later : RouterState F} {call next : DisseminateCall F} {m : Router.Move}
    (acted : Router.Acts cfg.router s call m later next) : next.reading = call.reading := by
  cases acted <;> rfl

/-- Readings that can be read back are all there is if no other is ever disseminated. -/
theorem legible_of_chain (legible : ∀ p e, C p e → Legible cfg e)
    (chain : Steps (step cfg) C init p) :
    ∀ call ∈ p.router.procs, call.reading.Legible cfg.router.json := by
  refine chain.invariant
    (P := fun p => ∀ call ∈ p.router.procs, call.reading.Legible cfg.router.json) ?_
    fun _ mem => by cases mem
  intro p e q kept meets moved call mem
  cases moves_of_step moved with
  | router acted =>
    cases Pool.System.moves_of_step acted with
    | start admitted =>
      rcases List.mem_append.mp mem with old | new
      · exact kept call old
      · cases List.mem_singleton.mp new
        exact legible _ _ meets
    | move here took =>
      rcases List.mem_or_eq_of_mem_set mem with old | rfl
      · exact kept call old
      · rw [reading_act (Router.acts_of_act took)]
        exact kept _ (List.mem_of_getElem? here)
    | @outside e _ _ => exact e.elim
  | created first => exact kept call mem
  | ignored => exact kept call mem
  | zone others acted => exact kept call mem

variable {call : DisseminateCall F} {entry : StreamEntry}

omit [SignedFloat64 F] in
/-- To the worker, what a call appended is its reading. -/
theorem payloadOf_raw {event : String}
    (trips : cfg.router.json.RoundTripsWithin SerdeJson.recursionLimit)
    (sound : cfg.router.crypto.Sound) (legible : call.reading.Legible cfg.router.json)
    (wrote : Router.Wrote cfg.router call.reading call.zoned call.unified event)
    (mine : entry ∈ call.entries) :
    (cfg.router.ingester cfg.codec cfg.settlement.newV5).payloadOf entry.raw =
      .reading call.reading := by
  obtain ⟨plain, decoded, read⟩ := wrote.decodes trips sound legible
  have named : entry.raw.named = some [("event", Text.utf8 event)] := by
    simp [RawEntry.named, StreamEntry.raw, Text.ofUtf8_utf8, (wrote.of_entries mine).1]
  have reads : (StreamEvent.ofReading call.reading).reading = some call.reading := by
    unfold StreamEvent.ofReading
    split <;> rfl
  rw [StreamIngester.payloadOf, named, Option.bind_some]
  simp only [lastOf, Option.none_or, if_true, StreamIngester.payload, Text.ofUtf8_utf8,
    Option.bind_some, RouterConfig.ingester, decoded, StreamIngester.textPayload, read, reads]

/-- What a call has in the stream of the zone, as the worker sees it. -/
def inZone (cfg : Config F) (call : DisseminateCall F) : List (EntryPayload F) :=
  if Router.zoneOf cfg.router call.reading = .ok (zoneStream cfg.idx) then
    call.zoned.map fun _ => .reading call.reading
  else []

omit [SignedFloat64 F] in
theorem payloads_of_call (trips : cfg.router.json.RoundTripsWithin SerdeJson.recursionLimit)
    (sound : cfg.router.crypto.Sound) (legible : call.reading.Legible cfg.router.json)
    (progress : Router.Progress cfg.router call.reading call.zoned call.unified call.stage) :
    ((call.entries.filter fun entry => entry.stream = zoneStream cfg.idx).map fun entry =>
      (cfg.router.ingester cfg.codec cfg.settlement.newV5).payloadOf entry.raw) =
        inZone cfg call := by
  by_cases silent : call.entries = []
  · have zoned : call.zoned = [] := List.map_eq_nil_iff.mp (List.append_eq_nil_iff.mp silent).1
    unfold inZone
    rw [silent, zoned]
    split <;> rfl
  · obtain ⟨event, wrote⟩ := progress.wrote silent
    -- of what it appended, the stream of the zone has all that it wrote to its zone, or nothing
    have unified : (call.unified.filter fun entry => entry.stream = zoneStream cfg.idx) = [] := by
      refine List.filter_eq_nil_iff.mpr fun entry mem => ?_
      rw [(wrote.unified entry mem).1]
      simpa using targetStream_ne_zoneStream _ _
    have same : (call.entries.filter fun entry => entry.stream = zoneStream cfg.idx).map
        (fun entry => (cfg.router.ingester cfg.codec cfg.settlement.newV5).payloadOf entry.raw) =
        ((call.zoned.map Prod.fst).filter fun entry => entry.stream = zoneStream cfg.idx).map
          fun _ => .reading call.reading := by
      rw [DisseminateCall.entries, List.filter_append, unified, List.append_nil]
      refine List.map_congr_left fun entry mem => ?_
      exact payloadOf_raw trips sound legible wrote
        (List.mem_append_left _ (List.mem_filter.mp mem).1)
    rw [same]
    unfold inZone
    split
    · next zone =>
      have all : (call.zoned.map Prod.fst).filter
          (fun entry => entry.stream = zoneStream cfg.idx) = call.zoned.map Prod.fst := by
        refine List.filter_eq_self.mpr fun entry mem => ?_
        obtain ⟨z, written, rfl⟩ := List.mem_map.mp mem
        exact decide_eq_true (Checked.ok.inj ((wrote.zoned z written).1.symm.trans zone))
      rw [all, List.map_map]
      rfl
    · next elsewhere =>
      have none_ : (call.zoned.map Prod.fst).filter
          (fun entry => entry.stream = zoneStream cfg.idx) = [] := by
        refine List.filter_eq_nil_iff.mpr fun entry mem here => ?_
        obtain ⟨z, written, rfl⟩ := List.mem_map.mp mem
        exact elsewhere (of_decide_eq_true here ▸ (wrote.zoned z written).1)
      rw [none_]
      rfl

theorem payloads_perm (trips : cfg.router.json.RoundTripsWithin SerdeJson.recursionLimit)
    (sound : cfg.router.crypto.Sound) (legible : ∀ p e, C p e → Legible cfg e)
    (chain : Steps (step cfg) C init p) :
    (payloads cfg p.router.shared).Perm (p.router.procs.flatMap (inZone cfg)) := by
  have chain' := router_of_chain chain
  have dealt := ((Router.entries_owned chain').filter
    fun entry => entry.stream = zoneStream cfg.idx).map fun entry =>
      (cfg.router.ingester cfg.codec cfg.settlement.newV5).payloadOf entry.raw
  rw [List.filter_flatMap, List.map_flatMap] at dealt
  refine dealt.trans (List.Perm.of_eq (List.flatMap_congr fun call mem => ?_))
  exact payloads_of_call trips sound (legible_of_chain legible chain call mem)
    (Router.progress_of_chain chain' call mem)

/-- Whatever the worker sees is a reading of a call. -/
theorem readings_of_chain (trips : cfg.router.json.RoundTripsWithin SerdeJson.recursionLimit)
    (sound : cfg.router.crypto.Sound) (legible : ∀ p e, C p e → Legible cfg e)
    (chain : Steps (step cfg) C init p) :
    ∀ payload ∈ p.zone.entries, ∃ call ∈ p.router.procs, payload = .reading call.reading := by
  intro payload mem
  have listed : payload ∈ payloads cfg p.router.shared := by
    rw [(linked_of_chain chain).entries] at mem
    unfold visible at mem
    split at mem
    · cases mem
    · exact List.mem_of_mem_drop mem
  obtain ⟨call, running, mine⟩ :=
    List.mem_flatMap.mp ((payloads_perm trips sound legible chain).mem_iff.mp listed)
  unfold inZone at mine
  split at mine
  · obtain ⟨z, -, same⟩ := List.mem_map.mp mine
    exact ⟨call, running, same.symm⟩
  · cases mine

/-! ## Nothing that was read is lost -/

variable {z t : Zone F} {billed : List Nat} {ids : List Nat} {task : ZoneTask}
  {stageOf : EntryPayload F → Option TaskStage} {codec : DecimalCodec F}
  {settlement : SettlementConfig}

/-- Every entry is a reading. -/
def AllReadings (z : Zone F) : Prop :=
  ∀ payload ∈ z.entries, ∃ reading, payload = .reading reading

omit [Float64 F] [SignedFloat64 F] in
/-- Every task for a reading begins with handling it. -/
theorem stage_of_tasksFor (handles : ∀ reading, stageOf (.reading reading) = some .handle)
    (readings : AllReadings z) (mem : task ∈ z.tasksFor stageOf ids) : task.stage = .handle := by
  obtain ⟨id, -, spawned⟩ := List.mem_filterMap.mp mem
  obtain ⟨stage, staged, rfl⟩ := Option.map_eq_some_iff.mp spawned
  obtain ⟨payload, here, acts⟩ := Option.bind_eq_some_iff.mp staged
  obtain ⟨reading, rfl⟩ := readings payload (List.mem_of_getElem? here)
  exact Option.some.inj (acts.symm.trans (handles reading))

omit [Float64 F] [SignedFloat64 F] in
theorem stage_of_xack {i : Nat} {reply : Reply} (moved : z.xack i reply = some t) :
    ∃ task, z.tasks[i]? = some task ∧ task.stage = .ack := by
  obtain ⟨task, at_, moved⟩ := Option.bind_eq_some_iff.mp moved
  split at moved
  · next stage => exact ⟨task, at_, stage⟩
  · cases moved

/-- What was read is billed, pending or gone, and what a task acknowledges is billed. -/
structure Handed (z : Zone F) (billed : List Nat) : Prop where
  read : ∀ id < z.cursor, id ∈ billed ∨ id ∈ z.pending.map Prod.fst ∨ id < z.gone
  acked : ∀ task ∈ z.tasks, task.stage = .ack → task.entry ∈ billed

omit [Float64 F] [SignedFloat64 F] in
theorem Handed.mono {more : List Nat} (handed : Handed z billed) (le : billed ⊆ more) :
    Handed z more :=
  ⟨fun id below => (handed.read id below).imp_left fun mem => le mem,
    fun task mem stage => le (handed.acked task mem stage)⟩

omit [Float64 F] [SignedFloat64 F] in
theorem mem_deliverAll_self {now : Int} {pending : List (Nat × Int)} {id : Nat} (mem : id ∈ ids) :
    id ∈ (ids.foldl (Zone.deliver now) pending).map Prod.fst := by
  induction ids generalizing pending with
  | nil => cases mem
  | cons other ids ih =>
    rcases List.mem_cons.mp mem with rfl | later
    · have first : id ∈ (Zone.deliver now pending id).map Prod.fst := by
        rw [Zone.ids_deliver]
        split
        · next listed =>
          obtain ⟨q, there, same⟩ := List.any_eq_true.mp listed
          exact List.mem_map.mpr ⟨q, there, of_decide_eq_true same⟩
        · exact List.mem_append_right _ List.mem_cons_self
      exact (Zone.ids_deliverAll now _ ids).subset first
    · exact ih later

omit [Float64 F] [SignedFloat64 F] in
/-- What is read becomes pending, and what the group passes over is gone. -/
theorem Handed.readMore (handed : Handed z billed) {tasks : List ZoneTask}
    (mine : ∀ task ∈ tasks, task ∈ z.tasks ∨ task.stage = .handle) :
    Handed { z with
      cursor := z.next + z.unread.length
      pending := z.unread.foldl (Zone.deliver z.clock) z.pending
      tasks := tasks } billed where
  read id below := by
    by_cases old : id < z.cursor
    · exact (handed.read id old).imp_right fun kept => kept.imp_left fun listed =>
        (Zone.ids_deliverAll z.clock z.pending z.unread).subset listed
    · by_cases passed : id < z.next
      · exact .inr (.inr ((lt_max_iff.mp passed).resolve_left old))
      · have fresh : id ∈ z.unread := by
          simp only [Zone.unread, List.length_range'] at below
          simp only [Zone.unread, List.mem_range'_1]
          omega
        exact .inr (.inl (mem_deliverAll_self fresh))
  acked task mem stage := by
    rcases mine task mem with old | new
    · exact handed.acked task old stage
    · rw [new] at stage
      cases stage

omit [Float64 F] [SignedFloat64 F] in
/-- What an `XCLAIM` takes off the list is gone. -/
theorem Handed.claim (handed : Handed z billed) (pass : Nat) (ids : List Nat)
    {tasks : List ZoneTask} (mine : ∀ task ∈ tasks, task ∈ z.tasks ∨ task.stage = .handle) :
    Handed { z with
      claims := z.claims.eraseIdx pass
      pending := (z.claimable ids).foldl (Zone.deliver z.clock) (z.cleared ids)
      tasks := tasks } billed where
  read id below := by
    refine (handed.read id below).imp_right fun kept => ?_
    rcases kept with listed | gone
    · by_cases there : z.gone ≤ id
      · obtain ⟨p, found, rfl⟩ := List.mem_map.mp listed
        have left : p ∈ z.cleared ids := List.mem_filter.mpr ⟨found, decide_eq_true (.inr there)⟩
        exact .inl ((Zone.ids_deliverAll z.clock _ _).subset (List.mem_map_of_mem left))
      · exact .inr (Nat.lt_of_not_le there)
    · exact .inr gone
  acked task mem stage := by
    rcases mine task mem with old | new
    · exact handed.acked task old stage
    · rw [new] at stage
      cases stage

omit [SignedFloat64 F] in
/-- What was read stays pending until `handle_reading` was called for it: a task acknowledges after
that only, and a claim gives the entry to another task. -/
theorem handed_step {e : Zone.Event F} (readings : AllReadings z) (handed : Handed z billed)
    (moved : Zone.step codec settlement z e = some t) :
    Handed t (billed ++ billedBy z e) := by
  have more : billed ⊆ billed ++ billedBy z e := List.subset_append_left _ _
  cases Zone.moves_of_step moved with
  | read =>
    refine (handed.readMore fun task mem => ?_).mono more
    exact (List.mem_append.mp mem).imp_right (stage_of_tasksFor (fun _ => rfl) readings)
  | readLost => exact (handed.readMore fun task mem => .inl mem).mono more
  | claimed found =>
    refine (handed.claim _ _ fun task mem => ?_).mono more
    exact (List.mem_append.mp mem).imp_right (stage_of_tasksFor (fun _ => rfl) readings)
  | claimLost found => exact (handed.claim _ _ fun task mem => .inl mem).mono more
  | @handled i id now userId reading world at_ here billedHere =>
    refine ⟨fun id below => (handed.read id below).imp_left fun mem => more mem, ?_⟩
    intro task mem stage
    rcases List.mem_or_eq_of_mem_set mem with old | rfl
    · exact more (handed.acked task old stage)
    · refine List.mem_append_right _ ?_
      simp [billedBy, at_]
  | @acked i reply task at_ =>
    obtain ⟨task', at', stage⟩ := stage_of_xack moved
    cases at_.symm.trans at'
    have done := handed.acked task (List.mem_of_getElem? at_) stage
    refine Handed.mono ⟨fun id below => ?_, fun task mem =>
      handed.acked task (List.mem_of_mem_eraseIdx mem)⟩ more
    rcases handed.read id below with billed | listed | gone
    · exact .inl billed
    · by_cases same : id = task.entry
      · exact .inl (same ▸ done)
      · refine .inr (.inl ?_)
        rcases reply.effect_cases (·.filter fun p => p.1 ≠ task.entry) z.pending with kept | del
        · rw [kept]
          exact listed
        · rw [del]
          obtain ⟨p, there, rfl⟩ := List.mem_map.mp listed
          exact List.mem_map_of_mem (List.mem_filter.mpr ⟨there, decide_eq_true same⟩)
    · exact .inr (.inr gone)
  | restarted billedHere => exact Handed.mono ⟨handed.read, nofun⟩ more
  | added =>
    refine Handed.mono ⟨fun id below => ?_, handed.acked⟩ more
    exact (handed.read id below).imp_right fun kept => kept.imp_right fun gone =>
      gone.trans_le (Nat.le_max_left _ _)
  | ticked => exact Handed.mono ⟨handed.read, handed.acked⟩ more
  | unread => exact handed.mono more
  | looked => exact Handed.mono ⟨handed.read, handed.acked⟩ more
  | unclaimed => exact Handed.mono ⟨handed.read, handed.acked⟩ more
  | settled billedHere reads runs => exact Handed.mono ⟨handed.read, handed.acked⟩ more

/-- Whatever fails, is slow or restarts: every entry that was appended to the stream since its group
was created is a reading of a call, and it is yet to be read, or pending, or `handle_reading` was
called for it, or the router has trimmed it. An entry that is trimmed while it is pending is gone
from the pending list at the next claim. -/
theorem read_is_pending_or_billed
    (trips : cfg.router.json.RoundTripsWithin SerdeJson.recursionLimit)
    (sound : cfg.router.crypto.Sound)
    (chain : Steps (step cfg) (fun _ e => Legible cfg e) init p) :
    p.zone.entries = visible cfg p.router.shared p.group ∧
      (∀ payload ∈ p.zone.entries, ∃ call ∈ p.router.procs, payload = .reading call.reading) ∧
      ∀ id < p.zone.entries.length,
        p.zone.cursor ≤ id ∨ id ∈ p.zone.pending.map Prod.fst ∨ id ∈ p.billed ∨
          id < p.zone.gone := by
  have handed : Handed p.zone p.billed := by
    induction chain with
    | refl => exact ⟨nofun, nofun⟩
    | @tail p q e before meets moved ih =>
      have readings : AllReadings p.zone := fun payload mem => by
        obtain ⟨call, -, same⟩ :=
          readings_of_chain trips sound (fun _ _ meets => meets) before payload mem
        exact ⟨_, same⟩
      cases moves_of_step moved with
      | router acted =>
        rcases zone_of_router (linked_of_chain before) acted rfl with same | ⟨payload, trim, added⟩
        · exact same.symm ▸ ih
        · exact List.append_nil p.billed ▸ handed_step readings ih added
      | created first => exact ih
      | ignored => exact ih
      | zone others acted => exact handed_step readings ih acted
  refine ⟨(linked_of_chain chain).entries,
    readings_of_chain trips sound (fun _ _ meets => meets) chain, fun id _ => ?_⟩
  by_cases unread : p.zone.cursor ≤ id
  · exact .inl unread
  · rcases handed.read id (Nat.lt_of_not_le unread) with billed | pending | gone
    · exact .inr (.inr (.inl billed))
    · exact .inr (.inl pending)
    · exact .inr (.inr (.inr gone))

/-- The worker of zone 3, over streams that may be trimmed to one entry. -/
private noncomputable def thirdWorker : Config WholeDouble :=
  ⟨⟨compactJson, idleCrypto, none, fun _ => 0, 4, 1, true, true⟩, wholeCodec, World.oneMeter, 3⟩

private def zoneReading : DeviceReading WholeDouble :=
  { kwhReading "5" with zoneCode := some "ZONE3" }

private theorem zoneReading_legible : zoneReading.Legible compactJson :=
  ⟨⟨trivial, List.nodup_nil, nofun⟩, rfl, by decide⟩

/-- A call whose first try is appended and not told, with the group created before and again. Its
second entry trims the first. The worker reads without being told, and restarts. -/
private def unheardRead : List (Event WholeDouble) :=
  [.setup .ok, .router (.move 0 (.connect zeroNonce)), .router (.move 0 (.xadd .lost 1)),
    .setup .ok, .router (.move 0 .invalidate), .router (.move 0 (.connect zeroNonce)),
    .router (.move 0 (.build (.ok ()))), .router (.move 0 (.store zeroNonce)),
    .router (.move 0 (.xadd .ok 1)), .zone (.xreadgroup .lost), .zone (.settle (.restart false))]

private noncomputable def began : Pipeline WholeDouble :=
  { (init : Pipeline WholeDouble) with
    router := ⟨Router.init, [⟨0, zoneReading, .connecting, [], []⟩]⟩ }

private theorem began_step :
    step thirdWorker init (.router (.start ⟨0, zoneReading, .connecting, [], []⟩)) = some began :=
  rfl

/-- Anything but the beginning of a call. -/
private def follows : Event WholeDouble → Bool
  | .router (.start _) => false
  | _ => true

private theorem legible_of_follows {e : Event WholeDouble} (later : follows e = true) :
    Legible thirdWorker e := by
  unfold Legible
  split
  · cases later
  · trivial

private theorem unheardRead_run :
    (Transition.run (step thirdWorker) (fun _ e => follows e = true) unheardRead began).isSome := by
  decide +kernel

private noncomputable def unheardState : Pipeline WholeDouble :=
  (Transition.run (step thirdWorker) (fun _ e => follows e = true) unheardRead began).get
    unheardRead_run

private theorem unheardState_reached :
    Steps (step thirdWorker) (fun _ e => Legible thirdWorker e) init unheardState := by
  have begins : Steps (step thirdWorker) (fun _ e => Legible thirdWorker e) init began := by
    refine .single ?_ began_step
    exact zoneReading_legible
  exact begins.trans
    ((Steps.of_run_get unheardRead_run).mono fun _ _ later => legible_of_follows later)

/-- Its worker has run beside the router, and one of two entries is gone. -/
theorem unheard_zone :
    Steps (Zone.step wholeCodec World.oneMeter) Always Zone.init unheardState.zone ∧
      unheardState.zone.entries = visible thirdWorker unheardState.router.shared (some 0) ∧
      unheardState.zone.gone = 1 := by
  have begins : unheardState.group = some 0 := by decide +kernel
  obtain ⟨ran, entries, -, -⟩ := zone_of_chain unheardState_reached
  rw [begins] at entries
  exact ⟨ran, entries, by decide +kernel⟩

/-- The entry that was read is pending, and the other one was gone before it was read. -/
theorem unheard_pending :
    unheardState.zone.entries.length = 2 ∧ unheardState.billed = [] ∧
      1 ∈ unheardState.zone.pending.map Prod.fst := by
  have trips : thirdWorker.router.json.RoundTripsWithin SerdeJson.recursionLimit :=
    compactJson_roundTrips.within _
  have kept := (read_is_pending_or_billed trips idleCrypto_sound unheardState_reached).2.2
  have entries : unheardState.zone.entries.length = 2 := by decide +kernel
  have read : unheardState.zone.cursor = 2 := by decide +kernel
  have one_gone : unheardState.zone.gone = 1 := by decide +kernel
  have none_ : unheardState.billed = [] := by decide +kernel
  refine ⟨entries, none_, ?_⟩
  rcases kept 1 (by omega) with unread | pending | billed | gone
  · omega
  · exact pending
  · rw [none_] at billed
    cases billed
  · omega

/-! ## When nothing is slow -/

/-- The worker is not restarted and gets the answers to its reads, a pass that claims finds nothing
that has been pending for too long, and no `XADD` trims an entry that is yet to be read. -/
def Smooth (cfg : Config F) (p : Pipeline F) : Event F → Prop
  | .router e => Legible cfg (.router e) ∧
    ∀ router ∈ (Router.system cfg.router).step p.router e,
      trimmed cfg router.shared p.group ≤ p.zone.cursor
  | .zone (.xreadgroup reply) => reply ≠ .lost
  | .zone (.xclaim pass _) => ∀ ids ∈ p.zone.claims[pass]?, p.zone.claimable ids = []
  | .zone (.settle (.restart _)) => False
  | _ => True

/-- What was read is billed or about to be, once. -/
def Dealt (z : Zone F) (billed : List Nat) : Prop :=
  (billed ++ z.handling).Perm (List.range z.cursor)

omit [Float64 F] [SignedFloat64 F] in
theorem tasksFor_unread (readings : AllReadings z) :
    z.tasksFor EntryPayload.spawned z.unread = z.unread.map fun id => ⟨id, .handle⟩ := by
  refine List.filterMap_eq_map_iff_forall_eq_some.mpr fun id mem => ?_
  have inside : id < z.entries.length := by
    simp only [Zone.unread, List.mem_range'_1] at mem
    omega
  obtain ⟨reading, same⟩ := readings _ (List.getElem_mem inside)
  rw [List.getElem?_eq_getElem inside, same]
  rfl

omit [Float64 F] [SignedFloat64 F] in
theorem Dealt.readMore (readings : AllReadings z) (read : z.gone ≤ z.cursor)
    (dealt : Dealt z billed) :
    Dealt { z with
      cursor := z.next + z.unread.length
      pending := z.unread.foldl (Zone.deliver z.clock) z.pending
      tasks := z.tasks ++ z.tasksFor EntryPayload.spawned z.unread } billed := by
  have fresh : ((z.unread.map fun id => (⟨id, .handle⟩ : ZoneTask)).filter
      fun task => task.stage = .handle).map ZoneTask.entry = z.unread := by
    rw [List.filter_eq_self.mpr (by simp), List.map_map]
    exact List.map_id _
  have ranges : List.range (z.next + z.unread.length) = List.range z.cursor ++ z.unread := by
    have here : z.next = z.cursor := Nat.max_eq_left read
    simp only [Zone.unread, List.length_range', List.range_eq_range', ← List.range'_append_1,
      Nat.zero_add, here]
  unfold Dealt Zone.handling
  rw [tasksFor_unread readings, List.filter_append, List.map_append, fresh, ranges,
    ← List.append_assoc]
  exact dealt.append_right _

omit [Float64 F] [SignedFloat64 F] in
theorem handling_perm {i : Nat} (at_ : z.tasks[i]? = some task) :
    z.handling.Perm (((task :: z.tasks.eraseIdx i).filter fun task => task.stage = .handle).map
      ZoneTask.entry) := by
  obtain ⟨inside, rfl⟩ := List.getElem?_eq_some_iff.mp at_
  exact ((List.getElem_cons_eraseIdx_perm inside).symm.filter _).map _

omit [Float64 F] [SignedFloat64 F] in
theorem Dealt.handle {i id : Nat} {world : World Nat} (dealt : Dealt z billed)
    (at_ : z.tasks[i]? = some ⟨id, .handle⟩) :
    Dealt { z with world := world, tasks := z.tasks.set i ⟨id, .ack⟩ } (billed ++ [id]) := by
  have inside := (List.getElem?_eq_some_iff.mp at_).1
  have left : (Zone.handling { z with world := world, tasks := z.tasks.set i ⟨id, .ack⟩ }).Perm
      (((z.tasks.eraseIdx i).filter fun task => task.stage = .handle).map ZoneTask.entry) :=
    ((List.set_perm_cons_eraseIdx inside (⟨id, .ack⟩ : ZoneTask)).filter _).map _
  have mine : z.handling.Perm
      (id :: ((z.tasks.eraseIdx i).filter fun task => task.stage = .handle).map ZoneTask.entry) :=
    handling_perm at_
  have moved : (billed ++ [id] ++
      Zone.handling { z with world := world, tasks := z.tasks.set i ⟨id, .ack⟩ }).Perm
        (billed ++ z.handling) := by
    rw [List.append_assoc]
    exact ((left.cons id).trans mine.symm).append_left billed
  exact moved.trans dealt

omit [SignedFloat64 F] in
/-- When nothing is slow or lost, a step deals each entry that it reads to one task, and each task
once to billing. -/
theorem dealt_step {e : Zone.Event F} (readings : AllReadings z) (read : z.gone ≤ z.cursor)
    (dealt : Dealt z billed) (heard : e ≠ .xreadgroup .lost)
    (prompt : ∀ pass reply, e = .xclaim pass reply →
      ∀ ids ∈ z.claims[pass]?, z.claimable ids = [])
    (runs : ∀ loaded, e ≠ .settle (.restart loaded))
    (moved : Zone.step codec settlement z e = some t) : Dealt t (billed ++ billedBy z e) := by
  cases Zone.moves_of_step moved with
  | read => exact (List.append_nil billed).symm ▸ dealt.readMore readings read
  | readLost => exact absurd rfl heard
  | @claimed pass ids found =>
    have nothing : z.claimable ids = [] := prompt pass .ok rfl ids found
    have unchanged : z.tasks ++ z.tasksFor EntryPayload.reclaimed (z.claimable ids) = z.tasks := by
      rw [nothing]
      exact List.append_nil _
    unfold Dealt Zone.handling
    rw [unchanged]
    exact (List.append_nil billed).symm ▸ dealt
  | @handled i id now userId reading world at_ here billedHere =>
    have mine : billedBy z (.handle i now userId) = [id] := by
      simp only [billedBy, at_, Option.map_some, Option.toList_some]
    rw [mine]
    exact dealt.handle at_
  | @acked i reply task at_ =>
    obtain ⟨task', at', stage⟩ := stage_of_xack moved
    cases at_.symm.trans at'
    have same := handling_perm at_
    rw [List.filter_cons_of_neg (by simp [stage])] at same
    exact (List.append_nil billed).symm ▸ (same.symm.append_left billed).trans dealt
  | restarted billedHere => exact absurd rfl (runs _)
  | _ => exact (List.append_nil billed).symm ▸ dealt

theorem Smooth.legible (smooth : Smooth cfg p e) : Legible cfg e := by
  cases e with
  | router e => exact smooth.1
  | setup reply => trivial
  | zone e => trivial

omit [SignedFloat64 F] in
/-- The group's place in the stream does not go back. -/
theorem cursor_le_of_step {e : Zone.Event F} (moved : Zone.step codec settlement z e = some t) :
    z.cursor ≤ t.cursor := by
  cases Zone.moves_of_step moved with
  | read => exact Nat.le_add_right_of_le Zone.cursor_le_next
  | readLost => exact Nat.le_add_right_of_le Zone.cursor_le_next
  | _ => exact Nat.le_refl _

/-- Nothing is gone that was not read. -/
theorem read_of_chain (chain : Steps (step cfg) (Smooth cfg) init p) :
    p.zone.gone ≤ p.zone.cursor := by
  refine chain.invariant (P := fun p => p.zone.gone ≤ p.zone.cursor) ?_ (Nat.le_refl 0)
  intro p e q read meets moved
  cases moves_of_step moved with
  | router acted => exact meets.2 _ acted
  | created first => exact read
  | ignored => exact read
  | zone others acted =>
    exact (entries_of_step others acted).2.trans_le (read.trans (cursor_le_of_step acted))

/-- So in a smooth run everything that was read is billed or about to be, once. -/
theorem dealt_of_chain (trips : cfg.router.json.RoundTripsWithin SerdeJson.recursionLimit)
    (sound : cfg.router.crypto.Sound) (chain : Steps (step cfg) (Smooth cfg) init p) :
    Dealt p.zone p.billed := by
  induction chain with
  | refl => exact List.Perm.refl _
  | tail before meets moved ih =>
    have readings := readings_of_chain trips sound (fun _ _ smooth => smooth.legible) before
    cases moves_of_step moved with
    | router acted => exact ih
    | created first => exact ih
    | ignored => exact ih
    | zone others acted =>
      refine dealt_step (fun payload mem => ?_) (read_of_chain before) ih ?_ ?_ ?_ acted
      · obtain ⟨call, -, same⟩ := readings payload mem
        exact ⟨_, same⟩
      · rintro rfl
        exact meets rfl
      · rintro pass reply rfl
        exact meets
      · rintro loaded rfl
        exact meets

omit [Float64 F] [SignedFloat64 F] in
theorem filterMap_getElem?_range {α : Type} (l : List α) :
    (List.range l.length).filterMap (fun i => l[i]?) = l := by
  induction l using List.reverseRecOn with
  | nil => rfl
  | append_singleton l x ih =>
    have before : (List.range l.length).filterMap (fun i => (l ++ [x])[i]?) =
        (List.range l.length).filterMap fun i => l[i]? :=
      List.filterMap_congr fun i mem => List.getElem?_append_left (List.mem_range.mp mem)
    rw [List.length_append, List.length_singleton, List.range_succ, List.filterMap_append, before,
      ih]
    simp

/-- When the group was there before anything was appended and the worker is through with its stream,
the readings that `handle_reading` was called for are those of the calls of the zone, each as many
times as its call has appended it, which is once or twice for a call that returned an id. A retried
`XADD` whose first try was executed bills its reading twice, and this is where it shows. -/
theorem billed_as_disseminated
    (trips : cfg.router.json.RoundTripsWithin SerdeJson.recursionLimit)
    (sound : cfg.router.crypto.Sound) (chain : Steps (step cfg) (Smooth cfg) init p)
    (created : p.group = some 0) (read : p.zone.cursor = p.zone.entries.length)
    (through : p.zone.tasks = []) :
    (p.billed.filterMap fun id => p.zone.entries[id]?).Perm
        (p.router.procs.flatMap (inZone cfg)) ∧
      ∀ call ∈ p.router.procs, call.answered = true →
        call.zoned.length = 1 ∨ call.zoned.length = 2 := by
  constructor
  · have dealt : (p.billed ++ p.zone.handling).Perm (List.range p.zone.cursor) :=
      dealt_of_chain trips sound chain
    rw [Zone.handling, through, read] at dealt
    have billed : p.billed.Perm (List.range p.zone.entries.length) := by simpa using dealt
    have entries : p.zone.entries = payloads cfg p.router.shared := by
      rw [(linked_of_chain chain).entries, created]
      rfl
    have each := billed.filterMap fun id => p.zone.entries[id]?
    rw [filterMap_getElem?_range] at each
    refine each.trans ?_
    rw [entries]
    exact payloads_perm trips sound (fun _ _ smooth => smooth.legible) chain
  · intro call mem answered
    have progress := Router.progress_of_chain (router_of_chain chain) call mem
    unfold DisseminateCall.answered at answered
    split at answered
    · next at_ =>
      rw [at_] at progress
      obtain ⟨⟨before, entry, zoned, -, short, -⟩, -⟩ := progress
      rw [zoned, List.length_append, List.length_singleton]
      omega
    · cases answered

/-- Neither the beginning of a call nor anything that is not smooth. -/
private noncomputable def smoothly (p : Pipeline WholeDouble) : Event WholeDouble → Bool
  | .router (.start _) => false
  | .router e => ((Router.system thirdWorker.router).step p.router e).all fun router =>
    decide (trimmed thirdWorker router.shared p.group ≤ p.zone.cursor)
  | .zone (.xreadgroup reply) => reply != .lost
  | .zone (.xclaim _ _) => false
  | .zone (.settle _) => false
  | _ => true

private theorem smooth_of_smoothly {p : Pipeline WholeDouble} {e : Event WholeDouble}
    (runs : smoothly p e = true) : Smooth thirdWorker p e := by
  cases e with
  | setup reply => trivial
  | zone e =>
    cases e with
    | xreadgroup reply =>
      show reply ≠ .lost
      simpa [smoothly] using runs
    | xclaim pass reply => cases runs
    | settle e => cases runs
    | _ => trivial
  | router e =>
    cases e with
    | start call => cases runs
    | outside e => exact e.elim
    | move i m =>
      refine ⟨trivial, fun router moved => ?_⟩
      have read : ((Router.system thirdWorker.router).step p.router (.move i m)).all (fun router =>
          decide (trimmed thirdWorker router.shared p.group ≤ p.zone.cursor)) = true := runs
      rw [Option.mem_def.mp moved] at read
      exact of_decide_eq_true read

/-- The same call, until it has returned, with nothing trimmed. -/
private def publishing : List (Event WholeDouble) :=
  [.setup .ok, .router (.move 0 (.connect zeroNonce)), .router (.move 0 (.xadd .lost 0)),
    .router (.move 0 .invalidate), .router (.move 0 (.connect zeroNonce)),
    .router (.move 0 (.build (.ok ()))), .router (.move 0 (.store zeroNonce)),
    .router (.move 0 (.xadd .ok 0)), .router (.move 0 (.xadd .ok 0)), .router (.move 0 .mirror)]

private theorem publishing_run :
    (Transition.run (step thirdWorker) (fun p e => smoothly p e = true) publishing began).isSome := by
  decide +kernel

private noncomputable def publishedState : Pipeline WholeDouble :=
  (Transition.run (step thirdWorker) (fun p e => smoothly p e = true) publishing began).get
    publishing_run

private theorem publishedState_reached :
    Steps (step thirdWorker) (Smooth thirdWorker) init publishedState := by
  have begins : Steps (step thirdWorker) (Smooth thirdWorker) init began := by
    refine .single ?_ began_step
    exact ⟨zoneReading_legible, fun _ _ => Nat.zero_le _⟩
  exact begins.trans
    ((Steps.of_run_get publishing_run).mono fun _ _ runs => smooth_of_smoothly runs)

private theorem publishedState_entries :
    publishedState.zone.entries = List.replicate 2 (.reading zoneReading) := by
  have length : publishedState.zone.entries.length = 2 := by decide +kernel
  have procs : publishedState.router.procs.map DisseminateCall.reading = [zoneReading] := rfl
  have trips : thirdWorker.router.json.RoundTripsWithin SerdeJson.recursionLimit :=
    compactJson_roundTrips.within _
  have readings := readings_of_chain trips idleCrypto_sound (fun _ _ smooth => smooth.legible)
    publishedState_reached
  refine List.eq_replicate_iff.mpr ⟨length, fun payload mem => ?_⟩
  obtain ⟨call, running, same⟩ := readings payload mem
  have listed := List.mem_map_of_mem (f := DisseminateCall.reading) running
  rw [procs] at listed
  rw [same, List.mem_singleton.mp listed]

/-- The worker takes both entries through. -/
private def billing : List (Event WholeDouble) :=
  [.zone (.xreadgroup .ok), .zone (.handle 1 (DateTime.ofSecs 1) 7),
    .zone (.handle 0 (DateTime.ofSecs 1) 7), .zone (.xack 0 .lost), .zone (.xack 0 .ok)]

private noncomputable def readyState : Pipeline WholeDouble :=
  ⟨publishedState.router, some 0,
    { (Zone.init : Zone WholeDouble) with entries := List.replicate 2 (.reading zoneReading) }, []⟩

private theorem readyState_reached :
    Steps (step thirdWorker) (Smooth thirdWorker) init readyState := by
  have same : publishedState = ⟨publishedState.router, some 0,
      { (Zone.init : Zone WholeDouble) with entries := publishedState.zone.entries }, []⟩ := rfl
  have reached := publishedState_reached
  rw [same, publishedState_entries] at reached
  exact reached

private theorem billing_run :
    (Transition.run (step thirdWorker) (fun p e => smoothly p e = true) billing readyState).isSome := by
  decide +kernel

private noncomputable def billedState : Pipeline WholeDouble :=
  (Transition.run (step thirdWorker) (fun p e => smoothly p e = true) billing readyState).get
    billing_run

/-- The answer that was lost is a reading that is billed twice. -/
theorem lost_answer_billed_twice :
    billedState.billed = [1, 0] ∧
      (billedState.billed.filterMap fun id => billedState.zone.entries[id]?).Perm
        (billedState.router.procs.flatMap (inZone thirdWorker)) := by
  have trips : thirdWorker.router.json.RoundTripsWithin SerdeJson.recursionLimit :=
    compactJson_roundTrips.within _
  have chain : Steps (step thirdWorker) (Smooth thirdWorker) init billedState :=
    readyState_reached.trans
      ((Steps.of_run_get billing_run).mono fun _ _ runs => smooth_of_smoothly runs)
  refine ⟨by decide +kernel, ?_⟩
  exact (billed_as_disseminated trips idleCrypto_sound chain (by decide +kernel) (by decide +kernel)
    (by decide +kernel)).1

end Pipeline

end AggregatorBridge
