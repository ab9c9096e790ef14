import AggregatorBridge.PgReadings

/-!
# What became of a row

Rows are inserted as pending. A confirmed mint marks the rows of its meter and window, and a bin
that closes without a surplus takes those that are still pending off that status. Both are best
effort and come in any order, more than once or not at all. A trigger may change what an update
writes: it advances a pending row that gets a transaction signature, of which there is none here.

The table is a function of its history: `tableHistory` says of every row, from what came after it
was inserted, how it ends up. So the order of write-backs makes no difference to any status. A list
of calls is those that were executed, whether the caller was told or not.

The law does not say that a mint is written back at all, or that a row was billed: a write-back
selects rows by meter and window, whoever inserted them.
-/

namespace AggregatorBridge

/-! ## The history of a row -/

namespace TableCall

variable (codec : UuidCodec) (row : StoredRow)

/-- The mint of the row's meter and window that the call writes back. -/
def mints : TableCall → Option MintOutcome
  | markMinted stamp =>
    if row.within codec stamp.meterSerial stamp.windowStartMs then some stamp.outcome else none
  | _ => none

/-- The bin of the row closes without a surplus. -/
def closes : TableCall → Bool
  | markNoSurplus meterSerial windowStartMs => row.within codec meterSerial windowStartMs
  | _ => false

/-- It does not insert. -/
def isWriteBack : TableCall → Bool
  | insertBatch _ => false
  | _ => true

end TableCall

/-- A row with the mint that marked it, or else with a status. -/
def StoredRow.settled (stored : StoredRow) (mint : Option MintOutcome) (status : BlockchainStatus) :
    TableRow :=
  match mint with
  | some outcome => ⟨{ stored with minted := some outcome }, .confirmed, none⟩
  | none => ⟨stored, status, none⟩

/-- A row after the calls that came after it: the first mint counts, and without one any close. -/
def ReadingRow.after (codec : UuidCodec) (row : ReadingRow) (later : List TableCall) : TableRow :=
  let stored := row.stored codec
  stored.settled (later.findSome? (TableCall.mints codec stored))
    (if later.any (TableCall.closes codec stored) then .noSurplus else .pending)

/-- Every row that was inserted, in order, with what became of it. -/
def tableHistory (codec : UuidCodec) : List TableCall → List TableRow
  | [] => []
  | .insertBatch rows :: later =>
    rows.map (fun row => row.after codec later) ++ tableHistory codec later
  | _ :: later => tableHistory codec later

variable {codec : UuidCodec}

/-! ## One row -/

namespace TableCall

/-- What a call does to a row that is there. -/
def onRow (codec : UuidCodec) : TableCall → TableRow → TableRow
  | insertBatch _, old => old
  | markMinted stamp, old => old.markMinted codec stamp
  | markNoSurplus meterSerial windowStartMs, old => old.markNoSurplus codec meterSerial windowStartMs

variable {row : ReadingRow} {call : TableCall}

/-- The trigger never fires. -/
theorem trigger_of_none {old new : TableRow} (unsigned : new.blockchainTxSignature = none) :
    updateBlockchainStatusOnHash old new = new := by
  apply if_neg
  rintro ⟨signed, -⟩
  rw [unsigned] at signed
  cases signed

/-- A row that is marked stays as it is. -/
theorem onRow_confirmed {stored : StoredRow} {outcome : MintOutcome} :
    call.onRow codec ⟨{ stored with minted := some outcome }, .confirmed, none⟩ =
      ⟨{ stored with minted := some outcome }, .confirmed, none⟩ := by
  have marked {serial : String} {window : Int} :
      ({ stored with minted := some outcome } : StoredRow).selected codec serial window = false := by
    simp only [StoredRow.selected, Option.isNone_some, Bool.and_false]
  cases call with
  | insertBatch rows => rfl
  | markMinted stamp => exact if_neg (by rw [marked]; exact Bool.false_ne_true)
  | markNoSurplus serial window =>
    exact if_neg (by rw [TableRow.selected, marked]; exact Bool.false_ne_true)

/-- A row that is not marked. -/
theorem onRow_unmarked {stored : StoredRow} (unmarked : stored.minted = none)
    {status : BlockchainStatus} (isOpen : status = .pending ∨ status = .noSurplus) :
    call.onRow codec ⟨stored, status, none⟩ =
      stored.settled (call.mints codec stored)
        (if call.closes codec stored then .noSurplus else status) := by
  have selects {serial : String} {window : Int} :
      stored.selected codec serial window = stored.within codec serial window := by
    simp only [StoredRow.selected, unmarked, Option.isNone_none, Bool.and_true]
  cases call with
  | insertBatch rows => rfl
  | markMinted stamp =>
    simp only [onRow, TableRow.markMinted, mints, closes, selects]
    split
    · exact trigger_of_none rfl
    · rfl
  | markNoSurplus serial window =>
    simp only [onRow, TableRow.markNoSurplus, TableRow.selected, mints, closes, selects]
    rcases isOpen with rfl | rfl
    · by_cases within : stored.within codec serial window = true
      · simp only [within, beq_self_eq_true, Bool.and_self, if_true]
        exact trigger_of_none rfl
      · simp only [within, Bool.false_and, Bool.false_eq_true, if_false]
        rfl
    · rw [show (BlockchainStatus.noSurplus == .pending) = false from rfl, Bool.and_false,
        if_neg Bool.false_ne_true]
      exact congrArg (stored.settled none) (ite_self _).symm

variable {later : List TableCall} {stored : StoredRow}

theorem foldl_confirmed {outcome : MintOutcome} :
    later.foldl (fun old call => call.onRow codec old)
        ⟨{ stored with minted := some outcome }, .confirmed, none⟩ =
      ⟨{ stored with minted := some outcome }, .confirmed, none⟩ := by
  induction later with
  | nil => rfl
  | cons call later ih =>
    rw [List.foldl_cons, onRow_confirmed]
    exact ih

/-- By what comes first: a mint ends the matter, and a close changes the status until then. -/
theorem foldl_unmarked (unmarked : stored.minted = none) {status : BlockchainStatus}
    (isOpen : status = .pending ∨ status = .noSurplus) :
    later.foldl (fun old call => call.onRow codec old) ⟨stored, status, none⟩ =
      stored.settled (later.findSome? (mints codec stored))
        (if later.any (closes codec stored) then .noSurplus else status) := by
  induction later generalizing status with
  | nil => rfl
  | cons call later ih =>
    rw [List.foldl_cons, onRow_unmarked unmarked isOpen, List.findSome?_cons, List.any_cons]
    cases minted : call.mints codec stored with
    | some outcome => exact foldl_confirmed
    | none =>
      by_cases closed : call.closes codec stored = true
      · simp only [closed, if_true, Bool.true_or]
        exact (ih (.inr rfl)).trans (congrArg _ (ite_self _))
      · have closed := Bool.eq_false_of_not_eq_true closed
        simp only [closed, Bool.false_or, Bool.false_eq_true, if_false]
        exact ih isOpen

/-- A row after the calls that came after it was inserted. -/
theorem foldl_onRow (row : ReadingRow) (later : List TableCall) :
    later.foldl (fun old call => call.onRow codec old) (row.tableRow codec) =
      row.after codec later :=
  foldl_unmarked rfl (.inl rfl)

end TableCall

/-! ## The whole table -/

/-- Calls on a table that has rows already. -/
theorem foldl_execute (calls : List TableCall) (table : List TableRow) :
    calls.foldl (TableCall.execute codec) table =
      table.map (fun old => calls.foldl (fun old call => call.onRow codec old) old) ++
        tableHistory codec calls := by
  induction calls generalizing table with
  | nil => simp only [List.foldl_nil, List.map_id', tableHistory, List.append_nil]
  | cons call later ih =>
    rw [List.foldl_cons, ih]
    cases call with
    | insertBatch rows =>
      have after : (rows.map (ReadingRow.tableRow codec)).map (fun old =>
          later.foldl (fun old call => call.onRow codec old) old) =
          rows.map fun row => row.after codec later := by
        rw [List.map_map]
        exact List.map_congr_left fun row _ => TableCall.foldl_onRow row later
      rw [TableCall.execute, List.map_append, List.append_assoc, after]
      rfl
    | markMinted stamp =>
      rw [TableCall.execute, List.map_map]
      rfl
    | markNoSurplus serial window =>
      rw [TableCall.execute, List.map_map]
      rfl

/-- After any calls in any order the table has a row for every row that was inserted. Its status is
confirmed if a mint of its meter and window was written back after it was inserted, and then it has
the signature of the first; without one it is without surplus if its bin closed so after it was
inserted, and else pending. -/
theorem table_is_history (codec : UuidCodec) (calls : List TableCall) :
    tableAfter codec calls = tableHistory codec calls :=
  foldl_execute calls []

/-! ## The order of write-backs -/

variable {calls calls' : List TableCall}

theorem tableHistory_writeBacks (writeBacks : ∀ c ∈ calls, c.isWriteBack = true) :
    tableHistory codec calls = [] := by
  induction calls with
  | nil => rfl
  | cons call later ih =>
    have rest := ih fun c mem => writeBacks c (List.mem_cons_of_mem _ mem)
    cases call with
    | insertBatch rows => exact absurd (writeBacks _ List.mem_cons_self) Bool.false_ne_true
    | markMinted stamp => exact rest
    | markNoSurplus serial window => exact rest

/-- What follows makes the same difference to the table as to each of its rows. -/
theorem map_tableHistory_congr {β : Type} (codec : UuidCodec) (view : TableRow → β)
    (before : List TableCall)
    (writeBacks : ∀ c ∈ calls, c.isWriteBack = true)
    (writeBacks' : ∀ c ∈ calls', c.isWriteBack = true)
    (rows : ∀ (row : ReadingRow) (later : List TableCall),
      view (row.after codec (later ++ calls)) = view (row.after codec (later ++ calls'))) :
    (tableHistory codec (before ++ calls)).map view =
      (tableHistory codec (before ++ calls')).map view := by
  induction before with
  | nil =>
    rw [List.nil_append, List.nil_append, tableHistory_writeBacks writeBacks,
      tableHistory_writeBacks writeBacks']
  | cons call later ih =>
    cases call with
    | insertBatch inserted =>
      simp only [List.cons_append, tableHistory, List.map_append, List.map_map, ih]
      exact congrArg (· ++ _) (List.map_congr_left fun row _ => rows row later)
    | markMinted stamp => exact ih
    | markNoSurplus serial window => exact ih

theorem isSome_mints_perm (codec : UuidCodec) (perm : calls.Perm calls') (stored : StoredRow) :
    (calls.findSome? (TableCall.mints codec stored)).isSome =
      (calls'.findSome? (TableCall.mints codec stored)).isSome := by
  rw [Bool.eq_iff_iff, List.findSome?_isSome_iff, List.findSome?_isSome_iff]
  simp only [perm.mem_iff]

theorem status_settled (stored : StoredRow) (mint : Option MintOutcome) (status : BlockchainStatus) :
    (stored.settled mint status).blockchainStatus = if mint.isSome then .confirmed else status := by
  cases mint with
  | none => rfl
  | some outcome => rfl

/-- In whatever order the same write-backs come, every row has the same status; and the same
signature, if no two of them write back different mints of one row. So it does not matter in which
order the mints of different windows are confirmed. -/
theorem write_backs_commute (codec : UuidCodec) (before : List TableCall)
    (perm : calls.Perm calls') (writeBacks : ∀ c ∈ calls, c.isWriteBack = true) :
    (tableAfter codec (before ++ calls)).map TableRow.blockchainStatus =
        (tableAfter codec (before ++ calls')).map TableRow.blockchainStatus ∧
      ((∀ (row : StoredRow), ∀ c ∈ calls, ∀ c' ∈ calls, ∀ outcome ∈ c.mints codec row,
          ∀ outcome' ∈ c'.mints codec row, outcome = outcome') →
        tableAfter codec (before ++ calls) = tableAfter codec (before ++ calls')) := by
  have writeBacks' : ∀ c ∈ calls', c.isWriteBack = true := fun c mem =>
    writeBacks c (perm.mem_iff.mpr mem)
  have closes (row : ReadingRow) (later : List TableCall) :
      (later ++ calls).any (TableCall.closes codec (row.stored codec)) =
        (later ++ calls').any (TableCall.closes codec (row.stored codec)) := by
    rw [List.any_append, List.any_append, perm.any_eq]
  rw [table_is_history, table_is_history]
  constructor
  · refine map_tableHistory_congr codec _ before writeBacks writeBacks' fun row later => ?_
    simp only [ReadingRow.after, status_settled, closes, List.findSome?_append, Option.isSome_or,
      isSome_mints_perm codec perm]
  · intro agree
    have mints (row : ReadingRow) : calls.findSome? (TableCall.mints codec (row.stored codec)) =
        calls'.findSome? (TableCall.mints codec (row.stored codec)) := by
      have both := isSome_mints_perm codec perm (row.stored codec)
      cases found : calls.findSome? (TableCall.mints codec (row.stored codec)) with
      | none =>
        rw [found, Option.isSome_none] at both
        exact (Option.isNone_iff_eq_none.mp (Option.isSome_eq_false_iff.mp both.symm)).symm
      | some outcome =>
        rw [found, Option.isSome_some] at both
        obtain ⟨outcome', found'⟩ := Option.isSome_iff_exists.mp both.symm
        obtain ⟨c, mem, mints⟩ := List.exists_of_findSome?_eq_some found
        obtain ⟨c', mem', mints'⟩ := List.exists_of_findSome?_eq_some found'
        rw [found', agree _ c mem c' (perm.mem_iff.mpr mem') outcome mints outcome' mints']
    have same := map_tableHistory_congr codec id before writeBacks writeBacks' fun row later => by
      simp only [id_eq, ReadingRow.after, closes, List.findSome?_append, mints]
    rw [List.map_id, List.map_id] at same
    exact same

private def closedWindow : TableCall :=
  .markNoSurplus "MTR-001" 1700000100000

private def mintedWindow : TableCall :=
  .markMinted ⟨"MTR-001", 1700000100000, ⟨"sig", 7⟩⟩

/-- A row whose bin closed without a surplus, and whose window was minted nevertheless: it is
confirmed with the signature, whatever is written back first. -/
theorem either_order_confirms :
    let table (calls : List TableCall) := tableAfter ⟨fun _ => none, fun _ => ""⟩
      (.insertBatch [⟨1, "MTR-001", 1700000100000⟩] :: calls)
    (table [closedWindow, mintedWindow]).map TableRow.blockchainStatus = [.confirmed] ∧
      table [closedWindow, mintedWindow] = table [mintedWindow, closedWindow] := by
  refine ⟨by decide, (write_backs_commute _ [_] (.swap _ _ []) (by decide)).2 ?_⟩
  -- only one of the two calls writes back a mint
  intro row c mem c' mem' outcome mints outcome' mints'
  simp only [List.mem_cons, List.not_mem_nil, or_false] at mem mem'
  rcases mem with rfl | rfl
  · cases mints
  · rcases mem' with rfl | rfl
    · cases mints'
    · exact Option.mem_unique mints mints'

end AggregatorBridge
