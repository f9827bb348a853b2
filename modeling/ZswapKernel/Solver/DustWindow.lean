import Mathlib.Data.Set.Finite.Lattice
import ZswapKernel.Lib.RollingSum
import ZswapKernel.Solver.Journal

/-!
# The rolling DUST window

The reservation table of `packages/solver/src/operation-journal.ts`, over all jobs: `reserveDust`,
`markDustSpent`, `releaseDust`, `pruneDust` and `dustUsage`. A reservation counts from its admission
until it is released, or until one window after it was spent. The two time bases meet in `Windowed`:
from the clock on, what has been spent within a window is what the table still counts as spent.

* `DustRun.run_windowed` — every run keeps `Windowed`.
* `DustRun.replay` — repeating a call that took effect changes nothing while its row is held.
* `dust_window` — both over every sequence of calls, with what accepted reservations and prunes do.
* `replay_after_prune` — after the row has been pruned, the key is free again.

What the rest of the journal answers is an `OperationsView`. SQLite's own failures are left out;
they roll the transaction back.
-/

namespace ZswapKernel

/-! ## The table -/

def DustReservationState.text : DustReservationState → String
  | reserved => "RESERVED"
  | spent _ => "SPENT"
  | released => "RELEASED"

/-- A row of `journal_dust_reservations`. -/
structure DustReservationRow where
  operationKey : String
  jobId : String
  generation : Int
  amount : Int
  state : DustReservationState
  reservedAtMs : Int
  updatedAtMs : Int
  amount_pos : 0 < amount
  deriving DecidableEq

/-- Whether `#dustUsage` selects a row. -/
def DustReservationRow.counts (windowMs nowMs : Int) (row : DustReservationRow) : Bool :=
  match row.state with
  | .reserved => true
  | .spent spentAtMs => max 0 (nowMs - windowMs) < spentAtMs
  | .released => false

/-- The row after `#transitionDust`. -/
def DustReservationRow.moved (next : DustReservationState) (nowMs : Int)
    (row : DustReservationRow) : DustReservationRow :=
  { row with state := next, updatedAtMs := nowMs }

/-- `journal_dust_reservations`, with its primary key. -/
structure DustTable where
  rows : List DustReservationRow
  keysUnique : (rows.map (·.operationKey)).Nodup
  deriving DecidableEq

namespace DustTable

def empty : DustTable := ⟨[], List.nodup_nil⟩

/-- `#dustByOperationKey`. -/
def dustByOperationKey (table : DustTable) (operationKey : String) : Option DustReservationRow :=
  table.rows.find? (·.operationKey = operationKey)

/-- `#dustUsage`. -/
def dustUsage (table : DustTable) (windowMs nowMs : Int) : Int :=
  RollingSum.total (·.counts windowMs nowMs) (·.amount) table.rows

theorem byKey_eq_none {table : DustTable} {operationKey : String}
    (h : table.dustByOperationKey operationKey = none) :
    operationKey ∉ table.rows.map (·.operationKey) := by
  intro hmem
  obtain ⟨row, hrow, rfl⟩ := List.mem_map.mp hmem
  simpa using List.find?_eq_none.mp h row hrow

/-- `INSERT INTO journal_dust_reservations`, where the key is free. -/
def insert (table : DustTable) (row : DustReservationRow)
    (hfree : table.dustByOperationKey row.operationKey = none) : DustTable where
  rows := table.rows ++ [row]
  keysUnique := by
    rw [List.map_append, List.map_singleton, List.nodup_append]
    refine ⟨table.keysUnique, List.nodup_singleton _, fun key hkey other hother heq => ?_⟩
    rw [heq, List.mem_singleton.mp hother] at hkey
    exact byKey_eq_none hfree hkey

/-- `UPDATE journal_dust_reservations … WHERE operation_key = ?`. -/
def update (table : DustTable) (operationKey : String) (next : DustReservationState)
    (nowMs : Int) : DustTable where
  rows := table.rows.map fun row =>
    if row.operationKey = operationKey then row.moved next nowMs else row
  keysUnique := by
    have hkeys : (table.rows.map fun row =>
        if row.operationKey = operationKey then row.moved next nowMs else row).map
        (·.operationKey) = table.rows.map (·.operationKey) := by
      rw [List.map_map]
      refine List.map_congr_left fun row _ => ?_
      rw [Function.comp_apply]
      split <;> rfl
    rw [hkeys]
    exact table.keysUnique

/-- `DELETE FROM journal_dust_reservations`, but for the rows to keep. -/
def keep (table : DustTable) (keeps : DustReservationRow → Bool) : DustTable where
  rows := table.rows.filter keeps
  keysUnique := (List.filter_sublist.map _).nodup table.keysUnique

end DustTable

/-! ## The operations -/

/-- What the DUST transactions read of the rest of the journal: the job and generation of the
settlement row of a key, the number of operation rows, the size of the database and the ceilings. -/
structure OperationsView where
  settlement : String → Option (String × Int)
  operationCount : Nat
  pageBytes : Nat
  maxRows : Nat
  maxBytes : Nat

structure DustInput where
  operationKey : String
  jobId : String
  generation : Int
  amount : Int
  deriving DecidableEq, Repr

inductive DustReservationResult
  | accepted (reservation : DustReservationRow) (usage : Int)
  | refused (reason : DustRefusal) (usage : Int)
  deriving DecidableEq

/-- `requireSafeInteger`. -/
def requireSafeInteger (name : String) (value min : Int) : Except String Unit :=
  if value < min ∨ 2 ^ 53 ≤ value then .error s!"{name} must be a safe integer >= {min}" else .ok ()

/-- `requirePositiveBigint`. -/
def requirePositiveBigint (name : String) (value : Int) : Except String (PLift (0 < value)) :=
  if h : 0 < value then .ok ⟨h⟩ else .error s!"{name} must be a positive bigint"

/-- `#assertWithinCeilings`. -/
def assertWithinCeilings (view : OperationsView) (table : DustTable) : Except String Unit :=
  if view.maxRows < view.operationCount + table.rows.length then
    .error s!"journal row ceiling {view.maxRows} exceeded"
  else if view.maxBytes < view.pageBytes then
    .error s!"journal byte ceiling {view.maxBytes} exceeded"
  else .ok ()

/-- The transaction of `reserveDust`. -/
def admitDust (view : OperationsView) (limits : DustAdmission) (nowMs : Int) (table : DustTable)
    (input : DustInput) (hamount : 0 < input.amount) :
    Except String (DustReservationResult × DustTable) :=
  match hexisting : table.dustByOperationKey input.operationKey with
  | some existing =>
    if existing.jobId ≠ input.jobId ∨ existing.generation ≠ input.generation ∨
        existing.amount ≠ input.amount ∨ existing.state = .released then
      .error s!"{input.operationKey}: conflicting DUST reservation replay"
    else .ok (.accepted existing (table.dustUsage limits.windowMs nowMs), table)
  | none =>
    let usage := table.dustUsage limits.windowMs nowMs
    if limits.maxPerJob < input.amount then .ok (.refused .perJob usage, table)
    else if limits.maxPerWindow < usage + input.amount then .ok (.refused .window usage, table)
    else if view.settlement input.operationKey ≠ some (input.jobId, input.generation) then
      .error "DUST reservation requires its durable job settlement row"
    else do
      let row : DustReservationRow :=
        ⟨input.operationKey, input.jobId, input.generation, input.amount, .reserved, nowMs, nowMs,
          hamount⟩
      let inserted := table.insert row hexisting
      assertWithinCeilings view inserted
      return (.accepted row (usage + input.amount), inserted)

/-- `reserveDust`. -/
def DustTable.reserveDust (view : OperationsView) (limits : DustAdmission) (nowMs : Int)
    (table : DustTable) (input : DustInput) : Except String (DustReservationResult × DustTable) :=
  do
    requireText "dust operationKey" input.operationKey 512
    requireText "dust jobId" input.jobId 512
    requireSafeInteger "dust generation" input.generation 0
    let ⟨hamount⟩ ← requirePositiveBigint "dust amount" input.amount
    let _ ← requirePositiveBigint "dust maxPerJob" limits.maxPerJob
    let _ ← requirePositiveBigint "dust maxPerWindow" limits.maxPerWindow
    requireSafeInteger "dust windowMs" limits.windowMs 1
    requireSafeInteger "journal clock" nowMs 1
    admitDust view limits nowMs table input hamount

/-- The two states a reservation can move to. -/
inductive DustOutcome
  | spent
  | released
  deriving DecidableEq, Repr

def DustOutcome.text : DustOutcome → String
  | spent => "SPENT"
  | released => "RELEASED"

/-- The columns that an outcome writes. -/
def DustOutcome.stateAt (next : DustOutcome) (nowMs : Int) : DustReservationState :=
  match next with
  | .spent => .spent nowMs
  | .released => .released

/-- `current.state === next`. -/
def DustOutcome.reached (next : DustOutcome) : DustReservationState → Bool
  | .reserved => false
  | .spent _ => next = .spent
  | .released => next = .released

/-- `#transitionDust`. -/
def DustTable.transitionDust (nowMs : Int) (table : DustTable) (operationKey : String)
    (next : DustOutcome) : Except String (Option DustReservationRow × DustTable) := do
  requireText "dust operationKey" operationKey 512
  requireSafeInteger "journal clock" nowMs 1
  match table.dustByOperationKey operationKey with
  | none => return (none, table)
  | some current =>
    if next.reached current.state then return (some current, table)
    else if current.state ≠ .reserved then
      throw s!"{operationKey}: DUST cannot transition {current.state.text} -> {next.text}"
    else if nowMs < current.reservedAtMs then
      -- The table checks `updated_at_ms >= reserved_at_ms`.
      throw "CHECK constraint failed"
    else
      let updated := table.update operationKey (next.stateAt nowMs) nowMs
      return (updated.dustByOperationKey operationKey, updated)

def DustTable.markDustSpent (nowMs : Int) (table : DustTable) (operationKey : String) :
    Except String (Option DustReservationRow × DustTable) :=
  table.transitionDust nowMs operationKey .spent

def DustTable.releaseDust (nowMs : Int) (table : DustTable) (operationKey : String) :
    Except String (Option DustReservationRow × DustTable) :=
  table.transitionDust nowMs operationKey .released

/-- What `pruneDust` leaves. -/
def DustReservationRow.survives (cutoff : Int) (row : DustReservationRow) : Bool :=
  match row.state with
  | .reserved => true
  | .spent spentAtMs => cutoff < spentAtMs
  | .released => false

/-- `pruneDust`. -/
def DustTable.pruneDust (windowMs nowMs : Int) (table : DustTable) :
    Except String (Nat × DustTable) := do
  requireSafeInteger "dust windowMs" windowMs 1
  requireSafeInteger "dust prune clock" nowMs 1
  let kept := table.keep (·.survives (max 0 (nowMs - windowMs)))
  return (table.rows.length - kept.rows.length, kept)

/-! ## Calls -/

inductive DustOperation
  | reserveDust (input : DustInput)
  | markDustSpent (operationKey : String)
  | releaseDust (operationKey : String)
  | pruneDust
  deriving DecidableEq, Repr

/-- A call, with the clock and the journal around it. -/
structure DustCall where
  operation : DustOperation
  nowMs : Int
  view : OperationsView

inductive DustAnswer
  | reservation (result : DustReservationResult)
  | transitioned (row : Option DustReservationRow)
  | pruned (changes : Nat)
  deriving DecidableEq

/-- The answer of a call and the table it leaves; a call that throws leaves the table as it was. -/
def DustCall.perform (limits : DustAdmission) (table : DustTable) (call : DustCall) :
    Except String (DustAnswer × DustTable) :=
  match call.operation with
  | .reserveDust input =>
    (table.reserveDust call.view limits call.nowMs input).map (Prod.map .reservation id)
  | .markDustSpent operationKey =>
    (table.markDustSpent call.nowMs operationKey).map (Prod.map .transitioned id)
  | .releaseDust operationKey =>
    (table.releaseDust call.nowMs operationKey).map (Prod.map .transitioned id)
  | .pruneDust => (table.pruneDust limits.windowMs call.nowMs).map (Prod.map .pruned id)

/-- The table after a call. -/
def DustCall.after (limits : DustAdmission) (table : DustTable) (call : DustCall) : DustTable :=
  match call.perform limits table with
  | .ok (_, table) => table
  | .error _ => table

/-- DUST that was spent. -/
structure DustSpend where
  atMs : Int
  amount : Int
  amount_pos : 0 < amount

/-- What a call spends: `markDustSpent` spends the reservation that it finds active. -/
def DustCall.spends (limits : DustAdmission) (table : DustTable) (call : DustCall) :
    List DustSpend :=
  match call.operation, call.perform limits table with
  | .markDustSpent operationKey, .ok _ =>
    match table.dustByOperationKey operationKey with
    | some row => if row.state = .reserved then [⟨call.nowMs, row.amount, row.amount_pos⟩] else []
    | none => []
  | _, _ => []

/-- The table with everything that was ever spent. -/
structure DustRun where
  table : DustTable
  spends : List DustSpend

namespace DustRun

def step (limits : DustAdmission) (run : DustRun) (call : DustCall) : DustRun :=
  ⟨call.after limits run.table, run.spends ++ call.spends limits run.table⟩

/-- The run of a sequence of calls, from the empty table. -/
def run (limits : DustAdmission) (calls : List DustCall) : DustRun :=
  calls.foldl (step limits) ⟨.empty, []⟩

@[simp] theorem run_nil (limits : DustAdmission) : run limits [] = ⟨.empty, []⟩ := rfl

theorem run_snoc (limits : DustAdmission) (calls : List DustCall) (call : DustCall) :
    run limits (calls ++ [call]) = (run limits calls).step limits call := by
  unfold run
  rw [List.foldl_append]
  rfl

/-- What was spent after `fromMs`, up to `toMs`. -/
def spentWithin (run : DustRun) (fromMs toMs : Int) : Int :=
  RollingSum.total (fun spend => decide (fromMs < spend.atMs ∧ spend.atMs ≤ toMs)) (·.amount)
    run.spends

end DustRun

/-! ## What a call can do -/

theorem requireSafeInteger_ok {name : String} {value min : Int} {unit : Unit}
    (h : requireSafeInteger name value min = .ok unit) : min ≤ value := by
  unfold requireSafeInteger at h
  split at h
  · cases h
  · omega

/-- Everything a call can do to the table, and what it spends. -/
inductive DustMove (limits : DustAdmission) (nowMs : Int) (table : DustTable) :
    DustTable → List DustSpend → Prop
  | same : DustMove limits nowMs table table []
  | reserved (row : DustReservationRow)
      (hfree : table.dustByOperationKey row.operationKey = none) (hstate : row.state = .reserved)
      (hwindow : 1 ≤ limits.windowMs)
      (hfits : table.dustUsage limits.windowMs nowMs + row.amount ≤ limits.maxPerWindow) :
      DustMove limits nowMs table (table.insert row hfree) []
  | spent (operationKey : String) (row : DustReservationRow)
      (hrow : table.dustByOperationKey operationKey = some row) (hstate : row.state = .reserved)
      (hnow : 1 ≤ nowMs) :
      DustMove limits nowMs table (table.update operationKey (.spent nowMs) nowMs)
        [⟨nowMs, row.amount, row.amount_pos⟩]
  | released (operationKey : String) (row : DustReservationRow)
      (hrow : table.dustByOperationKey operationKey = some row) (hstate : row.state = .reserved) :
      DustMove limits nowMs table (table.update operationKey .released nowMs) []
  | pruned :
      DustMove limits nowMs table (table.keep (·.survives (max 0 (nowMs - limits.windowMs)))) []

/-- `reserveDust` answers for the row it finds, refuses, or adds a row that fits the window. -/
inductive Admission (limits : DustAdmission) (nowMs : Int) (table : DustTable) (input : DustInput) :
    DustReservationResult → DustTable → Prop
  | existing (row : DustReservationRow)
      (hrow : table.dustByOperationKey input.operationKey = some row) :
      Admission limits nowMs table input
        (.accepted row (table.dustUsage limits.windowMs nowMs)) table
  | refused (reason : DustRefusal)
      (hfree : table.dustByOperationKey input.operationKey = none) :
      Admission limits nowMs table input
        (.refused reason (table.dustUsage limits.windowMs nowMs)) table
  | fresh (row : DustReservationRow)
      (hfree : table.dustByOperationKey row.operationKey = none)
      (hkey : row.operationKey = input.operationKey) (hstate : row.state = .reserved)
      (hwindow : 1 ≤ limits.windowMs)
      (hfits : table.dustUsage limits.windowMs nowMs + row.amount ≤ limits.maxPerWindow) :
      Admission limits nowMs table input
        (.accepted row (table.dustUsage limits.windowMs nowMs + row.amount))
        (table.insert row hfree)

theorem admitDust_ok {view : OperationsView} {limits : DustAdmission} {nowMs : Int}
    {table after : DustTable} {input : DustInput} {hamount : 0 < input.amount}
    {result : DustReservationResult} (hwindow : 1 ≤ limits.windowMs)
    (h : admitDust view limits nowMs table input hamount = .ok (result, after)) :
    Admission limits nowMs table input result after := by
  unfold admitDust at h
  split at h
  · rename_i row hrow
    split at h
    · cases h
    · cases h
      exact .existing row hrow
  · rename_i hfree
    dsimp only at h
    split at h
    · cases h
      exact .refused .perJob hfree
    · split at h
      · cases h
        exact .refused .window hfree
      · rename_i hfits
        split at h
        · cases h
        · obtain ⟨-, -, h⟩ := Except.bind_eq_ok.mp h
          cases h
          exact .fresh _ hfree rfl rfl hwindow (not_lt.mp hfits)

theorem reserveDust_ok {view : OperationsView} {limits : DustAdmission} {nowMs : Int}
    {table after : DustTable} {input : DustInput} {result : DustReservationResult}
    (h : table.reserveDust view limits nowMs input = .ok (result, after)) :
    Admission limits nowMs table input result after := by
  unfold DustTable.reserveDust at h
  simp only [Except.bind_eq_ok] at h
  obtain ⟨_, -, _, -, _, -, amount, -, _, -, _, -, _, hwindow, _, -, h⟩ := h
  exact admitDust_ok (requireSafeInteger_ok hwindow) h

/-- `#transitionDust` finds no row, finds it moved already, or moves an active one. -/
inductive Transition (nowMs : Int) (table : DustTable) (operationKey : String)
    (next : DustOutcome) : Option DustReservationRow → DustTable → Prop
  | absent (hfree : table.dustByOperationKey operationKey = none) :
      Transition nowMs table operationKey next none table
  | reached (row : DustReservationRow) (hrow : table.dustByOperationKey operationKey = some row)
      (hreached : next.reached row.state = true) :
      Transition nowMs table operationKey next (some row) table
  | moved (row : DustReservationRow) (hrow : table.dustByOperationKey operationKey = some row)
      (hstate : row.state = .reserved) (hnow : 1 ≤ nowMs) :
      Transition nowMs table operationKey next
        ((table.update operationKey (next.stateAt nowMs) nowMs).dustByOperationKey operationKey)
        (table.update operationKey (next.stateAt nowMs) nowMs)

theorem transitionDust_ok {nowMs : Int} {table after : DustTable} {operationKey : String}
    {next : DustOutcome} {row : Option DustReservationRow}
    (h : table.transitionDust nowMs operationKey next = .ok (row, after)) :
    Transition nowMs table operationKey next row after := by
  unfold DustTable.transitionDust at h
  simp only [Except.bind_eq_ok] at h
  obtain ⟨_, -, _, hnow, h⟩ := h
  split at h
  · rename_i hfree
    cases h
    exact .absent hfree
  · rename_i current hrow
    split at h
    · rename_i hreached
      cases h
      exact .reached current hrow hreached
    · split at h
      · cases h
      · rename_i hstate
        split at h
        · cases h
        · cases h
          exact .moved current hrow (Decidable.of_not_not hstate) (requireSafeInteger_ok hnow)

theorem pruneDust_ok {windowMs nowMs : Int} {table after : DustTable} {changes : Nat}
    (h : table.pruneDust windowMs nowMs = .ok (changes, after)) :
    after = table.keep (·.survives (max 0 (nowMs - windowMs))) := by
  unfold DustTable.pruneDust at h
  simp only [Except.bind_eq_ok] at h
  obtain ⟨_, -, _, -, h⟩ := h
  cases h
  rfl

variable {limits : DustAdmission} {nowMs : Int} {table : DustTable} {call : DustCall}

theorem DustCall.after_of_ok {answer : DustAnswer} {after : DustTable}
    (h : call.perform limits table = .ok (answer, after)) : call.after limits table = after := by
  unfold DustCall.after
  rw [h]

theorem DustCall.after_of_error {error : String} (h : call.perform limits table = .error error) :
    call.after limits table = table ∧ call.spends limits table = [] := by
  unfold DustCall.after DustCall.spends
  rw [h]
  exact ⟨rfl, by split <;> first | rfl | contradiction⟩

theorem except_map_ok {ε α β : Type} {f : α → β} {x : Except ε α} {y : β}
    (h : x.map f = .ok y) : ∃ a, x = .ok a ∧ f a = y := by
  cases x with
  | error => cases h
  | ok a => exact ⟨a, rfl, Except.ok.inj h⟩

/-- An answer comes from the operation that the call names. -/
theorem DustCall.perform_ok {answer : DustAnswer} {after : DustTable}
    (h : call.perform limits table = .ok (answer, after)) :
    (∃ input result, call.operation = .reserveDust input ∧ answer = .reservation result ∧
        Admission limits call.nowMs table input result after) ∨
      (∃ operationKey row, call.operation = .markDustSpent operationKey ∧
        answer = .transitioned row ∧
        Transition call.nowMs table operationKey .spent row after) ∨
      (∃ operationKey row, call.operation = .releaseDust operationKey ∧
        answer = .transitioned row ∧
        Transition call.nowMs table operationKey .released row after) ∨
      (∃ changes, call.operation = .pruneDust ∧ answer = .pruned changes ∧
        after = table.keep (·.survives (max 0 (call.nowMs - limits.windowMs)))) := by
  unfold DustCall.perform at h
  split at h
  · rename_i input hoperation
    obtain ⟨done, hdone, h⟩ := except_map_ok h
    cases h
    exact .inl ⟨input, done.1, hoperation, rfl, reserveDust_ok hdone⟩
  · rename_i operationKey hoperation
    obtain ⟨done, hdone, h⟩ := except_map_ok h
    cases h
    exact .inr (.inl ⟨operationKey, done.1, hoperation, rfl, transitionDust_ok hdone⟩)
  · rename_i operationKey hoperation
    obtain ⟨done, hdone, h⟩ := except_map_ok h
    cases h
    exact .inr (.inr (.inl ⟨operationKey, done.1, hoperation, rfl, transitionDust_ok hdone⟩))
  · rename_i hoperation
    obtain ⟨done, hdone, h⟩ := except_map_ok h
    cases h
    exact .inr (.inr (.inr ⟨done.1, hoperation, rfl, pruneDust_ok hdone⟩))

/-- Only `markDustSpent` spends. -/
theorem DustCall.spends_eq_nil (h : ∀ operationKey, call.operation ≠ .markDustSpent operationKey) :
    call.spends limits table = [] := by
  unfold DustCall.spends
  split
  · rename_i hoperation _
    exact absurd hoperation (h _)
  · rfl

/-- What a call does is one of the moves. -/
theorem DustCall.moves (limits : DustAdmission) (table : DustTable) (call : DustCall) :
    DustMove limits call.nowMs table (call.after limits table) (call.spends limits table) := by
  cases h : call.perform limits table with
  | error =>
    obtain ⟨hafter, hspends⟩ := DustCall.after_of_error h
    rw [hafter, hspends]
    exact .same
  | ok done =>
    obtain ⟨answer, after⟩ := done
    rw [DustCall.after_of_ok h]
    rcases DustCall.perform_ok h with ⟨input, result, hoperation, -, hadmission⟩ |
      ⟨operationKey, row, hoperation, -, htransition⟩ |
      ⟨operationKey, row, hoperation, -, htransition⟩ | ⟨changes, hoperation, -, rfl⟩
    · rw [DustCall.spends_eq_nil fun _ heq => by cases hoperation.symm.trans heq]
      cases hadmission with
      | existing => exact .same
      | refused => exact .same
      | fresh row hfree _ hstate hwindow hfits => exact .reserved row hfree hstate hwindow hfits
    · have hspends : call.spends limits table =
          match table.dustByOperationKey operationKey with
          | some row =>
            if row.state = .reserved then [⟨call.nowMs, row.amount, row.amount_pos⟩] else []
          | none => [] := by
        unfold DustCall.spends
        rw [hoperation, h]
      cases htransition with
      | absent hfree =>
        rw [hspends, hfree]
        exact .same
      | reached row hrow hreached =>
        have hstate : row.state ≠ .reserved := by
          intro hstate
          rw [hstate] at hreached
          cases hreached
        rw [hspends, hrow]
        dsimp only
        rw [if_neg hstate]
        exact .same
      | moved row hrow hstate hnow =>
        rw [hspends, hrow]
        dsimp only
        rw [if_pos hstate]
        exact .spent operationKey row hrow hstate hnow
    · rw [DustCall.spends_eq_nil fun _ heq => by cases hoperation.symm.trans heq]
      cases htransition with
      | absent => exact .same
      | reached => exact .same
      | moved row hrow hstate _ => exact .released operationKey row hrow hstate
    · rw [DustCall.spends_eq_nil fun _ heq => by cases hoperation.symm.trans heq]
      exact .pruned

/-! ## The window -/

open RollingSum

/-- Whether a row counts as spent. -/
def DustReservationRow.countsSpent (windowMs nowMs : Int) (row : DustReservationRow) : Bool :=
  match row.state with
  | .spent spentAtMs => max 0 (nowMs - windowMs) < spentAtMs
  | _ => false

/-- What the table counts as spent. -/
def DustTable.spentUsage (table : DustTable) (windowMs nowMs : Int) : Int :=
  total (·.countsSpent windowMs nowMs) (·.amount) table.rows

/-- The table at a clock reading: the usage is within the limit, it covers what was spent from here
on, and no window that has begun holds more than the limit. -/
structure DustRun.Windowed (limits : DustAdmission) (nowMs : Int) (run : DustRun) : Prop where
  window_pos : run.table.rows ≠ [] → 1 ≤ limits.windowMs
  spent_pos : ∀ spend ∈ run.spends, 1 ≤ spend.atMs
  usage_le : run.table.dustUsage limits.windowMs nowMs ≤ limits.maxPerWindow
  accounted : ∀ t, nowMs ≤ t →
    total (fun spend => decide (max 0 (t - limits.windowMs) < spend.atMs)) (·.amount) run.spends =
      run.table.spentUsage limits.windowMs t
  within : ∀ t, run.spentWithin (t - limits.windowMs) t ≤ limits.maxPerWindow

variable {windowMs t : Int}

theorem DustTable.dustUsage_insert (row : DustReservationRow)
    (hfree : table.dustByOperationKey row.operationKey = none) (hstate : row.state = .reserved) :
    (table.insert row hfree).dustUsage windowMs t = table.dustUsage windowMs t + row.amount := by
  have hcounts : row.counts windowMs t = true := by
    unfold DustReservationRow.counts
    rw [hstate]
  unfold DustTable.dustUsage DustTable.insert
  rw [total_append, total_singleton, if_pos hcounts]

theorem DustTable.spentUsage_insert (row : DustReservationRow)
    (hfree : table.dustByOperationKey row.operationKey = none) (hstate : row.state = .reserved) :
    (table.insert row hfree).spentUsage windowMs t = table.spentUsage windowMs t := by
  have hcounts : row.countsSpent windowMs t = false := by
    unfold DustReservationRow.countsSpent
    rw [hstate]
  unfold DustTable.spentUsage DustTable.insert
  rw [total_append, total_singleton, hcounts, if_neg Bool.false_ne_true, Int.add_zero]

/-- Moving the row of a key changes what that row counts for. -/
theorem DustTable.total_update (p : DustReservationRow → Bool) (nowMs : Int)
    (next : DustReservationState) {operationKey : String} {row : DustReservationRow}
    (hrow : table.dustByOperationKey operationKey = some row) :
    total p (·.amount) (table.update operationKey next nowMs).rows +
        (if p row then row.amount else 0) =
      total p (·.amount) table.rows +
        if p (row.moved next nowMs) then row.amount else 0 := by
  obtain ⟨left, right, hrows, hupdated⟩ :=
    split_of_find? table.keysUnique hrow (·.moved next nowMs)
  have hupdate : (table.update operationKey next nowMs).rows =
      left ++ row.moved next nowMs :: right := hupdated
  have hamount : (row.moved next nowMs).amount = row.amount := rfl
  rw [hupdate, hrows, total_append, total_append, total_cons, total_cons, hamount]
  omega

/-- From the cutoff on, what pruning removes does not count. -/
theorem DustReservationRow.survives_of_counts {row : DustReservationRow} (hle : nowMs ≤ t)
    (h : row.counts windowMs t = true) : row.survives (max 0 (nowMs - windowMs)) = true := by
  unfold counts at h
  unfold survives
  split
  · rfl
  · rename_i spentAtMs hstate
    rw [hstate] at h
    simp only [decide_eq_true_eq] at h ⊢
    omega
  · rename_i hstate
    rw [hstate] at h
    cases h

theorem DustReservationRow.counts_of_countsSpent {row : DustReservationRow}
    (h : row.countsSpent windowMs t = true) : row.counts windowMs t = true := by
  unfold countsSpent at h
  unfold counts
  split at h
  · rename_i hstate
    rw [hstate]
    exact h
  · cases h

/-- A row that stops counting does not count again. -/
theorem DustReservationRow.counts_later {row : DustReservationRow} (hle : nowMs ≤ t)
    (h : row.counts windowMs t = true) : row.counts windowMs nowMs = true := by
  unfold counts at h ⊢
  split
  · rfl
  · rename_i hstate
    rw [hstate] at h
    simp only [decide_eq_true_eq] at h ⊢
    omega
  · rename_i hstate
    rw [hstate] at h
    cases h

theorem DustTable.dustUsage_later (table : DustTable) (hle : nowMs ≤ t) :
    table.dustUsage windowMs t ≤ table.dustUsage windowMs nowMs :=
  total_le_total (fun _ _ => DustReservationRow.counts_later hle) fun row _ => row.amount_pos.le

theorem DustTable.spentUsage_le (table : DustTable) :
    table.spentUsage windowMs t ≤ table.dustUsage windowMs t :=
  total_le_total (fun _ _ => DustReservationRow.counts_of_countsSpent)
    fun row _ => row.amount_pos.le

theorem DustTable.dustUsage_keep (table : DustTable) (hle : nowMs ≤ t) :
    (table.keep (·.survives (max 0 (nowMs - windowMs)))).dustUsage windowMs t =
      table.dustUsage windowMs t :=
  total_filter fun _ _ => DustReservationRow.survives_of_counts hle

theorem DustTable.spentUsage_keep (table : DustTable) (hle : nowMs ≤ t) :
    (table.keep (·.survives (max 0 (nowMs - windowMs)))).spentUsage windowMs t =
      table.spentUsage windowMs t :=
  total_filter fun _ _ h =>
    DustReservationRow.survives_of_counts hle (DustReservationRow.counts_of_countsSpent h)

/-! ## Runs -/

namespace DustRun

variable {past : DustRun}

theorem windowed_empty (hlimit : 0 ≤ limits.maxPerWindow) :
    Windowed limits nowMs ⟨.empty, []⟩ where
  window_pos h := absurd rfl h
  spent_pos _ h := absurd h List.not_mem_nil
  usage_le := hlimit
  accounted _ _ := rfl
  within _ := hlimit

theorem Windowed.later (h : Windowed limits nowMs past) (hle : nowMs ≤ t) :
    Windowed limits t past where
  window_pos := h.window_pos
  spent_pos := h.spent_pos
  usage_le := (past.table.dustUsage_later hle).trans h.usage_le
  accounted later hlater := h.accounted later (hle.trans hlater)
  within := h.within

/-- What was spent in a window that ends at or after the clock is still counted. -/
theorem within_of_accounted {limit : Int} (hspent : ∀ spend ∈ past.spends, 1 ≤ spend.atMs)
    (haccounted : total (fun spend => decide (max 0 (t - windowMs) < spend.atMs)) (·.amount)
      past.spends = past.table.spentUsage windowMs t)
    (hle : nowMs ≤ t) (husage : past.table.dustUsage windowMs nowMs ≤ limit) :
    past.spentWithin (t - windowMs) t ≤ limit := by
  calc past.spentWithin (t - windowMs) t
      ≤ total (fun spend => decide (max 0 (t - windowMs) < spend.atMs)) (·.amount) past.spends := by
        refine total_le_total (fun spend hspend h => ?_) fun spend _ => spend.amount_pos.le
        have := hspent spend hspend
        simp only [decide_eq_true_eq] at h ⊢
        omega
    _ = past.table.spentUsage windowMs t := haccounted
    _ ≤ past.table.dustUsage windowMs t := past.table.spentUsage_le
    _ ≤ past.table.dustUsage windowMs nowMs := past.table.dustUsage_later hle
    _ ≤ limit := husage

/-- A table whose usages are no larger, with nothing spent. -/
theorem Windowed.change {after : DustTable} (h : Windowed limits nowMs past)
    (hwindow : after.rows ≠ [] → 1 ≤ limits.windowMs)
    (husage : after.dustUsage limits.windowMs nowMs ≤ limits.maxPerWindow)
    (hspent : ∀ t, nowMs ≤ t →
      after.spentUsage limits.windowMs t = past.table.spentUsage limits.windowMs t) :
    Windowed limits nowMs ⟨after, past.spends ++ []⟩ where
  window_pos := hwindow
  spent_pos := by
    rw [List.append_nil]
    exact h.spent_pos
  usage_le := husage
  accounted t hle := by
    rw [List.append_nil, hspent t hle]
    exact h.accounted t hle
  within t := by
    rw [List.append_nil]
    exact h.within t

/-- Every move keeps the window. -/
theorem Windowed.move {after : DustTable} {spends : List DustSpend}
    (h : Windowed limits nowMs past) (hmove : DustMove limits nowMs past.table after spends) :
    Windowed limits nowMs ⟨after, past.spends ++ spends⟩ := by
  cases hmove with
  | same => exact h.change h.window_pos h.usage_le fun _ _ => rfl
  | reserved row hfree hstate hwindow hfits =>
    refine h.change (fun _ => hwindow) ?_ fun t _ => past.table.spentUsage_insert row hfree hstate
    rw [DustTable.dustUsage_insert row hfree hstate]
    exact hfits
  | released operationKey row hrow hstate =>
    have hwindow : 1 ≤ limits.windowMs :=
      h.window_pos (List.ne_nil_of_mem (List.mem_of_find?_eq_some hrow))
    refine h.change (fun _ => hwindow) ?_ fun t _ => ?_
    · have hupdate := DustTable.total_update (·.counts limits.windowMs nowMs) nowMs .released hrow
      have hbefore : row.counts limits.windowMs nowMs = true := by
        unfold DustReservationRow.counts
        rw [hstate]
      have hafter : (row.moved .released nowMs).counts limits.windowMs nowMs = false := rfl
      rw [hbefore, hafter, if_pos rfl, if_neg Bool.false_ne_true] at hupdate
      have hle := h.usage_le
      have hpos := row.amount_pos
      unfold DustTable.dustUsage at hle ⊢
      omega
    · have hupdate := DustTable.total_update (·.countsSpent limits.windowMs t) nowMs .released hrow
      have hbefore : row.countsSpent limits.windowMs t = false := by
        unfold DustReservationRow.countsSpent
        rw [hstate]
      have hafter : (row.moved .released nowMs).countsSpent limits.windowMs t = false := rfl
      rw [hbefore, hafter, if_neg Bool.false_ne_true] at hupdate
      unfold DustTable.spentUsage
      omega
  | pruned =>
    have hrows : ∀ keeps, (past.table.keep keeps).rows ≠ [] → past.table.rows ≠ [] :=
      fun keeps hkept heq => hkept (congrArg (List.filter keeps) heq)
    refine h.change (fun hkept => h.window_pos (hrows _ hkept)) ?_ fun t hle =>
      past.table.spentUsage_keep hle
    rw [DustTable.dustUsage_keep _ le_rfl]
    exact h.usage_le
  | spent operationKey row hrow hstate hnow =>
    have hwindow : 1 ≤ limits.windowMs :=
      h.window_pos (List.ne_nil_of_mem (List.mem_of_find?_eq_some hrow))
    have hspent : ∀ spend ∈ past.spends ++ [⟨nowMs, row.amount, row.amount_pos⟩],
        1 ≤ spend.atMs := by
      intro spend hspend
      rcases List.mem_append.mp hspend with hspend | hspend
      · exact h.spent_pos spend hspend
      · rw [List.mem_singleton.mp hspend]
        exact hnow
    have husage : (past.table.update operationKey (.spent nowMs) nowMs).dustUsage limits.windowMs
        nowMs = past.table.dustUsage limits.windowMs nowMs := by
      have hupdate := DustTable.total_update (·.counts limits.windowMs nowMs) nowMs
        (.spent nowMs) hrow
      have hbefore : row.counts limits.windowMs nowMs = true := by
        unfold DustReservationRow.counts
        rw [hstate]
      have hafter : (row.moved (.spent nowMs) nowMs).counts limits.windowMs nowMs = true := by
        simp only [DustReservationRow.counts, DustReservationRow.moved, decide_eq_true_eq]
        omega
      rw [hbefore, hafter, if_pos rfl] at hupdate
      unfold DustTable.dustUsage
      omega
    have haccounted : ∀ t, nowMs ≤ t →
        total (fun spend => decide (max 0 (t - limits.windowMs) < spend.atMs)) (·.amount)
            (past.spends ++ [⟨nowMs, row.amount, row.amount_pos⟩]) =
          (past.table.update operationKey (.spent nowMs) nowMs).spentUsage limits.windowMs t := by
      intro t hle
      have hupdate := DustTable.total_update (·.countsSpent limits.windowMs t) nowMs
        (.spent nowMs) hrow
      have hbefore : row.countsSpent limits.windowMs t = false := by
        unfold DustReservationRow.countsSpent
        rw [hstate]
      have hafter : (row.moved (.spent nowMs) nowMs).countsSpent limits.windowMs t =
          decide (max 0 (t - limits.windowMs) < nowMs) := rfl
      have hold := h.accounted t hle
      rw [hbefore, hafter, if_neg Bool.false_ne_true] at hupdate
      rw [total_append, total_singleton, hold]
      unfold DustTable.spentUsage
      dsimp only
      omega
    refine ⟨fun _ => hwindow, hspent, husage.trans_le h.usage_le, haccounted, fun t => ?_⟩
    by_cases hle : nowMs ≤ t
    · exact within_of_accounted hspent (haccounted t hle) hle (husage.trans_le h.usage_le)
    · -- A window that ends before the clock does not hold the new spend.
      have hout : ¬ (t - limits.windowMs < nowMs ∧ nowMs ≤ t) := fun hin => hle hin.2
      have hwithin := h.within t
      unfold spentWithin at hwithin ⊢
      rw [total_append, total_singleton, if_neg (by simpa using hout), Int.add_zero]
      exact hwithin

/-- The run keeps the window, at every clock reading from its last call on. -/
theorem run_windowed {calls : List DustCall} (hlimit : 0 ≤ limits.maxPerWindow)
    (hclock : (calls.map (·.nowMs)).Pairwise (· ≤ ·)) (hle : ∀ call ∈ calls, call.nowMs ≤ nowMs) :
    Windowed limits nowMs (run limits calls) := by
  induction calls using List.reverseRecOn generalizing nowMs with
  | nil => exact windowed_empty hlimit
  | append_singleton calls call ih =>
    rw [List.map_append, List.map_singleton, List.pairwise_append] at hclock
    obtain ⟨hclock, -, hlast⟩ := hclock
    have hbefore : Windowed limits call.nowMs (run limits calls) :=
      ih hclock fun earlier hearlier =>
        hlast _ (List.mem_map_of_mem hearlier) _ List.mem_cons_self
    rw [run_snoc]
    exact (hbefore.move (call.moves limits _)).later
      (hle call (List.mem_append_right calls List.mem_cons_self))

theorem run_windowed_before {calls : List DustCall} (hlimit : 0 ≤ limits.maxPerWindow)
    (hclock : ((calls ++ [call]).map (·.nowMs)).Pairwise (· ≤ ·)) :
    Windowed limits call.nowMs (run limits calls) := by
  rw [List.map_append, List.map_singleton, List.pairwise_append] at hclock
  obtain ⟨hclock, -, hlast⟩ := hclock
  exact run_windowed hlimit hclock fun earlier hearlier =>
    hlast _ (List.mem_map_of_mem hearlier) _ List.mem_cons_self

end DustRun

/-! ## Replays -/

def DustOperation.operationKey? : DustOperation → Option String
  | reserveDust input => some input.operationKey
  | markDustSpent operationKey => some operationKey
  | releaseDust operationKey => some operationKey
  | pruneDust => none

/-- The answers of an operation that took effect, now or in an earlier call. -/
def DustAnswer.tookEffect : DustAnswer → Bool
  | reservation (.accepted _ _) => true
  | transitioned (some _) => true
  | _ => false

/-- The state that an operation leaves its row in, until it is pruned. -/
def DustOperation.Leaves (operation : DustOperation) (state : DustReservationState) : Prop :=
  match operation with
  | markDustSpent _ => ∃ spentAtMs, state = .spent spentAtMs
  | releaseDust _ => state = .released
  | _ => True

theorem DustTable.byKey_eq_some {operationKey : String} {row : DustReservationRow} :
    table.dustByOperationKey operationKey = some row ↔
      row ∈ table.rows ∧ row.operationKey = operationKey := by
  constructor
  · intro h
    exact ⟨List.mem_of_find?_eq_some h, by simpa using List.find?_some h⟩
  · rintro ⟨hrow, rfl⟩
    cases hfound : table.dustByOperationKey row.operationKey with
    | none => exact absurd (List.mem_map_of_mem hrow) (byKey_eq_none hfound)
    | some found =>
      have hkey : found.operationKey = row.operationKey := by simpa using List.find?_some hfound
      rw [List.inj_on_of_nodup_map table.keysUnique (List.mem_of_find?_eq_some hfound) hrow hkey]

/-- A settled row stays as it is, while the table holds its key. -/
theorem DustMove.kept {after : DustTable} {spends : List DustSpend} {operationKey : String}
    {row held : DustReservationRow} (hmove : DustMove limits nowMs table after spends)
    (hrow : table.dustByOperationKey operationKey = some row) (hstate : row.state ≠ .reserved)
    (hheld : after.dustByOperationKey operationKey = some held) :
    after.dustByOperationKey operationKey = some row := by
  obtain ⟨hmem, hkey⟩ := DustTable.byKey_eq_some.mp hrow
  have hmoved : ∀ other otherRow next, table.dustByOperationKey other = some otherRow →
      otherRow.state = .reserved →
      (table.update other next nowMs).dustByOperationKey operationKey = some row := by
    intro other otherRow next hother hreserved
    have hne : row.operationKey ≠ other := by
      rintro rfl
      rw [DustTable.byKey_eq_some.mpr ⟨hmem, rfl⟩] at hother
      exact hstate (Option.some.inj hother ▸ hreserved)
    refine DustTable.byKey_eq_some.mpr ⟨?_, hkey⟩
    exact List.mem_map.mpr ⟨row, hmem, if_neg hne⟩
  cases hmove with
  | same => exact hrow
  | reserved => exact DustTable.byKey_eq_some.mpr ⟨List.mem_append_left _ hmem, hkey⟩
  | spent other otherRow hother hreserved _ => exact hmoved other otherRow _ hother hreserved
  | released other otherRow hother hreserved => exact hmoved other otherRow _ hother hreserved
  | pruned =>
    obtain ⟨hkept, hheldKey⟩ := DustTable.byKey_eq_some.mp hheld
    have hsame := DustTable.byKey_eq_some.mpr ⟨List.mem_of_mem_filter hkept, hheldKey⟩
    rw [hheld]
    exact hsame.symm.trans hrow

/-- The row that an effective call leaves under its key. -/
theorem DustCall.leaves_of_tookEffect {answer : DustAnswer} {after : DustTable}
    {operationKey : String} (h : call.perform limits table = .ok (answer, after))
    (hkey : call.operation.operationKey? = some operationKey) (heffect : answer.tookEffect = true) :
    ∃ row, after.dustByOperationKey operationKey = some row ∧ call.operation.Leaves row.state := by
  have htransition : ∀ {next : DustOutcome} {row : Option DustReservationRow},
      Transition call.nowMs table operationKey next row after →
      (DustAnswer.transitioned row).tookEffect = true →
      ∃ row, after.dustByOperationKey operationKey = some row ∧ next.reached row.state = true := by
    intro next row htransition heffect
    cases htransition with
    | absent => cases heffect
    | reached row hrow hreached => exact ⟨row, hrow, hreached⟩
    | moved row hrow hstate hnow =>
      obtain ⟨hmem, hrowKey⟩ := DustTable.byKey_eq_some.mp hrow
      refine ⟨row.moved (next.stateAt call.nowMs) call.nowMs,
        DustTable.byKey_eq_some.mpr ⟨List.mem_map.mpr ⟨row, hmem, if_pos hrowKey⟩, hrowKey⟩, ?_⟩
      cases next <;> rfl
  rcases DustCall.perform_ok h with ⟨input, result, hoperation, rfl, hadmission⟩ |
    ⟨key, row, hoperation, rfl, hmoved⟩ | ⟨key, row, hoperation, rfl, hmoved⟩ |
    ⟨changes, hoperation, -, -⟩
  · rw [hoperation] at hkey ⊢
    cases hkey
    cases hadmission with
    | existing row hrow => exact ⟨row, hrow, trivial⟩
    | refused => cases heffect
    | fresh row hfree hrowKey =>
      exact ⟨row, DustTable.byKey_eq_some.mpr
        ⟨List.mem_append_right _ List.mem_cons_self, hrowKey⟩, trivial⟩
  · rw [hoperation] at hkey ⊢
    cases hkey
    obtain ⟨row, hrow, hreached⟩ := htransition hmoved heffect
    refine ⟨row, hrow, ?_⟩
    cases hstate : row.state with
    | spent spentAtMs => exact ⟨spentAtMs, rfl⟩
    | reserved => rw [hstate] at hreached; cases hreached
    | released => rw [hstate] at hreached; cases hreached
  · rw [hoperation] at hkey ⊢
    cases hkey
    obtain ⟨row, hrow, hreached⟩ := htransition hmoved heffect
    refine ⟨row, hrow, ?_⟩
    cases hstate : row.state with
    | released => rfl
    | reserved => rw [hstate] at hreached; cases hreached
    | spent => rw [hstate] at hreached; cases hreached
  · rw [hoperation] at hkey
    cases hkey

/-- Repeating an operation on the row it left does nothing. -/
theorem DustCall.repeat_same {operationKey : String} {row : DustReservationRow}
    (hkey : call.operation.operationKey? = some operationKey)
    (hrow : table.dustByOperationKey operationKey = some row)
    (hleaves : call.operation.Leaves row.state) :
    call.after limits table = table ∧ call.spends limits table = [] := by
  have htransition : ∀ {next : DustOutcome} {found : Option DustReservationRow}
      {after : DustTable}, next.reached row.state = true →
      Transition call.nowMs table operationKey next found after → after = table := by
    intro next found after hreached htransition
    cases htransition with
    | absent => rfl
    | reached => rfl
    | moved other hother hstate =>
      rw [hrow] at hother
      rw [Option.some.inj hother, hstate] at hreached
      cases hreached
  cases h : call.perform limits table with
  | error => exact DustCall.after_of_error h
  | ok done =>
    obtain ⟨answer, after⟩ := done
    rw [DustCall.after_of_ok h]
    rcases DustCall.perform_ok h with ⟨input, result, hoperation, -, hadmission⟩ |
      ⟨key, found, hoperation, -, hmoved⟩ | ⟨key, found, hoperation, -, hmoved⟩ |
      ⟨changes, hoperation, -, -⟩
    · refine ⟨?_, DustCall.spends_eq_nil fun _ heq => by cases hoperation.symm.trans heq⟩
      rw [hoperation] at hkey
      cases hkey
      cases hadmission with
      | existing => rfl
      | refused => rfl
      | fresh other hfree hotherKey =>
        rw [hotherKey, hrow] at hfree
        cases hfree
    · rw [hoperation] at hkey hleaves
      cases hkey
      obtain ⟨spentAtMs, hstate⟩ := hleaves
      refine ⟨htransition (by rw [hstate]; rfl) hmoved, ?_⟩
      unfold DustCall.spends
      rw [hoperation, h]
      dsimp only
      rw [hrow]
      dsimp only
      rw [hstate, if_neg nofun]
    · refine ⟨?_, DustCall.spends_eq_nil fun _ heq => by cases hoperation.symm.trans heq⟩
      rw [hoperation] at hkey hleaves
      cases hkey
      exact htransition (by rw [show row.state = .released from hleaves]; rfl) hmoved
    · rw [hoperation] at hkey
      cases hkey

namespace DustRun

/-- While the table holds the key, the row of an effective call stays fit for a repetition. -/
theorem leaves_while_held {calls between : List DustCall} {operation : DustOperation}
    {operationKey : String} {row : DustReservationRow}
    (hrow : (run limits calls).table.dustByOperationKey operationKey = some row)
    (hleaves : operation.Leaves row.state)
    (hkey : operation.operationKey? = some operationKey)
    (hheld : ∀ part, part <+: between →
      ((run limits (calls ++ part)).table.dustByOperationKey operationKey).isSome) :
    ∃ row, (run limits (calls ++ between)).table.dustByOperationKey operationKey = some row ∧
      operation.Leaves row.state := by
  induction between using List.reverseRecOn with
  | nil =>
    rw [List.append_nil]
    exact ⟨row, hrow, hleaves⟩
  | append_singleton between call ih =>
    obtain ⟨before, hbefore, hleavesBefore⟩ := ih fun part hpart =>
      hheld part (hpart.trans (List.prefix_append _ _))
    obtain ⟨held, hheldNow⟩ := Option.isSome_iff_exists.mp (hheld _ List.prefix_rfl)
    rw [← List.append_assoc, run_snoc] at hheldNow ⊢
    have hsettled : before.state ≠ .reserved →
        ((run limits (calls ++ between)).step limits call).table.dustByOperationKey operationKey =
          some before := fun hstate => (call.moves limits _).kept hbefore hstate hheldNow
    cases operation with
    | reserveDust => exact ⟨held, hheldNow, trivial⟩
    | markDustSpent =>
      obtain ⟨spentAtMs, hstate⟩ := hleavesBefore
      exact ⟨before, hsettled (by rw [hstate]; nofun), spentAtMs, hstate⟩
    | releaseDust =>
      have hstate : before.state = .released := hleavesBefore
      exact ⟨before, hsettled (by rw [hstate]; nofun), hstate⟩
    | pruneDust => cases hkey

/-- **Repeating a call that took effect changes nothing**, while the table holds its key. -/
theorem replay {calls between : List DustCall} {again : DustCall} {operationKey : String}
    {answer : DustAnswer} {after : DustTable}
    (hoperation : again.operation = call.operation)
    (hkey : call.operation.operationKey? = some operationKey)
    (hperform : call.perform limits (run limits calls).table = .ok (answer, after))
    (heffect : answer.tookEffect = true)
    (hheld : ∀ part, part <+: between →
      ((run limits (calls ++ [call] ++ part)).table.dustByOperationKey operationKey).isSome) :
    run limits (calls ++ [call] ++ between ++ [again]) =
      run limits (calls ++ [call] ++ between) := by
  obtain ⟨row, hrow, hleaves⟩ := DustCall.leaves_of_tookEffect hperform hkey heffect
  rw [← DustCall.after_of_ok hperform] at hrow
  have hfirst : (run limits (calls ++ [call])).table.dustByOperationKey operationKey =
      some row := by
    rw [run_snoc]
    exact hrow
  obtain ⟨last, hlast, hleavesLast⟩ := leaves_while_held hfirst hleaves hkey hheld
  rw [← hoperation] at hkey hleavesLast
  obtain ⟨htable, hspends⟩ := @DustCall.repeat_same limits _ _ _ _ hkey hlast hleavesLast
  rw [run_snoc]
  unfold step
  rw [htable, hspends, List.append_nil]

end DustRun

/-! ## The budget -/

/-- An accepted reservation reports the usage that it leaves. -/
theorem accepted_usage {answer : DustAnswer} {after : DustTable} {row : DustReservationRow}
    {usage : Int} (h : call.perform limits table = .ok (answer, after))
    (hanswer : answer = .reservation (.accepted row usage)) :
    usage = after.dustUsage limits.windowMs call.nowMs := by
  rcases DustCall.perform_ok h with ⟨input, result, -, rfl, hadmission⟩ | ⟨_, _, -, rfl, -⟩ |
    ⟨_, _, -, rfl, -⟩ | ⟨_, -, rfl, -⟩
  · cases hanswer
    cases hadmission with
    | existing => rfl
    | fresh row hfree _ hstate => exact (DustTable.dustUsage_insert row hfree hstate).symm
  · cases hanswer
  · cases hanswer
  · cases hanswer

/-- Pruning changes no later usage. -/
theorem pruned_usage {answer : DustAnswer} {after : DustTable} {changes : Nat}
    (h : call.perform limits table = .ok (answer, after)) (hanswer : answer = .pruned changes)
    (hle : call.nowMs ≤ t) :
    after.dustUsage limits.windowMs t = table.dustUsage limits.windowMs t := by
  rcases DustCall.perform_ok h with ⟨_, _, -, rfl, -⟩ | ⟨_, _, -, rfl, -⟩ | ⟨_, _, -, rfl, -⟩ |
    ⟨_, -, rfl, rfl⟩
  · cases hanswer
  · cases hanswer
  · cases hanswer
  · exact table.dustUsage_keep hle

/-- **The rolling DUST window**, over every sequence of calls with a clock that does not decrease:
an accepted reservation leaves the usage within the limit, no window has more spent in it, pruning
changes no later usage, and repeating a call that took effect changes nothing while the table holds
its key. -/
theorem dust_window {limits : DustAdmission} (hlimit : 0 < limits.maxPerWindow)
    {calls : List DustCall} (hclock : (calls.map (·.nowMs)).Pairwise (· ≤ ·)) :
    (∀ past call later row usage after, calls = past ++ call :: later →
      call.perform limits (DustRun.run limits past).table =
        .ok (.reservation (.accepted row usage), after) →
      usage = after.dustUsage limits.windowMs call.nowMs ∧ usage ≤ limits.maxPerWindow) ∧
    (∀ toMs, (DustRun.run limits calls).spentWithin (toMs - limits.windowMs) toMs ≤
      limits.maxPerWindow) ∧
    (∀ past call later changes after t, calls = past ++ call :: later →
      call.perform limits (DustRun.run limits past).table = .ok (.pruned changes, after) →
      call.nowMs ≤ t →
      after.dustUsage limits.windowMs t =
        (DustRun.run limits past).table.dustUsage limits.windowMs t) ∧
    (∀ past call between again later operationKey answer after,
      calls = past ++ call :: between ++ again :: later →
      again.operation = call.operation → call.operation.operationKey? = some operationKey →
      call.perform limits (DustRun.run limits past).table = .ok (answer, after) →
      answer.tookEffect = true →
      (∀ part, part <+: between → ((DustRun.run limits
        (past ++ [call] ++ part)).table.dustByOperationKey operationKey).isSome) →
      DustRun.run limits (past ++ [call] ++ between ++ [again]) =
        DustRun.run limits (past ++ [call] ++ between)) := by
  refine ⟨?_, ?_, ?_, ?_⟩
  · intro past call later row usage after hcalls hperform
    have husage := accepted_usage hperform rfl
    refine ⟨husage, ?_⟩
    rw [hcalls, List.append_cons, List.map_append, List.pairwise_append] at hclock
    have hwindowed := (DustRun.run_windowed_before hlimit.le hclock.1).move (call.moves limits _)
    rw [husage, ← DustCall.after_of_ok hperform]
    exact hwindowed.usage_le
  · intro toMs
    obtain ⟨nowMs, hnow⟩ : ∃ nowMs, ∀ call ∈ calls, call.nowMs ≤ nowMs := by
      obtain ⟨nowMs, hbound⟩ := (calls.map (·.nowMs)).finite_toSet.bddAbove
      exact ⟨nowMs, fun call hcall => hbound (List.mem_map_of_mem hcall)⟩
    exact (DustRun.run_windowed hlimit.le hclock hnow).within toMs
  · intro past call later changes after t _ hperform hle
    exact pruned_usage hperform rfl hle
  · intro past call between again later operationKey answer after _ hoperation hkey hperform
      heffect hheld
    exact DustRun.replay hoperation hkey hperform heffect hheld

namespace DustExample

def admission : DustAdmission := ⟨5, 10, 100⟩

def view : OperationsView where
  settlement _ := some ("j", 0)
  operationCount := 1
  pageBytes := 4096
  maxRows := 10
  maxBytes := 8192

def reserve (nowMs : Int) : DustCall := ⟨.reserveDust ⟨"k", "j", 0, 4⟩, nowMs, view⟩

def calls : List DustCall :=
  [reserve 1000, ⟨.markDustSpent "k", 1010, view⟩, reserve 1020, ⟨.pruneDust, 1200, view⟩]

end DustExample

theorem dust_window_example :
    (DustRun.run DustExample.admission DustExample.calls).spentWithin 910 1010 = 4 ∧
      (DustRun.run DustExample.admission DustExample.calls).spentWithin (1010 - 100) 1010 ≤ 10 :=
  ⟨by decide +kernel,
    (@dust_window DustExample.admission (by decide) DustExample.calls (by decide)).2.1 1010⟩

open DustExample in
/-- After the row of a released reservation has been pruned, repeating the reservation makes a new
one. -/
theorem replay_after_prune :
    ∃ calls : List DustCall, (calls.map (·.nowMs)).Pairwise (· ≤ ·) ∧
      ∃ past call between again, calls = past ++ call :: between ++ [again] ∧
        again.operation = call.operation ∧
        (call.perform admission (DustRun.run admission past).table).toOption.any (·.1.tookEffect) ∧
        (DustRun.run admission (past ++ call :: between)).table = .empty ∧
        (DustRun.run admission (past ++ call :: between ++ [again])).table ≠ .empty :=
  ⟨_, by decide, [], reserve 1000, [⟨.releaseDust "k", 1001, view⟩, ⟨.pruneDust, 1002, view⟩],
    reserve 1003, rfl, rfl, by decide +kernel, by decide +kernel, by decide +kernel⟩

end ZswapKernel
