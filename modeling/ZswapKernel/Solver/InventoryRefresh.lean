import Mathlib.Logic.Function.Basic
import ZswapKernel.Lib.Traces
import ZswapKernel.Solver.StockRuns

/-!
# Inventory by generation

`createInventoryRefreshController` (`run.ts`): asynchronous balance reads that install into the
`Stock`. Each refresh is an operation of its own with an abort signal; a call of the controller and
each continuation of an operation is one event, so any number of reads overlap in any order. An
operation moves through `RefreshPhase` at its `await` points, and also where the observer of
readiness is called, which may call the controller back.

A race settles with any of its promises that has settled; what readBalances' abort listeners do is
its own.

Results:
* `InventoryController.Held`: what holds in every state of a run, with where the balances come from.
* `held_step`: one event keeps it.
* `inventory_fail_closed`: no balances unless ready, the latest read's if ready, and no change by a
  read that is superseded, aborted or stopped.
-/

namespace ZswapKernel

/-- How a balance read ends. A value that is no record of balances makes `setBalances` throw. -/
inductive ReadOutcome
  | balances (value : List (String × Int))
  | malformed (message : String)
  | failed (message : String)
  deriving DecidableEq, Repr

/-- `Promise.race([read, aborted])`: the read's outcome, or the reason of the abort. -/
inductive RaceOutcome
  | read (outcome : ReadOutcome)
  | aborted (reason : String)
  deriving DecidableEq, Repr

/-- Where a refresh stands. -/
inductive RefreshPhase
  /-- The stock is withdrawn and its observer runs; the read is not asked for yet. -/
  | called
  /-- `await Promise.race(…)`. -/
  | waiting
  /-- The race has settled and the continuation is queued. -/
  | raced (outcome : RaceOutcome)
  /-- The observer of the outcome runs; `finally` is left. -/
  | finishing (result : Except String Unit)
  | done (result : Except String Unit)

/-- One call of `refresh`, keyed by its generation. -/
structure RefreshOperation where
  /-- `owner.signal`: the reason it was aborted with. -/
  abortReason : Option String := none
  /-- The listener on the caller's signal is attached. -/
  linked : Bool
  read : Option ReadOutcome := none
  phase : RefreshPhase := .called

/-- The read is asked for and has not settled. -/
def RefreshOperation.retained (operation : RefreshOperation) : Bool :=
  match operation.phase with
  | .called => false
  | _ => operation.read.isNone

structure InventoryController where
  stock : Stock := {}
  generation : Nat := 0
  ready : Bool := false
  stopped : Bool := false
  /-- The operation that owns `active`. -/
  active : Option Nat := none
  operations : Nat → Option RefreshOperation := fun _ => none

/-- The signal a caller passes to `refresh`. -/
inductive OuterSignal
  | absent
  | pending
  | aborted (reason : String)
  deriving DecidableEq, Repr

/-- The operation that a refresh opens: a signal that is aborted aborts its owner at once. -/
def OuterSignal.owner : OuterSignal → RefreshOperation
  | .absent => { linked := false }
  | .pending => { linked := true }
  | .aborted reason => { linked := false, abortReason := some reason }

/-- What can happen: the calls, the caller's signals, the reads, and the continuations. -/
inductive InventoryEvent
  | refresh (signal : OuterSignal)
  | invalidate (reason : String)
  | stop
  | outerAbort (id : Nat) (reason : String)
  /-- The rest of `refresh` up to its `await`: the read is asked for. -/
  | askRead (id : Nat)
  | readSettles (id : Nat) (outcome : ReadOutcome)
  /-- The race settles, with the abort or with the read. -/
  | raceSettles (id : Nat) (byAbort : Bool)
  | resume (id : Nat)
  | finish (id : Nat)
  /-- A fill reserves or releases. -/
  | reserve (claim : Claim)
  | release (claim : Claim)

namespace InventoryController

variable (controller : InventoryController)

/-- `isReady()`. -/
def isReady : Bool := controller.ready && !controller.stopped

/-- `isRefreshing()`. -/
def isRefreshing : Bool := controller.active.isSome

/-- `retainedOperations()`: the reads that have not settled. -/
def retainedOperations : Nat :=
  (List.range (controller.generation + 1)).countP fun id =>
    (controller.operations id).any (·.retained)

/-- `withdraw`: no balances, not ready. -/
def withdraw : InventoryController :=
  { controller with stock := controller.stock.setBalances [], ready := false }

def setOperation (id : Nat) (operation : RefreshOperation) : InventoryController :=
  { controller with operations := Function.update controller.operations id (some operation) }

/-- `owner.abort(reason)`: the first reason stays. -/
def abort (id : Nat) (reason : String) : InventoryController :=
  match controller.operations id with
  | none => controller
  | some operation =>
    controller.setOperation id
      { operation with abortReason := some (operation.abortReason.getD reason) }

/-- `active?.abort(reason)`. -/
def abortActive (reason : String) : InventoryController :=
  match controller.active with
  | none => controller
  | some id => controller.abort id reason

/-- `refresh` up to its withdrawal. On a stopped controller it throws. -/
def refresh (signal : OuterSignal) : InventoryController :=
  if controller.stopped then controller
  else
    let id := controller.generation + 1
    let superseded := controller.abortActive "inventory refresh superseded by a newer generation"
    ({ superseded with generation := id, active := some id }.setOperation id signal.owner).withdraw

/-- `invalidate`. -/
def invalidate (reason : String) : InventoryController :=
  if controller.stopped then controller
  else
    { controller.abortActive reason with
      generation := controller.generation + 1, active := none }.withdraw

/-- `stop`. -/
def stop : InventoryController :=
  if controller.stopped then controller
  else
    { controller.abortActive "inventory refresh controller stopped" with
      stopped := true, generation := controller.generation + 1, active := none }.withdraw

/-- The operation throws: its `catch`. -/
def fail (id : Nat) (operation : RefreshOperation) (message : String) : InventoryController :=
  let failed := controller.setOperation id { operation with phase := .finishing (.error message) }
  if id = controller.generation ∧ controller.stopped = false then failed.withdraw else failed

/-- The continuation after the race. -/
def resume (id : Nat) (operation : RefreshOperation) : RaceOutcome → InventoryController
  | .aborted reason => controller.fail id operation reason
  | .read (.failed message) => controller.fail id operation message
  | .read outcome =>
    if controller.stopped = true ∨ id ≠ controller.generation ∨ operation.abortReason.isSome then
      controller.fail id operation (operation.abortReason.getD "inventory refresh superseded")
    else
      match outcome with
      | .balances value =>
        let installed := controller.setOperation id { operation with phase := .finishing (.ok ()) }
        { installed with stock := controller.stock.setBalances value, ready := true }
      | .malformed message => controller.fail id operation message
      | .failed message => controller.fail id operation message

/-- `finally`. -/
def finish (id : Nat) (operation : RefreshOperation) (result : Except String Unit) :
    InventoryController :=
  let finished := controller.setOperation id
    { operation with linked := false, phase := .done result }
  if controller.active = some id then { finished with active := none } else finished

/-- One event, or `none` where it cannot happen. -/
def step : InventoryEvent → Option InventoryController
  | .refresh signal => some (controller.refresh signal)
  | .invalidate reason => some (controller.invalidate reason)
  | .stop => some controller.stop
  | .outerAbort id reason =>
    (controller.operations id).bind fun operation =>
      if operation.linked then some (controller.abort id reason) else none
  | .askRead id =>
    (controller.operations id).bind fun operation =>
      match operation.phase with
      | .called => some (controller.setOperation id { operation with phase := .waiting })
      | _ => none
  | .readSettles id outcome =>
    (controller.operations id).bind fun operation =>
      if operation.retained then
        some (controller.setOperation id { operation with read := some outcome })
      else none
  | .raceSettles id true =>
    (controller.operations id).bind fun operation =>
      match operation.phase, operation.abortReason with
      | .waiting, some reason =>
        some (controller.setOperation id { operation with phase := .raced (.aborted reason) })
      | _, _ => none
  | .raceSettles id false =>
    (controller.operations id).bind fun operation =>
      match operation.phase, operation.read with
      | .waiting, some outcome =>
        some (controller.setOperation id { operation with phase := .raced (.read outcome) })
      | _, _ => none
  | .resume id =>
    (controller.operations id).bind fun operation =>
      match operation.phase with
      | .raced outcome => some (controller.resume id operation outcome)
      | _ => none
  | .finish id =>
    (controller.operations id).bind fun operation =>
      match operation.phase with
      | .finishing result => some (controller.finish id operation result)
      | _ => none
  | .reserve claim => some { controller with stock := (controller.stock.reserve claim).2 }
  | .release claim => some { controller with stock := controller.stock.release claim }

end InventoryController

/-! ## What an operation is allowed to do -/

/-- The call takes the authority from every read before it. -/
def InventoryEvent.Supersedes : InventoryEvent → Prop
  | .refresh _ | .invalidate _ | .stop => True
  | _ => False

/-- The event belongs to the completion of the read of `id`. -/
def InventoryEvent.Completes (id : Nat) : InventoryEvent → Prop
  | .readSettles id' _ | .raceSettles id' _ | .resume id' | .finish id' => id' = id
  | _ => False

/-- The continuation of the race has not run. -/
def RefreshOperation.Open (operation : RefreshOperation) : Prop :=
  match operation.phase with
  | .called | .waiting | .raced _ => True
  | .finishing _ | .done _ => False

theorem open_of_called {operation : RefreshOperation} (h : operation.phase = .called) :
    operation.Open := by
  unfold RefreshOperation.Open
  rw [h]
  trivial

theorem open_of_waiting {operation : RefreshOperation} (h : operation.phase = .waiting) :
    operation.Open := by
  unfold RefreshOperation.Open
  rw [h]
  trivial

theorem open_of_raced {operation : RefreshOperation} {outcome : RaceOutcome}
    (h : operation.phase = .raced outcome) : operation.Open := by
  unfold RefreshOperation.Open
  rw [h]
  trivial

theorem read_of_retained {operation : RefreshOperation} (h : operation.retained = true) :
    operation.read = none := by
  unfold RefreshOperation.retained at h
  cases hphase : operation.phase <;> simp only [hphase] at h <;>
    first
    | exact Option.isNone_iff_eq_none.1 h
    | cases h

namespace InventoryController

/-- The read of `id` is superseded, aborted or stopped. -/
def Revoked (controller : InventoryController) (id : Nat) : Prop :=
  id ≠ controller.generation ∨ controller.stopped = true ∨
    ∃ operation, controller.operations id = some operation ∧ operation.abortReason.isSome = true

/-- The last superseding call of `events` is the refresh of the current generation, and a read that
`operation` has is its read. -/
def Latest (events : List InventoryEvent) (controller : InventoryController)
    (operation : RefreshOperation) : Prop :=
  ∃ before signal after start, Trace step {} before start ∧
    events = before ++ InventoryEvent.refresh signal :: after ∧
    controller.generation = start.generation + 1 ∧ (∀ event ∈ after, ¬ event.Supersedes) ∧
    ∀ outcome, operation.read = some outcome →
      InventoryEvent.readSettles controller.generation outcome ∈ after

/-- **What holds in every state of a run.** -/
structure Held (events : List InventoryEvent) (controller : InventoryController) : Prop where
  withdrawn : controller.ready = false → controller.stock.balances = []
  stopped : controller.stopped = true →
    controller.ready = false ∧ controller.operations controller.generation = none
  known : ∀ id operation, controller.operations id = some operation → id ≤ controller.generation
  /-- Until the current read is installed the controller is not ready. -/
  unready : ∀ operation, controller.operations controller.generation = some operation →
    operation.Open → controller.ready = false
  raced : ∀ id operation outcome, controller.operations id = some operation →
    operation.phase = .raced (.read outcome) → operation.read = some outcome
  latest : ∀ operation, controller.operations controller.generation = some operation →
    Latest events controller operation
  installed : controller.ready = true →
    ∃ operation, controller.operations controller.generation = some operation ∧
      operation.read = some (.balances controller.stock.balances)

variable {events : List InventoryEvent} {controller controller' : InventoryController}
  {id : Nat} {operation operation' : RefreshOperation} {event : InventoryEvent}

theorem Held.start : Held [] {} where
  withdrawn _ := rfl
  stopped h := by cases h
  known _ _ h := by cases h
  unready _ h := by cases h
  raced _ _ _ h := by cases h
  latest _ h := by cases h
  installed h := by cases h

theorem Latest.snoc (h : Latest events controller operation) (hevent : ¬ event.Supersedes)
    (hread : ∀ outcome, operation'.read = some outcome →
      operation.read = some outcome ∨ event = .readSettles controller.generation outcome) :
    Latest (events ++ [event]) controller operation' := by
  obtain ⟨before, signal, after, start, hrun, rfl, hgeneration, hafter, hsettled⟩ := h
  refine ⟨before, signal, after ++ [event], start, hrun, by simp, hgeneration, ?_, ?_⟩
  · intro e he
    rcases List.mem_append.1 he with he | he
    · exact hafter e he
    · rw [List.mem_singleton.1 he]
      exact hevent
  · intro outcome houtcome
    rcases hread outcome houtcome with h | h
    · exact List.mem_append_left _ (hsettled outcome h)
    · rw [h]
      exact List.mem_append_right _ (List.mem_singleton_self _)

/-- An event that supersedes nothing and leaves the operations alone. -/
theorem Held.snoc (h : Held events controller) (hevent : ¬ event.Supersedes) :
    Held (events ++ [event]) controller :=
  { h with latest := fun operation hop => (h.latest operation hop).snoc hevent fun _ => .inl }

/-- `withdraw` is always safe. -/
theorem Held.withdraw (h : Held events controller) : Held events controller.withdraw where
  withdrawn _ := rfl
  stopped hstopped := ⟨rfl, (h.stopped hstopped).2⟩
  known := h.known
  unready _ _ _ := rfl
  raced := h.raced
  latest := h.latest
  installed hready := by cases hready

theorem operations_setOperation (other : Nat) :
    (controller.setOperation id operation').operations other =
      if other = id then some operation' else controller.operations other := by
  unfold setOperation
  exact Function.update_apply _ _ _ _

/-- **One operation moves on.** It keeps a read that it has, and it is open only if it was. -/
theorem Held.setOperation (h : Held events controller)
    (hop : controller.operations id = some operation) (hevent : ¬ event.Supersedes)
    (hkeeps : ∀ outcome, operation.read = some outcome → operation'.read = some outcome)
    (hread : ∀ outcome, operation'.read = some outcome →
      operation.read = some outcome ∨ event = .readSettles id outcome)
    (hraced : ∀ outcome, operation'.phase = .raced (.read outcome) →
      operation'.read = some outcome)
    (hopen : operation'.Open → operation.Open) :
    Held (events ++ [event]) (controller.setOperation id operation') where
  withdrawn := h.withdrawn
  stopped hstopped := by
    obtain ⟨hready, hnone⟩ := h.stopped hstopped
    refine ⟨hready, ?_⟩
    rw [operations_setOperation]
    split
    · rename_i heq
      have hgen : controller.generation = id := heq
      rw [hgen, hop] at hnone
      cases hnone
    · exact hnone
  known other op hother := by
    rw [operations_setOperation] at hother
    split at hother
    · rename_i heq
      subst heq
      exact h.known _ _ hop
    · exact h.known _ _ hother
  unready op hgen hopened := by
    rw [operations_setOperation] at hgen
    split at hgen
    · rename_i heq
      have hid : controller.generation = id := heq
      obtain rfl := Option.some.inj hgen
      exact h.unready operation (hid ▸ hop) (hopen hopened)
    · exact h.unready op hgen hopened
  raced other op outcome hother hphase := by
    rw [operations_setOperation] at hother
    split at hother
    · obtain rfl := Option.some.inj hother
      exact hraced outcome hphase
    · exact h.raced other op outcome hother hphase
  latest op hgen := by
    rw [operations_setOperation] at hgen
    split at hgen
    · rename_i heq
      have hid : controller.generation = id := heq
      obtain rfl := Option.some.inj hgen
      refine (h.latest operation (hid ▸ hop)).snoc hevent fun outcome houtcome => ?_
      rw [hid]
      exact hread outcome houtcome
    · exact (h.latest op hgen).snoc hevent fun _ => .inl
  installed hready := by
    obtain ⟨op, hgen, hinstalled⟩ := h.installed hready
    by_cases hid : controller.generation = id
    · rw [hid, hop] at hgen
      obtain rfl := Option.some.inj hgen
      refine ⟨operation', ?_, hkeeps _ hinstalled⟩
      rw [operations_setOperation]
      exact if_pos hid
    · refine ⟨op, ?_, hinstalled⟩
      rw [operations_setOperation]
      exact (if_neg hid).trans hgen

/-! ## Aborts and supersessions -/

@[simp] theorem abort_generation (reason : String) :
    (controller.abort id reason).generation = controller.generation := by
  unfold abort
  cases controller.operations id <;> rfl

/-- An abort changes no read and no phase. -/
theorem operations_abort {reason : String} {other : Nat}
    (h : (controller.abort id reason).operations other = some operation') :
    ∃ operation, controller.operations other = some operation ∧
      operation'.read = operation.read ∧ operation'.phase = operation.phase := by
  unfold abort at h
  cases hop : controller.operations id with
  | none =>
    rw [hop] at h
    exact ⟨operation', h, rfl, rfl⟩
  | some operation =>
    simp only [hop] at h
    rw [operations_setOperation] at h
    split at h
    · rename_i heq
      obtain rfl := Option.some.inj h
      exact ⟨operation, heq ▸ hop, rfl, rfl⟩
    · exact ⟨operation', h, rfl, rfl⟩

theorem operations_abortActive {reason : String} {other : Nat}
    (h : (controller.abortActive reason).operations other = some operation') :
    ∃ operation, controller.operations other = some operation ∧
      operation'.read = operation.read ∧ operation'.phase = operation.phase := by
  unfold abortActive at h
  cases hactive : controller.active with
  | none =>
    rw [hactive] at h
    exact ⟨operation', h, rfl, rfl⟩
  | some id =>
    simp only [hactive] at h
    exact operations_abort h

/-- The state after the active read is aborted and the generation is spent. -/
theorem Held.superseded (h : Held events controller) (reason : String) (stopped : Bool)
    (active : Option Nat) :
    Held (events ++ [event]) { controller.abortActive reason with
      stopped, active, generation := controller.generation + 1 }.withdraw where
  withdrawn _ := rfl
  stopped _ := by
    refine ⟨rfl, Option.eq_none_iff_forall_ne_some.2 fun op hop => ?_⟩
    obtain ⟨op', hop', -, -⟩ := operations_abortActive hop
    exact absurd (h.known _ _ hop') (Nat.not_succ_le_self _)
  known other op hother := by
    obtain ⟨op', hother', -, -⟩ := operations_abortActive hother
    exact (h.known _ _ hother').trans (Nat.le_succ _)
  unready _ _ _ := rfl
  raced other op outcome hother hphase := by
    obtain ⟨op', hother', hread, hphase'⟩ := operations_abortActive hother
    rw [hread]
    exact h.raced other op' outcome hother' (hphase' ▸ hphase)
  latest op hop := by
    obtain ⟨op', hop', -, -⟩ := operations_abortActive hop
    exact absurd (h.known _ _ hop') (Nat.not_succ_le_self _)
  installed hready := by cases hready

theorem abortActive_stopped (reason : String) :
    (controller.abortActive reason).stopped = controller.stopped := by
  unfold abortActive abort
  cases controller.active with
  | none => rfl
  | some id => cases h : controller.operations id <;> simp only [h] <;> rfl

theorem owner_read (signal : OuterSignal) : signal.owner.read = none := by cases signal <;> rfl

theorem owner_phase (signal : OuterSignal) : signal.owner.phase = .called := by
  cases signal <;> rfl

/-- A refresh opens the operation of a new generation. -/
theorem Held.refresh (hrun : Trace step {} events controller) (h : Held events controller)
    (signal : OuterSignal) :
    Held (events ++ [.refresh signal]) (controller.refresh signal) := by
  unfold InventoryController.refresh
  split
  · obtain ⟨hready, hnone⟩ := h.stopped ‹_›
    exact { h with latest := fun op hop => by rw [hnone] at hop; cases hop }
  · rename_i hlive
    -- every other operation is as the abort left it, and the new one has no read
    have hold : ∀ {other op},
        (controller.refresh signal).operations other = some op →
          other = controller.generation + 1 ∧ op = signal.owner ∨
            ∃ op', controller.operations other = some op' ∧ op.read = op'.read ∧
              op.phase = op'.phase := by
      intro other op hop
      unfold InventoryController.refresh at hop
      rw [if_neg hlive] at hop
      simp only [InventoryController.withdraw] at hop
      rw [operations_setOperation] at hop
      split at hop
      · exact .inl ⟨‹_›, (Option.some.inj hop).symm⟩
      · exact .inr (operations_abortActive hop)
    unfold InventoryController.refresh at hold
    rw [if_neg hlive] at hold
    refine ⟨fun _ => rfl, fun hstop => ?_, fun other op hother => ?_, fun _ _ _ => rfl,
      fun other op outcome hother hphase => ?_, fun op hop => ?_, nofun⟩
    · exact absurd ((abortActive_stopped _).symm.trans hstop) hlive
    · rcases hold hother with ⟨rfl, -⟩ | ⟨op', hother', -, -⟩
      · exact Nat.le_refl _
      · exact (h.known _ _ hother').trans (Nat.le_succ _)
    · rcases hold hother with ⟨-, rfl⟩ | ⟨op', hother', hread, hphase'⟩
      · rw [owner_phase] at hphase
        cases hphase
      · rw [hread]
        exact h.raced other op' outcome hother' (hphase' ▸ hphase)
    · rcases hold hop with ⟨-, rfl⟩ | ⟨op', hop', -, -⟩
      · refine ⟨events, signal, [], controller, hrun, rfl, rfl, ?_, fun outcome houtcome => ?_⟩
        · intro e he
          exact absurd he List.not_mem_nil
        rw [owner_read] at houtcome
        cases houtcome
      · exact absurd (h.known _ _ hop') (Nat.not_succ_le_self _)

theorem Held.invalidate (h : Held events controller) (reason : String) :
    Held (events ++ [.invalidate reason]) (controller.invalidate reason) := by
  unfold InventoryController.invalidate
  split
  · obtain ⟨hready, hnone⟩ := h.stopped ‹_›
    exact { h with latest := fun op hop => by rw [hnone] at hop; cases hop }
  · exact h.superseded reason _ none

theorem Held.stop (h : Held events controller) :
    Held (events ++ [.stop]) controller.stop := by
  unfold InventoryController.stop
  split
  · obtain ⟨hready, hnone⟩ := h.stopped ‹_›
    exact { h with latest := fun op hop => by rw [hnone] at hop; cases hop }
  · exact h.superseded _ true none

/-! ## The continuations -/

/-- A failure that finds the operation open withdraws, or does nothing at all. -/
theorem Held.fail (h : Held events controller)
    (hop : controller.operations id = some operation) (hopen : operation.Open)
    (hevent : ¬ event.Supersedes) (message : String) :
    Held (events ++ [event]) (controller.fail id operation message) := by
  have hmoved : Held (events ++ [event])
      (controller.setOperation id { operation with phase := .finishing (.error message) }) :=
    h.setOperation hop hevent (fun _ h => h) (fun _ => .inl) nofun (fun _ => hopen)
  unfold InventoryController.fail
  simp only
  split
  · exact hmoved.withdraw
  · exact hmoved

/-- **The continuation of a race** installs the read of the current generation or fails. -/
theorem Held.resume (h : Held events controller)
    (hop : controller.operations id = some operation) {outcome : RaceOutcome}
    (hphase : operation.phase = .raced outcome) (hevent : ¬ event.Supersedes) :
    Held (events ++ [event]) (controller.resume id operation outcome) := by
  have hopen : operation.Open := open_of_raced hphase
  have hfail := fun message => h.fail hop hopen hevent message
  unfold InventoryController.resume
  cases outcome with
  | aborted reason => exact hfail reason
  | read outcome =>
    cases outcome with
    | failed message => exact hfail message
    | malformed message =>
      simp only
      split <;> exact hfail _
    | balances value =>
      simp only
      split
      · exact hfail _
      · rename_i hcurrent
        push Not at hcurrent
        obtain ⟨-, rfl, -⟩ := hcurrent
        have hmoved : Held (events ++ [event]) (controller.setOperation controller.generation
            { operation with phase := .finishing (.ok ()) }) :=
          h.setOperation hop hevent (fun _ h => h) (fun _ => .inl) nofun (fun _ => hopen)
        have hread : operation.read = some (.balances value) := h.raced _ _ _ hop hphase
        have hown : (controller.setOperation controller.generation
            { operation with phase := .finishing (.ok ()) }).operations controller.generation =
              some { operation with phase := .finishing (.ok ()) } := by
          rw [operations_setOperation, if_pos rfl]
        refine ⟨nofun, fun hstop => ?_, hmoved.known, fun op hgen hopened => ?_, hmoved.raced,
          hmoved.latest, fun _ => ⟨_, hown, hread⟩⟩
        · have hnone := hown.symm.trans (hmoved.stopped hstop).2
          cases hnone
        · have hgen' := hown.symm.trans hgen
          obtain rfl := Option.some.inj hgen'
          exact hopened.elim

theorem Held.finish (h : Held events controller)
    (hop : controller.operations id = some operation) {result : Except String Unit}
    (hphase : operation.phase = .finishing result) (hevent : ¬ event.Supersedes) :
    Held (events ++ [event]) (controller.finish id operation result) := by
  have hmoved : Held (events ++ [event])
      (controller.setOperation id { operation with linked := false, phase := .done result }) :=
    h.setOperation hop hevent (fun _ h => h) (fun _ => .inl) nofun nofun
  unfold InventoryController.finish
  simp only
  split
  · exact { hmoved with }
  · exact hmoved

/-! ## Runs -/

theorem reserve_balances (stock : Stock) (claim : Claim) :
    (stock.reserve claim).2.balances = stock.balances := by
  unfold Stock.reserve
  split
  · rfl
  split
  · rfl
  split <;> rfl

theorem release_balances (stock : Stock) (claim : Claim) :
    (stock.release claim).balances = stock.balances := by
  unfold Stock.release
  split <;> rfl

/-- A stock with other claims holds the same balances. -/
theorem Held.restock (h : Held events controller) {stock : Stock}
    (hbalances : stock.balances = controller.stock.balances) :
    Held events { controller with stock } where
  withdrawn hready := hbalances.trans (h.withdrawn hready)
  stopped := h.stopped
  known := h.known
  unready := h.unready
  raced := h.raced
  latest := h.latest
  installed hready := by
    obtain ⟨op, hop, hread⟩ := h.installed hready
    refine ⟨op, hop, hread.trans ?_⟩
    rw [← hbalances]

/-- **One event keeps what holds.** -/
theorem held_step (hrun : Trace step {} events controller) (h : Held events controller)
    (hstep : controller.step event = some controller') :
    Held (events ++ [event]) controller' := by
  cases event with
  | refresh signal => exact Option.some.inj hstep ▸ Held.refresh hrun h signal
  | invalidate reason => exact Option.some.inj hstep ▸ h.invalidate reason
  | stop => exact Option.some.inj hstep ▸ h.stop
  | reserve claim =>
    rw [← Option.some.inj hstep]
    have hsnoc : Held (events ++ [.reserve claim]) controller := h.snoc not_false
    exact hsnoc.restock (reserve_balances controller.stock claim)
  | release claim =>
    rw [← Option.some.inj hstep]
    have hsnoc : Held (events ++ [.release claim]) controller := h.snoc not_false
    exact hsnoc.restock (release_balances controller.stock claim)
  | outerAbort id reason =>
    obtain ⟨operation, hop, hstep⟩ := Option.bind_eq_some_iff.1 hstep
    split at hstep
    · rw [← Option.some.inj hstep]
      unfold abort
      simp only [hop]
      exact h.setOperation hop not_false (fun _ h => h) (fun _ => .inl)
        (h.raced id operation · hop) (fun hopen => hopen)
    · cases hstep
  | askRead id =>
    obtain ⟨operation, hop, hstep⟩ := Option.bind_eq_some_iff.1 hstep
    cases hphase : operation.phase with
    | called =>
      rw [hphase] at hstep
      rw [← Option.some.inj hstep]
      exact h.setOperation hop not_false (fun _ h => h) (fun _ => .inl) nofun
        fun _ => open_of_called hphase
    | _ => rw [hphase] at hstep; cases hstep
  | readSettles id outcome =>
    obtain ⟨operation, hop, hstep⟩ := Option.bind_eq_some_iff.1 hstep
    split at hstep
    · rename_i hretained
      have hread := read_of_retained hretained
      rw [← Option.some.inj hstep]
      refine h.setOperation hop not_false (fun o ho => ?_) (fun o ho => ?_) (fun o ho => ?_)
        fun hopen => hopen
      · cases hread.symm.trans ho
      · exact .inr (congrArg _ (Option.some.inj ho))
      · cases hread.symm.trans (h.raced id operation o hop ho)
    · cases hstep
  | raceSettles id byAbort =>
    cases byAbort with
    | true =>
      obtain ⟨operation, hop, hstep⟩ := Option.bind_eq_some_iff.1 hstep
      split at hstep
      · rename_i hphase _
        rw [← Option.some.inj hstep]
        exact h.setOperation hop not_false (fun _ h => h) (fun _ => .inl) nofun
          fun _ => open_of_waiting hphase
      · cases hstep
    | false =>
      obtain ⟨operation, hop, hstep⟩ := Option.bind_eq_some_iff.1 hstep
      split at hstep
      · rename_i hphase hread
        rw [← Option.some.inj hstep]
        refine h.setOperation hop not_false (fun _ h => h) (fun _ => .inl) (fun o ho => ?_)
          fun _ => open_of_waiting hphase
        cases ho
        exact hread
      · cases hstep
  | resume id =>
    obtain ⟨operation, hop, hstep⟩ := Option.bind_eq_some_iff.1 hstep
    split at hstep
    · rename_i hphase
      rw [← Option.some.inj hstep]
      exact h.resume hop hphase not_false
    · cases hstep
  | finish id =>
    obtain ⟨operation, hop, hstep⟩ := Option.bind_eq_some_iff.1 hstep
    split at hstep
    · rename_i hphase
      rw [← Option.some.inj hstep]
      exact h.finish hop hphase not_false
    · cases hstep

theorem held_of_trace (hrun : Trace step {} events controller) : Held events controller :=
  hrun.traced .start fun _ _ _ _ hrun h hstep => held_step hrun h hstep

/-! ## The result -/

/-- A revoked operation that fails changes neither the stock nor the readiness: only the current one
withdraws, and what it withdraws is withdrawn already. -/
theorem fail_of_open (h : Held events controller)
    (hop : controller.operations id = some operation) (hopen : operation.Open)
    (message : String) :
    (controller.fail id operation message).stock = controller.stock ∧
      (controller.fail id operation message).ready = controller.ready ∧
      (controller.fail id operation message).stopped = controller.stopped := by
  unfold InventoryController.fail
  simp only
  split
  · rename_i hcurrent
    obtain ⟨rfl, -⟩ := hcurrent
    have hready := h.unready operation hop hopen
    refine ⟨?_, hready.symm, rfl⟩
    have hempty := h.withdrawn hready
    unfold InventoryController.withdraw Stock.setBalances
    rw [← hempty]
    rfl
  · exact ⟨rfl, rfl, rfl⟩

/-- **The completion of a revoked read** changes neither. -/
theorem completes_revoked (h : Held events controller) (hrevoked : controller.Revoked id)
    (hevent : event.Completes id) (hstep : controller.step event = some controller') :
    controller'.stock = controller.stock ∧ controller'.ready = controller.ready ∧
      controller'.stopped = controller.stopped := by
  cases event with
  | refresh _ | invalidate _ | stop | outerAbort _ _ | askRead _ | reserve _ | release _ =>
    exact hevent.elim
  | readSettles id' outcome =>
    obtain ⟨operation, -, hstep⟩ := Option.bind_eq_some_iff.1 hstep
    split at hstep
    · exact Option.some.inj hstep ▸ ⟨rfl, rfl, rfl⟩
    · cases hstep
  | raceSettles id' byAbort =>
    cases byAbort <;>
    · obtain ⟨operation, -, hstep⟩ := Option.bind_eq_some_iff.1 hstep
      split at hstep
      · exact Option.some.inj hstep ▸ ⟨rfl, rfl, rfl⟩
      · cases hstep
  | finish id' =>
    obtain ⟨operation, -, hstep⟩ := Option.bind_eq_some_iff.1 hstep
    split at hstep
    · rw [← Option.some.inj hstep]
      unfold InventoryController.finish
      simp only
      split <;> exact ⟨rfl, rfl, rfl⟩
    · cases hstep
  | resume id' =>
    obtain rfl : id' = id := hevent
    obtain ⟨operation, hop, hstep⟩ := Option.bind_eq_some_iff.1 hstep
    split at hstep
    · rename_i outcome hphase
      rw [← Option.some.inj hstep]
      have hfail := fail_of_open h hop (open_of_raced hphase)
      have hcondition : controller.stopped = true ∨ id' ≠ controller.generation ∨
          operation.abortReason.isSome = true := by
        rcases hrevoked with hid | hstopped | ⟨operation', hop', haborted⟩
        · exact .inr (.inl hid)
        · exact .inl hstopped
        · obtain rfl := Option.some.inj (hop.symm.trans hop')
          exact .inr (.inr haborted)
      unfold InventoryController.resume
      cases outcome with
      | aborted reason => exact hfail reason
      | read outcome =>
        cases outcome with
        | failed message => exact hfail message
        | balances value | malformed message =>
          simp only
          rw [if_pos hcondition]
          exact hfail _
    · cases hstep

/-- **Inventory is fail-closed.** In every state of every run there are no balances unless the
controller is ready; when it is ready they are what the read of the last refresh gave, with no
refresh, invalidation or stop since; and the completion of a read that is superseded, aborted or
stopped changes neither the balances nor the readiness. -/
theorem inventory_fail_closed {events : List InventoryEvent} {controller : InventoryController}
    (hrun : Trace step {} events controller) :
    (controller.isReady = false → controller.stock.balances = []) ∧
      (controller.isReady = true → ∃ before signal after start, Trace step {} before start ∧
        events = before ++ InventoryEvent.refresh signal :: after ∧
        (∀ event ∈ after, ¬ event.Supersedes) ∧
        InventoryEvent.readSettles (start.generation + 1) (.balances controller.stock.balances) ∈
          after) ∧
      ∀ id event controller', controller.Revoked id → event.Completes id →
        controller.step event = some controller' →
          controller'.stock = controller.stock ∧ controller'.isReady = controller.isReady := by
  have h := held_of_trace hrun
  refine ⟨fun hready => h.withdrawn ?_, fun hready => ?_,
    fun id event controller' hrevoked hevent hstep => ?_⟩
  · unfold isReady at hready
    cases hr : controller.ready with
    | false => rfl
    | true =>
      cases hs : controller.stopped with
      | false => simp [hr, hs] at hready
      | true => exact hr.symm.trans (h.stopped hs).1
  · unfold isReady at hready
    obtain ⟨operation, hop, hread⟩ := h.installed (Bool.and_eq_true_iff.1 hready).1
    obtain ⟨before, signal, after, start, hstart, hevents, hgeneration, hafter, hsettled⟩ :=
      h.latest operation hop
    refine ⟨before, signal, after, start, hstart, hevents, hafter, ?_⟩
    rw [← hgeneration]
    exact hsettled _ hread
  · obtain ⟨hstock, hready, hstopped⟩ := completes_revoked h hrevoked hevent hstep
    unfold isReady
    rw [hready, hstopped]
    exact ⟨hstock, rfl⟩

/-- Two refreshes overlap: the first read settles last, after the second is installed. -/
def overlappingRefreshes : List InventoryEvent :=
  [.refresh .absent, .askRead 1, .refresh .pending, .askRead 2,
    .readSettles 2 (.balances [("t", 5)]), .raceSettles 2 false, .resume 2, .finish 2,
    .readSettles 1 (.balances [("t", 9)])]

theorem inventory_fail_closed_overlapping :
    ∃ controller, runEvents step {} overlappingRefreshes = some controller ∧
      controller.stock.balances = [("t", 5)] ∧
      ∃ before signal after start, Trace step {} before start ∧
        overlappingRefreshes = before ++ InventoryEvent.refresh signal :: after ∧
        (∀ event ∈ after, ¬ event.Supersedes) ∧
        InventoryEvent.readSettles (start.generation + 1) (.balances controller.stock.balances) ∈
          after := by
  have hrun : (runEvents step {} overlappingRefreshes).map
      (fun controller => (controller.isReady, controller.stock.balances)) =
        some (true, [("t", 5)]) := rfl
  obtain ⟨controller, hrun, hend⟩ := Option.map_eq_some_iff.1 hrun
  obtain ⟨hready, hbalances⟩ := Prod.mk.inj hend
  exact ⟨controller, hrun, hbalances, (inventory_fail_closed (Trace.of_runEvents hrun)).2.1 hready⟩

end InventoryController

end ZswapKernel
