import ZswapKernel.Solver.Route
import ZswapKernel.Solver.SwapBuild
import ZswapKernel.Solver.SwapRelay

/-!
# The swap job executor

`startSwapJobExecutor`: startup, the sweep and `stop`, one job at a time, and the executor they make
up. A job hears of the outside through a `JobEvent`, in a turn of its own; a job's turns are a run of
the job, whatever the other jobs do.

The executor's own part is the Stock, whether startup is over, and whether it was stopped. The order
in which startup, the sweep and `stop` come to the jobs is left open, and so is how long they wait
for one before the next.
-/

namespace ZswapKernel

namespace Act

/-! ## Startup -/

/-- `claimFromJournal`. -/
def claimFromJournal (row : JournalOperation) : Claim where
  offerHashes := row.offerHashes
  nullifiers := row.claim.inputs
  payouts := row.claim.payouts

/-- The settlement row of the latest generation. -/
def latestSettlement (journal : Journal) : Option JournalOperation :=
  (journal.filter (·.operationKind = .jobSettlement)).foldl (fun latest row =>
    match latest with
    | none => some row
    | some prior => if prior.generation < row.generation then some row else some prior) none

/-- Another generation of the job is not terminal. -/
def otherNonterminal (journal : Journal) (settlement : JournalOperation) : Bool :=
  journal.any fun row => row.operationKind = .jobSettlement &&
    row.generation ≠ settlement.generation && !row.terminal

/-- The claim startup reserves for a job. -/
def startupClaim (job : SwapJob) : Option Claim :=
  match latestSettlement job.journal with
  | none => none
  | some settlement =>
    if settlement.terminal || otherNonterminal job.journal settlement then none
    else some (claimFromJournal settlement)

def setTombstone (expiry : Int) : Act Unit :=
  modifyJob fun job => { job with tombstone := some expiry }

/-- What was to follow a terminal settlement row is done again. -/
def repeatTerminal (settlement : JournalOperation) : Act Unit := do
  match settlement.lifecycleState with
  | .reverted => markReverted settlement.generation
  | .settled => markSettled settlement.generation none
  | _ =>
    when (← hasNonterminal settlement.generation)
      (fail "FAILED job has non-terminal wallet evidence")

/-- `relayAmbiguous`. -/
def relayAmbiguous (settlement : JournalOperation) : Bool :=
  match settlement.lifecycleState with
  | .awaitingRelay | .relaySubmitted | .confirming => true
  | .quarantined =>
    settlement.receipt.relayState.isSome ||
      settlement.errorCode.any fun code =>
        "RELAY_".toList.isPrefixOf code.toList || "BACKEND_".toList.isPrefixOf code.toList
  | _ => false

/-- The record startup makes of a settlement row. -/
def restoredRecord (settlement : JournalOperation) (walletTransaction : Option WalletTransaction)
    (locallyRevertible evidenceReconcile : Bool) : JobRecord where
  generation := settlement.generation
  claim := claimFromJournal settlement
  walletTransaction := walletTransaction
  ttlExpiresAt := settlement.ttlExpiresAtMs
  reverting := some false
  locallyRevertible := some locallyRevertible
  evidenceReconcile := some evidenceReconcile

def quarantineRestored (record : JobRecord) : Act Nat := do
  let index ← newRecord record
  modifyJob fun job => { job with quarantined := some index }
  return index

/-- The finalized rows startup restores: the primary revert's, or those no revert covers. -/
def restoredFinalized (rows : List JournalOperation) : List JournalOperation × Bool :=
  match rows.reverse.find? fun row =>
      row.operationKind = .jobRevert && !isRecoveryRevert row && hasArtifact row .finalized with
  | some revertArtifact => ([revertArtifact], true)
  | none => (finalizedContributions rows, false)

/-- The unproven rows startup restores. -/
def restoredRaw (rows : List JournalOperation) : List JournalOperation :=
  if (restoredFinalized rows).2 then [] else rawContributions rows (restoredFinalized rows).1

/-- A job that is not terminal, from the artifacts of its rows. -/
def restoreArtifacts (options : SwapJobOptions) (settlement : JournalOperation)
    (rows : List JournalOperation) : Act Unit := do
  let finalizedRows := (restoredFinalized rows).1
  when (finalizedRows ≠ [] ∨ restoredRaw rows ≠ []) dependency
  if rows.any fun row => row.operationKind ≠ .jobSettlement && row.lifecycleState = .prepared &&
      row.walletArtifact.isNone then do
    quarantineGroup settlement.generation "ARTIFACT_OUTCOME_UNKNOWN"
      "a PREPARED wallet call has no durable public artifact"
    let _ ← quarantineRestored (restoredRecord settlement none false false)
  else if finalizedRows = [] ∧ restoredRaw rows = [] then do
    markFailed settlement.generation "reopened before any wallet mutation was prepared"
    setTombstone settlement.retentionUntilMs
    release (claimFromJournal settlement)
  else do
    when (finalizedRows ≠ []) dependency
    let walletTransaction :=
      if finalizedRows = [] then none else some (mergeFinalized (finalizedRows.map artifactOf))
    if relayAmbiguous settlement then do
      quarantineGroup settlement.generation "RELAY_OUTCOME_UNKNOWN"
        "startup is reconciling the pinned relay HTTP and backend ledger authorities"
      let record ← quarantineRestored (restoredRecord settlement walletTransaction false true)
      enqueueTerminal (.reconcileDurableEvidence record)
    else do
      let record ← quarantineRestored (restoredRecord settlement walletTransaction true false)
      retryQuarantine options record false

/-- `reconcileStartup`, for one job; `reserved` is whether the Stock took its claim. -/
def reconcileStartup (options : SwapJobOptions) (reserved : Bool) : Act Unit := do
  let job ← getJob
  match latestSettlement job.journal with
  | none => pure ()
  | some settlement =>
    if settlement.terminal then do
      repeatTerminal settlement
      setTombstone settlement.retentionUntilMs
    else if otherNonterminal job.journal settlement then fail "multiple non-terminal generations"
    else if !reserved then fail "could not rebuild durable Stock claim"
    else do
      let rows ← group settlement.generation
      let provedRevert := rows.any fun row =>
        row.operationKind = .jobRevert && !isRecoveryRevert row && row.lifecycleState = .reverted
      if provedRevert ∧ settlement.lifecycleState ≠ .relaySubmitted ∧
          settlement.lifecycleState ≠ .confirming then do
        markReverted settlement.generation
        setTombstone settlement.retentionUntilMs
        release (claimFromJournal settlement)
      else
        attempt (restoreArtifacts options settlement rows) fun error => do
          quarantineGroup settlement.generation "ARTIFACT_RESTORE_FAILED" error.message
          let _ ← quarantineRestored
            (restoredRecord settlement none false (relayAmbiguous settlement))

/-! ## The sweep -/

/-- What a map holds of the job. -/
def inMap (job : SwapJob) : SweepStage → Option Nat
  | .quarantined => job.quarantined
  | .awaiting => job.awaiting
  | .confirmations => job.confirmations

/-- A sweep starts: `sweptAt` is its time. -/
def expireTombstone (sweptAt : Int) : Act Unit :=
  modifyJob fun job => { job with tombstone := job.tombstone.filter (sweptAt < ·) }

/-- A map is copied. -/
def captureSwept (stage : SweepStage) : Act Unit :=
  modifyJob fun job => { job with
    swept := job.swept ++ (inMap job stage).toList.map (stage, ·) }

/-- One round of the loops of `runSweep`. -/
def visitSwept (options : SwapJobOptions) (sweptAt : Int) (stage : SweepStage) (record : Nat) :
    Act Unit := do
  let entry ← getRecord record
  match stage with
  | .quarantined =>
    if entry.locallyRevertible = some true then retryQuarantine options record false
    else if entry.evidenceReconcile = some true then
      enqueueTerminal (.reconcileDurableEvidence record)
    else pure ()
  | .awaiting =>
    if entry.relayAccepted = some true then enqueueTerminal (.reconcileFromHttp record)
    else if entry.ttlExpiresAt ≤ sweptAt ∧ (← getJob).awaiting = some record then
      revertWallet options record false
    else pure ()
  | .confirmations => enqueueTerminal (.reconcileDurableEvidence record)

/-! ## `stop` -/

/-- The shutdown deadline passes with a build in progress. -/
def stopBuilding : Act Unit := do
  match (← getJob).building with
  | none => pure ()
  | some building =>
    attempt (quarantineGroup building.generation "SHUTDOWN_IN_FLIGHT"
      "shutdown deadline elapsed before wallet work acknowledged completion") fun _ => pure ()

/-- The last round of `stop`, which does not wait in the terminal chain. -/
def stopRecord (options : SwapJobOptions) (stage : SweepStage) : Act Unit := do
  match inMap (← getJob) stage with
  | none => pure ()
  | some record =>
    let entry ← getRecord record
    match stage with
    | .quarantined =>
      if entry.locallyRevertible = some true then retryQuarantine options record false
      else if entry.evidenceReconcile = some true then reconcileDurableEvidence record false
      else pure ()
    | .awaiting =>
      if entry.relayAccepted = some true then reconcileFromHttp record false
      else revertWallet options record false
    | .confirmations => reconcileDurableEvidence record false

end Act

/-! ## The events of a job -/

/-- What a suspended operation hears. -/
inductive Reply
  | wallet (result : Except String Unit)
  | status (result : Except String RelayJobStatus)
  | evidence (answers : List (Except String OfferConsumption))
  deriving DecidableEq, Repr

inductive JobEvent
  | swap (claim : Claim) (receipts : Bool)
  /-- The route was refused. -/
  | refused
  | buildReplied (reply : Except String Unit)
  | walletDeadline
  | txSubmitted (txId : String)
  | submitFailed (reason : String)
  /-- The head of the terminal chain starts. -/
  | terminalChain
  /-- The task at `index` is answered. -/
  | taskReplied (index : Nat) (reply : Reply)
  | startup (reserved : Bool)
  | sweepStarted (sweptAt : Int)
  | sweepCopied (stage : SweepStage)
  /-- The first record the sweep has copied. -/
  | sweepVisited (sweptAt : Int)
  | stopBuilding
  | stopRecord (stage : SweepStage)
  deriving DecidableEq, Repr

namespace Act

/-- A task resumes. -/
def resume (options : SwapJobOptions) (task : JobTask) : Reply → Act Unit
  | .wallet result =>
    match task.suspension with
    | .revertWallet => revertWalletReplied task.record result
    | .retryQuarantine target rest =>
      retryQuarantineReplied options task.record task.queued target rest result
    | _ => pure ()
  | .status result =>
    match task.suspension with
    | .relayStatus => relayStatusReplied task.record task.queued result
    | _ => pure ()
  | .evidence answers =>
    match task.suspension with
    | .relayDoneEvidence => relayDoneReplied task.record answers
    | .relayFailureEvidence => relayFailureReplied options task.record task.queued answers
    | _ => pure ()

/-- Whether a reply is one the task waits for. -/
def awaits (task : JobTask) : Reply → Bool
  | .wallet _ => match task.suspension with
    | .revertWallet | .retryQuarantine _ _ => true
    | _ => false
  | .status _ => task.suspension = .relayStatus
  | .evidence _ => task.suspension = .relayDoneEvidence || task.suspension = .relayFailureEvidence

/-- The operations of the terminal chain run one at a time. -/
def startTerminal : Act Unit := do
  let job ← getJob
  match job.terminalChain with
  | [] => pure ()
  | operation :: rest =>
    if job.tasks.any (·.queued) then pure ()
    else do
      modifyJob fun job => { job with terminalChain := rest }
      runTerminal operation

def taskReplied (options : SwapJobOptions) (index : Nat) (reply : Reply) : Act Unit := do
  match (← getJob).tasks[index]? with
  | none => pure ()
  | some task =>
    if awaits task reply then do
      modifyJob fun job => { job with tasks := job.tasks.eraseIdx index }
      resume options task reply
    else pure ()

def sweepVisited (options : SwapJobOptions) (sweptAt : Int) : Act Unit := do
  match (← getJob).swept with
  | [] => pure ()
  | (stage, record) :: rest =>
    modifyJob fun job => { job with swept := rest }
    visitSwept options sweptAt stage record

/-- A turn of a job. -/
def handle (options : SwapJobOptions) : JobEvent → Act Unit
  | .swap claim receipts => executeSwap options claim receipts
  | .refused => do
    let expiry := (← now) + options.settleTtlMinutes * 60000
    setTombstone expiry
    answer (.jobError "route_unavailable")
  | .buildReplied reply => buildReplied options reply
  | .walletDeadline => walletDeadline
  | .txSubmitted txId => enqueueTerminal (.txSubmitted txId)
  | .submitFailed reason => enqueueTerminal (.submitFailed reason)
  | .terminalChain => startTerminal
  | .taskReplied index reply => taskReplied options index reply
  | .startup reserved => reconcileStartup options reserved
  | .sweepStarted sweptAt => expireTombstone sweptAt
  | .sweepCopied stage => captureSwept stage
  | .sweepVisited sweptAt => sweepVisited options sweptAt
  | .stopBuilding => stopBuilding
  | .stopRecord stage => stopRecord options stage

end Act

/-- What a turn hears besides its event. -/
structure TurnInput where
  nowMs : Int
  dependencies : List (Option String) := []
  effects : Option Nat := none
  dustRows : List Int := []
  deriving DecidableEq, Repr

/-- Whether a job may hear an event: startup comes to a job once, before any swap. -/
def JobEvent.enabled (job : SwapJob) : JobEvent → Bool
  | .swap _ _ | .refused => (job.restored || job.journal.isEmpty) && !Act.isSeen job
  | .startup _ => !job.restored
  | _ => true

/-- Whether an event ends startup for its job. -/
def JobEvent.restores : JobEvent → Bool
  | .swap _ _ | .startup _ => true
  | _ => false

def JobEvent.isStartup : JobEvent → Bool
  | .startup _ => true
  | _ => false

/-- A turn of a job: the job it reaches, and what ended the turn early. -/
def SwapJob.turn (options : SwapJobOptions) (dustElsewhere : Int) (input : TurnInput)
    (event : JobEvent) (job : SwapJob) : SwapJob × Option Interrupt :=
  if event.enabled job then
    let turn : Turn :=
      { job := { job with restored := job.restored || event.restores }
        nowMs := input.nowMs
        dependencies := input.dependencies
        effects := input.effects
        dustRows := input.dustRows
        dustElsewhere := dustElsewhere }
    match (Act.handle options event).outcome turn with
    | (.error interrupt, turn) => (turn.job, some interrupt)
    | (.ok (), turn) => (turn.job, none)
  else (job, none)

/-! ## The executor -/

structure Executor where
  jobs : String → SwapJob := fun jobId => { jobId }
  /-- The jobs the journal has rows of. -/
  ids : List String := []
  stock : Stock := {}
  reconciled : Bool := false
  /-- Startup threw, and `ready` is rejected. -/
  unready : Bool := false
  stopped : Bool := false

structure ExecutorOptions extends SwapJobOptions where
  maxParallelSwaps : Nat
  deriving DecidableEq, Repr

inductive ExecutorEvent
  /-- A swap, and the route `resolveSwapJobRoute` has for it before it reserves the claim. -/
  | swap (jobId : String) (route : Option ResolvedRoute)
  /-- A reply, a message, a timer or a round of the sweep. -/
  | job (jobId : String) (event : JobEvent)
  | startup (jobId : String)
  | reconciled
  | stop
  | stopJob (jobId : String) (event : JobEvent)
  | balances (balances : List (String × Int))
  | crash

namespace Executor

variable (executor : Executor)

/-- `building.size + quarantined.size`. -/
def occupied : Nat :=
  executor.ids.countP (fun jobId => (executor.jobs jobId).building.isSome) +
    executor.ids.countP fun jobId => (executor.jobs jobId).quarantined.isSome

/-- The DUST usage of every job but one. -/
def dustElsewhere (options : ExecutorOptions) (jobId : String) (nowMs : Int) : Int :=
  match options.dustAdmission with
  | none => 0
  | some limits =>
    ((executor.ids.filter (· ≠ jobId)).map fun other =>
      dustUsage (executor.jobs other).dust limits.windowMs nowMs).sum

/-- The process dies. -/
def crash : Executor where
  jobs jobId := (executor.jobs jobId).crash
  ids := executor.ids
  stock := { balances := executor.stock.balances }

/-- A turn of one job; the Stock hears what it releases. -/
def jobTurn (options : ExecutorOptions) (input : TurnInput) (jobId : String) (event : JobEvent) :
    Executor :=
  let before := executor.jobs jobId
  let (after, interrupt) := before.turn options.toSwapJobOptions
    (executor.dustElsewhere options jobId input.nowMs) input event
  let reached : Executor := { executor with
    jobs := Function.update executor.jobs jobId after
    ids := if after.journal.isEmpty || executor.ids.contains jobId then executor.ids
      else executor.ids ++ [jobId]
    stock := (after.released.drop before.released.length).foldl Stock.release executor.stock }
  match interrupt with
  | none => reached
  | some .crashed => reached.crash
  | some (.thrown _) => { reached with unready := executor.unready || event.isStartup }

/-- `executeSwap`, to the route. -/
def onSwap (options : ExecutorOptions) (input : TurnInput) (jobId : String)
    (route : Option ResolvedRoute) : Executor :=
  if executor.stopped || !executor.reconciled || Act.isSeen (executor.jobs jobId) ||
      decide (options.maxParallelSwaps ≤ executor.occupied) then executor
  else
    match route with
    | none => executor.jobTurn options input jobId .refused
    | some route =>
      match executor.stock.reserve route.claim with
      | (false, _) => executor.jobTurn options input jobId .refused
      | (true, stock) => { executor with stock }.jobTurn options input jobId
          (.swap route.claim !route.receipts.isEmpty)

/-- Startup comes to a job. -/
def onStartup (options : ExecutorOptions) (input : TurnInput) (jobId : String) : Executor :=
  if executor.reconciled || executor.unready || (executor.jobs jobId).restored then executor
  else
    match Act.startupClaim (executor.jobs jobId) with
    | none => executor.jobTurn options input jobId (.startup true)
    | some claim =>
      match executor.stock.reserve claim with
      | (reserved, stock) => { executor with stock }.jobTurn options input jobId (.startup reserved)

/-- What the executor does on an event. -/
def step (options : ExecutorOptions) (input : TurnInput) : ExecutorEvent → Executor
  | .swap jobId route => executor.onSwap options input jobId route
  | .job jobId event =>
    match event with
    | .swap _ _ | .refused | .startup _ | .stopBuilding | .stopRecord _ => executor
    | _ => executor.jobTurn options input jobId event
  | .startup jobId => executor.onStartup options input jobId
  | .reconciled =>
    if !executor.unready && executor.ids.all fun jobId => (executor.jobs jobId).restored then
      { executor with reconciled := true }
    else executor
  | .stop => { executor with stopped := true }
  | .stopJob jobId event =>
    match event with
    | .stopBuilding | .stopRecord _ =>
      if executor.stopped then executor.jobTurn options input jobId event else executor
    | _ => executor
  | .balances balances => { executor with stock := { executor.stock with balances } }
  | .crash => executor.crash

/-- A run of the executor, over any number of processes. -/
def run (options : ExecutorOptions) (events : List (TurnInput × ExecutorEvent)) : Executor :=
  events.foldl (fun executor (input, event) => executor.step options input event) executor

end Executor

end ZswapKernel
