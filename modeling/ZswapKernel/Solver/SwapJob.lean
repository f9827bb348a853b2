import ZswapKernel.Lib.Program
import ZswapKernel.Solver.Journal

/-!
# A swap job

`packages/solver/src/swap-job-executor.ts`, one job at a time: what the executor keeps of a job, in its
journal and in memory, and the journal functions the executor is written with.

Code between two `await`s is a `Turn`. A turn hears from outside through its event; the synchronous
dependencies it calls (the codecs, the merges, the checks of the route and of the imbalances) answer
in `answers`, in the order they are called. `effects` is how many more journal writes and wallet
calls the process lives for: a crash may fall before any of them.

A job's records are shared and changed in place, so the maps hold their index in `records`. Timers,
diagnostics and the balance refresh are left out.
-/

namespace ZswapKernel

open Program

/-! ## State -/

/-- The errors of a build. -/
inductive JobError
  /-- Any error but a `JobRefusal`. -/
  | other (message : String)
  | jobRefusal (reason : String) (detail : Option String)
  | walletMutationUncertain (detail : String) (rawTransactions : List WalletTransaction)
      (walletTransaction : Option WalletTransaction)
  | walletCleanupFailure (detail : String) (walletTransaction : WalletTransaction)
  deriving DecidableEq, Repr

/-- `errorMessage`. -/
def JobError.message : JobError → String
  | other message => message
  | jobRefusal reason none => reason
  | jobRefusal reason (some detail) => reason ++ ": " ++ detail
  | walletMutationUncertain detail _ _ => "wallet_build_failed: " ++ detail
  | walletCleanupFailure detail _ => "wallet_build_failed: " ++ detail

/-- `error instanceof JobRefusal`. -/
def JobError.isRefusal : JobError → Bool
  | other _ => false
  | _ => true

/-- `AwaitingJob`, `ConsumptionJob` or `QuarantinedJob`; a flag the object lacks is `none`. -/
structure JobRecord where
  generation : Nat
  claim : Claim
  walletTransaction : Option WalletTransaction := none
  ttlExpiresAt : Int
  reverting : Option Bool := none
  relayAccepted : Option Bool := none
  locallyRevertible : Option Bool := none
  evidenceReconcile : Option Bool := none
  deriving DecidableEq, Repr

/-- Every record's offers are its claim's. -/
def JobRecord.offerHashes (record : JobRecord) : List String := record.claim.offerHashes

instance : Inhabited JobRecord := ⟨{ generation := 0, claim := ⟨[], [], []⟩, ttlExpiresAt := 0 }⟩

/-- A finalized contribution of a build and the unproven one it was made from. -/
structure FinalizedContribution where
  key : OperationKey
  sourceKey : OperationKey
  transaction : WalletTransaction
  deriving DecidableEq, Repr

/-- The locals of `buildHalf`. -/
structure BuildLocals where
  walletTransactions : List WalletTransaction := []
  finalized : List FinalizedContribution := []
  pendingUnproven : List (OperationKey × WalletTransaction) := []
  deriving DecidableEq, Repr

/-- The locals of the failure cleanup of `buildHalf`. -/
structure Cleanup where
  error : JobError
  finalized : List FinalizedContribution
  pendingUnproven : List (OperationKey × WalletTransaction)
  failedTransactions : List WalletTransaction := []
  failedUnproven : List WalletTransaction := []
  cleanupError : Option String := none
  deriving DecidableEq, Repr

/-- The `await` at which a build stands. -/
inductive BuildPoint
  | exactFiles
  | address
  | initSwap
  | finalizeResidual (unproven : WalletTransaction)
  | balanceDust
  | finalizeDust (unproven : WalletTransaction)
  /-- The first contribution of the list is being reverted. -/
  | revertFinalized (cleanup : Cleanup)
  | revertUnproven (cleanup : Cleanup)
  deriving DecidableEq, Repr

/-- `BuildingJob`, and the build it belongs to. -/
structure BuildingJob where
  generation : Nat
  claim : Claim
  ttlExpiresAt : Int
  timedOut : Bool := false
  /-- Whether the route leaves the solver receipts. -/
  receipts : Bool
  point : BuildPoint := .exactFiles
  locals : BuildLocals := {}
  deriving DecidableEq, Repr

def BuildingJob.offerHashes (building : BuildingJob) : List String := building.claim.offerHashes

structure RecoveryRevertTarget where
  operationKey : OperationKey
  sourceOperationKeys : List OperationKey
  expectedSourceState : JournalLifecycleState
  walletArtifact : WalletTransaction
  deriving DecidableEq, Repr

/-- The `await` at which an operation on a record stands. -/
inductive Suspension
  | revertWallet
  | retryQuarantine (target : RecoveryRevertTarget) (rest : List RecoveryRevertTarget)
  | relayStatus
  | relayDoneEvidence
  | relayFailureEvidence
  deriving DecidableEq, Repr

/-- A suspended operation; `queued` is whether it holds the job's terminal chain. -/
structure JobTask where
  record : Nat
  suspension : Suspension
  queued : Bool
  deriving DecidableEq, Repr

/-- What waits in the job's terminal chain. -/
inductive TerminalOperation
  | txSubmitted (txId : String)
  | submitFailed (reason : String)
  | reconcileFromHttp (record : Nat)
  | reconcileDurableEvidence (record : Nat)
  deriving DecidableEq, Repr

/-- The map whose copy a sweep walks. -/
inductive SweepStage
  | quarantined
  | awaiting
  | confirmations
  deriving DecidableEq, Repr

/-- The code that called the wallet to revert. -/
inductive RevertCaller
  | buildHalf
  | revertWallet
  | retryQuarantine
  deriving DecidableEq, Repr

/-- A call of `wallet.revert` or `wallet.revertTransaction`, and the row that allowed it. -/
structure RevertCall where
  caller : RevertCaller
  authority : OperationKey
  transaction : WalletTransaction
  deriving DecidableEq, Repr

/-- The answer to `onSwap`. -/
inductive SwapAnswer
  | swapTx (generation : Nat)
  | jobError (message : String)
  deriving DecidableEq, Repr

structure SwapJob where
  jobId : String
  /- The journal. -/
  journal : Journal := []
  dust : List DustReservation := []
  /-- Every state any row was written in. -/
  writes : List (OperationKey × JournalLifecycleState) := []
  /- The wallet. -/
  contributions : Nat := 0
  reverts : List RevertCall := []
  /- Memory. -/
  /-- Whether startup is over for the job. -/
  restored : Bool := false
  building : Option BuildingJob := none
  records : List JobRecord := []
  awaiting : Option Nat := none
  confirmations : Option Nat := none
  quarantined : Option Nat := none
  tombstone : Option Int := none
  tasks : List JobTask := []
  terminalChain : List TerminalOperation := []
  swept : List (SweepStage × Nat) := []
  answers : List SwapAnswer := []
  /-- The claims released. -/
  released : List Claim := []
  /-- The generations counted in `stats.completed` and in `stats.reverted`. -/
  completed : List Nat := []
  reverted : List Nat := []
  deriving DecidableEq, Repr

/-- What a crash leaves. -/
def SwapJob.crash (job : SwapJob) : SwapJob where
  jobId := job.jobId
  journal := job.journal
  dust := job.dust
  writes := job.writes
  contributions := job.contributions
  reverts := job.reverts

structure SwapJobOptions where
  settleTtlMinutes : Int
  reconciliationMarginMs : Int
  dustAdmission : Option DustAdmission := none
  deriving DecidableEq, Repr

/-! ## Turns -/

structure Turn where
  job : SwapJob
  nowMs : Int
  /-- What the synchronous dependencies answer: the message they throw, if any. -/
  dependencies : List (Option String) := []
  /-- The writes and wallet calls left before a crash. -/
  effects : Option Nat := none
  /-- The DUST rows of `tokenImbalances`, for the transaction that pays the fee. -/
  dustRows : List Int := []
  /-- The DUST usage of the other jobs. -/
  dustElsewhere : Int := 0
  deriving DecidableEq, Repr

inductive Interrupt
  | thrown (error : JobError)
  | crashed
  deriving DecidableEq, Repr

abbrev Act (α : Type) := Program Turn Interrupt α

namespace Act

def raise {α : Type} (error : JobError) : Act α := throw (.thrown error)

def fail {α : Type} (message : String) : Act α := raise (.other message)

/-- `try … catch`; nothing catches a crash. -/
def attempt {α : Type} (body : Act α) (handler : JobError → Act α) : Act α :=
  catching body fun
    | .thrown error => handler error
    | .crashed => throw .crashed

def when (condition : Prop) [Decidable condition] (act : Act Unit) : Act Unit :=
  if condition then act else pure ()

def ofExcept {α : Type} : Except String α → Act α
  | .ok value => pure value
  | .error message => fail message

def modifyJob (change : SwapJob → SwapJob) : Act Unit :=
  modify fun turn => { turn with job := change turn.job }

def getJob : Act SwapJob := return (← get).job

def now : Act Int := return (← get).nowMs

/-- A journal write or a wallet call is about to be made. -/
def effect : Act Unit := do
  match (← get).effects with
  | none => pure ()
  | some 0 => throw .crashed
  | some (left + 1) => modify fun turn => { turn with effects := some left }

/-- A synchronous dependency is called; `error` is how its failure is thrown. -/
def dependency (error : String → JobError := .other) : Act Unit := do
  match (← get).dependencies with
  | [] => pure ()
  | answer :: answers =>
    modify fun turn => { turn with dependencies := answers }
    match answer with
    | none => pure ()
    | some message => raise (error message)

/-! ## The journal -/

def getRow (operationKey : OperationKey) : Act (Option JournalOperation) :=
  return (← getJob).journal.get operationKey

/-- `journal.require`. -/
def requireRow (operationKey : OperationKey) : Act JournalOperation := do
  match ← getRow operationKey with
  | some row => return row
  | none => fail "journal operation not found"

def group (generation : Nat) : Act (List JournalOperation) :=
  return (← getJob).journal.group generation

def createPrepared (options : SwapJobOptions) (input : PreparedOperation) : Act Unit := do
  let job ← getJob
  let journal ← ofExcept
    (job.journal.createPrepared job.jobId options.reconciliationMarginMs input)
  effect
  modifyJob fun job => { job with
    journal, writes := job.writes ++ [(input.operationKey, .prepared)] }

def transition (operationKey : OperationKey) (expectedState nextState : JournalLifecycleState)
    (patch : TransitionPatch := {}) : Act Unit := do
  let journal ← ofExcept
    ((← getJob).journal.transition operationKey expectedState nextState patch)
  effect
  modifyJob fun job => { job with
    journal, writes := job.writes ++ [(operationKey, nextState)] }

def recordReceipt (operationKey : OperationKey) (receipt : JournalReceipt) : Act Unit := do
  let journal ← ofExcept ((← getJob).journal.recordReceipt operationKey receipt)
  effect
  modifyJob fun job => { job with journal }

def releaseDust (operationKey : OperationKey) : Act Unit := do
  let dust ← ofExcept (ZswapKernel.releaseDust (← getJob).dust operationKey)
  effect
  modifyJob fun job => { job with dust }

def markDustSpent (operationKey : OperationKey) : Act Unit := do
  let dust ← ofExcept (ZswapKernel.markDustSpent (← getJob).dust operationKey (← now))
  effect
  modifyJob fun job => { job with dust }

/-- `terminalOrder`: the settlement row last. -/
def terminalOrder (rows : List JournalOperation) : List JournalOperation :=
  rows.filter (·.operationKind ≠ .jobSettlement) ++ rows.filter (·.operationKind = .jobSettlement)

/-- `errorMessage(error).slice(0, 4096)`, in UTF-16 code units. -/
def detail (message : String) : String :=
  let rec slice : Nat → List Char → List Char
    | _, [] => []
    | room, c :: rest =>
      let units := if c.toNat < 0x10000 then 1 else 2
      if room < units then [] else c :: slice (room - units) rest
  String.ofList (slice 4096 message.toList)

def quarantineRow (row : JournalOperation) (errorCode message : String) : Act Unit :=
  if row.terminal || row.lifecycleState = .quarantined then pure ()
  else transition row.operationKey row.lifecycleState .quarantined
    { errorCode := some errorCode
      errorDetail := some (detail message)
      retryCount := some (row.retryCount + 1) }

def quarantineGroup (generation : Nat) (errorCode message : String) : Act Unit := do
  (← group generation).forM fun row => quarantineRow row errorCode message

/-- One round of `markReverted`. -/
def revertRow (initial : JournalOperation) : Act Unit := do
  let row ← requireRow initial.operationKey
  if row.terminal then pure ()
  else if row.lifecycleState = .quarantined then
    transition row.operationKey .quarantined .reverted
  else do
    when (row.lifecycleState ≠ .reverting)
      (transition row.operationKey row.lifecycleState .reverting)
    transition row.operationKey .reverting .reverted

def markReverted (generation : Nat) : Act Unit := do
  (terminalOrder (← group generation)).forM revertRow
  releaseDust (jobKey generation)

/-- One round of `markFailed`. -/
def failRow (message : String) (initial : JournalOperation) : Act Unit := do
  let row ← requireRow initial.operationKey
  if row.terminal then pure ()
  else if row.lifecycleState ≠ .prepared then fail "cannot be proved mutation-free"
  else
    transition row.operationKey .prepared .failed
      { errorCode := some "MUTATION_FREE_FAILURE", errorDetail := some (detail message) }

def markFailed (generation : Nat) (message : String) : Act Unit := do
  (terminalOrder (← group generation)).forM (failRow message)

/-- One round of `markAwaitingRelay`. -/
def awaitRelayRow (initial : JournalOperation) : Act Unit := do
  let row ← requireRow initial.operationKey
  if row.terminal then pure ()
  else do
    when (row.lifecycleState = .prepared ∧ row.operationKind = .jobSettlement)
      (transition row.operationKey .prepared .applied)
    let row ← requireRow initial.operationKey
    if row.lifecycleState = .applied then transition row.operationKey .applied .awaitingRelay
    else if row.lifecycleState ≠ .awaitingRelay then fail "not ready for relay ownership"
    else pure ()

def markAwaitingRelay (generation : Nat) : Act Unit := do
  (← group generation).forM awaitRelayRow

/-- `canonicalRelayExtrinsicHash`. -/
def canonicalRelayExtrinsicHash (value : String) : Option String :=
  let digits := match value.toList with
    | '0' :: 'x' :: digits => digits
    | '0' :: 'X' :: digits => digits
    | digits => digits
  if hex64 (String.ofList digits) then some ("0x" ++ toLowerCase (String.ofList digits)) else none

/-- One round of `markRelaySubmitted`. -/
def submitRow (initial : JournalOperation) : Act Unit := do
  let row ← requireRow initial.operationKey
  if row.terminal then pure ()
  else if row.lifecycleState = .awaitingRelay then
    transition row.operationKey .awaitingRelay .relaySubmitted
  else if row.lifecycleState = .quarantined then
    transition row.operationKey .quarantined .confirming
  else if row.lifecycleState ≠ .relaySubmitted ∧ row.lifecycleState ≠ .confirming then
    fail "cannot record relay submission"
  else pure ()

def markRelaySubmitted (generation : Nat) (txId : String) : Act Unit := do
  match canonicalRelayExtrinsicHash txId with
  | none => fail "relay txId is not a canonical 32-byte extrinsic hash"
  | some canonical =>
    let jobId := (← getJob).jobId
    recordReceipt (jobKey generation)
      { relayJobId := jobId, relayState := "done", relayExtrinsicHash := canonical }
    (terminalOrder (← group generation)).forM submitRow

def markRelayFailed (generation : Nat) : Act Unit := do
  let jobId := (← getJob).jobId
  recordReceipt (jobKey generation) { relayJobId := jobId, relayState := "error" }

def recordEvidence (generation : Nat) : Option (String × Nat) → Act Unit
  | none => pure ()
  | some (ledgerTxHash, height) =>
    recordReceipt (jobKey generation)
      { ledgerTxHash := some ledgerTxHash, ledgerHeight := some height }

/-- One round of `markSettled`. -/
def settleRow (initial : JournalOperation) : Act Unit := do
  let row ← requireRow initial.operationKey
  if row.terminal then pure ()
  else do
    when (row.lifecycleState = .awaitingRelay)
      (transition row.operationKey .awaitingRelay .relaySubmitted)
    let row ← requireRow initial.operationKey
    if row.lifecycleState = .relaySubmitted then
      transition row.operationKey .relaySubmitted .settled
    else if row.lifecycleState = .confirming ∨ row.lifecycleState = .quarantined then
      transition row.operationKey row.lifecycleState .settled
    else fail "cannot settle"

/-- `markSettled`; startup repeats it without evidence. -/
def markSettled (generation : Nat) (evidence : Option (String × Nat)) : Act Unit := do
  recordEvidence generation evidence
  (terminalOrder (← group generation)).forM settleRow
  markDustSpent (jobKey generation)

def markOperationReverted (operationKey : OperationKey) : Act Unit := do
  let row ← requireRow operationKey
  if row.lifecycleState = .reverted then pure ()
  else if row.lifecycleState = .quarantined then transition operationKey .quarantined .reverted
  else do
    when (row.lifecycleState ≠ .reverting)
      (transition operationKey row.lifecycleState .reverting)
    transition operationKey .reverting .reverted

/-! ## Memory -/

/-- A record that was made; there is always one at an index that is kept. -/
def getRecord (record : Nat) : Act JobRecord := return (← getJob).records[record]?.getD default

def newRecord (record : JobRecord) : Act Nat := do
  let index := (← getJob).records.length
  modifyJob fun job => { job with records := job.records ++ [record] }
  return index

def modifyRecord (record : Nat) (change : JobRecord → JobRecord) : Act Unit :=
  modifyJob fun job => { job with records := job.records.modify record change }

/-- `owns`. -/
def owns (generation : Nat) : Act Bool := do
  return (← getRow (jobKey generation)).any (!·.terminal)

/-- `retention`. -/
def retention (generation : Nat) (ttlExpiresAt : Int) : Act Int := do
  return ((← getRow (jobKey generation)).map (·.retentionUntilMs)).getD ttlExpiresAt

def release (claim : Claim) : Act Unit :=
  modifyJob fun job => { job with released := job.released ++ [claim] }

def answer (answer : SwapAnswer) : Act Unit :=
  modifyJob fun job => { job with answers := job.answers ++ [answer] }

def suspend (record : Nat) (suspension : Suspension) (queued : Bool) : Act Unit :=
  modifyJob fun job => { job with tasks := job.tasks ++ [⟨record, suspension, queued⟩] }

/-- The wallet is called to revert. -/
def callRevert (call : RevertCall) : Act Unit := do
  effect
  modifyJob fun job => { job with reverts := job.reverts ++ [call] }

/-- `claimToJournal`. -/
def claimToJournal (claim : Claim) : JournalClaim where
  inputs := (claim.nullifiers.map toLowerCase).insertionSort (· ≤ ·)
  payouts := (claim.payouts.map fun (token, amount) => (toLowerCase token, amount)).insertionSort
    fun left right => left.1 ≤ right.1

/-- A row to prepare for a generation, with the job's own claim. -/
def preparedFor (generation : Nat) (kind : JournalOperationKind) (label : OperationLabel)
    (claim : Claim) (ttlExpiresAt : Int) (walletArtifact : Option WalletTransaction := none) :
    PreparedOperation where
  operationKey := ⟨generation, kind, label⟩
  offerHashes := claim.offerHashes.insertionSort (· ≤ ·)
  claim := claimToJournal claim
  ttlExpiresAtMs := ttlExpiresAt
  walletArtifact := walletArtifact

end Act

end ZswapKernel
