import ZswapKernel.Solver.SwapRecovery

/-!
# Building the half of a swap

`executeSwap` and `buildHalf`. The build stops at every call of the wallet, and its locals are kept in
the job meanwhile. The wallet's deadline answers the job while the build goes on; what the build
comes to after that is for the late handlers.

What the build checks of the makers, of the route and of the imbalances is in the answers of the
dependencies. A transaction is known by the wallet contributions it carries, so the maker half is no
part of it.
-/

namespace ZswapKernel.Act

/-! ## The build's state -/

def modifyBuilding (change : BuildingJob → BuildingJob) : Act Unit :=
  modifyJob fun job => { job with building := job.building.map change }

/-- The build calls the wallet and waits at `point`. -/
def awaitWallet (point : BuildPoint) : Act Unit :=
  modifyBuilding fun building => { building with point }

def buildLocals : Act BuildLocals := return ((← getJob).building.map (·.locals)).getD {}

def modifyLocals (change : BuildLocals → BuildLocals) : Act Unit :=
  modifyBuilding fun building => { building with locals := change building.locals }

/-- How a turn of a build ends; it may also throw. -/
inductive BuildStep
  | suspended
  | resolved (walletTransaction : WalletTransaction)
  deriving DecidableEq, Repr

def assertRouteCurrent : Act Unit := dependency fun detail =>
  .jobRefusal "route_not_current" detail

def assertTransactionNet : Act Unit := dependency fun detail =>
  .jobRefusal "wallet_build_failed" detail

/-! ## The calls of the wallet -/

/-- `prepareMutation`. -/
def prepareMutation (options : SwapJobOptions) (building : BuildingJob)
    (kind : JournalOperationKind) (label : OperationLabel) : Act Unit :=
  createPrepared options
    (preparedFor building.generation kind label building.claim building.ttlExpiresAt)

/-- `applyArtifact`, after the transaction is serialized. -/
def applyArtifact (key : OperationKey) (transaction : WalletTransaction) : Act Unit := do
  dependency
  transition key .prepared .applied { walletArtifact := some transaction }

/-- The wallet makes a transaction of its own coins. -/
def newContribution : Act WalletTransaction := do
  let contribution := (← getJob).contributions
  modifyJob fun job => { job with contributions := contribution + 1 }
  return ⟨.unproven, [contribution]⟩

/-- `wallet.finalizeTransaction`. -/
def finalizeTransaction (unproven : WalletTransaction) : WalletTransaction :=
  ⟨.finalized, unproven.contributions⟩

/-- `transferPendingToFinalized`. -/
def transferPendingToFinalized (sourceKey key : OperationKey) (transaction : WalletTransaction) :
    Act Unit := do
  let locals ← buildLocals
  if locals.pendingUnproven.all (·.1 ≠ sourceKey) then
    raise (.jobRefusal "wallet_build_failed" "missing pending artifact")
  else modifyLocals fun locals => { locals with
    finalized := locals.finalized ++ [⟨key, sourceKey, transaction⟩]
    pendingUnproven := locals.pendingUnproven.eraseP (·.1 = sourceKey) }

def residualKey (generation : Nat) : OperationKey := ⟨generation, .residualBuild, .residual⟩

def finalizedResidualKey (generation : Nat) : OperationKey :=
  ⟨generation, .finalizedContribution, .residual⟩

def dustKey (generation : Nat) : OperationKey := ⟨generation, .dustBalance, .fees⟩

def finalizedDustKey (generation : Nat) : OperationKey := ⟨generation, .finalizedContribution, .dust⟩

/-- `estimateDustAmount`. -/
def estimateDustAmount : Act Int := do
  dependency fun detail => .jobRefusal "dust_estimate_unavailable" detail
  let dust := (← get).dustRows.filter (· ≠ 0)
  if dust = [] then
    raise (.jobRefusal "dust_estimate_unavailable" "no DUST fee contribution exposed")
  else return (dust.map fun amount => (amount.natAbs : Int)).sum

/-- The DUST admission of `buildHalf`. -/
def admitDust (options : SwapJobOptions) (generation : Nat) : Act Unit := do
  match options.dustAdmission with
  | none => pure ()
  | some limits =>
    let amount ← estimateDustAmount
    let turn ← get
    match ← ofExcept (reserveDust turn.job.journal turn.job.dust turn.dustElsewhere turn.nowMs
      limits (jobKey generation) amount) with
    | .error .window => raise (.jobRefusal "dust_window_exhausted" none)
    | .error .perJob => raise (.jobRefusal "dust_per_job_limit" none)
    | .ok dust =>
      effect
      modifyJob fun job => { job with dust }

/-! ## `buildHalf`, from wallet call to wallet call -/

/-- The maker prefixes and the receipts are merged, and the wallet is to balance the fee. -/
def mergeMakers (options : SwapJobOptions) (building : BuildingJob) : Act BuildStep := do
  assertTransactionNet
  prepareMutation options building .dustBalance .fees
  awaitWallet .balanceDust
  return .suspended

/-- From the wallet's address. -/
def addressReplied (options : SwapJobOptions) (building : BuildingJob) : Act BuildStep := do
  assertRouteCurrent
  -- `buildFeeSizingStandIn`, which is no mutation of the wallet.
  dependency
  if building.receipts then
    prepareMutation options building .residualBuild .residual
    awaitWallet .initSwap
    return .suspended
  else mergeMakers options building

/-- From `wallet.initSwap`. -/
def initSwapReplied (options : SwapJobOptions) (building : BuildingJob) : Act BuildStep := do
  let residual ← newContribution
  applyArtifact (residualKey building.generation) residual
  modifyLocals fun locals => { locals with
    pendingUnproven := locals.pendingUnproven ++ [(residualKey building.generation, residual)] }
  assertRouteCurrent
  assertTransactionNet
  prepareMutation options building .finalizedContribution .residual
  awaitWallet (.finalizeResidual residual)
  return .suspended

/-- From `wallet.finalizeTransaction`, of the residual. -/
def residualFinalized (options : SwapJobOptions) (building : BuildingJob)
    (unproven : WalletTransaction) : Act BuildStep := do
  let residualFinal := finalizeTransaction unproven
  applyArtifact (finalizedResidualKey building.generation) residualFinal
  transferPendingToFinalized (residualKey building.generation)
    (finalizedResidualKey building.generation) residualFinal
  assertRouteCurrent
  assertTransactionNet
  modifyLocals fun locals => { locals with
    walletTransactions := locals.walletTransactions ++ [residualFinal] }
  mergeMakers options building

/-- From `wallet.dust.balanceTransactions`. -/
def dustBalanced (options : SwapJobOptions) (building : BuildingJob) : Act BuildStep := do
  let dustTransaction ← newContribution
  applyArtifact (dustKey building.generation) dustTransaction
  modifyLocals fun locals => { locals with
    pendingUnproven := locals.pendingUnproven ++ [(dustKey building.generation, dustTransaction)] }
  assertRouteCurrent
  admitDust options building.generation
  prepareMutation options building .finalizedContribution .dust
  awaitWallet (.finalizeDust dustTransaction)
  return .suspended

/-- From `wallet.finalizeTransaction`, of the DUST. -/
def dustFinalized (building : BuildingJob) (unproven : WalletTransaction) : Act BuildStep := do
  let finalizedDust := finalizeTransaction unproven
  applyArtifact (finalizedDustKey building.generation) finalizedDust
  transferPendingToFinalized (dustKey building.generation)
    (finalizedDustKey building.generation) finalizedDust
  assertRouteCurrent
  modifyLocals fun locals => { locals with
    walletTransactions := locals.walletTransactions ++ [finalizedDust] }
  -- The merges, `assertInverseHalf` and the last look at the route.
  assertTransactionNet
  assertRouteCurrent
  return .resolved (mergeFinalized (← buildLocals).walletTransactions)

/-! ## The failure cleanup -/

/-- The end of the cleanup, which always throws. -/
def finishCleanup (building : BuildingJob) (cleanup : Cleanup) : Act BuildStep := do
  when (cleanup.failedTransactions ≠ []) dependency
  let failedWalletTransaction :=
    if cleanup.failedTransactions = [] then none else some (mergeFinalized cleanup.failedTransactions)
  let remaining := (← group building.generation).filter fun row =>
    row.operationKind ≠ .jobSettlement && !row.terminal
  if remaining = [] then
    releaseDust (jobKey building.generation)
    let settlement ← requireRow (jobKey building.generation)
    if settlement.lifecycleState = .quarantined then markReverted building.generation
    else markFailed building.generation cleanup.error.message
    if cleanup.error.isRefusal then raise cleanup.error
    else raise (.jobRefusal "wallet_build_failed" cleanup.error.message)
  else
    let combined := String.intercalate "; " (([cleanup.error.message] ++
      (cleanup.cleanupError.map ("cleanup failed: " ++ ·)).toList).filter (· ≠ ""))
    quarantineGroup building.generation "LOCAL_MUTATION_UNCERTAIN" combined
    raise (.walletMutationUncertain combined cleanup.failedUnproven failedWalletTransaction)

/-- A revert of the cleanup starts: `none`, or the error it could not start for. -/
def startCleanup (key : OperationKey) (transaction : WalletTransaction) : Act (Option String) :=
  attempt (do
    transition key .applied .reverting
    callRevert ⟨.buildHalf, key, transaction⟩
    return none) fun error => return some error.message

/-- A revert of the cleanup failed. -/
def retainContribution (key : OperationKey) (message : String) : Act Unit :=
  attempt (do quarantineRow (← requireRow key) "LOCAL_REVERT_FAILED" message) fun _ => pure ()

/-- The loop over the pending unproven transactions, up to the next wallet call. -/
def cleanupUnproven (building : BuildingJob) (cleanup : Cleanup) :
    List (OperationKey × WalletTransaction) → Act BuildStep
  | [] => finishCleanup building cleanup
  | (key, transaction) :: rest => do
    match ← startCleanup key transaction with
    | none =>
      awaitWallet (.revertUnproven { cleanup with
        pendingUnproven := (key, transaction) :: rest })
      return .suspended
    | some message =>
      retainContribution key message
      cleanupUnproven building { cleanup with
        failedUnproven := cleanup.failedUnproven ++ [transaction]
        cleanupError := cleanup.cleanupError.or message } rest

/-- The loop over the finalized contributions, up to the next wallet call. -/
def cleanupFinalized (building : BuildingJob) (cleanup : Cleanup) :
    List FinalizedContribution → Act BuildStep
  | [] => cleanupUnproven building cleanup cleanup.pendingUnproven
  | contribution :: rest => do
    match ← startCleanup contribution.key contribution.transaction with
    | none =>
      awaitWallet (.revertFinalized { cleanup with finalized := contribution :: rest })
      return .suspended
    | some message =>
      retainContribution contribution.key message
      cleanupFinalized building { cleanup with
        failedTransactions := cleanup.failedTransactions ++ [contribution.transaction]
        cleanupError := cleanup.cleanupError.or message } rest

/-- The `catch` of `buildHalf`. -/
def buildCleanup (building : BuildingJob) (error : JobError) : Act BuildStep := do
  let locals ← buildLocals
  cleanupFinalized building
    { error, finalized := locals.finalized, pendingUnproven := locals.pendingUnproven }
    locals.finalized

/-- The `try` of `buildHalf`. -/
def tryBuild (building : BuildingJob) (body : Act BuildStep) : Act BuildStep :=
  attempt body (buildCleanup building)

/-- From `wallet.revert`, of the first finalized contribution. -/
def finalizedReverted (building : BuildingJob) (cleanup : Cleanup) (reply : Except String Unit) :
    Act BuildStep :=
  match cleanup.finalized with
  | [] => cleanupUnproven building cleanup cleanup.pendingUnproven
  | contribution :: rest => do
    let failure ← attempt (do
      ofExcept reply
      transition contribution.key .reverting .reverted
      markOperationReverted contribution.sourceKey
      return none) fun error => return some error.message
    match failure with
    | none => cleanupFinalized building cleanup rest
    | some message =>
      retainContribution contribution.key message
      cleanupFinalized building { cleanup with
        failedTransactions := cleanup.failedTransactions ++ [contribution.transaction]
        cleanupError := cleanup.cleanupError.or message } rest

/-- From `wallet.revertTransaction`, of the first pending transaction. -/
def unprovenReverted (building : BuildingJob) (cleanup : Cleanup) (reply : Except String Unit) :
    Act BuildStep :=
  match cleanup.pendingUnproven with
  | [] => finishCleanup building cleanup
  | (key, transaction) :: rest => do
    let failure ← attempt (do
      ofExcept reply
      transition key .reverting .reverted
      return none) fun error => return some error.message
    match failure with
    | none => cleanupUnproven building cleanup rest
    | some message =>
      retainContribution key message
      cleanupUnproven building { cleanup with
        failedUnproven := cleanup.failedUnproven ++ [transaction]
        cleanupError := cleanup.cleanupError.or message } rest

/-- `buildHalf`, from the reply it waits for. -/
def buildHalf (options : SwapJobOptions) (building : BuildingJob) (reply : Except String Unit) :
    Act BuildStep :=
  match building.point with
  | .exactFiles => return .suspended
  | .address => do
    ofExcept reply
    -- The first look at the route is outside of the `try`.
    assertRouteCurrent
    tryBuild building (addressReplied options building)
  | .initSwap => tryBuild building (do
    ofExcept reply
    initSwapReplied options building)
  | .finalizeResidual unproven => tryBuild building (do
    ofExcept reply
    residualFinalized options building unproven)
  | .balanceDust => tryBuild building (do
    ofExcept reply
    dustBalanced options building)
  | .finalizeDust unproven => tryBuild building (do
    ofExcept reply
    dustFinalized building unproven)
  | .revertFinalized cleanup => finalizedReverted building cleanup reply
  | .revertUnproven cleanup => unprovenReverted building cleanup reply

/-! ## `executeSwap` -/

/-- `isSeen`, of a job. -/
def isSeen (job : SwapJob) : Bool :=
  job.building.isSome || job.awaiting.isSome || job.confirmations.isSome ||
    job.quarantined.isSome || job.tombstone.isSome

def nextGeneration (journal : Journal) : Nat :=
  (journal.map (·.generation)).foldl max 0 + 1

/-- `executeSwap`, from the route it resolved to the read of the exact files. -/
def executeSwap (options : SwapJobOptions) (claim : Claim) (receipts : Bool) : Act Unit := do
  let job ← getJob
  let generation := nextGeneration job.journal
  let ttlExpiresAt := (← now) + options.settleTtlMinutes * 60000
  attempt (do
    createPrepared options { preparedFor generation .jobSettlement .settlement claim ttlExpiresAt with
      receipt := { relayJobId := some job.jobId } }
    modifyJob fun job => { job with
      building := some { generation, claim, ttlExpiresAt, receipts } })
    fun error => do
      release claim
      answer (.jobError ("wallet_build_failed: journal prepare failed: " ++ error.message))

/-- `retainCleanupFailure`. -/
def retainCleanupFailure (building : BuildingJob) : JobError → Act Bool
  | .walletMutationUncertain _ rawTransactions walletTransaction => do
    let record ← newRecord
      { generation := building.generation
        claim := building.claim
        walletTransaction := walletTransaction
        ttlExpiresAt := building.ttlExpiresAt
        reverting := some false
        locallyRevertible := some (!rawTransactions.isEmpty || walletTransaction.isSome)
        evidenceReconcile := some false }
    modifyJob fun job => { job with quarantined := some record }
    return true
  | .walletCleanupFailure _ walletTransaction => do
    let record ← newRecord
      { generation := building.generation
        claim := building.claim
        walletTransaction := some walletTransaction
        ttlExpiresAt := building.ttlExpiresAt
        reverting := some false
        relayAccepted := some false }
    modifyJob fun job => { job with awaiting := some record }
    return true
  | _ => return false

/-- The record of a job whose wallet state is not known. -/
def quarantineUncertain (building : BuildingJob) (code message : String) : Act Unit := do
  quarantineGroup building.generation code message
  let record ← newRecord
    { generation := building.generation
      claim := building.claim
      ttlExpiresAt := building.ttlExpiresAt
      reverting := some false
      locallyRevertible := some false
      evidenceReconcile := some false }
  modifyJob fun job => { job with quarantined := some record }

def hasNonterminal (generation : Nat) : Act Bool :=
  return (← group generation).any (!·.terminal)

/-- The claim and the slot are free. -/
def releaseBuild (building : BuildingJob) : Act Unit := do
  let expiry ← retention building.generation building.ttlExpiresAt
  release building.claim
  modifyJob fun job => { job with tombstone := some expiry }

/-- A build that left nothing in the wallet fails. -/
def failBuild (building : BuildingJob) (error : JobError) : Act Unit := do
  attempt (do
    when (← hasNonterminal building.generation) (markFailed building.generation error.message))
    fun journalError =>
      quarantineUncertain building "FAILURE_STATE_UNCERTAIN" journalError.message
  when (!(← hasNonterminal building.generation)) (releaseBuild building)

/-- The `catch` of `executeSwap`. -/
def executeSwapFailed (building : BuildingJob) (error : JobError) : Act Unit := do
  modifyJob fun job => { job with building := none }
  when (!(← retainCleanupFailure building error)) (failBuild building error)
  answer (.jobError error.message)

/-- The build was in time. -/
def buildResolved (building : BuildingJob) (walletTransaction : WalletTransaction) : Act Unit := do
  if !(← owns building.generation) then
    raise (.jobRefusal "wallet_build_failed" "stale wallet generation completed")
  else do
    markAwaitingRelay building.generation
    let record ← newRecord
      { generation := building.generation
        claim := building.claim
        walletTransaction := some walletTransaction
        ttlExpiresAt := building.ttlExpiresAt
        reverting := some false
        relayAccepted := some true }
    modifyJob fun job => { job with building := none, awaiting := some record }
    -- `relayTransaction.serialize()`.
    dependency
    answer (.swapTx building.generation)

/-- The build was late, and resolved. -/
def lateResolved (options : SwapJobOptions) (building : BuildingJob)
    (walletTransaction : WalletTransaction) : Act Unit := do
  let record ← newRecord
    { generation := building.generation
      claim := building.claim
      walletTransaction := some walletTransaction
      ttlExpiresAt := building.ttlExpiresAt
      reverting := some false
      relayAccepted := some false }
  modifyJob fun job => { job with awaiting := some record, building := none }
  revertWallet options record false

/-- The build was late, and rejected. -/
def lateRejected (building : BuildingJob) (error : JobError) : Act Unit := do
  modifyJob fun job => { job with building := none }
  if ← retainCleanupFailure building error then pure ()
  else if ← hasNonterminal building.generation then
    quarantineUncertain building "LATE_COMPLETION_UNCERTAIN" error.message
  else releaseBuild building

/-- A build that is in time. -/
def buildInTime (building : BuildingJob) (build : Act BuildStep) : Act Unit :=
  attempt (do
    match ← build with
    | .suspended => pure ()
    | .resolved walletTransaction => buildResolved building walletTransaction)
    (executeSwapFailed building)

/-- A build the deadline has passed. -/
def buildLate (options : SwapJobOptions) (building : BuildingJob) (build : Act BuildStep) :
    Act Unit := do
  let outcome ← attempt (do return Except.ok (← build)) fun error => return .error error
  match outcome with
  | .ok .suspended => pure ()
  | .ok (.resolved walletTransaction) => lateResolved options building walletTransaction
  | .error error => lateRejected building error

/-- From the exact files: `readAndReconstruct`, and `buildHalf` is called. -/
def exactFilesReplied (reply : Except String Unit) : Act BuildStep := do
  match reply with
  | .error message => raise (.jobRefusal "exact_files_unavailable" message)
  | .ok () =>
    dependency fun detail => .jobRefusal "exact_file_mismatch" detail
    assertRouteCurrent
    awaitWallet .address
    return .suspended

/-- What the build waits for has come. -/
def buildReplied (options : SwapJobOptions) (reply : Except String Unit) : Act Unit := do
  match (← getJob).building with
  | none => pure ()
  | some building =>
    if building.point = .exactFiles then buildInTime building (exactFilesReplied reply)
    else if building.timedOut then buildLate options building (buildHalf options building reply)
    else buildInTime building (buildHalf options building reply)

/-- The wallet's deadline. -/
def walletDeadline : Act Unit := do
  match (← getJob).building with
  | none => pure ()
  | some building =>
    if building.point = .exactFiles || building.timedOut then pure ()
    else do
      modifyBuilding fun building => { building with timedOut := true }
      quarantineGroup building.generation "WALLET_TIMEOUT_LATE_PENDING"
        "wallet build exceeded its deadline"
      answer (.jobError "wallet_build_timeout")

end ZswapKernel.Act
