import ZswapKernel.Solver.SwapJob

/-!
# Giving the wallet its coins back

The two ways the executor reverts what a finished build left in the wallet: `revertWallet`, of the
transaction a record carries, under the generation's own `JOB_REVERT` row; and `retryQuarantine`, of
the artifacts the journal still shows, each under a recovery row of its own.

A function that awaits the wallet ends by suspending, and the wallet's reply resumes it in a turn of
its own.
-/

namespace ZswapKernel.Act

/-! ## `revertWallet` -/

/-- The key of the primary revert of a generation. -/
def revertKey (generation : Nat) : OperationKey := ⟨generation, .jobRevert, .wallet⟩

/-- The `catch` and the `finally` of `revertWallet`. The copy it keeps is of a record that is still
being reverted. -/
def revertWalletFailed (record : Nat) (error : JobError) : Act Unit := do
  let failed ← getRecord record
  attempt (quarantineGroup failed.generation "LOCAL_REVERT_FAILED" error.message) fun _ => pure ()
  let copy ← newRecord { failed with
    locallyRevertible := some true
    evidenceReconcile := some false }
  modifyJob fun job => { job with awaiting := none, quarantined := some copy }
  modifyRecord record fun entry => { entry with reverting := some false }

/-- The row that allows the call is `REVERTING` before the call is made. -/
def armRevert (options : SwapJobOptions) (record : JobRecord) : Act Unit := do
  match ← getRow (revertKey record.generation) with
  | none =>
    dependency
    createPrepared options (preparedFor record.generation .jobRevert .wallet record.claim
      record.ttlExpiresAt record.walletTransaction)
    transition (revertKey record.generation) .prepared .reverting
  | some existing =>
    if existing.lifecycleState = .quarantined then
      transition (revertKey record.generation) .quarantined .reverting
        { retryCount := some (existing.retryCount + 1) }
    else if existing.lifecycleState ≠ .reverting then
      fail "unexpected durable revert state"
    else pure ()

/-- `revertWallet`, up to the wallet's call. -/
def revertWallet (options : SwapJobOptions) (record : Nat) (queued : Bool) : Act Unit := do
  let entry ← getRecord record
  if entry.reverting = some true || !(← owns entry.generation) then pure ()
  else do
    modifyRecord record fun entry => { entry with reverting := some true }
    attempt (do
      armRevert options entry
      callRevert ⟨.revertWallet, revertKey entry.generation,
        entry.walletTransaction.getD ⟨.finalized, []⟩⟩
      suspend record .revertWallet queued) (revertWalletFailed record)

/-- What `revertWallet` and `retryQuarantine` do last. -/
def finishReverted (record : JobRecord) : Act Unit := do
  let expiry ← retention record.generation record.ttlExpiresAt
  modifyJob fun job => { job with quarantined := none, tombstone := some expiry }
  release record.claim
  modifyJob fun job => { job with reverted := job.reverted ++ [record.generation] }

/-- `revertWallet`, from the wallet's reply. -/
def revertWalletReplied (record : Nat) (reply : Except String Unit) : Act Unit :=
  attempt (do
    let entry ← getRecord record
    ofExcept reply
    transition (revertKey entry.generation) .reverting .reverted
    markReverted entry.generation
    modifyJob fun job => { job with awaiting := none }
    finishReverted entry
    modifyRecord record fun entry => { entry with reverting := some false })
    (revertWalletFailed record)

/-! ## `restoreRecoveryTargets` -/

/-- `isRecoveryRevert`. -/
def isRecoveryRevert (row : JournalOperation) : Bool :=
  match row.operationKey.label with
  | .recovery _ => row.operationKind = .jobRevert
  | _ => false

def hasArtifact (row : JournalOperation) (kind : WalletArtifactKind) : Bool :=
  row.walletArtifact.any (·.kind = kind)

/-- `mergeFinalized`. -/
def mergeFinalized (transactions : List WalletTransaction) : WalletTransaction where
  kind := .finalized
  contributions := transactions.flatMap (·.contributions)

/-- `recoveryRevertKey`. -/
def recoveryRevertKey (jobId : String) (generation : Nat) (sourceOperationKeys : List OperationKey)
    (artifact : WalletTransaction) : OperationKey where
  generation := generation
  operationKind := .jobRevert
  label := .recovery
    { walletArtifactKind := artifact.kind
      sourceOperationKeys :=
        (sourceOperationKeys.map (·.text jobId)).insertionSort (· ≤ ·)
      walletArtifact := artifact }

/-- The finalized contributions recovery may revert. -/
def finalizedContributions (rows : List JournalOperation) : List JournalOperation :=
  rows.filter fun row =>
    row.operationKind = .finalizedContribution && hasArtifact row .finalized && !row.terminal

/-- The unproven transactions recovery may revert: those no row of `finalizedRows` was made from. -/
def rawContributions (rows finalizedRows : List JournalOperation) : List JournalOperation :=
  let hasResidualFinal := finalizedRows.any (·.operationKey.label = .residual)
  let hasDustFinal := finalizedRows.any (·.operationKey.label = .dust)
  rows.filter fun row =>
    hasArtifact row .unproven && !row.terminal &&
      (row.operationKind = .mirrorReservation ||
        row.operationKind = .residualBuild && !hasResidualFinal ||
        row.operationKind = .dustBalance && !hasDustFinal)

/-- The transaction of a row that has one. -/
def artifactOf (row : JournalOperation) : WalletTransaction :=
  row.walletArtifact.getD ⟨.finalized, []⟩

structure RestoredTargets where
  targets : List RecoveryRevertTarget := []
  artifactlessMutation : Bool
  ambiguity : Option String := none
  deriving DecidableEq, Repr

/-- The target of a set of rows, by one transaction. -/
def recoveryTarget (jobId : String) (generation : Nat) (rows : List JournalOperation)
    (expectedSourceState : JournalLifecycleState) (artifact : WalletTransaction) :
    RecoveryRevertTarget where
  operationKey := recoveryRevertKey jobId generation (rows.map (·.operationKey)) artifact
  sourceOperationKeys := rows.map (·.operationKey)
  expectedSourceState := expectedSourceState
  walletArtifact := artifact

/-- What forbids the targets: a recovery row that is none of theirs or has left `PREPARED`, or a
source that is not as the target expects it. -/
def recoveryAmbiguity (rows : List JournalOperation) (targets : List RecoveryRevertTarget) :
    Option String :=
  let recoveryRow (row : JournalOperation) : Option String :=
    match targets.find? (·.operationKey = row.operationKey) with
    | none => some "recovery authority no longer binds the selected artifact set"
    | some target =>
      if row.walletArtifact ≠ some target.walletArtifact then
        some "recovery authority conflicts with its generation/artifact identity"
      else if row.lifecycleState ≠ .prepared ∧ row.lifecycleState ≠ .reverted then
        some "its wallet-call outcome is unprovable"
      else none
  let source (target : RecoveryRevertTarget) : Option String :=
    if rows.any fun row =>
        row.operationKey = target.operationKey && row.lifecycleState = .reverted then none
    else if target.sourceOperationKeys.all fun sourceKey => rows.any fun row =>
        row.operationKey = sourceKey && row.lifecycleState = target.expectedSourceState then none
    else some "a prior revert call may have started"
  ((rows.filter isRecoveryRevert).findSome? recoveryRow).or (targets.findSome? source)

/-- `restoreRecoveryTargets`, of the rows of the generation. -/
def restoreRecoveryTargets (generation : Nat) : Act RestoredTargets := do
  let jobId := (← getJob).jobId
  let rows ← group generation
  let primaryReverts := rows.filter fun row =>
    row.operationKind = .jobRevert && !isRecoveryRevert row
  let artifactlessMutation := rows.any fun row =>
    row.operationKind ≠ .jobSettlement && !isRecoveryRevert row &&
      row.lifecycleState = .prepared && row.walletArtifact.isNone
  match primaryReverts with
  | _ :: _ :: _ =>
    return { artifactlessMutation := false, ambiguity := some "multiple primary authorities" }
  | [primaryRevert] =>
    if !hasArtifact primaryRevert .finalized then
      return { artifactlessMutation, ambiguity := some "no canonical finalized artifact" }
    -- The codecs are called on the primary artifact alone.
    dependency
    let targets := [recoveryTarget jobId generation [primaryRevert] .prepared
      (mergeFinalized [artifactOf primaryRevert])]
    return { targets, artifactlessMutation, ambiguity := recoveryAmbiguity rows targets }
  | [] =>
    let finalizedRows := finalizedContributions rows
    let raw := (rawContributions rows finalizedRows).map fun row =>
      recoveryTarget jobId generation [row] .applied (artifactOf row)
    let merged := if finalizedRows = [] then [] else
      [recoveryTarget jobId generation finalizedRows .applied
        (mergeFinalized (finalizedRows.map artifactOf))]
    let targets := raw ++ merged
    when (targets ≠ []) dependency
    return { targets, artifactlessMutation, ambiguity := recoveryAmbiguity rows targets }

/-! ## `retryQuarantine` -/

/-- `retainRecoveryAmbiguity`, and the `finally` of `retryQuarantine`. -/
def retainRecoveryAmbiguity (record : Nat) (reason : String) : Act Unit := do
  let entry ← getRecord record
  let message := detail reason ++
    "; wallet mutation will not be repeated and Stock/capacity/offers remain unavailable"
  attempt (quarantineGroup entry.generation "RECOVERY_REVERT_OUTCOME_UNKNOWN" message)
    fun _ => pure ()
  modifyRecord record fun entry => { entry with
    locallyRevertible := some false
    evidenceReconcile := some false
    reverting := some false }

/-- Everything the record left in the wallet is reverted. -/
def finishRetry (record : Nat) : Act Unit := do
  let entry ← getRecord record
  markReverted entry.generation
  finishReverted entry
  modifyRecord record fun entry => { entry with reverting := some false }

/-- The loop over the targets, up to the next wallet call. -/
def retryTargets (options : SwapJobOptions) (record : Nat) (queued : Bool) :
    List RecoveryRevertTarget → Act Unit
  | [] => finishRetry record
  | target :: rest => do
    let recovery ← getRow target.operationKey
    if recovery.any (·.lifecycleState = .reverted) then retryTargets options record queued rest
    else do
      let entry ← getRecord record
      when recovery.isNone
        (createPrepared options (preparedFor entry.generation .jobRevert target.operationKey.label
          entry.claim entry.ttlExpiresAt target.walletArtifact))
      -- After `REVERTING`, any exit or thrown call is ambiguous and is never replayed.
      transition target.operationKey .prepared .reverting
      callRevert ⟨.retryQuarantine, target.operationKey, target.walletArtifact⟩
      suspend record (.retryQuarantine target rest) queued

/-- `retryQuarantine`, up to the first wallet call. -/
def retryQuarantine (options : SwapJobOptions) (record : Nat) (queued : Bool) : Act Unit := do
  let entry ← getRecord record
  if entry.reverting = some true || entry.locallyRevertible ≠ some true ||
      !(← owns entry.generation) then pure ()
  else do
    modifyRecord record fun entry => { entry with reverting := some true }
    attempt (do
      let primaryProof := (← group entry.generation).any fun row =>
        row.operationKind = .jobRevert && !isRecoveryRevert row && row.lifecycleState = .reverted
      if primaryProof then finishRetry record
      else do
        let restored ← restoreRecoveryTargets entry.generation
        match restored.ambiguity with
        | some ambiguity => retainRecoveryAmbiguity record ambiguity
        | none =>
          if restored.artifactlessMutation then
            retainRecoveryAmbiguity record
              "a PREPARED wallet mutation has no durable public artifact"
          else if restored.targets = [] then
            retainRecoveryAmbiguity record
              "no public wallet artifact remains to prove local recovery"
          else retryTargets options record queued restored.targets)
      fun error => retainRecoveryAmbiguity record error.message

/-- `retryQuarantine`, from the wallet's reply. -/
def retryQuarantineReplied (options : SwapJobOptions) (record : Nat) (queued : Bool)
    (target : RecoveryRevertTarget) (rest : List RecoveryRevertTarget)
    (reply : Except String Unit) : Act Unit :=
  attempt (do
    ofExcept reply
    transition target.operationKey .reverting .reverted
    retryTargets options record queued rest)
    fun error => retainRecoveryAmbiguity record error.message

end ZswapKernel.Act
