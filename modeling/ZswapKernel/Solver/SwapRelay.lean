import ZswapKernel.Solver.SwapRecovery

/-!
# What the relay and the chain say of a job

A job the relay was given is decided by two authorities: the relay's receipt, which the journal keeps
once it is heard, and the backend's evidence of the consumption of every maker offer. The functions
that ask them end by suspending, as those that call the wallet do.
-/

namespace ZswapKernel

/-! ## Evidence -/

/-- `OfferConsumptionResponse`: `evidence` is a ledger transaction and its height. -/
structure OfferConsumption where
  consumed : Bool
  evidence : Option (String × Nat) := none
  deriving DecidableEq, Repr

inductive EvidenceRead
  | uniform (ledgerTxHash : String) (height : Nat)
  | none
  | unknown (reason : String)
  deriving DecidableEq, Repr

/-- The answers for the first `count` offers, or the first that fails. -/
def readConsumption : Nat → List (Except String OfferConsumption) →
    Except String (List OfferConsumption)
  | 0, _ => .ok []
  | _ + 1, [] => .error "backend evidence unavailable"
  | _ + 1, .error message :: _ => .error ("backend evidence unavailable: " ++ message)
  | count + 1, .ok result :: answers => do
    let results ← readConsumption count answers
    return result :: results

/-- `readUniformEvidence`, of the answers of the backend in the order of the offers. -/
def readUniformEvidence (offerHashes : List String)
    (answers : List (Except String OfferConsumption)) : EvidenceRead :=
  match readConsumption offerHashes.length answers with
  | .error reason => .unknown reason
  | .ok results =>
    let positive := results.filterMap (·.evidence)
    match positive with
    | [] =>
      if results.any (·.consumed) then
        .unknown "maker consumption evidence is partial or markerless"
      else .none
    | first :: _ =>
      if positive.length = results.length then
        if positive.all (· = first) then .uniform first.1 first.2
        else .unknown "maker offers bind to split ledger transactions or heights"
      else .unknown "maker consumption evidence is partial or markerless"

/-- `RelayJobStatus`. -/
inductive RelayJobStatus
  | done (txId : String)
  | error (reason : String)
  | pending (status : String)
  deriving DecidableEq, Repr

namespace Act

/-! ## Outcomes -/

/-- `quarantineEvidence`. -/
def quarantineEvidence (record : Nat) (code reason : String) : Act Unit := do
  let entry ← getRecord record
  attempt (quarantineGroup entry.generation code reason) fun _ => pure ()
  let job ← getJob
  let prior := job.quarantined.bind (job.records[·]?)
  let replacement ← newRecord
    { generation := entry.generation
      claim := entry.claim
      walletTransaction := entry.walletTransaction.or (prior.bind (·.walletTransaction))
      ttlExpiresAt := entry.ttlExpiresAt
      reverting := some false
      locallyRevertible := some false
      evidenceReconcile := some true }
  modifyJob fun job => { job with
    awaiting := none, confirmations := none, quarantined := some replacement }

/-- `finishSettled`. -/
def finishSettled (record : Nat) (ledgerTxHash : String) (height : Nat) : Act Unit := do
  let entry ← getRecord record
  markSettled entry.generation (some (ledgerTxHash, height))
  let expiry ← retention entry.generation entry.ttlExpiresAt
  modifyJob fun job => { job with
    awaiting := none, confirmations := none, quarantined := none, tombstone := some expiry }
  release entry.claim
  modifyJob fun job => { job with completed := job.completed ++ [entry.generation] }

/-! ## `reconcileRelayDone` -/

/-- `reconcileRelayDone`, up to the read of the evidence. -/
def reconcileRelayDone (record : Nat) (txId : String) (queued : Bool) : Act Unit :=
  attempt (do
    let entry ← getRecord record
    markRelaySubmitted entry.generation txId
    let confirmation ← newRecord
      { generation := entry.generation, claim := entry.claim, ttlExpiresAt := entry.ttlExpiresAt }
    modifyJob fun job => { job with
      awaiting := none, quarantined := none, confirmations := some confirmation }
    suspend record .relayDoneEvidence queued)
    fun error => quarantineEvidence record "RELAY_OR_SETTLEMENT_CONFLICT" error.message

/-- `reconcileRelayDone`, from the evidence. -/
def relayDoneReplied (record : Nat) (answers : List (Except String OfferConsumption)) : Act Unit :=
  attempt (do
    let entry ← getRecord record
    match readUniformEvidence entry.offerHashes answers with
    | .uniform ledgerTxHash height => finishSettled record ledgerTxHash height
    | .none =>
      quarantineEvidence record "BACKEND_EVIDENCE_UNKNOWN"
        "relay submission is positive but maker consumption is not yet proven"
    | .unknown reason => quarantineEvidence record "BACKEND_EVIDENCE_UNKNOWN" reason)
    fun error => quarantineEvidence record "RELAY_OR_SETTLEMENT_CONFLICT" error.message

/-! ## `reconcileRelayFailure` -/

/-- `reconcileRelayFailure`, up to the read of the evidence. -/
def reconcileRelayFailure (record : Nat) (queued : Bool) : Act Unit :=
  attempt (do
    let entry ← getRecord record
    markRelayFailed entry.generation
    suspend record .relayFailureEvidence queued)
    fun error => quarantineEvidence record "RELAY_FAILURE_RECONCILIATION_UNKNOWN" error.message

/-- `reconcileRelayFailure`, from the evidence. -/
def relayFailureReplied (options : SwapJobOptions) (record : Nat) (queued : Bool)
    (answers : List (Except String OfferConsumption)) : Act Unit :=
  attempt (do
    let entry ← getRecord record
    match readUniformEvidence entry.offerHashes answers with
    | .uniform _ _ =>
      quarantineEvidence record "RELAY_FAILURE_EVIDENCE_CONFLICT"
        "relay failure conflicts with positive ledger evidence"
    | .unknown reason => quarantineEvidence record "RELAY_FAILURE_EVIDENCE_CONFLICT" reason
    | .none =>
      if entry.walletTransaction.isNone then
        quarantineEvidence record "RELAY_FAILURE_ARTIFACT_UNKNOWN"
          "explicit relay failure has no restorable solver wallet transaction"
      else do
        let failed ← newRecord { entry with relayAccepted := some true }
        modifyJob fun job => { job with
          awaiting := some failed, quarantined := none, confirmations := none }
        revertWallet options failed queued)
    fun error => quarantineEvidence record "RELAY_FAILURE_RECONCILIATION_UNKNOWN" error.message

/-! ## The relay's HTTP status and the durable receipt -/

/-- `reconcileFromHttp`, up to the relay's answer. -/
def reconcileFromHttp (record : Nat) (queued : Bool) : Act Unit := suspend record .relayStatus queued

/-- `reconcileFromHttp`, from the relay's answer. -/
def relayStatusReplied (record : Nat) (queued : Bool) : Except String RelayJobStatus → Act Unit
  | .error message => quarantineEvidence record "RELAY_HTTP_OUTCOME_UNKNOWN" message
  | .ok (.done txId) => reconcileRelayDone record txId queued
  | .ok (.error _) => reconcileRelayFailure record queued
  | .ok (.pending status) => quarantineEvidence record "RELAY_HTTP_OUTCOME_UNKNOWN"
      ("relay job is still " ++ status)

/-- `reconcileDurableEvidence`. -/
def reconcileDurableEvidence (record : Nat) (queued : Bool) : Act Unit := do
  let entry ← getRecord record
  let receipt := (← requireRow (jobKey entry.generation)).receipt
  match receipt.relayState, receipt.relayExtrinsicHash with
  | some "done", some txId => reconcileRelayDone record txId queued
  | some "error", _ => reconcileRelayFailure record queued
  | none, none => reconcileFromHttp record queued
  | _, _ => quarantineEvidence record "RELAY_RECEIPT_MALFORMED" "durable relay receipt is incomplete"

/-! ## Messages of the relay -/

/-- `activeReceiptRecord`. -/
def activeReceiptRecord (job : SwapJob) : Option Nat :=
  (job.awaiting.or job.confirmations).or job.quarantined

/-- Whether a message of the relay acts on a record. -/
def JobRecord.hearsRelay (record : JobRecord) : Bool :=
  record.relayAccepted ≠ some false && record.locallyRevertible ≠ some true &&
    record.reverting ≠ some true

/-- What a message of the relay does, when its turn in the terminal chain comes. -/
def onRelayMessage (act : Nat → Act Unit) : Act Unit := do
  match activeReceiptRecord (← getJob) with
  | none => pure ()
  | some record =>
    if JobRecord.hearsRelay (← getRecord record) then act record else pure ()

/-- The head of the terminal chain. -/
def runTerminal : TerminalOperation → Act Unit
  | .txSubmitted txId => onRelayMessage fun record => reconcileRelayDone record txId true
  | .submitFailed _ => onRelayMessage fun record => reconcileRelayFailure record true
  | .reconcileFromHttp record => reconcileFromHttp record true
  | .reconcileDurableEvidence record => reconcileDurableEvidence record true

def enqueueTerminal (operation : TerminalOperation) : Act Unit :=
  modifyJob fun job => { job with terminalChain := job.terminalChain ++ [operation] }

end Act

end ZswapKernel
