import ZswapKernel.Solver.Stock

/-!
# The operation journal

`packages/solver/src/operation-journal.ts`: the durable rows of one job. Each function is one SQLite
transaction, so it either returns the new rows or refuses and leaves the journal as it was.

A key is kept in its parts, since its text is injective in them. The digest in the key of a recovery
row is kept as its preimage. A serialized transaction is the transaction. The row and byte ceilings,
the deadline column, the retention sweep and SQLite's own failures are left out.
-/

namespace ZswapKernel

/-! ## Rows -/

inductive JournalOperationKind
  | mirrorReservation
  | mirrorRevert
  | residualBuild
  | dustBalance
  | finalizedContribution
  | jobSettlement
  | jobRevert
  deriving DecidableEq, Repr

def JournalOperationKind.text : JournalOperationKind → String
  | mirrorReservation => "MIRROR_RESERVATION"
  | mirrorRevert => "MIRROR_REVERT"
  | residualBuild => "RESIDUAL_BUILD"
  | dustBalance => "DUST_BALANCE"
  | finalizedContribution => "FINALIZED_CONTRIBUTION"
  | jobSettlement => "JOB_SETTLEMENT"
  | jobRevert => "JOB_REVERT"

inductive JournalLifecycleState
  | prepared
  | applied
  | awaitingRelay
  | relaySubmitted
  | confirming
  | reverting
  | settled
  | reverted
  | failed
  | quarantined
  deriving DecidableEq, Repr

/-- `TERMINAL_STATES`. -/
def JournalLifecycleState.terminal : JournalLifecycleState → Bool
  | settled | reverted | failed => true
  | _ => false

/-- `allowedTransitions`. -/
def allowedTransitions : JournalLifecycleState → List JournalLifecycleState
  | .prepared => [.applied, .failed, .reverting, .reverted, .quarantined]
  | .applied => [.awaitingRelay, .confirming, .reverting, .quarantined]
  | .awaitingRelay => [.relaySubmitted, .reverting, .quarantined]
  | .relaySubmitted => [.confirming, .settled, .quarantined]
  | .confirming => [.settled, .reverting, .quarantined]
  | .reverting => [.reverted, .quarantined]
  | .quarantined => [.confirming, .reverting, .settled, .reverted]
  | .settled | .reverted | .failed => []

inductive WalletArtifactKind
  | finalized
  | unproven
  deriving DecidableEq, Repr

/-- A transaction of the wallet, by the contributions it carries. -/
structure WalletTransaction where
  kind : WalletArtifactKind
  contributions : List Nat
  deriving DecidableEq, Repr

/-- What the digest of a recovery key is computed from. -/
structure RecoveryDigest where
  walletArtifactKind : WalletArtifactKind
  sourceOperationKeys : List String
  walletArtifact : WalletTransaction
  deriving DecidableEq, Repr

/-- The label of a key. -/
inductive OperationLabel
  | settlement
  | residual
  | fees
  | dust
  | wallet
  | recovery (digest : RecoveryDigest)
  deriving DecidableEq, Repr

def OperationLabel.text : OperationLabel → String
  | settlement => "settlement"
  | residual => "residual"
  | fees => "fees"
  | dust => "dust"
  | wallet => "wallet"
  | recovery digest =>
    -- The digest has 64 hex digits, whatever it is.
    let artifact := match digest.walletArtifactKind with
      | .finalized => "finalized"
      | .unproven => "unproven"
    "recovery-" ++ artifact ++ "-" ++ String.ofList (List.replicate 64 '0')

/-- A key, within its job. -/
structure OperationKey where
  generation : Nat
  operationKind : JournalOperationKind
  label : OperationLabel
  deriving DecidableEq, Repr

/-- `jobKey`. -/
def jobKey (generation : Nat) : OperationKey := ⟨generation, .jobSettlement, .settlement⟩

/-- The text of a key; `jobKey` does not name its kind. -/
def OperationKey.text (jobId : String) (key : OperationKey) : String :=
  let kind := if key.label = .settlement then "" else key.operationKind.text ++ ":"
  "job:" ++ jobId ++ ":g" ++ decimal key.generation ++ ":" ++ kind ++ key.label.text

structure JournalClaim where
  inputs : List String
  payouts : List (String × Int)
  deriving DecidableEq, Repr

structure JournalReceipt where
  relayJobId : Option String := none
  relayState : Option String := none
  relayExtrinsicHash : Option String := none
  ledgerTxHash : Option String := none
  ledgerHeight : Option Nat := none
  deriving DecidableEq, Repr

structure PreparedOperation where
  operationKey : OperationKey
  offerHashes : List String
  claim : JournalClaim
  ttlExpiresAtMs : Int
  walletArtifact : Option WalletTransaction := none
  receipt : JournalReceipt := {}
  deriving DecidableEq, Repr

structure TransitionPatch where
  walletArtifact : Option WalletTransaction := none
  errorCode : Option String := none
  errorDetail : Option String := none
  retryCount : Option Nat := none
  deriving DecidableEq, Repr

structure JournalOperation extends PreparedOperation where
  lifecycleState : JournalLifecycleState
  retentionUntilMs : Int
  errorCode : Option String := none
  errorDetail : Option String := none
  retryCount : Nat := 0
  deriving DecidableEq, Repr

namespace JournalOperation

def generation (row : JournalOperation) : Nat := row.operationKey.generation

def operationKind (row : JournalOperation) : JournalOperationKind := row.operationKey.operationKind

def terminal (row : JournalOperation) : Bool := row.lifecycleState.terminal

/-- The row after a transition; a missing field of the patch keeps the column. -/
def patched (row : JournalOperation) (nextState : JournalLifecycleState) (patch : TransitionPatch) :
    JournalOperation :=
  { row with
    lifecycleState := nextState
    walletArtifact := patch.walletArtifact.or row.walletArtifact
    errorCode := patch.errorCode.or row.errorCode
    errorDetail := patch.errorDetail.or row.errorDetail
    retryCount := patch.retryCount.getD row.retryCount }

/-- `#writeReceipt`: a missing field keeps the column. -/
def withReceipt (row : JournalOperation) (receipt : JournalReceipt) : JournalOperation :=
  { row with receipt :=
    { relayJobId := receipt.relayJobId.or row.receipt.relayJobId
      relayState := receipt.relayState.or row.receipt.relayState
      relayExtrinsicHash := receipt.relayExtrinsicHash.or row.receipt.relayExtrinsicHash
      ledgerTxHash := receipt.ledgerTxHash.or row.receipt.ledgerTxHash
      ledgerHeight := receipt.ledgerHeight.or row.receipt.ledgerHeight } }

end JournalOperation

/-! ## Checks -/

/-- `requireText`. -/
def requireText (name value : String) (max : Nat) : Except String Unit :=
  if value = "" ∨ max < utf16Length value ∨ '\x00' ∈ value.toList then
    .error s!"{name} must be non-empty, at most {max} characters, and contain no NUL"
  else .ok ()

def requireOptionalText (name : String) (value : Option String) (max : Nat) : Except String Unit :=
  match value with
  | some value => requireText name value max
  | none => .ok ()

/-- `requireUniqueSortedHex`. -/
def requireUniqueSortedHex (name : String) (values : List String) : Except String Unit :=
  if values = [] then .error s!"{name} must not be empty"
  else if !values.all fun value => hex64 value && toLowerCase value = value then
    .error s!"{name} must be canonical lowercase 32-byte hex"
  else if !decide (values.Pairwise (· < ·)) then
    .error s!"{name} must be unique and lexicographically sorted"
  else .ok ()

/-- `requireReceipt`; a height is a natural number. -/
def requireReceipt (receipt : JournalReceipt) : Except String Unit := do
  requireOptionalText "receipt.relayJobId" receipt.relayJobId 1024
  requireOptionalText "receipt.relayState" receipt.relayState 1024
  requireOptionalText "receipt.relayExtrinsicHash" receipt.relayExtrinsicHash 1024
  requireOptionalText "receipt.ledgerTxHash" receipt.ledgerTxHash 1024

/-- `requirePrepared`. -/
def requirePrepared (jobId : String) (input : PreparedOperation) : Except String Unit := do
  requireText "operationKey" (input.operationKey.text jobId) 512
  requireText "jobId" jobId 512
  requireUniqueSortedHex "offerHashes" input.offerHashes
  requireUniqueSortedHex "claim.inputs" input.claim.inputs
  if !input.claim.payouts.all fun (token, amount) =>
      hex64 token && toLowerCase token = token && 0 ≤ amount then
    throw "claim payout is not canonical"
  if input.ttlExpiresAtMs < 1 then throw "ttlExpiresAtMs must be a safe integer >= 1"
  requireReceipt input.receipt

/-- `validateTransitionPatch`. -/
def validateTransitionPatch (patch : TransitionPatch) : Except String Unit := do
  requireOptionalText "errorCode" patch.errorCode 256
  requireOptionalText "errorDetail" patch.errorDetail 4096

/-- A field of a repeated terminal transition agrees with the row. -/
def agrees {α : Type} [DecidableEq α] (expected actual : Option α) : Bool :=
  expected.isNone || expected = actual

/-- `assertIdempotentTerminalPatch`. -/
def assertIdempotentTerminalPatch (current : JournalOperation) (patch : TransitionPatch) :
    Except String Unit := do
  validateTransitionPatch patch
  if !(agrees patch.walletArtifact current.walletArtifact &&
      agrees patch.errorCode current.errorCode &&
      agrees patch.errorDetail current.errorDetail &&
      agrees patch.retryCount (some current.retryCount)) then
    throw "duplicate terminal transition conflicts"

/-- A field of a receipt is written once. -/
def conflicts {α : Type} [DecidableEq α] (next current : Option α) : Bool :=
  next.isSome && current.isSome && next ≠ current

/-! ## The journal -/

/-- The rows of one job, in insertion order. -/
abbrev Journal := List JournalOperation

namespace Journal

variable (journal : Journal)

def get (operationKey : OperationKey) : Option JournalOperation :=
  journal.find? (·.operationKey = operationKey)

/-- `group`: the rows of a generation. -/
def group (generation : Nat) : List JournalOperation :=
  journal.filter (·.generation = generation)

/-- Rewrite the row of a key. -/
def update (operationKey : OperationKey) (change : JournalOperation → JournalOperation) : Journal :=
  journal.map fun row => if row.operationKey = operationKey then change row else row

/-- `createPrepared`. -/
def createPrepared (jobId : String) (reconciliationMarginMs : Int) (input : PreparedOperation) :
    Except String Journal := do
  requirePrepared jobId input
  if (journal.get input.operationKey).isSome then throw "UNIQUE constraint failed"
  return journal ++ [{ input with
    lifecycleState := .prepared
    retentionUntilMs := input.ttlExpiresAtMs + reconciliationMarginMs }]

/-- `transition`. -/
def transition (operationKey : OperationKey) (expectedState nextState : JournalLifecycleState)
    (patch : TransitionPatch := {}) : Except String Journal :=
  match journal.get operationKey with
  | none => .error "journal operation not found"
  | some current =>
    if current.lifecycleState = nextState ∧ nextState.terminal then do
      assertIdempotentTerminalPatch current patch
      return journal
    else if current.lifecycleState ≠ expectedState then .error "compare-and-set lost"
    else if nextState ∉ allowedTransitions expectedState then .error "illegal transition"
    else do
      validateTransitionPatch patch
      return journal.update operationKey (·.patched nextState patch)

/-- `recordReceipt`. -/
def recordReceipt (operationKey : OperationKey) (receipt : JournalReceipt) : Except String Journal :=
  do
    requireReceipt receipt
    match journal.get operationKey with
    | none => throw "journal operation not found"
    | some row =>
      if conflicts receipt.relayJobId row.receipt.relayJobId ||
          conflicts receipt.relayState row.receipt.relayState ||
          conflicts receipt.relayExtrinsicHash row.receipt.relayExtrinsicHash ||
          conflicts receipt.ledgerTxHash row.receipt.ledgerTxHash ||
          conflicts receipt.ledgerHeight row.receipt.ledgerHeight then
        throw "receipt conflicts with durable evidence"
      return journal.update operationKey (·.withReceipt receipt)

end Journal

/-! ## DUST reservations -/

inductive DustReservationState
  | reserved
  | spent (spentAtMs : Int)
  | released
  deriving DecidableEq, Repr

structure DustReservation where
  operationKey : OperationKey
  amount : Int
  state : DustReservationState
  deriving DecidableEq, Repr

structure DustAdmission where
  maxPerJob : Int
  maxPerWindow : Int
  windowMs : Int
  deriving DecidableEq, Repr

/-- Whether a reservation counts against the window. -/
def DustReservation.counts (reservation : DustReservation) (windowMs nowMs : Int) : Bool :=
  match reservation.state with
  | .reserved => true
  | .spent spentAtMs => max 0 (nowMs - windowMs) < spentAtMs
  | .released => false

/-- `#dustUsage`. -/
def dustUsage (reservations : List DustReservation) (windowMs nowMs : Int) : Int :=
  ((reservations.filter (·.counts windowMs nowMs)).map (·.amount)).sum

inductive DustRefusal
  | perJob
  | window
  deriving DecidableEq, Repr

/-- `reserveDust`: the reservations with the new one, or the limit that refuses it.
`elsewhere` is the usage of the other jobs. -/
def reserveDust (journal : Journal) (reservations : List DustReservation) (elsewhere nowMs : Int)
    (limits : DustAdmission) (operationKey : OperationKey) (amount : Int) :
    Except String (Except DustRefusal (List DustReservation)) :=
  if amount ≤ 0 then .error "dust amount must be a positive bigint"
  else
    match reservations.find? (·.operationKey = operationKey) with
    | some existing =>
      if existing.amount ≠ amount ∨ existing.state = .released then
        .error "conflicting DUST reservation replay"
      else .ok (.ok reservations)
    | none =>
      if limits.maxPerJob < amount then .ok (.error .perJob)
      else if limits.maxPerWindow <
          elsewhere + dustUsage reservations limits.windowMs nowMs + amount then
        .ok (.error .window)
      else if (journal.get operationKey).isNone then
        .error "DUST reservation requires its durable job settlement row"
      else .ok (.ok (reservations ++ [⟨operationKey, amount, .reserved⟩]))

/-- `#transitionDust`; a job without a reservation has nothing to do. -/
def transitionDust (reservations : List DustReservation) (operationKey : OperationKey)
    (next : DustReservationState) (done : DustReservationState → Bool) :
    Except String (List DustReservation) :=
  match reservations.find? (·.operationKey = operationKey) with
  | none => .ok reservations
  | some current =>
    if done current.state then .ok reservations
    else if current.state ≠ .reserved then .error "DUST cannot transition"
    else .ok (reservations.map fun reservation =>
      if reservation.operationKey = operationKey then { reservation with state := next }
      else reservation)

def markDustSpent (reservations : List DustReservation) (operationKey : OperationKey)
    (nowMs : Int) : Except String (List DustReservation) :=
  transitionDust reservations operationKey (.spent nowMs) fun state =>
    match state with
    | .spent _ => true
    | _ => false

def releaseDust (reservations : List DustReservation) (operationKey : OperationKey) :
    Except String (List DustReservation) :=
  transitionDust reservations operationKey .released (· = .released)

end ZswapKernel
