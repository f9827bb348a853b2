import ZswapKernel.Lib.Awaiting
import ZswapKernel.Node.OfferGate
import ZswapKernel.SolverCore.ValidationContract

/-!
# Validation of an offer for use

`packages/node/offer-validation.ts`, with `evaluateOfferLivenessFromDatabase` of `offer-liveness.ts`:
may an indexed offer be used right now. The answer takes many queries, and blocks may be committed
between any two of them. The engine reads the newest block before and after, and starts over when
they differ.

An ISO text is its instant. What another task does while a query is open is the world's: it says what
each query sees, what the sync status is and whether the request is cancelled.
-/

namespace ZswapKernel

/-! ## The world of a request -/

/-- What a query sees: the newest block with a time (`getLatestEffectstreamBlock`), and the tables. -/
structure NodeState where
  latestBlock : Option (Nat × Int)
  db : Db

inductive SyncState
  | ok
  | syncing
  | error
  deriving DecidableEq, Repr

/-- The answer of `getSyncStatus`, as far as it is read here. -/
structure SyncHealth where
  status : SyncState
  /-- `blockL2.height`. -/
  blockL2 : Option Nat
  deriving DecidableEq, Repr

/-- The world at one await. -/
structure Moment where
  state : Except String NodeState
  /-- `getFreshSyncStatus`, or `getSyncStatus`. -/
  sync : Bool → Except String SyncHealth
  aborted : Option String

inductive ValidationFailure
  /-- `OfferValidationUnavailableError`. -/
  | unavailable (message : String)
  /-- What a query throws. -/
  | query (message : String)
  deriving DecidableEq, Repr

abbrev ValidationAct (α : Type) := Awaiting Moment ValidationFailure α

open Awaiting

/-- `checkSignal`. -/
def checkSignal : ValidationAct Unit := do
  match (← moment).aborted with
  | none => pure ()
  | some reason => Awaiting.fail (.unavailable reason)

/-- The answer of one statement. -/
def Moment.answer {α : Type} (statement : NodeState → Except String α) (now : Moment) :
    Except ValidationFailure α :=
  match now.state with
  | .error e => .error (.query e)
  | .ok s => (statement s).mapError .query

/-- Run one statement. -/
def runQuery {α : Type} (statement : NodeState → Except String α) : ValidationAct α :=
  Awaiting.await (Moment.answer statement)

/-- `boundedReason`, of a text; a character that the cut splits goes as a whole. -/
def boundedReason (reason : String) : String :=
  if utf16Length reason ≤ offerValidationMaxReasonChars then reason
  else String.ofList (slice (offerValidationMaxReasonChars - 1) reason.toList) ++ "…"
where
  slice : Nat → List Char → List Char
    | _, [] => []
    | room, c :: rest =>
      let units := if c.toNat < 0x10000 then 1 else 2
      if room < units then [] else c :: slice (room - units) rest

/-! ## Verdicts -/

/-- `ValidationStateAnchor`. -/
structure ValidationStateAnchor where
  version : Nat
  atMs : Int
  deriving DecidableEq, Repr

/-- `checkedVerdict`. -/
def checkedVerdict (profile offerId : String) (anchor : ValidationStateAnchor) (valid live : Bool)
    (computedOfferId : Option String) (status : OfferValidationStatus) (code : OfferValidationCode)
    (reason : Option String := none) (computed : Option ValidationSemantics := none) :
    Except ValidationFailure ValidationVerdict :=
  let candidate : ValidationVerdict := {
    profile := profile
    valid := valid
    live := live
    claimedOfferId := offerId
    computedOfferId := computedOfferId
    stateVersion := anchor.version
    validatedAt := anchor.atMs
    status := status
    code := code
    reason := reason.map boundedReason
    computed := computed }
  match parseOfferValidationVerdict candidate with
  | none => .error (.unavailable
      s!"refusing to emit a noncanonical validation verdict ({candidate.code.text})")
  | some parsed => .ok parsed

/-- The codes that `canonicalValidatorCode` keeps. -/
def keptValidatorCodes : List OfferValidationCode :=
  [.badEncoding, .tooLarge, .badDeserialize, .wrongTxVariant, .noSpendableInput, .notASwap,
    .unknownToken, .rootUnreadable, .nullifierSpent, .utxoNotLive, .rootUnknown, .proofInvalid,
    .signatureInvalid]

/-- `canonicalValidatorCode`. -/
def canonicalValidatorCode (code : String) : Except ValidationFailure OfferValidationCode :=
  match keptValidatorCodes.find? (·.text = code) with
  | some kept => .ok kept
  | none =>
    if code = "CROSS_LAYER" then .ok .unsupportedShape
    else if code = "INTENT_TTL_EXPIRED" then .ok .expired
    else if code = "INTENT_TTL_TOO_FAR" then .ok .proofInvalid
    else .error (.unavailable s!"validator returned an unsupported boundary code: {code}")

/-- `validationStateAnchorFromRow`. -/
def validationStateAnchorFromRow :
    Option (Nat × Int) → Except ValidationFailure ValidationStateAnchor
  | none => .error (.unavailable "backend has no committed state anchor")
  | some (blockHeight, msTimestamp) =>
    if !isCanonicalU64 blockHeight then
      .error (.unavailable "backend state version is not canonical u64")
    else if msTimestamp < 0 ∨ maxDateMs < msTimestamp then
      .error (.unavailable "backend state timestamp is unavailable")
    else .ok ⟨blockHeight, msTimestamp⟩

/-- `readStateAnchor`. -/
def readStateAnchor : ValidationAct ValidationStateAnchor := do
  checkSignal
  let row ← runQuery fun s => .ok s.latestBlock
  checkSignal
  settle (validationStateAnchorFromRow row)

/-- One attempt of `requireCurrentBackend`: the anchor, if the sync status is about its block. -/
def currentAnchor (fresh : Bool) : ValidationAct (Option ValidationStateAnchor) := do
  checkSignal
  let sync ← Awaiting.await fun now => (now.sync fresh).mapError fun e =>
    .unavailable s!"backend currentness check failed: {boundedReason e}"
  checkSignal
  match sync.status, sync.blockL2 with
  | .ok, some height => do
    let anchor ← readStateAnchor
    return if isCanonicalU64 height ∧ height = anchor.version then some anchor else none
  | _, _ => Awaiting.fail (.unavailable "backend is not synchronized")

/-- `requireCurrentBackend`. -/
def requireCurrentBackend (freshFirst : Bool) : ValidationAct ValidationStateAnchor := do
  match ← currentAnchor freshFirst with
  | some anchor => return anchor
  | none =>
    match ← currentAnchor true with
    | some anchor => return anchor
    | none => Awaiting.fail (.unavailable
        "backend currentness response is not bound to the committed state anchor")

/-! ## The state of one offer -/

/-- `StateFailure`. -/
structure StateFailure where
  code : OfferValidationCode
  reason : String
  deriving DecidableEq, Repr

/-- `BoundOfferState`, less its anchor. -/
structure OfferState where
  status : OfferValidationStatus
  live : Bool
  expiresAt : Option Int
  failure : Option StateFailure
  deriving DecidableEq, Repr

/-- A row of `getOfferByHash`. -/
structure StoredOffer where
  offer : OfferFile
  status : FillStatus

/-- `getOfferByHash`. -/
def Db.getOfferByHash (db : Db) (offerHash : String) : Option StoredOffer :=
  let live : List StoredOffer :=
    (db.offerFile.filter (·.offerHash = offerHash)).map fun offer => ⟨offer, .live⟩
  let archived : List StoredOffer :=
    (db.history.filter (·.offerHash = offerHash)).map fun entry =>
      ⟨entry.toOfferFile, db.archivedStatus entry⟩
  (live ++ archived).head?

/-- `normalizeStoredStatus`. -/
def normalizeStoredStatus : FillStatus → OfferValidationStatus
  | .live => .live
  | .consumed => .consumed
  | .cancelled => .cancelled
  | .expired => .expired

/-- `parseExpiry`. -/
def parseExpiry (ms : Int) : Option Int := if 0 ≤ ms ∧ ms ≤ maxDateMs then some ms else none

/-- `evaluateOfferLivenessFromDatabase`: a query for each descriptor, up to the first that is not
live. -/
def probeDescriptors (rootCutoffMs : Int) :
    List OfferLivenessDescriptor → ValidationAct (Except OfferRejection Unit)
  | [] => return .ok ()
  | descriptor :: rest => do
    let live ← runQuery fun s => do
      descriptor.parameters
      return s.db.isLive rootCutoffMs descriptor
    if live then probeDescriptors rootCutoffMs rest
    else return .error (offerLivenessFailure descriptor)

/-- The code of a liveness failure; `offerLivenessFailure` gives three. -/
def OfferRejection.stateFailure (rejection : OfferRejection) : StateFailure where
  code := match rejection.code with
    | .nullifierSpent => .nullifierSpent
    | .utxoNotLive => .utxoNotLive
    | _ => .rootUnknown
  reason := rejection.reason

def notIndexedState : OfferState :=
  ⟨.notIndexed, false, none,
    some ⟨.notIndexed, "the exact candidate is not indexed by this backend"⟩⟩

/-- What a stored row says before its inputs are looked at: a state, or the expiry of a live row. -/
def StoredOffer.check (ledger : Ledger) (decode : String → Except String (List UInt8))
    (stored : StoredOffer) (offerId : String) (nowMs : Int) :
    Except ValidationFailure (OfferState ⊕ Int) :=
  match offerHashFromBlob ledger decode stored.offer.transactionHex with
  | .error e => .error (.unavailable s!"indexed offer bytes are undecodable: {boundedReason e}")
  | .ok storedOfferId =>
    if stored.offer.offerHash ≠ offerId ∨ storedOfferId ≠ offerId then
      .error (.unavailable "indexed offer identity is not bound to its stored bytes")
    else
      let status := normalizeStoredStatus stored.status
      if status ≠ .live then
        .ok (.inl ⟨status, false, parseExpiry stored.offer.metadataExpiresAt,
          some ⟨.notLive, s!"indexed offer lifecycle status is '{status.text}'"⟩⟩)
      else
        match parseExpiry stored.offer.metadataExpiresAt with
        | none => .error (.unavailable "live indexed offer has no canonical expiry")
        | some expiresAt =>
          -- The clean-up that archives the row may lag the clock.
          if expiresAt ≤ nowMs then
            .ok (.inl ⟨.live, false, some expiresAt, some ⟨.expired,
              "the indexed offer expired before its cleanup transition archived the row"⟩⟩)
          else .ok (.inr expiresAt)

def OfferState.ofLiveness (expiresAt : Int) : Except OfferRejection Unit → OfferState
  | .ok () => ⟨.live, true, some expiresAt, none⟩
  | .error rejection => ⟨.live, false, some expiresAt, some rejection.stateFailure⟩

/-- The queries of `readBoundOfferState` between its two anchors. -/
def readOfferState (env : NodeEnv) (ledger : Ledger) (decode : String → Except String (List UInt8))
    (offerId : String) (validation : OfferValidation) (nowMs : Int) : ValidationAct OfferState := do
  let row ← runQuery fun s => .ok (s.db.getOfferByHash offerId)
  checkSignal
  match row with
  | none => return notIndexedState
  | some stored => do
    match ← settle (stored.check ledger decode offerId nowMs) with
    | .inl state => return state
    | .inr expiresAt => do
      let liveness ← probeDescriptors (nowMs - env.rootWindowMs)
        (orderedOfferLivenessDescriptors validation)
      checkSignal
      return .ofLiveness expiresAt liveness

/-- `readBoundOfferState`, with the attempts that are left. -/
def readBoundOfferState (env : NodeEnv) (ledger : Ledger)
    (decode : String → Except String (List UInt8)) (offerId : String) (validation : OfferValidation) :
    Nat → ValidationAct (ValidationStateAnchor × OfferState)
  | 0 => Awaiting.fail (.unavailable
      "backend state advanced during every validation snapshot attempt")
  | attempts + 1 => do
    let before ← readStateAnchor
    let state ← readOfferState env ledger decode offerId validation before.atMs
    let after ← readStateAnchor
    if before = after then return (after, state)
    else readBoundOfferState env ledger decode offerId validation attempts

/-- `CONSISTENT_READ_ATTEMPTS`. -/
def consistentReadAttempts : Nat := 3

/-! ## The engine -/

/-- The verdict on a profile that is not supported. -/
def unsupportedProfileVerdict (profile offerId : String) (anchor : ValidationStateAnchor) :
    Except ValidationFailure ValidationVerdict :=
  checkedVerdict profile offerId anchor false false none .unknown .unsupportedProfile
    (some "unsupported validation profile")

/-- The identity of the bytes; those that do not decode have none. -/
def computedOfferId (ledger : Ledger) (decode : String → Except String (List UInt8)) (offer : String) :
    Except BlobRejection OfferValidation → Option String
  | .error rejection =>
    if rejection.error = "BAD_ENCODING" ∨ rejection.error = "TOO_LARGE" then none
    else (offerHashFromBlob ledger decode offer).toOption
  | .ok _ => (offerHashFromBlob ledger decode offer).toOption

/-- What the bytes of a request say: the identity of an offer and what it declares, or a verdict. -/
def structuralVerdict (env : NodeEnv) (ledger : Ledger)
    (decode : String → Except String (List UInt8)) (request : OfferValidationRequest)
    (anchor : ValidationStateAnchor) :
    Except ValidationFailure (ValidationVerdict ⊕ String × OfferValidation) :=
  let structural := validateZswapOffer ledger decode env.offerMaxBytes request.offer
  let computed := computedOfferId ledger decode request.offer structural
  if computed.any (· ≠ request.offerId) then
    .inl <$> checkedVerdict request.profile request.offerId anchor false false computed .unknown
      .hashMismatch (some "claimed offerId does not match the decoded offer bytes")
  else
    match structural, computed with
    | .error rejection, _ => do
      let code ← canonicalValidatorCode rejection.error
      .inl <$> checkedVerdict request.profile request.offerId anchor false false computed .unknown
        code (some rejection.reason)
    | .ok _, none => .error (.unavailable
        "canonical validator accepted an offer without identity/transaction")
    | .ok validation, some offerId => .ok (.inr (offerId, validation))

/-- `stateVerdict`, when the state has a failure. -/
def stateVerdict (request : OfferValidationRequest) (computedOfferId : String)
    (anchor : ValidationStateAnchor) (state : OfferState) (failure : StateFailure) :
    Except ValidationFailure ValidationVerdict :=
  checkedVerdict request.profile request.offerId anchor false state.live (some computedOfferId)
    state.status failure.code (some failure.reason)

/-- What the validated transaction gives and wants. -/
def OfferValidation.semantics (validation : OfferValidation) (expiresAt : Int) :
    ValidationSemantics :=
  ⟨validation.gives, validation.wants, validation.nullifiers, expiresAt⟩

/-- What the first read of the state decides: a verdict, or to go on. -/
def initialVerdict (request : OfferValidationRequest) (computedOfferId : String)
    (validation : OfferValidation) (anchor : ValidationStateAnchor) (state : OfferState) :
    Except ValidationFailure (Option ValidationVerdict) :=
  match state.failure, state.expiresAt with
  | some failure, _ => some <$> stateVerdict request computedOfferId anchor state failure
  | none, none => .error (.unavailable "initial live state lost its expiry")
  | none, some expiresAt =>
    if !isSupportedOfferValidationSemantics (validation.semantics expiresAt) then
      some <$> checkedVerdict request.profile request.offerId anchor false true
        (some computedOfferId) .live .unsupportedShape
        (some "offer is live but is not one shielded -A +B pair for the v1 profile")
    else .ok none

/-- What the second read of the state and the proof decide. -/
def finalVerdict (request : OfferValidationRequest) (computedOfferId : String)
    (validation : OfferValidation) (crypto : Except OfferRejection Unit)
    (anchor : ValidationStateAnchor) (state : OfferState) :
    Except ValidationFailure ValidationVerdict :=
  match state.failure, crypto, state.expiresAt with
  | some failure, _, _ => stateVerdict request computedOfferId anchor state failure
  | none, .error rejection, _ => do
    let code ← canonicalValidatorCode rejection.code.text
    checkedVerdict request.profile request.offerId anchor false (code ≠ .expired)
      (some computedOfferId) .live code (some rejection.reason)
  | none, .ok (), none => .error (.unavailable "final live state lost its expiry")
  | none, .ok (), some expiresAt =>
    let computed := validation.semantics expiresAt
    if !isSupportedOfferValidationSemantics computed then
      .error (.unavailable "supported offer semantics changed across validation state reads")
    else
      checkedVerdict request.profile request.offerId anchor true true (some computedOfferId) .live
        .valid none (some computed)

/-- One attempt to read the state of the offer at the anchor of a current backend. -/
def currentOfferState (env : NodeEnv) (ledger : Ledger)
    (decode : String → Except String (List UInt8)) (offerId : String) (validation : OfferValidation) :
    ValidationAct (Option (ValidationStateAnchor × OfferState)) := do
  let current ← requireCurrentBackend true
  let candidate ← readBoundOfferState env ledger decode offerId validation consistentReadAttempts
  return if candidate.1 = current then some candidate else none

/-- The reads after the proof. -/
def readFinalState (env : NodeEnv) (ledger : Ledger)
    (decode : String → Except String (List UInt8)) (offerId : String) (validation : OfferValidation) :
    ValidationAct (ValidationStateAnchor × OfferState) := do
  match ← currentOfferState env ledger decode offerId validation with
  | some final => return final
  | none =>
    match ← currentOfferState env ledger decode offerId validation with
    | some final => return final
    | none => Awaiting.fail (.unavailable
        "final offer state could not be bound to a current backend anchor")

/-- `validateOfferForUse`. -/
def validateOfferForUse (env : NodeEnv) (ledger : Ledger)
    (decode : String → Except String (List UInt8)) (request : OfferValidationRequest) :
    ValidationAct ValidationVerdict := do
  let initialAnchor ← requireCurrentBackend false
  if request.profile ≠ offerValidationProfile then
    settle (unsupportedProfileVerdict request.profile request.offerId initialAnchor)
  else do
    checkSignal
    match ← settle (structuralVerdict env ledger decode request initialAnchor) with
    | .inl verdict => return verdict
    | .inr (offerId, validation) => do
      let (anchor, state) ← readBoundOfferState env ledger decode offerId validation
        consistentReadAttempts
      if anchor ≠ initialAnchor then
        Awaiting.fail (.unavailable
          "initial offer state advanced beyond the synchronized backend anchor")
      else
        match ← settle (initialVerdict request offerId validation anchor state) with
        | some verdict => return verdict
        | none => do
          checkSignal
          let crypto := verifyOfferCrypto ledger validation.tx anchor.atMs
          checkSignal
          let (finalAnchor, finalState) ← readFinalState env ledger decode offerId validation
          settle (finalVerdict request offerId validation crypto finalAnchor finalState)

end ZswapKernel
