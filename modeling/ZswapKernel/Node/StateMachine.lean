import ZswapKernel.Node.Database

/-!
# The node's state machine

The transitions of `packages/node/state-machine.ts`, each a function of the block, its input and the
database. An error rolls the block back, so a transition that fails leaves no state behind.

Left out: the event bus and the console.
-/

namespace ZswapKernel

/-- The configuration the transitions read, of `env.ts`. -/
structure NodeEnv where
  celestiaPrimitiveName : String
  offerMaxBytes : Nat
  offerTtlSeconds : Int
  rootWindowSeconds : Int
  dustGracePeriodSeconds : Int

def NodeEnv.rootWindowMs (env : NodeEnv) : Int := env.rootWindowSeconds * 1000

/-- The L2 block of an input. -/
structure BlockContext where
  blockHeight : Nat
  blockTimestamp : Int
  deriving DecidableEq, Repr

/-! ## Expiry -/

/-- The range of a `Date`. -/
def maxDateMs : Int := 8640000000000000

/-- `expiryTimestamp` of a timestamp. -/
def expiryTimestamp (label : String) (value : Int) : Except String Int :=
  if -maxDateMs ≤ value ∧ value ≤ maxDateMs then .ok value
  else .error s!"invalid {label} offer expiry: {decimal value}"

/-- `new Date(ms).toISOString()`. -/
def toISOString (ms : Int) : Except String Int :=
  if -maxDateMs ≤ ms ∧ ms ≤ maxDateMs then .ok ms else .error "Invalid time value"

/-- `earliestDustSpendDeadline`. -/
def earliestDustSpendDeadline (tx : OfferTransaction) (graceSeconds : Int) :
    Except String (Option Int) := do
  let spending := tx.intents.filterMap fun (_, intent) => intent.dustActions.filter (0 < ·.spends)
  let deadlines ← spending.mapM fun dust => do
    let ctime ← expiryTimestamp "dust" dust.ctime
    return ctime + graceSeconds * 1000
  return deadlines.min?

/-- `deriveOfferExpiry`: the earliest limit that applies. -/
def deriveOfferExpiry (root intent dust : Option Int) (fallback : Int) : Except String Int := do
  let root ← root.mapM (expiryTimestamp "root")
  let intent ← intent.mapM (expiryTimestamp "intent")
  let dust ← dust.mapM (expiryTimestamp "dust")
  match (root.toList ++ intent.toList ++ dust.toList).min? with
  | some earliest => return earliest
  | none => expiryTimestamp "fallback" fallback

/-- `offerLifetimeSeconds`. -/
def offerLifetimeSeconds (expiresAtMs createdAtMs : Int) : Int :=
  max 0 ((expiresAtMs - createdAtMs) / 1000)

/-! ## Chain events -/

/-- An optional hash: an empty text counts as absent. -/
def optionalHex : Option HexValue → Option String
  | none => none
  | some (.text "") => none
  | some value => some (bytesOrStringToHex value)

/-- `bytesOrStringToHex` of a field that may be missing. -/
def fieldHex : Option HexValue → String
  | none => "undefined"
  | some value => bytesOrStringToHex value

/-- `unshieldedOwnerToCanonicalHex`. -/
def unshieldedOwnerToCanonicalHex (ledger : Ledger) : Option HexValue → String
  | some (.text value) =>
    if '1' ∈ value.toList then
      match ledger.parseAddress value with
      | some data => toLowerCase (bytesToHex data)
      | none => bytesOrStringToHex (.text value)
    else bytesOrStringToHex (.text value)
  | value => fieldHex value

inductive ZswapEvent
  | commitment (commitment : HexValue) (txHash : Option HexValue) (mtIndex : Option String)
  | nullifier (nullifier : String) (txHash : Option HexValue)

/-- The payload of an unshielded spend or create; `outputIndex` is `none` unless it is a number. -/
structure UnshieldedPayload where
  owner : Option HexValue
  intentHash : Option HexValue
  outputIndex : Option Int
  txHash : Option HexValue := none
  tokenType : Option HexValue := none
  value : Option String := none

/-- The coin of a payload, unless it is malformed. -/
def UnshieldedPayload.coin (ledger : Ledger) (payload : UnshieldedPayload) :
    Option UnshieldedSpendRef :=
  let owner := unshieldedOwnerToCanonicalHex ledger payload.owner
  let intentHash := fieldHex payload.intentHash
  if owner = "" ∨ intentHash = "" then none
  else payload.outputIndex.map (⟨owner, intentHash, ·⟩)

/-- The `midnight-zswap-event` transition. -/
def zswapEvent (ctx : BlockContext) (event : ZswapEvent) (db : Db) : Db :=
  match event with
  | .commitment commitment txHash mtIndex =>
    db.insertCommitment ⟨bytesOrStringToHex commitment, optionalHex txHash, mtIndex, ctx.blockHeight⟩
  | .nullifier nullifier txHash =>
    let recorded := db.insertNullifier nullifier ctx.blockHeight (optionalHex txHash)
    let archived := recorded.archiveOfferByNullifier nullifier ctx.blockTimestamp
    if recorded.offerFile.any (recorded.competesForNullifier nullifier) then
      archived.markNullifierMatched nullifier
    else archived

/-- The `midnight-unshielded-spend` transition. -/
def unshieldedSpend (ledger : Ledger) (ctx : BlockContext) (payload : UnshieldedPayload) (db : Db) :
    Db :=
  match payload.coin ledger with
  | none => db
  | some coin =>
    let recorded := db.insertUnshieldedSpend ⟨coin, optionalHex payload.txHash, ctx.blockHeight⟩
    let deleted := recorded.deleteCreatedUnshielded coin
    deleted.archiveOfferByUnshieldedSpend coin ctx.blockTimestamp

/-- The `midnight-unshielded-create` transition. -/
def unshieldedCreate (ledger : Ledger) (ctx : BlockContext) (payload : UnshieldedPayload) (db : Db) :
    Db :=
  match payload.coin ledger with
  | none => db
  | some coin =>
    (db.insertCreatedUnshielded coin ctx.blockHeight).insertUnshieldedCreate
      ⟨⟨coin, optionalHex payload.txHash, ctx.blockHeight⟩, fieldHex payload.tokenType,
        payload.value.getD "0"⟩

/-- The `midnight-zswap-root` transition. -/
def zswapRoot (env : NodeEnv) (ctx : BlockContext) (payloadRoot : Option String) (db : Db) : Db :=
  let root := canonicalRootHex (payloadRoot.getD "")
  if root = "" then db
  else
    let roots := db.knownRoots.upsert root ctx.blockHeight ctx.blockTimestamp
    { db with knownRoots := roots.prune (ctx.blockTimestamp - env.rootWindowMs) }

/-! ## Offers -/

/-- The indexed probe of one liveness descriptor. -/
def Db.isLive (db : Db) (rootCutoffMs : Int) : OfferLivenessDescriptor → Bool
  | .nullifier nullifier => !db.isNullifierSpent nullifier
  | .unshielded ref => db.isUnshieldedCreated ref
  | .root root => db.knownRoots.isKnownRootLive root rootCutoffMs

/-- The verdict on liveness, when no probe fails. -/
def Db.offerLiveness (db : Db) (validation : OfferValidation) (rootCutoffMs : Int) :
    Except OfferRejection Unit :=
  evaluateOfferLiveness validation (db.isLive rootCutoffMs)

/-- A number for an `INTEGER` column or parameter: outside the range the statement fails. -/
def pgInteger (value : Int) : Except String Unit :=
  if -2 ^ 31 ≤ value ∧ value < 2 ^ 31 then .ok ()
  else .error ("value \"" ++ decimal value ++ "\" is out of range for type integer")

/-- The numbers the probe of a descriptor hands to its statement. -/
def OfferLivenessDescriptor.parameters : OfferLivenessDescriptor → Except String Unit
  | .unshielded ref => pgInteger ref.outputNo
  | .nullifier _ | .root _ => .ok ()

/-- `evaluateOfferLivenessInStateMachine`, and its twin for requests: one statement for each
descriptor, up to the first that is not live. -/
def Db.probeLiveness (db : Db) (validation : OfferValidation) (rootCutoffMs : Int) :
    Except String (Except OfferRejection Unit) := do
  let dead ← (orderedOfferLivenessDescriptors validation).findM? fun descriptor => do
    descriptor.parameters
    return !db.isLive rootCutoffMs descriptor
  return match dead with
    | none => .ok ()
    | some descriptor => .error (offerLivenessFailure descriptor)

inductive DeclaredMarker
  | commitment (commitment : String)
  | unshieldedOutput (output : UnshieldedSpendRef)
  deriving DecidableEq, Repr

/-- `declaredMarkers`. -/
def declaredMarkers (tx : OfferTransaction) : List DeclaredMarker :=
  (collectOutputCommitments tx).map .commitment ++
    (collectUnshieldedOutputs tx).map (.unshieldedOutput ·.toUnshieldedSpendRef)

def DeclaredMarker.label : DeclaredMarker → String
  | .commitment value => s!"commitment {value}"
  | .unshieldedOutput output =>
    s!"unshielded output {output.owner}/{output.intentHash}/{decimal output.outputNo}"

/-- The active offer that claims a marker. -/
def Db.claimedBy (db : Db) : DeclaredMarker → Option String
  | .commitment commitment => db.findActiveOfferByCommitment commitment
  | .unshieldedOutput output => db.findActiveOfferByUnshieldedOutput output

/-- The numbers the probe of a marker hands to its statement. -/
def DeclaredMarker.parameters : DeclaredMarker → Except String Unit
  | .commitment _ => .ok ()
  | .unshieldedOutput output => pgInteger output.outputNo

/-- The loop of marker dedup: the first marker that an active offer claims. -/
def Db.probeMarkers (db : Db) (markers : List DeclaredMarker) :
    Except String (Option DeclaredMarker) :=
  markers.findM? fun marker => do
    marker.parameters
    return (db.claimedBy marker).isSome

/-- `rejectOffer`. -/
def rejectOffer (env : NodeEnv) (ctx : BlockContext) (rawBytes : List UInt8) (code : String)
    (db : Db) : Db :=
  (db.deleteRejectedAccountingRow env.celestiaPrimitiveName ctx.blockHeight
    rawBytes).recordOfferRejection ctx.blockHeight code

/-- The expiry and the first sighting of an offer. -/
def offerTimes (env : NodeEnv) (ledger : Ledger) (ctx : BlockContext) (roots : KnownRoots)
    (result : OfferValidation) : Except String (Int × Int) := do
  let blockTime ← toISOString ctx.blockTimestamp
  let timing := roots.getOfferRootTiming result.inputRoots ctx.blockTimestamp
  let firstSeenAt ← match timing.1 with
    | none => pure blockTime
    | some firstSeenMs => expiryTimestamp "root first-seen" firstSeenMs
  let dust ← earliestDustSpendDeadline result.tx env.dustGracePeriodSeconds
  let expiry ← deriveOfferExpiry (timing.2.map (· + env.rootWindowMs))
    (ledger.earliestIntentTtl result.tx) dust (ctx.blockTimestamp + env.offerTtlSeconds * 1000)
  return (expiry, firstSeenAt)

/-- The row of an accepted offer. -/
def offerFileRow (ledger : Ledger) (ctx : BlockContext) (rawBytes : List UInt8)
    (expiresAt firstSeenAt : Int) (offerFileId : Nat) : OfferFile where
  id := offerFileId
  celestiaHeight := ctx.blockHeight
  transactionHex := ledger.encode rawBytes
  offerHash := ledger.sha256 rawBytes
  metadataCreatedAt := ctx.blockTimestamp
  metadataExpiresAt := expiresAt
  firstSeenAt := firstSeenAt
  ttlSeconds := offerLifetimeSeconds expiresAt ctx.blockTimestamp

/-- The rows of an accepted offer and of what it declares. -/
def saveOfferFile (ledger : Ledger) (ctx : BlockContext) (rawBytes : List UInt8)
    (result : OfferValidation) (expiresAt firstSeenAt : Int) (db : Db) : Except String Db := do
  let offerFileId := db.nextId
  let db := db.insertOfferFile
    (offerFileRow ledger ctx rawBytes expiresAt firstSeenAt offerFileId)
  let db := result.nullifiers.foldl (Db.insertOfferFileNullifier offerFileId) db
  let db := result.unshieldedSpends.foldl (Db.insertOfferFileUnshieldedSpend offerFileId) db
  let db := (collectOutputCommitments result.tx).foldl (Db.insertOfferFileCommitment offerFileId) db
  let db := (collectUnshieldedOutputs result.tx).foldl
    (Db.insertOfferFileUnshieldedOutput offerFileId) db
  let db ← (result.gives.map (TokenLeg.mk · .giving)).foldlM
    (Db.insertOfferFileToken offerFileId) db
  (result.wants.map (TokenLeg.mk · .wanting)).foldlM (Db.insertOfferFileToken offerFileId) db

/-- One step of the early-arrival reconciliation. -/
def reconcileNullifier (ctx : BlockContext) (state : Db × Bool) (nullifier : String) : Db × Bool :=
  let (db, archivedEarly) := state
  if db.findUnmatchedNullifier nullifier then
    ((db.archiveOfferByNullifier nullifier ctx.blockTimestamp).markNullifierMatched nullifier,
      archivedEarly || db.offerFile.any (db.competesForNullifier nullifier))
  else state

/-- The `celestia-zswap` transition. -/
def celestiaZswap (env : NodeEnv) (ledger : Ledger) (ctx : BlockContext) (rawBytes : List UInt8)
    (db : Db) : Except String Db := do
  let reject := fun code => pure (rejectOffer env ctx rawBytes code db)
  match validateZswapOfferBytes ledger env.offerMaxBytes rawBytes with
  | .error rejection => reject rejection.code.text
  | .ok result =>
    if db.hasOfferHash (ledger.sha256 rawBytes) then reject "DUPLICATE_OFFER"
    else do
      let liveness ← db.probeLiveness result (ctx.blockTimestamp - env.rootWindowMs)
      match liveness with
      | .error rejection => reject rejection.code.text
      | .ok () =>
        match verifyOfferCrypto ledger result.tx ctx.blockTimestamp with
        | .error rejection => reject rejection.code.text
        | .ok () => do
          let claimed ← db.probeMarkers (declaredMarkers result.tx)
          if claimed.isSome then reject "DUPLICATE_MARKERS"
          else do
            let (expiresAt, firstSeenAt) ← offerTimes env ledger ctx db.knownRoots result
            let indexed ← saveOfferFile ledger ctx rawBytes result expiresAt firstSeenAt db
            let (reconciled, archivedEarly) :=
              result.nullifiers.foldl (reconcileNullifier ctx) (indexed, false)
            if archivedEarly then return reconciled
            else return { reconciled with
              scheduled := reconciled.scheduled ++ [(expiresAt, db.nextId)] }

/-- `archiveOfferAtExpiry`, the `zswap-ttl-cleanup` transition. -/
def archiveOfferAtExpiry (ctx : BlockContext) (offerId : Nat) (db : Db) : Except String Db := do
  let cutoff ← expiryTimestamp "cleanup block" ctx.blockTimestamp
  return db.archiveOfferByIdTtl offerId cutoff cutoff

/-! ## Blocks -/

inductive NodeInput
  | celestiaZswap (suppliedValue : List UInt8)
  | zswapEvent (event : ZswapEvent)
  | unshieldedSpend (payload : UnshieldedPayload)
  | unshieldedCreate (payload : UnshieldedPayload)
  | zswapRoot (root : Option String)
  | ttlCleanup (offerId : Nat)

/-- `processInput`. -/
def processInput (env : NodeEnv) (ledger : Ledger) (ctx : BlockContext) (db : Db) :
    NodeInput → Except String Db
  | .celestiaZswap suppliedValue => celestiaZswap env ledger ctx suppliedValue db
  | .zswapEvent event => .ok (zswapEvent ctx event db)
  | .unshieldedSpend payload => .ok (unshieldedSpend ledger ctx payload db)
  | .unshieldedCreate payload => .ok (unshieldedCreate ledger ctx payload db)
  | .zswapRoot root => .ok (zswapRoot env ctx root db)
  | .ttlCleanup offerId => archiveOfferAtExpiry ctx offerId db

/-- The inputs of one block, by primitive. -/
structure NodeBlock extends BlockContext where
  cleanups : List Nat := []
  blobs : List (List UInt8) := []
  zswapEvents : List ZswapEvent := []
  spends : List UnshieldedPayload := []
  creates : List UnshieldedPayload := []
  roots : List (Option String) := []

/-- The order of the configured primitives, after the scheduled inputs. -/
def NodeBlock.inputs (block : NodeBlock) : List NodeInput :=
  block.cleanups.map .ttlCleanup ++ block.blobs.map .celestiaZswap ++
    block.zswapEvents.map .zswapEvent ++ block.spends.map .unshieldedSpend ++
    block.creates.map .unshieldedCreate ++ block.roots.map .zswapRoot

/-- A block is processed as a whole. -/
def processBlock (env : NodeEnv) (ledger : Ledger) (db : Db) (block : NodeBlock) :
    Except String Db :=
  block.inputs.foldlM (processInput env ledger block.toBlockContext) db

end ZswapKernel
