import ZswapKernel.Solver.Route

/-!
# The exact files of a route

`readAndReconstruct` of `packages/solver/src/swap-job-executor.ts`: the makers of a route are read
again as exact files, and each must say what the book says: the same legs, nullifiers and expiry in
the validated projection, the same legs and nullifiers in the transaction, and a shielded delta that
is its accounting. Together they must account for what the route accounts for and merge in the
order of the route.

* The read and the ledger are outside: the response, `reconstructOffer`, `deriveOfferSemantics` and
  `tokenImbalances` are parameters; an error carries the message of what they throw.
* An amount is its `BigInt` value; `expiresAt` of a verdict is its `Date.parse`, `none` for `NaN`.
-/

namespace ZswapKernel

/-- A `Map<string, bigint>`, in insertion order. -/
abbrev TokenAmounts := List (String × Int)

/-- `result.set(token, (result.get(token) ?? 0n) + amount)`. -/
def addAmount (token : String) (amount : Int) (result : TokenAmounts) : TokenAmounts :=
  BestByKey.replace (·.1) (token, Stock.amountOf result token + amount) result

/-- `new Map(entries)`. -/
def toTokenAmounts (entries : List (String × Int)) : TokenAmounts :=
  entries.foldl (fun result entry => BestByKey.replace (·.1) entry result) []

/-! ## Semantics -/

structure ExactLeg where
  token : String
  amount : Int
  kind : String
  deriving DecidableEq, Repr

structure ExactOfferSemantics where
  gives : List ExactLeg
  wants : List ExactLeg
  nullifiers : List String
  deriving DecidableEq, Repr

def LegKind.text : LegKind → String
  | .shielded => "SHIELDED"
  | .unshielded => "UNSHIELDED"

/-- `${leg.kind}:${leg.token.toLowerCase()}:${leg.amount}`. -/
def legText (kind token : String) (amount : Int) : String :=
  kind ++ ":" ++ toLowerCase token ++ ":" ++ decimal amount

/-- `values.map(…).sort().join("|")`. -/
def legsText (texts : List String) : String :=
  String.intercalate "|" (texts.insertionSort (· ≤ ·))

def ExactLeg.text (leg : ExactLeg) : String := legText leg.kind leg.token leg.amount

def LadderSourceLeg.text (leg : LadderSourceLeg) : String :=
  legText leg.kind.text leg.token leg.amount

def sameSet (left right : List String) : Bool :=
  String.intercalate "," (sortedSet (left.map toLowerCase)) =
    String.intercalate "," (sortedSet (right.map toLowerCase))

def exactSemanticsMatch (offer : BookOffer) (semantics : ExactOfferSemantics) : Bool :=
  if semantics.gives.length ≠ offer.gives.length ∨ semantics.wants.length ≠ offer.wants.length then
    false
  else
    legsText (semantics.gives.map (·.text)) = legsText (offer.gives.map (·.text)) &&
    legsText (semantics.wants.map (·.text)) = legsText (offer.wants.map (·.text)) &&
    sameSet semantics.nullifiers offer.inputNullifiers

def ExactLeg.toBalanceLeg (leg : ExactLeg) : WholeOfferBalanceLeg := ⟨leg.token, leg.amount⟩

/-- `exactSource`. -/
def exactSource (offer : BookOffer) (semantics : ExactOfferSemantics) : WholeOfferMergeSource where
  offerHash := offer.offerHash
  gives := semantics.gives.map (·.toBalanceLeg)
  wants := semantics.wants.map (·.toBalanceLeg)

/-! ## Imbalances -/

inductive ImbalanceTag
  | dust
  | shielded
  | unshielded
  deriving DecidableEq, Repr

/-- One nonzero amount of `tokenImbalances`. -/
structure Imbalance where
  seg : Nat
  tag : ImbalanceTag
  raw : String
  amount : Int
  deriving DecidableEq, Repr

/-- The loop of `aggregateTokenImbalances`. -/
def aggregateFrom (result : TokenAmounts) : List Imbalance → Refusable TokenAmounts
  | [] => .ok result
  | imbalance :: imbalances =>
    match imbalance.tag with
    | .dust => aggregateFrom result imbalances
    | .unshielded => refuse .walletFailed "solver half contains a non-shielded imbalance"
    | .shielded =>
      aggregateFrom (addAmount (toLowerCase imbalance.raw) imbalance.amount result) imbalances

/-- `aggregateTokenImbalances`: the shielded total of each token, over all segments. -/
def aggregateTokenImbalances (imbalances : List Imbalance) : Refusable TokenAmounts := do
  return (← aggregateFrom [] imbalances).filter (·.2 ≠ 0)

def balanceNetMap (balances : List WholeOfferTokenBalance) : TokenAmounts :=
  toTokenAmounts ((balances.filter (·.net ≠ 0)).map fun balance =>
    (toLowerCase balance.token, balance.net))

def receiptHalfNetMap (receipts : List WholeOfferReceipt) : TokenAmounts :=
  toTokenAmounts (receipts.map fun receipt => (toLowerCase receipt.token, -receipt.amount))

/-- `actual.get(token) === amount` for every expected entry, and no other. -/
def sameAmounts (actual expected : TokenAmounts) : Bool :=
  actual.length = expected.length &&
    expected.all fun entry => (actual.find? (·.1 = entry.1)).map (·.2) = some entry.2

/-- `errorMessage`. -/
def RouteError.message : RouteError → String
  | .refusal reason none => reason.text
  | .refusal reason (some detail) => s!"{reason.text}: {detail}"
  | .thrown message => message

/-- `aggregateTokenImbalances(readImbalances(transaction))` in a `try`. -/
def readTotals (imbalances : Except String (List Imbalance)) : Refusable TokenAmounts :=
  match imbalances with
  | .error message => .error (.thrown message)
  | .ok imbalances => aggregateTokenImbalances imbalances

/-- `assertTransactionNet`. -/
def assertTransactionNet (imbalances : Except String (List Imbalance)) (expected : TokenAmounts)
    (refusalReason : JobErrorReason) (label : String) : Refusable Unit :=
  match readTotals imbalances with
  | .error error => refuse refusalReason s!"{label} could not be inspected: {error.message}"
  | .ok actual =>
    if (actual ++ expected).any (fun entry =>
        entry.2 < -maxSettlementAmount ∨ entry.2 > maxSettlementAmount) ∨
        ¬ sameAmounts actual expected then
      refuse refusalReason s!"{label} has an unexpected shielded delta vector"
    else .ok ()

/-! ## The read -/

structure ValidatedOfferSemantics extends ExactOfferSemantics where
  expiresAt : Option Int
  deriving DecidableEq, Repr

structure OfferValidationVerdict where
  valid : Bool
  code : String
  computed : Option ValidatedOfferSemantics
  deriving DecidableEq, Repr

structure ExactFilesEntry where
  offerId : String
  verdict : OfferValidationVerdict
  offer : Option String
  deriving DecidableEq, Repr

/-- The ledger operations of the read, over its transactions. -/
structure ExactDependencies (τ : Type) where
  reconstructOffer : String → Except String τ
  deriveOfferSemantics : τ → Except String ExactOfferSemantics
  tokenImbalances : τ → Except String (List Imbalance)

/-- An accepted file: its source and its transaction. -/
structure ExactMaker (τ : Type) where
  source : WholeOfferMergeSource
  transaction : τ

/-- A callee whose exception becomes a refusal. -/
def orRefuse {α : Type} (reason : JobErrorReason) (detail : String → String) :
    Except String α → Refusable α
  | .ok a => .ok a
  | .error message => refuse reason (detail message)

section Read

variable {τ : Type} (dependencies : ExactDependencies τ)

/-- One pass of the loop over the files. -/
def readMaker (cached : BookOffer) (exact : ExactFilesEntry) : Refusable (ExactMaker τ) :=
  match exact.verdict.valid, exact.offer with
  | true, some file =>
    match exact.verdict.computed with
    | none =>
      refuse .exactFileMismatch s!"validated projection changed for {cached.offerHash}"
    | some validated =>
      if ¬ exactSemanticsMatch cached validated.toExactOfferSemantics ∨
          validated.expiresAt.isNone ∨ validated.expiresAt ≠ cached.expiresAt then
        refuse .exactFileMismatch s!"validated projection changed for {cached.offerHash}"
      else do
        let transaction ← orRefuse .exactFileMismatch (s!"deserialize failed: {·}")
          (dependencies.reconstructOffer file)
        let semantics ← orRefuse .exactFileMismatch (s!"inspection failed: {·}")
          (dependencies.deriveOfferSemantics transaction)
        if ¬ exactSemanticsMatch cached semantics then refuse .exactFileMismatch cached.offerHash
        else
          let source := exactSource cached semantics
          let sourceBalances ←
            orThrown (accountWholeOfferBalances [source.toWholeOfferBalanceSource])
          assertTransactionNet (dependencies.tokenImbalances transaction)
            (balanceNetMap sourceBalances) .exactFileMismatch s!"exact maker {cached.offerHash}"
          return ⟨source, transaction⟩
  | _, _ => refuse .exactFileRefused exact.verdict.code

/-- The loop over the files. -/
def readMakers (route : ResolvedRoute) (files : List ExactFilesEntry) :
    Refusable (List (ExactMaker τ)) :=
  (route.offers.zip files).mapM fun (cached, exact) => readMaker dependencies cached exact

/-- The accounting of the makers and their merge order are those of the route. -/
def requireSameRoute (route : ResolvedRoute) (sources : List WholeOfferMergeSource) :
    Refusable Unit := do
  let exactBalances ←
    orThrown (accountWholeOfferBalances (sources.map (·.toWholeOfferBalanceSource)))
  let exact ← orThrown (serializeWholeOfferTokenBalances exactBalances)
  let planned ← orThrown (serializeWholeOfferTokenBalances route.tokenBalances)
  if exact ≠ planned then refuse .exactFileMismatch "exact maker accounting changed"
  else
    match ← orThrown (findSafeWholeOfferMergeOrder sources {} 0) with
    | (.failed _ _, _) => refuse .exactFileMismatch "exact maker merge order changed"
    | (.found offerHashes _ _, _) =>
      if offerHashes ≠ route.mergeOrder then
        refuse .exactFileMismatch "exact maker merge order changed"
      else .ok ()

/-- `readAndReconstruct`: the transactions of the makers, in the merge order. -/
def readAndReconstruct (route : ResolvedRoute)
    (response : Except String (List ExactFilesEntry)) : Refusable (List τ) := do
  let files ← orRefuse .exactFilesUnavailable id response
  if files.length ≠ route.offers.length ∨
      files.map (·.offerId) ≠ route.offers.map (·.offerHash) then
    refuse .exactFileMismatch "response does not match the requested route"
  else
    let makers ← readMakers dependencies route files
    requireSameRoute route (makers.map (·.source))
    route.mergeOrder.mapM fun offerHash =>
      match makers.find? (·.source.offerHash = offerHash) with
      | none => refuse .exactFileMismatch s!"missing exact maker {offerHash}"
      | some maker => .ok maker.transaction

end Read

end ZswapKernel
