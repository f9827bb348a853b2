import ZswapKernel.Solver.Stock
import ZswapKernel.SolverCore.LadderRerun

/-!
# The route of a job

`resolveSwapJobRoute` of `packages/solver/src/swap-job-executor.ts`: the combination of maker offers
the current derivation implies for one job, checked against the book, accounted again, planned again
and claimed.

The function is synchronous, so `cache.isCurrent` and `options.shouldAbort` have one answer
throughout. An error is a `JobRefusal` with its reason and detail, or another exception.
-/

namespace ZswapKernel

structure SwapMessage where
  jobId : String
  tokenIn : String
  tokenOut : String
  amountIn : String
  amountOut : String
  deriving DecidableEq, Repr

/-- The `reason` of a `job-error`. -/
inductive JobErrorReason
  | atCapacity
  | duplicate
  | cacheNotCurrent
  | routeNotCurrent
  | routeUnavailable
  | exactFilesUnavailable
  | exactFileRefused
  | exactFileMismatch
  | walletFailed
  | walletTimeout
  | reconciling
  | pairUnsupported
  | minOutput
  | dustPerJob
  | dustWindow
  | dustEstimate
  deriving DecidableEq, Repr

def JobErrorReason.text : JobErrorReason → String
  | .atCapacity => "solver_at_capacity"
  | .duplicate => "duplicate_job_id"
  | .cacheNotCurrent => "book_cache_not_current"
  | .routeNotCurrent => "route_not_current"
  | .routeUnavailable => "route_unavailable"
  | .exactFilesUnavailable => "exact_files_unavailable"
  | .exactFileRefused => "exact_file_refused"
  | .exactFileMismatch => "exact_file_mismatch"
  | .walletFailed => "wallet_build_failed"
  | .walletTimeout => "wallet_build_timeout"
  | .reconciling => "journal_reconciliation_in_progress"
  | .pairUnsupported => "pair_not_supported"
  | .minOutput => "minimum_output_not_met"
  | .dustPerJob => "dust_per_job_limit"
  | .dustWindow => "dust_window_exhausted"
  | .dustEstimate => "dust_estimate_unavailable"

inductive RouteError
  | refusal (reason : JobErrorReason) (detail : Option String)
  | thrown (message : String)
  deriving DecidableEq, Repr

abbrev Refusable (α : Type) := Except RouteError α

/-- `throw new JobRefusal(reason, detail)`. -/
def refuse {α : Type} (reason : JobErrorReason) (detail : String) : Refusable α :=
  .error (.refusal reason (some detail))

/-- An exception of a callee that the caller does not catch. -/
def orThrown {α : Type} : Except String α → Refusable α
  | .ok a => .ok a
  | .error message => .error (.thrown message)

structure SwapJobCache where
  book : Book
  isCurrent : Bool

structure RouteOptions extends JobAdmissionPolicy where
  nowMs : Int
  expiryMarginSeconds : Int
  unavailableOfferHashes : List String
  resourceLimits : Option LadderResourceLimitControls := none
  freshNowMs : Option Int := none
  shouldAbort : Option Bool := none

structure ResolvedRoute where
  offers : List BookOffer
  tokenBalances : List WholeOfferTokenBalance
  receipts : List WholeOfferReceipt
  mergeOrder : List String
  claim : Claim
  deriving DecidableEq, Repr

def maxExactFilesPerRead : Nat := 8

/-! ## The derivation both sides make -/

/-- `!cache.isCurrent() || options.shouldAbort?.() === true`. -/
def SwapJobCache.cancelled (cache : SwapJobCache) (shouldAbort : Option Bool) : Bool :=
  !cache.isCurrent || shouldAbort = some true

/-- The options with which the publisher and the executor derive a ladder, up to the resolution of
the limits. -/
def RouteOptions.derivation (options : RouteOptions) (cache : SwapJobCache)
    (resourceLimits : Option LadderResourceLimitControls) : DeriveLadderOptions where
  supportedPairs := options.supportedPairs
  minJobOutput := options.minJobOutput
  nowMs := options.nowMs
  expiryMarginSeconds := options.expiryMarginSeconds
  unavailableOfferHashes := options.unavailableOfferHashes
  resourceLimits := resourceLimits
  shouldAbort := some fun _ => .ok (cache.cancelled options.shouldAbort)


/-- `book.all()` as the derivation reads it. -/
def Book.sources (book : Book) : List LadderSourceOffer :=
  book.all.map (·.toLadderSourceOffer)

/-! ## The checks of a job -/

/-- `requireCanonicalJob`. -/
def requireCanonicalJob (job : SwapMessage) : Refusable Unit :=
  let amountIn := bigInt job.amountIn
  let amountOut := bigInt job.amountOut
  if !hex64 job.tokenIn || !hex64 job.tokenOut then
    refuse .routeNotCurrent "token ids must be 64-hex"
  else if toLowerCase job.tokenIn = toLowerCase job.tokenOut then
    refuse .routeNotCurrent "token ids must be distinct"
  else if amountIn ≤ 0 ∨ amountOut ≤ 0 ∨ amountIn > maxSettlementAmount ∨
      amountOut > maxSettlementAmount then
    refuse .routeNotCurrent
      "amount is outside the supported ledger-v8 signed-delta settlement domain"
  else .ok ()

/-- The admission policy, at admission. -/
def requireAdmitted (job : SwapMessage) (policy : JobAdmissionPolicy) : Refusable Unit :=
  if policy.refusesPair (toLowerCase job.tokenIn) (toLowerCase job.tokenOut) then
    .error (.refusal .pairUnsupported none)
  else if policy.minJobOutput.isSome ∧
      (policy.minimum (toLowerCase job.tokenOut)).all (bigInt job.amountOut < ·) then
    .error (.refusal .minOutput none)
  else .ok ()

/-- The offer left its expiry margin between the two clock readings. -/
def BookOffer.expiredDuring (offer : BookOffer) (options : RouteOptions) (freshNow : Int) : Bool :=
  match offer.expiresAt with
  | none => false
  | some expiresAt =>
    let expiry := expiresAt - options.expiryMarginSeconds * 1000
    decide (expiry > options.nowMs ∧ expiry ≤ freshNow)

/-- The canonical derivation and the checks around it. -/
def deriveCurrent (comparisons : List CombinationState → Nat) (cache : SwapJobCache)
    (options : RouteOptions) : Refusable DerivedLadder :=
  match resolveLadderResourceLimits options.resourceLimits with
  | .error _ => refuse .routeNotCurrent "canonical derivation source/resource bound exceeded"
  | .ok limits =>
    if cache.book.size > limits.maxSourceOffers then
      refuse .routeNotCurrent "canonical derivation source/resource bound exceeded"
    else do
      let sourceOffers := cache.book.all
      let derived ← orThrown (deriveLadder comparisons cache.book.sources
        (options.derivation cache (some limits.controls)))
      let freshNow := options.freshNowMs.getD options.nowMs
      if cache.cancelled options.shouldAbort then .error (.refusal .cacheNotCurrent none)
      else if cache.book.size ≠ sourceOffers.length ∨ sourceOffers.any (fun offer =>
          cache.book.get offer.offerHash ≠ some offer || offer.expiredDuring options freshNow) then
        refuse .routeNotCurrent "book changed or expired during derivation"
      else .ok derived

/-- `matchingPair`. -/
def matchingPair (derived : DerivedLadder) (job : SwapMessage) :
    Option (PriceLevelsPair × LadderPairProvenance) :=
  (derived.levels.zip derived.provenance).find? fun entry =>
    entry.1.tokenIn = toLowerCase job.tokenIn && entry.1.tokenOut = toLowerCase job.tokenOut

/-- The admission test against the published curve: `0 < amountOut ≤ quoted`. -/
def requireQuoted (pair : PriceLevelsPair) (job : SwapMessage) : Refusable Int :=
  match RelayWsContract.interpolateQuote pair.levels (bigInt job.amountIn) with
  | none => refuse .routeNotCurrent "size is outside the current ladder"
  | some quoted =>
    if bigInt job.amountOut > quoted then
      refuse .routeNotCurrent s!"current output is {quoted}"
    else .ok quoted

/-- `combinations.findLast(…)` and the checks on the combination it finds. -/
def findWitness (derived : DerivedLadder) (provenance : LadderPairProvenance) (amountIn : Int) :
    Refusable LadderCombinationProvenance :=
  match provenance.combinations.reverse.find? (bigInt ·.input ≤ amountIn) with
  | none => refuse .routeNotCurrent "missing or invalid complete-offer witness"
  | some witness =>
    if witness.offerHashes.length = 0 ∨ witness.offerHashes.length > maxExactFilesPerRead ∨
        witness.offerHashes.length > derived.limits.maxMakersPerCombination ∨
        ¬ witness.offerHashes.Nodup then
      refuse .routeNotCurrent "missing or invalid complete-offer witness"
    else .ok witness

/-- `snapshotOffer`. -/
def snapshotOffer (offer : BookOffer) : BookOffer := { offer with blob := none }

/-- The offers of the witness, by hash. -/
def routeOffers (book : Book) (witness : LadderCombinationProvenance) :
    Refusable (List BookOffer) :=
  (witness.offerHashes.insertionSort (· ≤ ·)).mapM fun hash =>
    match book.get hash with
    | none => refuse .routeNotCurrent "route offer disappeared"
    | some offer => .ok (snapshotOffer offer)

/-- The maker is a single shielded leg each way, with positive amounts. -/
def matchesWitnessTerms (offer : BookOffer) : Bool :=
  match offer.gives, offer.wants with
  | [give], [want] =>
    give.kind = .shielded && want.kind = .shielded && 0 < give.amount && 0 < want.amount
  | _, _ => false

/-- The accounting of the offers, which must be the recorded one. -/
def routeBalances (offers : List BookOffer) (witness : LadderCombinationProvenance) :
    Refusable (List WholeOfferTokenBalance) :=
  match accountWholeOfferBalances
    (offers.map fun offer => offer.mergeSource.toWholeOfferBalanceSource) with
  | .error message => refuse .routeNotCurrent s!"invalid maker accounting: {message}"
  | .ok tokenBalances => do
    let serialized ← orThrown (serializeWholeOfferTokenBalances tokenBalances)
    if serialized ≠ witness.tokenBalances then
      refuse .routeNotCurrent "current maker accounting differs from the witness"
    else .ok tokenBalances

/-- The trade of a job. -/
def SwapMessage.trade (job : SwapMessage) : WholeOfferTrade :=
  ⟨toLowerCase job.tokenIn, toLowerCase job.tokenOut, bigInt job.amountIn, bigInt job.amountOut⟩

/-- The receipts of the job, backed by the makers to the quoted output. -/
def routeReceipts (job : SwapMessage) (quoted : Int) (witness : LadderCombinationProvenance)
    (tokenBalances : List WholeOfferTokenBalance) : Refusable (List WholeOfferReceipt) := do
  match ← orThrown (buildWholeOfferReceipts tokenBalances job.trade) with
  | .error _ => refuse .routeNotCurrent "complete maker totals do not back the exact job"
  | .ok result =>
    if result.requiredInput ≠ bigInt witness.input ∨ result.availableOutput ≠ bigInt witness.output ∨
        result.availableOutput ≠ quoted then
      refuse .routeNotCurrent "complete maker totals do not back the exact job"
    else .ok result.receipts

def MergeOrderFailureReason.text : MergeOrderFailureReason → String
  | .tooManySources => "too-many-sources"
  | .unsafeMergeOrder => "unsafe-merge-order"
  | .mergeOrderWorkCap => "merge-order-work-cap"
  | .interrupted .aborted => "aborted"
  | .interrupted .abortCheckFailed => "abort-check-failed"

/-- The planner's options at admission. -/
def routeMergeOptions (limits : LadderResourceLimits) : WholeOfferMergeOrderOptions where
  maxSources := some limits.maxMakersPerCombination
  maxWork := some (min maxSafeMergeOrderWork limits.maxDiscoveryWork : Nat)

/-- The merge order, under the limits of the derivation. -/
def routeMergeOrder (offers : List BookOffer) (limits : LadderResourceLimits) :
    Refusable (List String) := do
  match ← orThrown (findSafeWholeOfferMergeOrder (offers.map (·.mergeSource))
    (routeMergeOptions limits) 0) with
  | (.failed reason _, _) =>
    refuse .routeNotCurrent s!"maker merge order is unavailable: {reason.text}"
  | (.found offerHashes _ _, _) => .ok offerHashes

/-- `resolveSwapJobRoute`: the route and the stock with its claim. -/
def resolveSwapJobRoute (comparisons : List CombinationState → Nat) (job : SwapMessage)
    (cache : SwapJobCache) (stock : Stock) (options : RouteOptions) :
    Refusable (ResolvedRoute × Stock) := do
  requireCanonicalJob job
  if !cache.isCurrent then .error (.refusal .cacheNotCurrent none)
  else
    requireAdmitted job options.toJobAdmissionPolicy
    let derived ← deriveCurrent comparisons cache options
    match matchingPair derived job with
    | none => refuse .routeNotCurrent "directed pair is absent"
    | some (pair, provenance) =>
      let quoted ← requireQuoted pair job
      let witness ← findWitness derived provenance (bigInt job.amountIn)
      let offers ← routeOffers cache.book witness
      if !offers.all matchesWitnessTerms then
        refuse .routeNotCurrent "maker terms no longer match the witness"
      else
        let tokenBalances ← routeBalances offers witness
        let receipts ← routeReceipts job quoted witness tokenBalances
        let mergeOrder ← routeMergeOrder offers derived.limits
        let claim := claimFor offers []
        match stock.reserve claim with
        | (false, _) => refuse .routeUnavailable "route is already claimed"
        | (true, stock) => .ok (⟨offers, tokenBalances, receipts, mergeOrder, claim⟩, stock)

end ZswapKernel
