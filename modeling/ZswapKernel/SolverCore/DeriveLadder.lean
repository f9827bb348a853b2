import ZswapKernel.SolverCore.Frontier

/-!
# `deriveLadder`

The driver of `packages/solver-core/ladder-derivation.ts`: eligibility, the discovery graph, the
pair loop over the cached universes and the final assembly.

* `Derivation` is what the closures of `deriveLadder` mutate. `DerivationExit` is an early return,
  the `exclusionScanStop` symbol, or an exception.
* A run of `charge()` calls with nothing between them but additions to a local collection, which is
  discarded when one of them stops, is one `charge` of as many units.
* `pairExclusionKeys` holds the keys of `excluded`, so membership is read off `excluded`.
-/

namespace ZswapKernel

structure LadderPairProvenance where
  tokenIn : String
  tokenOut : String
  combinations : List LadderCombinationProvenance
  terminalInput : String
  nominalTerminalInput : String
  capReasons : List LadderTerminalCapReason
  deriving DecidableEq, Repr

/-- An entry of `levels` and the entry of `provenance` pushed with it. -/
structure Publication where
  pair : PriceLevelsPair
  provenance : LadderPairProvenance
  deriving DecidableEq, Repr

structure DerivedLadder where
  levels : List PriceLevelsPair
  tokenIds : List String
  provenance : List LadderPairProvenance
  excluded : List LadderExclusion
  limits : LadderResourceLimits
  diagnostics : LadderDerivationDiagnostics
  deriving DecidableEq, Repr

def emptyDerived (limits : LadderResourceLimits) (diagnostics : LadderDerivationDiagnostics)
    (excluded : List LadderExclusion := []) : DerivedLadder :=
  ⟨[], [], [], excluded, limits, diagnostics⟩

/-- A cached universe. -/
structure Universe where
  offers : List Crossable
  outputs : List String
  deriving DecidableEq, Repr

structure Derivation where
  work : Work
  published : List Publication := []
  universes : List (Nat × Universe) := []
  deriving DecidableEq, Repr

inductive DerivationExit
  | returned
  | exclusionScanStop
  | thrown (message : String)
  deriving DecidableEq, Repr

abbrev Derive (α : Type) := Program Derivation DerivationExit α

/-! ## Meters and diagnostics -/

/-- Run a budgeted stage on the shared meters and hand its stop to the caller. -/
def Derive.metered {α : Type} (stage : Budgeted α) : Derive (Except BudgetStop α) :=
  fun s => match stage.outcome s.work with
    | (result, work) => (.ok result, { s with work })

/-- `abortReason(options.shouldAbort)`. -/
def Derive.poll (budget : Budget) : Derive (Option AbortReason) :=
  fun s => match budget.poll s.work with
    | (reason, work) => (.ok reason, { s with work })

/-- `globalStop = stop; diagnostics.stopReason = stop`. -/
def Work.stopped (work : Work) (stop : GlobalStop) : Work :=
  { work with
    globalStop := some stop
    diagnostics := { work.diagnostics with stopReason := some stop.stopReason } }

def Derive.setStop (stop : GlobalStop) : Derive Unit :=
  modify fun s => { s with work := s.work.stopped stop }

/-- Change the last entry of `diagnostics.pairs`. -/
def updateLast (f : LadderPairDiagnostic → LadderPairDiagnostic) :
    List LadderPairDiagnostic → List LadderPairDiagnostic
  | [] => []
  | [last] => [f last]
  | pair :: pairs => pair :: updateLast f pairs

def Work.updatePair (work : Work) (f : LadderPairDiagnostic → LadderPairDiagnostic) : Work :=
  { work with
    diagnostics := { work.diagnostics with pairs := updateLast f work.diagnostics.pairs } }

def Derive.updatePair (f : LadderPairDiagnostic → LadderPairDiagnostic) : Derive Unit :=
  modify fun s => { s with work := s.work.updatePair f }

def Derive.setReason (reason : LadderExclusionReason) : Derive Unit :=
  Derive.updatePair fun pair => { pair with reason := some reason }

/-! ## Exclusions -/

/-- `addPairExclusion`: once for each hash and reason. -/
def Work.addExclusion (work : Work) (entry : LadderExclusion) : Work :=
  if work.excluded.any fun known =>
    known.offerHash = entry.offerHash ∧ known.reason = entry.reason then work
  else { work with excluded := work.excluded ++ [entry] }

/-- The scan of `addPairExclusions`; a stop that is not already a cancellation becomes the global
one. -/
def scanExclusions (budget : Budget) (reason : LadderExclusionReason)
    (detail : Option LadderRejection) : List Crossable → Derive Unit
  | [] => pure ()
  | offer :: bucket => do
    match ← Derive.metered budget.charge with
    | .error stop =>
      if ¬ isAbort (← get).work.globalStop then Derive.setStop stop.global
      throw .exclusionScanStop
    | .ok _ =>
      modify fun s => { s with work := s.work.addExclusion ⟨offer.offerHash, reason, detail⟩ }
      scanExclusions budget reason detail bucket

/-- `addPairExclusions`: a universe is scanned once for each reason. -/
def addPairExclusions (budget : Budget) (id : BucketId) (bucket : List Crossable)
    (reason : LadderExclusionReason) (detail : Option LadderRejection := none) : Derive Unit := do
  if (id, reason) ∈ (← get).work.excludedUniverses then return
  scanExclusions budget reason detail bucket
  modify fun s => { s with
    work := { s.work with excludedUniverses := (id, reason) :: s.work.excludedUniverses } }

/-! ## The universes -/

/-- A stage before the pair loop: a stop excludes the whole retained book and returns. -/
def orReturn {α : Type} (budget : Budget) (retained : List Crossable) (stage : Budgeted α) :
    Derive α := do
  match ← Derive.metered stage with
  | .ok value => return value
  | .error stop =>
    Derive.setStop stop.global
    addPairExclusions budget .retained retained stop.exclusion
    throw .returned

/-- The components an input of `component` may use: its own and every cyclic one. -/
def includedComponents (graph : DiscoveryGraph) (component : DiscoveryComponent) :
    List DiscoveryComponent :=
  let cyclicComponents := graph.components.filter (·.cyclic)
  if component.cyclic then cyclicComponents else component :: cyclicComponents

/-- The retained offers whose input token lies in an included component. -/
def universeOffers (graph : DiscoveryGraph) (retained : List Crossable)
    (component : DiscoveryComponent) : List Crossable :=
  let roots := (includedComponents graph component).map (·.root)
  retained.filter fun offer =>
    (graph.componentOf offer.tokenIn).any fun component => roots.contains component.root

/-- The budgeted part of `universeFor`. -/
def buildUniverse (budget : Budget) (graph : DiscoveryGraph) (retained : List Crossable)
    (component : DiscoveryComponent) : Budgeted Universe := do
  budget.charge (includedComponents graph component).length
  budget.charge retained.length
  let offers := universeOffers graph retained component
  let outputs := sortedSet (offers.map (·.tokenOut))
  budget.chargeSort outputs.length
  return ⟨offers, outputs⟩

/-- `universeFor`, with the cache keyed by the root of the component. -/
def universeFor (budget : Budget) (graph : DiscoveryGraph) (retained : List Crossable)
    (component : DiscoveryComponent) : Derive (Except BudgetStop Universe) := do
  match (← get).universes.find? (·.1 = component.root) with
  | some (_, cachedUniverse) => return .ok cachedUniverse
  | none =>
    match ← Derive.metered (buildUniverse budget graph retained component) with
    | .error stop => return .error stop
    | .ok cachedUniverse =>
      modify fun s => { s with universes := (component.root, cachedUniverse) :: s.universes }
      return .ok cachedUniverse

/-! ## One pair -/

/-- Where a pass through the pair loop leaves it. -/
inductive PairFlow
  | next
  | breakPairDiscovery
  deriving DecidableEq, Repr

/-- What one pass through the pair loop reads. -/
structure PairContext where
  budget : Budget
  comparisons : List CombinationState → Nat
  policy : JobAdmissionPolicy
  tokenAt : List String
  root : Nat
  cachedUniverse : Universe
  tokenIn : String
  tokenOut : String

namespace PairContext

/-- `addPairExclusions(bucket, reason, detail)`. -/
def exclude (ctx : PairContext) (reason : LadderExclusionReason)
    (detail : Option LadderRejection := none) : Derive Unit :=
  addPairExclusions ctx.budget (.universeOf ctx.root) ctx.cachedUniverse.offers reason detail

/-- `diagnostic.reason = reason; addPairExclusions(bucket, reason); continue`. -/
def withhold (ctx : PairContext) (reason : LadderExclusionReason)
    (detail : Option LadderRejection := none) : Derive PairFlow := do
  Derive.setReason reason
  ctx.exclude reason detail
  return .next

/-- A global stop of the pair: every later pair is left out too. -/
def stopDiscovery (ctx : PairContext) (stop : GlobalStop) : Derive PairFlow := do
  Derive.setStop stop
  Derive.setReason stop.exclusion
  ctx.exclude stop.exclusion
  return .breakPairDiscovery

/-- `abortReason`, and the rest of the pass when it does not stop. -/
def unlessAborted (ctx : PairContext) (rest : Derive PairFlow) : Derive PairFlow := do
  match ← Derive.poll ctx.budget with
  | some reason => ctx.stopDiscovery (.abort reason)
  | none => rest

/-- After a truncated publication: the offers no combination uses are excluded. -/
def excludeUnused (ctx : PairContext) (used : List String)
    (truncationReasons : List LadderTerminalCapReason) : List Crossable → Derive Unit
  | [] => pure ()
  | offer :: bucket => do
    match ← Derive.metered ctx.budget.charge with
    | .error stop =>
      Derive.setStop stop.global
      throw .exclusionScanStop
    | .ok _ =>
      if !used.contains offer.offerHash then
        truncationReasons.forM fun reason => modify fun s => { s with
          work := s.work.addExclusion ⟨offer.offerHash, reason.exclusion, none⟩ }
      excludeUnused ctx used truncationReasons bucket

def provenanceOf (ctx : PairContext) (encoded : EncodedFrontier) : LadderPairProvenance :=
  ⟨ctx.tokenIn, ctx.tokenOut, encoded.combinations, decimal encoded.terminalInput,
    decimal encoded.nominalTerminalInput, encoded.capReasons⟩

/-- The end of a pass: the pair is checked by both schemas and published. -/
def publishPair (ctx : PairContext) (frontierLength : Nat) (encoded : EncodedFrontier)
    (truncationReasons : List LadderTerminalCapReason) : Derive PairFlow := do
  let pair : PriceLevelsPair := ⟨ctx.tokenIn, ctx.tokenOut, encoded.levels⟩
  let rejection := LadderSchema.rejectPair pair
  if rejection.isSome ∨ ¬ RelayWsContract.isPriceLevelsPair pair then
    ctx.withhold .invalidPair rejection
  else
    let publication : Publication := ⟨pair, ctx.provenanceOf encoded⟩
    modify fun s => { s with published := s.published ++ [publication] }
    Derive.updatePair fun diagnostic => { diagnostic with
      published := true
      frontierCombinations := encoded.combinations.length
      wirePoints := encoded.levels.length }
    if encoded.combinations.length < frontierLength then
      ctx.excludeUnused (encoded.combinations.flatMap (·.offerHashes)) truncationReasons
        ctx.cachedUniverse.offers
    return .next

/-- The reason a pair with no admissible frontier is withheld. -/
def emptyFrontierReason (search : PairSearch) : LadderExclusionReason :=
  if search.amountCappedSubsets > 0 then .settlementAmountCap
  else if search.unsafeMergeOrderSubsets > 0 then .unsafeMergeOrder
  else .minimumOutput

/-- From the exact witnesses to the published pair. -/
def encodePair (ctx : PairContext) (search : PairSearch) : Derive PairFlow := do
  match ← Derive.metered (bestOutputFrontier ctx.budget ctx.comparisons search.exact) with
  | .error stop => ctx.stopDiscovery stop.global
  | .ok frontier =>
    let frontier := admittedFrontier (ctx.policy.minimum ctx.tokenOut) frontier
    if frontier.isEmpty then ctx.withhold (emptyFrontierReason search)
    else
      match longestEncodableFrontier frontier ctx.budget.limits.maxWirePointsPerPair ctx.tokenIn
        ctx.tokenOut with
      | .error message => throw (.thrown message)
      | .ok ⟨none, truncationReasons⟩ =>
        match truncationReasons.head? with
        | none => pure ()
        | some reason => Derive.setReason reason.exclusion
        truncationReasons.forM fun reason => ctx.exclude reason.exclusion
        return .next
      | .ok ⟨some encoded, truncationReasons⟩ =>
        ctx.unlessAborted (ctx.publishPair frontier.length encoded truncationReasons)

end PairContext

/-- The stops of a pair search that end the discovery. -/
def SearchReason.global : SearchReason → Option GlobalStop
  | .globalSearchCap => some .globalSearchCap
  | .discoveryWorkCap => some .discoveryWorkCap
  | .abort reason => some (.abort reason)
  | .pairSearchCap => none
  | .mergeOrderWorkCap => none

def SearchReason.exclusion : SearchReason → LadderExclusionReason
  | .pairSearchCap => .pairSearchCap
  | .globalSearchCap => .globalSearchCap
  | .discoveryWorkCap => .discoveryWorkCap
  | .mergeOrderWorkCap => .mergeOrderWorkCap
  | .abort reason => reason.exclusion

/-- The counters of a finished search. -/
def PairSearch.record (search : PairSearch) (work : Work) : Work :=
  let work := { work with
    diagnostics := { work.diagnostics with
      peakStoredExactInputs := max work.diagnostics.peakStoredExactInputs search.exact.length } }
  work.updatePair fun pair => { pair with
    visitedSubsets := search.visitedSubsets
    storedExactInputs := search.exact.length
    amountCappedSubsets := search.amountCappedSubsets
    safeMergeOrderWork := search.safeMergeOrderWork }

namespace PairContext

/-- Search the pair's universe, then encode what it found. -/
def searchPair (ctx : PairContext) : Derive PairFlow := do
  let search := enumeratePair ctx.budget ctx.cachedUniverse.offers ctx.tokenIn ctx.tokenOut
    ctx.tokenAt (← get).work
  modify fun s => { s with work := search.work }
  match search.stop with
  | some (.thrown message) => throw (.thrown message)
  | some (.reason reason) =>
    modify fun s => { s with work := search.record s.work }
    match reason.global with
    | some stop => ctx.stopDiscovery stop
    | none => ctx.withhold reason.exclusion
  | none =>
    modify fun s => { s with work := search.record s.work }
    ctx.unlessAborted (ctx.encodePair search)

/-- The body of the pair's `try`. -/
def examinePair (ctx : PairContext) : Derive PairFlow := do
  if ctx.budget.limits.maxPairs ≤ (← get).published.length then ctx.withhold .pairCap
  else if ctx.policy.refusesPair ctx.tokenIn ctx.tokenOut then ctx.withhold .unsupportedPair
  else if ctx.policy.lacksMinimum ctx.tokenOut then ctx.withhold .minimumOutput
  else ctx.unlessAborted ctx.searchPair

/-- The diagnostic pushed for a pair. -/
def diagnostic (ctx : PairContext) : LadderPairDiagnostic :=
  ⟨ctx.tokenIn, ctx.tokenOut, false, none, ctx.cachedUniverse.offers.length, 0, 0, 0, 0, 0, 0,
    0⟩

/-- One pass through the inner pair loop. -/
def pass (ctx : PairContext) : Derive PairFlow := do
  if ctx.tokenOut = ctx.tokenIn then return .next
  let s ← get
  if ctx.budget.limits.maxCandidatePairs ≤ s.work.diagnostics.candidatePairsExamined then
    Derive.setStop .candidatePairCap
    return .breakPairDiscovery
  let pairWorkStart := s.work.diagnostics.discoveryWork
  match ← Derive.metered ctx.budget.charge with
  | .error stop =>
    Derive.setStop stop.global
    return .breakPairDiscovery
  | .ok _ =>
    modify fun s => { s with work := { s.work with
      diagnostics := { s.work.diagnostics with
        candidatePairsExamined := s.work.diagnostics.candidatePairsExamined + 1
        pairs := s.work.diagnostics.pairs ++ [ctx.diagnostic] } } }
    ctx.examinePair.ensuring fun s => { s with work := s.work.updatePair fun pair =>
      { pair with discoveryWork := s.work.diagnostics.discoveryWork - pairWorkStart } }

end PairContext

/-! ## The pair loop -/

/-- What the pair loop reads. -/
structure DiscoveryContext where
  budget : Budget
  comparisons : List CombinationState → Nat
  policy : JobAdmissionPolicy
  graph : DiscoveryGraph
  retained : List Crossable

namespace DiscoveryContext

def pairContext (ctx : DiscoveryContext) (tokenIn : String) (root : Nat)
    (cachedUniverse : Universe) (tokenOut : String) : PairContext where
  budget := ctx.budget
  comparisons := ctx.comparisons
  policy := ctx.policy
  tokenAt := ctx.graph.tokenAt
  root := root
  cachedUniverse := cachedUniverse
  tokenIn := tokenIn
  tokenOut := tokenOut

/-- The loop over `universe.outputs`. -/
def examineOutputs (pairContext : String → PairContext) : List String → Derive PairFlow
  | [] => return .next
  | tokenOut :: outputs => do
    match ← (pairContext tokenOut).pass with
    | .breakPairDiscovery => return .breakPairDiscovery
    | .next => examineOutputs pairContext outputs

/-- The loop over `wantedTokens`. -/
def pairDiscovery (ctx : DiscoveryContext) : List String → Derive Unit
  | [] => pure ()
  | tokenIn :: wantedTokens => do
    match ctx.graph.componentOf tokenIn with
    | none => throw (.thrown "undefined component")
    | some component =>
      match ← universeFor ctx.budget ctx.graph ctx.retained component with
      | .error stop => Derive.setStop stop.global
      | .ok cachedUniverse =>
        match ← examineOutputs (ctx.pairContext tokenIn component.root cachedUniverse)
          cachedUniverse.outputs with
        | .breakPairDiscovery => pure ()
        | .next => pairDiscovery ctx wantedTokens

end DiscoveryContext

/-- The `try` of `deriveLadder`. -/
def discoverPairs (budget : Budget) (comparisons : List CombinationState → Nat)
    (policy : JobAdmissionPolicy) (retained : List Crossable) : Derive Unit := do
  let graph ← orReturn budget retained (buildDiscoveryGraph budget retained)
  orReturn budget retained (budget.charge graph.components.length)
  orReturn budget retained (budget.charge retained.length)
  let wantedTokens := sortedSet (retained.map (·.tokenIn))
  orReturn budget retained (budget.chargeSort wantedTokens.length)
  DiscoveryContext.pairDiscovery ⟨budget, comparisons, policy, graph, retained⟩ wantedTokens

/-! ## Assembly -/

/-- `excluded.push({ offerHash: excludedHash(offer), reason })`. -/
def excludeOffer (offer : LadderSourceOffer) (reason : LadderExclusionReason) :
    Program Work Unit Unit :=
  modify fun work => { work with excluded := work.excluded ++ [⟨excludedHash offer, reason, none⟩] }

/-- `diagnostics.stopReason = …`, the exclusion of the current offer and the early return. -/
def stopScan {α : Type} (offer : LadderSourceOffer) (stopReason : LadderDerivationStopReason)
    (reason : LadderExclusionReason) : Program Work Unit α := do
  modify fun work =>
    { work with diagnostics := { work.diagnostics with stopReason := some stopReason } }
  excludeOffer offer reason
  throw ()

/-- The scan of the source offers; it throws where `deriveLadder` returns an empty ladder. -/
def scanOffers (budget : Budget) (options : DeriveLadderOptions) (unavailable : List String) :
    List LadderSourceOffer → Program Work Unit (List Crossable)
  | [] => pure []
  | offer :: offers => do
    modify fun work => { work with diagnostics :=
      { work.diagnostics with sourceOffersScanned := work.diagnostics.sourceOffersScanned + 1 } }
    if budget.limits.maxSourceOffers < (← get).diagnostics.sourceOffersScanned then
      stopScan offer .sourceOfferCap .sourceOfferCap
    else
      let (stopped, work) := budget.poll (← get)
      set work
      match stopped with
      | some reason => stopScan offer (GlobalStop.abort reason).stopReason reason.exclusion
      | none =>
        match toCrossable offer options.nowMs options.expiryMarginSeconds unavailable with
        | .error reason =>
          excludeOffer offer reason
          scanOffers budget options unavailable offers
        | .ok crossable => return crossable :: (← scanOffers budget options unavailable offers)

/-- The `catch` of `deriveLadder`: the pair being examined takes the global stop as its reason. -/
def Work.noteScanStop (work : Work) : Work :=
  work.updatePair fun pair =>
    if pair.published then pair else { pair with reason := work.globalStop.map (·.exclusion) }

/-- Withdraw a published pair. -/
def LadderPairDiagnostic.withdraw (reason : LadderExclusionReason) (pair : LadderPairDiagnostic) :
    LadderPairDiagnostic :=
  if pair.published then { pair with
    published := false, reason := some reason, frontierCombinations := 0, wirePoints := 0 }
  else pair

/-- Cancellation invalidates the whole snapshot, completed pairs included. -/
def cancel (budget : Budget) (retained : List Crossable) (s : Derivation) : Derivation :=
  match s.work.globalStop with
  | some (.abort reason) =>
    let diagnostics := { s.work.diagnostics with
      pairs := s.work.diagnostics.pairs.map (·.withdraw reason.exclusion) }
    let s := { s with work := { s.work with diagnostics } }
    let (_, s) := (addPairExclusions budget .retained retained reason.exclusion).outcome s
    { s with published := [] }
  | _ => s

/-- The comparator of the final exclusion sort. -/
def byExclusion (left right : LadderExclusion) : Prop :=
  left.offerHash < right.offerHash ∨
    (left.offerHash = right.offerHash ∧ left.reason.text ≤ right.reason.text)

instance : DecidableRel byExclusion := fun left right =>
  inferInstanceAs (Decidable (left.offerHash < right.offerHash ∨
    (left.offerHash = right.offerHash ∧ left.reason.text ≤ right.reason.text)))

def assemble (limits : LadderResourceLimits) (s : Derivation) : DerivedLadder :=
  let levels := s.published.map (·.pair)
  { levels
    tokenIds := sortedSet (levels.flatMap fun pair => [pair.tokenIn, pair.tokenOut])
    provenance := s.published.map (·.provenance)
    excluded := s.work.excluded.insertionSort byExclusion
    limits
    diagnostics := s.work.diagnostics }

/-- From the eligible offers on. -/
def deriveFrom (budget : Budget) (comparisons : List CombinationState → Nat)
    (policy : JobAdmissionPolicy) (crossable : List Crossable) (work : Work) :
    Except String DerivedLadder :=
  let unique := uniqueOffers crossable
  let (retained, shared) := claimCoins [] unique
  let excluded := work.excluded ++ duplicateExclusions crossable ++ shared
  match (discoverPairs budget comparisons policy retained).outcome
    { work := { work with excluded } } with
  | (.ok _, s) => .ok (assemble budget.limits (cancel budget retained s))
  | (.error .exclusionScanStop, s) =>
    .ok (assemble budget.limits (cancel budget retained { s with work := s.work.noteScanStop }))
  | (.error .returned, s) => .ok (emptyDerived budget.limits s.work.diagnostics s.work.excluded)
  | (.error (.thrown message), _) => .error message

/-- `deriveLadder`. -/
def deriveLadder (comparisons : List CombinationState → Nat) (offers : List LadderSourceOffer)
    (options : DeriveLadderOptions) : Except String DerivedLadder :=
  match resolveLadderResourceLimits options.resourceLimits with
  | .error invalid => .ok (emptyDerived hardLadderResourceLimits
      { stopReason := some .invalidResourceLimit, invalidResourceLimit := some invalid })
  | .ok limits =>
    let budget : Budget := ⟨limits, options.shouldAbort⟩
    match budget.poll {} with
    | (some reason, _) =>
      .ok (emptyDerived limits { stopReason := some (GlobalStop.abort reason).stopReason })
    | (none, work) =>
      let unavailable := options.unavailableOfferHashes.map toLowerCase
      match (scanOffers budget options unavailable offers).outcome work with
      | (.error _, work) => .ok (emptyDerived limits work.diagnostics work.excluded)
      | (.ok crossable, work) =>
        deriveFrom budget comparisons options.toJobAdmissionPolicy crossable work

end ZswapKernel
