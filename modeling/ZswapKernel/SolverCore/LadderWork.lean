import ZswapKernel.Lib.Program
import ZswapKernel.SolverCore.LadderSchema
import ZswapKernel.SolverCore.MergeOrder

/-!
# The derivation's options, limits, diagnostics and work budget

The data of `packages/solver-core/ladder-derivation.ts` and the meters `deriveLadder` threads
through every stage: `resolveLadderResourceLimits`, `discoveryBudget.charge` and the calls of
`shouldAbort`.

`Work` holds what the closures of `deriveLadder` mutate while they scan. A stage that can be
stopped is a `Budgeted` program: it throws the reason that stops it.
-/

namespace ZswapKernel

/-! ## Resource limits -/

structure LadderResourceLimits where
  maxSourceOffers : Nat
  maxVisitedSubsetsPerPair : Nat
  maxVisitedSubsetsTotal : Nat
  maxMakersPerCombination : Nat
  maxWirePointsPerPair : Nat
  maxPairs : Nat
  maxCandidatePairs : Nat
  maxDiscoveryWork : Nat
  deriving DecidableEq, Repr

def hardLadderResourceLimits : LadderResourceLimits where
  maxSourceOffers := 4096
  maxVisitedSubsetsPerPair := 100000
  maxVisitedSubsetsTotal := 200000
  maxMakersPerCombination := 8
  maxWirePointsPerPair := maxRungsPerPair
  maxPairs := maxPairsPerPush
  maxCandidatePairs := 4096
  maxDiscoveryWork := 1000000

inductive LadderResourceLimitName
  | maxSourceOffers
  | maxVisitedSubsetsPerPair
  | maxVisitedSubsetsTotal
  | maxMakersPerCombination
  | maxWirePointsPerPair
  | maxPairs
  | maxCandidatePairs
  | maxDiscoveryWork
  deriving DecidableEq, Repr

/-- `Partial<LadderResourceLimits>`, with integers for numbers. -/
structure LadderResourceLimitControls where
  maxSourceOffers : Option Int := none
  maxVisitedSubsetsPerPair : Option Int := none
  maxVisitedSubsetsTotal : Option Int := none
  maxMakersPerCombination : Option Int := none
  maxWirePointsPerPair : Option Int := none
  maxPairs : Option Int := none
  maxCandidatePairs : Option Int := none
  maxDiscoveryWork : Option Int := none
  deriving DecidableEq, Repr

/-- The control `resolveLadderResourceLimits` refuses. -/
structure InvalidResourceLimit where
  field : LadderResourceLimitName
  value : Int
  maximum : Nat
  deriving DecidableEq, Repr

/-- One field of `resolveLadderResourceLimits`: absent keeps the maximum, otherwise it may only be
lowered. -/
def resolveControl (field : LadderResourceLimitName) (maximum : Nat) :
    Option Int → Except InvalidResourceLimit Nat
  | none => .ok maximum
  | some value => if value < 1 ∨ value > maximum then .error ⟨field, value, maximum⟩
    else .ok value.toNat

/-- `resolveLadderResourceLimits`: the first field out of its range is reported. -/
def resolveLadderResourceLimits (controls : Option LadderResourceLimitControls) :
    Except InvalidResourceLimit LadderResourceLimits := do
  let hard := hardLadderResourceLimits
  match controls with
  | none => return hard
  | some c => return {
      maxSourceOffers := ← resolveControl .maxSourceOffers hard.maxSourceOffers c.maxSourceOffers
      maxVisitedSubsetsPerPair := ← resolveControl .maxVisitedSubsetsPerPair
        hard.maxVisitedSubsetsPerPair c.maxVisitedSubsetsPerPair
      maxVisitedSubsetsTotal := ← resolveControl .maxVisitedSubsetsTotal
        hard.maxVisitedSubsetsTotal c.maxVisitedSubsetsTotal
      maxMakersPerCombination := ← resolveControl .maxMakersPerCombination
        hard.maxMakersPerCombination c.maxMakersPerCombination
      maxWirePointsPerPair := ← resolveControl .maxWirePointsPerPair
        hard.maxWirePointsPerPair c.maxWirePointsPerPair
      maxPairs := ← resolveControl .maxPairs hard.maxPairs c.maxPairs
      maxCandidatePairs := ← resolveControl .maxCandidatePairs hard.maxCandidatePairs
        c.maxCandidatePairs
      maxDiscoveryWork := ← resolveControl .maxDiscoveryWork hard.maxDiscoveryWork
        c.maxDiscoveryWork }

/-! ## The admission policy and the options -/

/-- `JobAdmissionPolicy`; `none` leaves a group open. -/
structure JobAdmissionPolicy where
  supportedPairs : Option (List String) := none
  minJobOutput : Option (List (String × Int)) := none
  deriving DecidableEq, Repr

/-- `admissionPairKey`. -/
def admissionPairKey (tokenIn tokenOut : String) : String :=
  toLowerCase tokenIn ++ "->" ++ toLowerCase tokenOut

/-- `options.supportedPairs != null && !options.supportedPairs.has(…)`. -/
def JobAdmissionPolicy.refusesPair (policy : JobAdmissionPolicy) (tokenIn tokenOut : String) :
    Bool :=
  match policy.supportedPairs with
  | none => false
  | some pairs => !pairs.contains (admissionPairKey tokenIn tokenOut)

/-- `options.minJobOutput?.get(tokenOut)`. -/
def JobAdmissionPolicy.minimum (policy : JobAdmissionPolicy) (tokenOut : String) : Option Int :=
  policy.minJobOutput.bind fun map => (map.find? (·.1 = tokenOut)).map (·.2)

/-- `minJobOutput != null && minimum === undefined`. -/
def JobAdmissionPolicy.lacksMinimum (policy : JobAdmissionPolicy) (tokenOut : String) : Bool :=
  policy.minJobOutput.isSome && (policy.minimum tokenOut).isNone

structure DeriveLadderOptions extends JobAdmissionPolicy where
  nowMs : Int
  expiryMarginSeconds : Int
  unavailableOfferHashes : List String := []
  resourceLimits : Option LadderResourceLimitControls := none
  shouldAbort : Option AbortCheck := none

/-! ## Exclusions and diagnostics -/

/-- What ends a scan early. -/
inductive BudgetStop
  | discoveryWorkCap
  | abort (reason : AbortReason)
  deriving DecidableEq, Repr

inductive LadderExclusionReason
  | multiLeg
  | nonShieldedLeg
  | nonPositiveAmount
  | sameToken
  | malformedToken
  | malformedHash
  | malformedNullifier
  | noExpiry
  | expiring
  | unavailable
  | duplicateOffer
  | sharedCoin
  | settlementAmountCap
  | sourceOfferCap
  | pairSearchCap
  | globalSearchCap
  | wirePointCap
  | pairCap
  | candidatePairCap
  | discoveryWorkCap
  | unsafeMergeOrder
  | mergeOrderWorkCap
  | unsupportedPair
  | minimumOutput
  | aborted
  | abortCheckFailed
  | invalidPair
  deriving DecidableEq, Repr

def LadderExclusionReason.text : LadderExclusionReason → String
  | .multiLeg => "multi-leg"
  | .nonShieldedLeg => "non-shielded-leg"
  | .nonPositiveAmount => "non-positive-amount"
  | .sameToken => "same-token"
  | .malformedToken => "malformed-token"
  | .malformedHash => "malformed-hash"
  | .malformedNullifier => "malformed-nullifier"
  | .noExpiry => "no-expiry"
  | .expiring => "expiring"
  | .unavailable => "unavailable"
  | .duplicateOffer => "duplicate-offer"
  | .sharedCoin => "shared-coin"
  | .settlementAmountCap => "settlement-amount-cap"
  | .sourceOfferCap => "source-offer-cap"
  | .pairSearchCap => "pair-search-cap"
  | .globalSearchCap => "global-search-cap"
  | .wirePointCap => "wire-point-cap"
  | .pairCap => "pair-cap"
  | .candidatePairCap => "candidate-pair-cap"
  | .discoveryWorkCap => "discovery-work-cap"
  | .unsafeMergeOrder => "unsafe-merge-order"
  | .mergeOrderWorkCap => "merge-order-work-cap"
  | .unsupportedPair => "unsupported-pair"
  | .minimumOutput => "minimum-output"
  | .aborted => "aborted"
  | .abortCheckFailed => "abort-check-failed"
  | .invalidPair => "invalid-pair"

def AbortReason.exclusion : AbortReason → LadderExclusionReason
  | .aborted => .aborted
  | .abortCheckFailed => .abortCheckFailed

def BudgetStop.exclusion : BudgetStop → LadderExclusionReason
  | .discoveryWorkCap => .discoveryWorkCap
  | .abort reason => reason.exclusion

structure LadderExclusion where
  offerHash : String
  reason : LadderExclusionReason
  detail : Option LadderRejection := none
  deriving DecidableEq, Repr

structure LadderPairDiagnostic where
  tokenIn : String
  tokenOut : String
  published : Bool
  reason : Option LadderExclusionReason
  candidateOffers : Nat
  visitedSubsets : Nat
  storedExactInputs : Nat
  amountCappedSubsets : Nat
  frontierCombinations : Nat
  wirePoints : Nat
  discoveryWork : Nat
  safeMergeOrderWork : Nat
  deriving DecidableEq, Repr

inductive LadderDerivationStopReason
  | sourceOfferCap
  | globalSearchCap
  | candidatePairCap
  | discoveryWorkCap
  | aborted
  | abortCheckFailed
  | invalidResourceLimit
  deriving DecidableEq, Repr

structure LadderDerivationDiagnostics where
  stopReason : Option LadderDerivationStopReason := none
  invalidResourceLimit : Option InvalidResourceLimit := none
  sourceOffersScanned : Nat := 0
  candidatePairsExamined : Nat := 0
  discoveryWork : Nat := 0
  safeMergeOrderWork : Nat := 0
  visitedSubsets : Nat := 0
  peakStoredExactInputs : Nat := 0
  pairs : List LadderPairDiagnostic := []
  deriving DecidableEq, Repr

/-- `GlobalStop`. -/
inductive GlobalStop
  | globalSearchCap
  | candidatePairCap
  | discoveryWorkCap
  | abort (reason : AbortReason)
  deriving DecidableEq, Repr

def BudgetStop.global : BudgetStop → GlobalStop
  | .discoveryWorkCap => .discoveryWorkCap
  | .abort reason => .abort reason

def GlobalStop.stopReason : GlobalStop → LadderDerivationStopReason
  | .globalSearchCap => .globalSearchCap
  | .candidatePairCap => .candidatePairCap
  | .discoveryWorkCap => .discoveryWorkCap
  | .abort .aborted => .aborted
  | .abort .abortCheckFailed => .abortCheckFailed

def GlobalStop.exclusion : GlobalStop → LadderExclusionReason
  | .globalSearchCap => .globalSearchCap
  | .candidatePairCap => .candidatePairCap
  | .discoveryWorkCap => .discoveryWorkCap
  | .abort reason => reason.exclusion

/-- `globalStop === "aborted" || globalStop === "abort-check-failed"`. -/
def isAbort : Option GlobalStop → Bool
  | some (.abort _) => true
  | _ => false

/-! ## The work budget -/

/-- The bucket an exclusion scan walks: the retained book, or one cached universe by its root. -/
inductive BucketId
  | retained
  | universeOf (root : Nat)
  deriving DecidableEq, Repr

/-- The meters and diagnostics the stages of one derivation share. -/
structure Work where
  diagnostics : LadderDerivationDiagnostics := {}
  excluded : List LadderExclusion := []
  globalStop : Option GlobalStop := none
  excludedUniverses : List (BucketId × LadderExclusionReason) := []
  abortCalls : Nat := 0
  deriving DecidableEq, Repr

/-- A stage that a budget or a cancellation may stop. -/
abbrev Budgeted (α : Type) := Program Work BudgetStop α

inductive WorkKind
  | discovery
  | safeMergeOrder
  deriving DecidableEq, Repr

/-- What `charge` reads besides the meters. -/
structure Budget where
  limits : LadderResourceLimits
  shouldAbort : Option AbortCheck

/-- `abortReason(options.shouldAbort)` on the shared call counter. -/
def Budget.poll (budget : Budget) (work : Work) : Option AbortReason × Work :=
  let (reason, calls) := abortReason budget.shouldAbort work.abortCalls
  (reason, { work with abortCalls := calls })

/-- One unit of `charge`. -/
def Budget.chargeUnit (budget : Budget) (kind : WorkKind) (work : Work) :
    Option BudgetStop × Work :=
  if budget.limits.maxDiscoveryWork ≤ work.diagnostics.discoveryWork then
    (some .discoveryWorkCap, work)
  else
    let diagnostics := { work.diagnostics with
      discoveryWork := work.diagnostics.discoveryWork + 1
      safeMergeOrderWork := work.diagnostics.safeMergeOrderWork +
        (if kind = .safeMergeOrder then 1 else 0) }
    let work := { work with diagnostics }
    if diagnostics.discoveryWork % 256 = 0 ∧ ¬ isAbort work.globalStop then
      match budget.poll work with
      | (some reason, work) => (some (.abort reason), work)
      | (none, work) => (none, work)
    else (none, work)

/-- `discoveryBudget.charge(work, kind)`. -/
def Budget.chargeUnits (budget : Budget) (kind : WorkKind) :
    Nat → Work → Option BudgetStop × Work
  | 0, work => (none, work)
  | units + 1, work =>
    match budget.chargeUnit kind work with
    | (some stop, work) => (some stop, work)
    | (none, work) => budget.chargeUnits kind units work

/-- `charge` where its reason is returned at once. -/
def Budget.charge (budget : Budget) (units : Nat := 1) : Budgeted Unit := fun work =>
  match budget.chargeUnits .discovery units work with
  | (some stop, work) => (.error stop, work)
  | (none, work) => (.ok (), work)

/-- `discoveryBudget.remaining()`. -/
def Budget.remaining (budget : Budget) (work : Work) : Nat :=
  budget.limits.maxDiscoveryWork - work.diagnostics.discoveryWork

/-- `chargeDeterministicSort`: `n · ⌈log₂ n⌉`, nothing below two. -/
def Budget.chargeSort (budget : Budget) (length : Nat) : Budgeted Unit :=
  if length < 2 then pure () else budget.charge (length * ((length - 1).log2 + 1))

end ZswapKernel
