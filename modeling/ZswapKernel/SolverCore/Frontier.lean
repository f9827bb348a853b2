import ZswapKernel.SolverCore.EnumeratePair

/-!
# The frontier and its staircase

`bestOutputFrontier`, `encodePrefix` and `longestEncodableFrontier` of
`packages/solver-core/ladder-derivation.ts`: the best witnesses by ascending input, cut to the ones
that improve the output, and the longest prefix of them that fits on the wire.
-/

namespace ZswapKernel

/-! ## The frontier -/

/-- `compareHashes(left, right) <= 0`: the first difference decides, then the length. -/
def hashesLE : List String → List String → Bool
  | left :: lefts, right :: rights =>
    if left < right then true
    else if left > right then false
    else hashesLE lefts rights
  | lefts, rights => lefts.length ≤ rights.length

/-- The comparator of the frontier sort. -/
def byInput (left right : CombinationState) : Prop :=
  left.input < right.input ∨
    (left.input = right.input ∧ hashesLE left.offerHashes right.offerHashes = true)

instance : DecidableRel byInput := fun left right =>
  inferInstanceAs (Decidable (left.input < right.input ∨
    (left.input = right.input ∧ hashesLE left.offerHashes right.offerHashes = true)))

/-- `times` calls of `abortReason`, up to the first that stops. -/
def Budget.pollTimes (budget : Budget) : Nat → Budgeted Unit
  | 0 => pure ()
  | times + 1 => do
    let (reason, work) := budget.poll (← get)
    set work
    match reason with
    | some reason => throw (.abort reason)
    | none => budget.pollTimes times

/-- `(index & 255) === 255`: a poll at every 256th index. -/
def Budget.pollAt (budget : Budget) (index : Nat) : Budgeted Unit :=
  if index % 256 = 255 then budget.pollTimes 1 else pure ()

/-- The scan of the sorted states: keep each one that beats every output before it. -/
def improvingStates (budget : Budget) :
    Nat → Int → List CombinationState → Budgeted (List CombinationState)
  | _, _, [] => pure []
  | index, bestOutput, candidate :: ordered => do
    budget.pollAt index
    if candidate.output ≤ bestOutput then improvingStates budget (index + 1) bestOutput ordered
    else return candidate :: (← improvingStates budget (index + 1) candidate.output ordered)

/-- `bestOutputFrontier`. The sort polls once every 256 comparisons; how many it makes is the
engine's, so their number is a parameter. -/
def bestOutputFrontier (budget : Budget) (comparisons : List CombinationState → Nat)
    (exact : List CombinationState) : Budgeted (List CombinationState) := do
  budget.pollTimes (comparisons exact / 256)
  improvingStates budget 0 0 (exact.insertionSort byInput)

/-- The states of the frontier that reach `options.minJobOutput`. -/
def admittedFrontier (minimum : Option Int) (frontier : List CombinationState) :
    List CombinationState :=
  match minimum with
  | none => frontier
  | some minimum => frontier.filter (minimum ≤ ·.output)

/-! ## Encoding -/

inductive LadderTerminalCapReason
  | wirePointCap
  | nextOmittedImprovement
  | settlementAmountCap
  deriving DecidableEq, Repr

def LadderTerminalCapReason.exclusion : LadderTerminalCapReason → LadderExclusionReason
  | .wirePointCap => .wirePointCap
  | .nextOmittedImprovement => .wirePointCap
  | .settlementAmountCap => .settlementAmountCap

structure LadderCombinationProvenance where
  input : String
  output : String
  offerHashes : List String
  tokenBalances : List SerializedWholeOfferTokenBalance
  deriving DecidableEq, Repr

structure EncodedFrontier where
  levels : List PriceLevel
  combinations : List LadderCombinationProvenance
  terminalInput : Int
  nominalTerminalInput : Int
  capReasons : List LadderTerminalCapReason
  deriving DecidableEq, Repr

def priceLevel (input output : Int) : PriceLevel := ⟨decimal input, decimal output⟩

/-- The points of the retained thresholds: each threshold, then the end of its plateau when that
is a different input. -/
def thresholdLevels : List CombinationState → List PriceLevel
  | [] => []
  | [threshold] => [priceLevel threshold.input threshold.output]
  | threshold :: next :: retained =>
    priceLevel threshold.input threshold.output ::
      (if next.input - 1 > threshold.input then
        priceLevel (next.input - 1) threshold.output :: thresholdLevels (next :: retained)
      else thresholdLevels (next :: retained))

/-- `terminalInput` and its cap reasons: ten times the last threshold, at most the settlement
bound and below the first omitted improvement. -/
def terminalOf (final : CombinationState) (nextOmitted : Option CombinationState) :
    Int × List LadderTerminalCapReason :=
  let nominal := final.input * 10
  let (terminal, reasons) : Int × List LadderTerminalCapReason :=
    if nominal > maxSettlementAmount then (maxSettlementAmount, [.settlementAmountCap])
    else (nominal, [])
  match nextOmitted with
  | none => (terminal, reasons)
  | some next =>
    if terminal > next.input - 1 then (next.input - 1, reasons ++ [.nextOmittedImprovement])
    else (terminal, reasons)

/-- The provenance of one threshold; a direct state derives its two rows. -/
def combinationOf (tokenIn tokenOut : String) (entry : CombinationState) :
    Except String LadderCombinationProvenance := do
  let balances := entry.tokenBalances.getD
    [⟨tokenIn, 0, entry.input, -entry.input⟩, ⟨tokenOut, entry.output, 0, entry.output⟩]
  return ⟨decimal entry.input, decimal entry.output, entry.offerHashes,
    ← serializeWholeOfferTokenBalances balances⟩

/-- Why a prefix does not encode: too many points, or no room above its last threshold. -/
def failureReasons (points maxWirePoints : Nat) (terminalInput : Int) (final : CombinationState) :
    List LadderTerminalCapReason :=
  (if points > maxWirePoints then [.wirePointCap] else []) ++
    (if terminalInput ≤ final.input then
      [if final.input ≥ maxSettlementAmount then .settlementAmountCap else .nextOmittedImprovement]
    else [])

/-- `encodePrefix`: the outer `Except` is an exception, the inner one `failureReasons`. -/
def encodePrefix (frontier : List CombinationState) (retainedCount maxWirePoints : Nat)
    (tokenIn tokenOut : String) :
    Except String (Except (List LadderTerminalCapReason) EncodedFrontier) := do
  let retained := frontier.take retainedCount
  match retained.getLast? with
  | none => throw "undefined final threshold"
  | some final =>
    let (terminalInput, capReasons) := terminalOf final frontier[retainedCount]?
    let levels := thresholdLevels retained ++ [priceLevel terminalInput final.output]
    let failures := failureReasons levels.length maxWirePoints terminalInput final
    if failures ≠ [] then return .error failures
    return .ok ⟨levels, ← retained.mapM (combinationOf tokenIn tokenOut), terminalInput,
      final.input * 10, capReasons.eraseDups⟩

/-- `set.add(reason)`. -/
def addReason (reasons : List LadderTerminalCapReason) (reason : LadderTerminalCapReason) :
    List LadderTerminalCapReason :=
  if reason ∈ reasons then reasons else reasons ++ [reason]

/-- The best encoding so far and the reasons that truncated the longer prefixes. -/
structure PrefixScan where
  best : Option EncodedFrontier
  truncationReasons : List LadderTerminalCapReason
  deriving DecidableEq, Repr

/-- One prefix length of `longestEncodableFrontier`. An adjacent omitted improvement may become
encodable by retaining more thresholds, so only a resource cap explains truncation. -/
def tryPrefix (frontier : List CombinationState) (maxWirePoints : Nat) (tokenIn tokenOut : String)
    (scan : PrefixScan) (retained : Nat) : Except String PrefixScan := do
  match ← encodePrefix frontier retained maxWirePoints tokenIn tokenOut with
  | .error failureReasons =>
    let truncating := failureReasons.filter (· ≠ .nextOmittedImprovement)
    return ⟨scan.best, truncating.foldl addReason scan.truncationReasons⟩
  | .ok encoded => return ⟨some encoded, []⟩

/-- `longestEncodableFrontier`. -/
def longestEncodableFrontier (frontier : List CombinationState) (maxWirePoints : Nat)
    (tokenIn tokenOut : String) : Except String PrefixScan := do
  let most := min frontier.length (maxWirePoints - 1)
  let scan ← (List.range' 1 most).foldlM (tryPrefix frontier maxWirePoints tokenIn tokenOut)
    ⟨none, []⟩
  let truncationReasons := if frontier.length > most then
    addReason scan.truncationReasons .wirePointCap else scan.truncationReasons
  return ⟨scan.best.map fun best =>
    { best with capReasons := (truncationReasons ++ best.capReasons).eraseDups },
    truncationReasons⟩

end ZswapKernel
