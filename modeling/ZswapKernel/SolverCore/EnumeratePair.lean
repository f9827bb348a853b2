import ZswapKernel.SolverCore.Discovery

/-!
# The pair search

`enumeratePair` of `packages/solver-core/ladder-derivation.ts`: a depth-first walk over every
nonempty subset of the bucket up to the maker limit, keeping the best witness at each exact input.

* The scratch vectors are passed down a branch, so their rollback is the return of the call; an
  absent slot is `0`, as every read of it is. With them the two scratch sanity checks, which can
  only fire on a failed rollback, are left out.
* `exact` is keyed by the input itself, whose decimal text is the key of the `Map`.
-/

namespace ZswapKernel

structure CombinationState where
  input : Int
  output : Int
  offerHashes : List String
  tokenBalances : Option (List WholeOfferTokenBalance)
  deriving DecidableEq, Repr

inductive SearchReason
  | pairSearchCap
  | globalSearchCap
  | discoveryWorkCap
  | mergeOrderWorkCap
  | abort (reason : AbortReason)
  deriving DecidableEq, Repr

def BudgetStop.search : BudgetStop → SearchReason
  | .discoveryWorkCap => .discoveryWorkCap
  | .abort reason => .abort reason

/-- `reason !== null`, or an exception on its way out. -/
inductive SearchStop
  | reason (reason : SearchReason)
  | thrown (message : String)
  deriving DecidableEq, Repr

/-! ## Witness order -/

/-- The last loop of `betterSelectedWitness`: the first differing hash decides. -/
def firstDifferenceBelow : List String → List String → Bool
  | left :: lefts, right :: rights =>
    if left < right then true
    else if left > right then false
    else firstDifferenceBelow lefts rights
  | _, _ => false

/-- `betterSelectedWitness`: larger output, then fewer files, then lexicographic hashes. -/
def betterSelectedWitness (output : Int) (selected : List String) (incumbent : CombinationState) :
    Bool :=
  if output ≠ incumbent.output then output > incumbent.output
  else if selected.length ≠ incumbent.offerHashes.length then
    selected.length < incumbent.offerHashes.length
  else firstDifferenceBelow selected incumbent.offerHashes

/-- `exact.set(key, entry)`: in place of the entry with this input, or at the end. -/
def setExact (entry : CombinationState) : List CombinationState → List CombinationState
  | [] => [entry]
  | incumbent :: exact =>
    if incumbent.input = entry.input then entry :: exact else incumbent :: setExact entry exact

/-- Keep `entry` when its input is new or it is the better witness. -/
def recordWitness (exact : List CombinationState) (entry : CombinationState) :
    List CombinationState :=
  match exact.find? (·.input = entry.input) with
  | none => setExact entry exact
  | some incumbent =>
    if betterSelectedWitness entry.output entry.offerHashes incumbent then setExact entry exact
    else exact

/-! ## The balance vectors -/

/-- `gives`, `wants`, `nets` and `activeTokenIndices` of the scratch. -/
structure PairBalances where
  gives : Nat → Int := fun _ => 0
  wants : Nat → Int := fun _ => 0
  nets : Nat → Int := fun _ => 0
  activeTokenIndices : List Nat := []

/-- Extend the selection by an offer from token index `input` to token index `output`. -/
def PairBalances.add (balances : PairBalances) (input output : Nat) (amountIn amountOut : Int) :
    PairBalances :=
  let inputWasAbsent := balances.gives input = 0 ∧ balances.wants input = 0
  let outputWasAbsent := balances.gives output = 0 ∧ balances.wants output = 0
  let nets := Function.update balances.nets input (balances.nets input - amountIn)
  { activeTokenIndices := balances.activeTokenIndices ++
      (if inputWasAbsent then [input] else []) ++ (if outputWasAbsent then [output] else [])
    wants := Function.update balances.wants input (balances.wants input + amountIn)
    gives := Function.update balances.gives output (balances.gives output + amountOut)
    nets := Function.update nets output (nets output + amountOut) }

/-- `-MAX_SETTLEMENT_AMOUNT <= amount && amount <= MAX_SETTLEMENT_AMOUNT`. -/
def inSettlementRange (amount : Int) : Bool :=
  -maxSettlementAmount ≤ amount && amount ≤ maxSettlementAmount

/-- The scan of the active tokens: `none` on an additional deficit, otherwise whether some net
amount is capped. -/
def scanActive (nets : Nat → Int) (tokenInIndex : Nat) : List Nat → Bool → Option Bool
  | [], amountCapped => some amountCapped
  | index :: indices, amountCapped =>
    if index ≠ tokenInIndex ∧ nets index < 0 then none
    else scanActive nets tokenInIndex indices (amountCapped || !inSettlementRange (nets index))

/-- The sorted rows a winning state materializes. -/
def PairBalances.rows (balances : PairBalances) (tokenAt : List String) :
    List WholeOfferTokenBalance :=
  (balances.activeTokenIndices.map fun index =>
    (⟨tokenAt.getD index "", balances.gives index, balances.wants index, balances.nets index⟩ :
      WholeOfferTokenBalance)).insertionSort fun left right => left.token ≤ right.token

/-! ## The walk -/

/-- What one search reads. -/
structure PairEnv where
  budget : Budget
  tokenAt : List String
  tokenIn : String
  tokenOut : String
  direct : Bool

/-- The locals of a `visit` call. -/
structure Branch where
  directInput : Int
  directOutput : Int
  balances : PairBalances
  selected : List Crossable
  sortedPrefixSafe : Bool

structure PairSearch where
  exact : List CombinationState
  visitedSubsets : Nat
  amountCappedSubsets : Nat
  safeMergeOrderWork : Nat
  unsafeMergeOrderSubsets : Nat
  stop : Option SearchStop
  work : Work
  deriving DecidableEq, Repr

def PairSearch.halt (search : PairSearch) (reason : SearchReason) : PairSearch :=
  { search with stop := some (.reason reason) }

/-- The head of the loop body: the two subset caps, the counters and the poll every 256 subsets. -/
def enterSubset (budget : Budget) (search : PairSearch) : PairSearch :=
  if budget.limits.maxVisitedSubsetsPerPair ≤ search.visitedSubsets then
    search.halt .pairSearchCap
  else if budget.limits.maxVisitedSubsetsTotal ≤ search.work.diagnostics.visitedSubsets then
    search.halt .globalSearchCap
  else
    let visited := search.work.diagnostics.visitedSubsets + 1
    let work := { search.work with
      diagnostics := { search.work.diagnostics with visitedSubsets := visited } }
    let search := { search with visitedSubsets := search.visitedSubsets + 1, work }
    if visited % 256 = 0 then
      match budget.poll work with
      | (some reason, work) => { search with work }.halt (.abort reason)
      | (none, work) => { search with work }
    else search

/-- The direct arm: `none` when the subset is capped, otherwise the extended branch. -/
def considerDirect (candidate : Crossable) (branch : Branch) (search : PairSearch) :
    Option Branch × PairSearch :=
  let nextInput := branch.directInput + candidate.amountIn
  let nextOutput := branch.directOutput + candidate.amountOut
  if nextInput > maxSettlementAmount ∨ nextOutput > maxSettlementAmount then
    (none, { search with amountCappedSubsets := search.amountCappedSubsets + 1 })
  else
    let selected := branch.selected ++ [candidate]
    let entry : CombinationState := ⟨nextInput, nextOutput, selected.map (·.offerHash), none⟩
    (some { branch with
        directInput := nextInput, directOutput := nextOutput, selected, sortedPrefixSafe := true },
      { search with exact := recordWitness search.exact entry })

/-- The merge source of a selected offer. -/
def Crossable.mergeSource (offer : Crossable) : WholeOfferMergeSource where
  offerHash := offer.offerHash
  gives := [⟨offer.tokenOut, offer.amountOut⟩]
  wants := [⟨offer.tokenIn, offer.amountIn⟩]

/-- `charge(work, "safe-merge-order")` for a planner run that did work. -/
def chargeMergeOrder (budget : Budget) (units : Nat) (search : PairSearch) : PairSearch :=
  if units = 0 then search
  else
    let (stop, work) := budget.chargeUnits .safeMergeOrder units search.work
    let search := { search with work, safeMergeOrderWork := search.safeMergeOrderWork + units }
    match stop with
    | some stop => search.halt stop.search
    | none => search

/-- Plan the merge order of an economic candidate and record it when one is found. -/
def considerEconomic (env : PairEnv) (branch : Branch) (input output : Int)
    (search : PairSearch) : PairSearch :=
  let mergeWorkLimit := min maxSafeMergeOrderWork (env.budget.remaining search.work)
  let planned : Except String (WholeOfferMergeOrderResult × Nat) :=
    if branch.sortedPrefixSafe then .ok (.found [] false 0, search.work.abortCalls)
    else findSafeWholeOfferMergeOrder (branch.selected.map (·.mergeSource))
      { maxWork := some mergeWorkLimit, shouldAbort := env.budget.shouldAbort }
      search.work.abortCalls
  match planned with
  | .error message => { search with stop := some (.thrown message) }
  | .ok (mergeOrder, abortCalls) =>
    let search := { search with work := { search.work with abortCalls } }
    match mergeOrder with
    | .found _ _ units =>
      let search := chargeMergeOrder env.budget units search
      let entry : CombinationState := ⟨input, output, branch.selected.map (·.offerHash),
        some (branch.balances.rows env.tokenAt)⟩
      if search.stop.isSome then search
      else { search with exact := recordWitness search.exact entry }
    | .failed reason units =>
      let search := chargeMergeOrder env.budget units search
      if search.stop.isSome then search
      else
        match reason with
        | .unsafeMergeOrder =>
          { search with unsafeMergeOrderSubsets := search.unsafeMergeOrderSubsets + 1 }
        | .interrupted reason => search.halt (.abort reason)
        | .mergeOrderWorkCap =>
          search.halt (if mergeWorkLimit < maxSafeMergeOrderWork then .discoveryWorkCap
            else .mergeOrderWorkCap)
        | .tooManySources => search

/-- The composed arm: extend the vectors, and plan the subset when it is an economic candidate.
A partial set is never pruned: a later maker can repair its deficits. -/
def considerComposed (env : PairEnv) (candidate : Crossable) (branch : Branch)
    (search : PairSearch) : Option Branch × PairSearch :=
  let input := indexIn env.tokenAt candidate.tokenIn
  let output := indexIn env.tokenAt candidate.tokenOut
  let balances := branch.balances.add input output candidate.amountIn candidate.amountOut
  let branch : Branch := {
    directInput := 0
    directOutput := 0
    balances
    selected := branch.selected ++ [candidate]
    sortedPrefixSafe := branch.sortedPrefixSafe && inSettlementRange (balances.nets input) &&
      inSettlementRange (balances.nets output) }
  let inputNet := balances.nets (indexIn env.tokenAt env.tokenIn)
  let outputNet := balances.nets (indexIn env.tokenAt env.tokenOut)
  if inputNet < 0 ∧ outputNet > 0 then
    match scanActive balances.nets (indexIn env.tokenAt env.tokenIn)
        balances.activeTokenIndices false with
    | none => (some branch, search)
    | some true => (some branch, { search with
        amountCappedSubsets := search.amountCappedSubsets + 1 })
    | some false => (some branch, considerEconomic env branch (-inputNet) outputNet search)
  else (some branch, search)

/-- `visit(start, …)` over the bucket from `start` on: each candidate is considered, its
descendants are visited while the maker limit allows, then its siblings. -/
def visit (env : PairEnv) : List Crossable → Branch → PairSearch → PairSearch
  | [], _, search => search
  | candidate :: bucket, branch, search =>
    if search.stop.isSome then search
    else
      let search := enterSubset env.budget search
      if search.stop.isSome then search
      else
        let (next, search) :=
          if env.direct then considerDirect candidate branch search
          else considerComposed env candidate branch search
        let search :=
          match next with
          | none => search
          | some next =>
            if search.stop.isNone ∧
                next.selected.length < env.budget.limits.maxMakersPerCombination then
              visit env bucket next search
            else search
        visit env bucket branch search

/-- `enumeratePair`. -/
def enumeratePair (budget : Budget) (bucket : List Crossable) (tokenIn tokenOut : String)
    (tokenAt : List String) (work : Work) : PairSearch :=
  let direct := bucket.all fun entry => entry.tokenIn = tokenIn && entry.tokenOut = tokenOut
  visit ⟨budget, tokenAt, tokenIn, tokenOut, direct⟩ bucket ⟨0, 0, {}, [], true⟩
    ⟨[], 0, 0, 0, 0, none, work⟩

end ZswapKernel
