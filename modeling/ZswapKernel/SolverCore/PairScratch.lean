import ZswapKernel.SolverCore.EnumeratePair

/-!
# The pair search on its shared scratch

`enumeratePair` with the mutable `PairSearchScratch` that all pair searches of a derivation share:
each pass of the composed loop saves four slots, writes its own, and writes the saved ones back in
its `finally`, with the two checks that can throw there. `visited` is a ghost: it lists the subsets
in the order they are judged, with what the search holds of each.
-/

namespace ZswapKernel

/-! ## The scratch -/

/-- `PairSearchScratch`; a slot that was never written is `none`. -/
structure PairSearchScratch where
  gives : Nat → Option Int := fun _ => none
  wants : Nat → Option Int := fun _ => none
  nets : Nat → Option Int := fun _ => none
  activeTokenIndices : List Nat := []
  selected : List Crossable := []

/-- `table[index] ?? 0n`. -/
def slot (table : Nat → Option Int) (index : Nat) : Int := (table index).getD 0

/-- The vectors as every read of them sees them. -/
def PairSearchScratch.balances (scratch : PairSearchScratch) : PairBalances where
  gives := slot scratch.gives
  wants := slot scratch.wants
  nets := slot scratch.nets
  activeTokenIndices := scratch.activeTokenIndices

/-- The locals of a pass that its `finally` reads. -/
structure SavedSlots where
  previousInputWants : Option Int
  previousInputNet : Option Int
  previousOutputGives : Option Int
  previousOutputNet : Option Int
  inputWasAbsent : Bool
  outputWasAbsent : Bool

def PairSearchScratch.save (scratch : PairSearchScratch) (input output : Nat) : SavedSlots where
  previousInputWants := scratch.wants input
  previousInputNet := scratch.nets input
  previousOutputGives := scratch.gives output
  previousOutputNet := scratch.nets output
  inputWasAbsent := slot scratch.gives input = 0 ∧ slot scratch.wants input = 0
  outputWasAbsent := slot scratch.gives output = 0 ∧ slot scratch.wants output = 0

/-- The writes before the `try`, in their order. -/
def PairSearchScratch.push (scratch : PairSearchScratch) (candidate : Crossable)
    (input output : Nat) : PairSearchScratch :=
  let saved := scratch.save input output
  let nets := Function.update scratch.nets input
    (some (slot scratch.nets input - candidate.amountIn))
  { activeTokenIndices := scratch.activeTokenIndices ++
      (if saved.inputWasAbsent then [input] else []) ++
      (if saved.outputWasAbsent then [output] else [])
    wants := Function.update scratch.wants input
      (some (slot scratch.wants input + candidate.amountIn))
    gives := Function.update scratch.gives output
      (some (slot scratch.gives output + candidate.amountOut))
    nets := Function.update nets output (some (slot nets output + candidate.amountOut))
    selected := scratch.selected ++ [candidate] }

/-- `const removed = activeTokenIndices.pop(); if (removed !== index) throw …`, when the index was
absent before the pass. -/
def popActive (wasAbsent : Bool) (index : Nat) (activeTokenIndices : List Nat) :
    Option String × List Nat :=
  if wasAbsent then
    (if activeTokenIndices.getLast? = some index then none else some "balance stack corruption",
      activeTokenIndices.dropLast)
  else (none, activeTokenIndices)

/-- The `finally` of a pass: the message it throws, if any, and the scratch it leaves. -/
def PairSearchScratch.restore (scratch : PairSearchScratch) (saved : SavedSlots)
    (input output : Nat) : Option String × PairSearchScratch :=
  let scratch := { scratch with
    selected := scratch.selected.dropLast
    gives := Function.update scratch.gives output saved.previousOutputGives
    nets := Function.update scratch.nets output saved.previousOutputNet }
  match popActive saved.outputWasAbsent output scratch.activeTokenIndices with
  | (some message, activeTokenIndices) => (some message, { scratch with activeTokenIndices })
  | (none, activeTokenIndices) =>
    let (thrown, activeTokenIndices) := popActive saved.inputWasAbsent input activeTokenIndices
    (thrown, { scratch with
      activeTokenIndices
      wants := Function.update scratch.wants input saved.previousInputWants
      nets := Function.update scratch.nets input saved.previousInputNet })

/-! ## One subset -/

/-- `economicCandidate` and `amountCapped` of a subset. -/
inductive PairVerdict
  | rejected
  | amountCapped
  | economic (input output : Int)
  deriving DecidableEq, Repr

/-- The two nets of the pair and the scan of the active tokens. -/
def PairBalances.verdict (balances : PairBalances) (tokenInIndex tokenOutIndex : Nat) :
    PairVerdict :=
  let inputNet := balances.nets tokenInIndex
  let outputNet := balances.nets tokenOutIndex
  if inputNet < 0 ∧ outputNet > 0 then
    match scanActive balances.nets tokenInIndex balances.activeTokenIndices false with
    | none => .rejected
    | some true => .amountCapped
    | some false => .economic (-inputNet) outputNet
  else .rejected

/-- What the search holds of a subset when it judges it. -/
inductive VisitedSubset
  | direct (selected : List Crossable) (nextInput nextOutput : Int) (accepted : Bool)
  | composed (selected : List Crossable) (balances : PairBalances) (nextSortedPrefixSafe : Bool)
      (verdict : PairVerdict)

structure ScratchRun where
  scratch : PairSearchScratch
  search : PairSearch
  visited : List VisitedSubset

/-- The scratch and the prefix flag of the composed arm, one candidate further. -/
def extendScratch (tokenAt : List String) (candidate : Crossable)
    (state : PairSearchScratch × Bool) : PairSearchScratch × Bool :=
  let input := indexIn tokenAt candidate.tokenIn
  let output := indexIn tokenAt candidate.tokenOut
  let scratch := state.1.push candidate input output
  (scratch, state.2 && inSettlementRange (slot scratch.nets input) &&
    inSettlementRange (slot scratch.nets output))

/-! ## The walk -/

/-- The direct arm selects the candidate and records its subset. -/
def acceptDirect (candidate : Crossable) (nextInput nextOutput : Int) (run : ScratchRun) :
    ScratchRun :=
  let selected := run.scratch.selected ++ [candidate]
  let entry : CombinationState := ⟨nextInput, nextOutput, selected.map (·.offerHash), none⟩
  { scratch := { run.scratch with selected }
    search := { run.search with exact := recordWitness run.search.exact entry }
    visited := run.visited ++ [.direct selected nextInput nextOutput true] }

/-- A pass of the loop over a direct bucket; `descend` visits the descendants. -/
def visitDirect (env : PairEnv) (descend : Int → Int → ScratchRun → ScratchRun)
    (candidate : Crossable) (directInput directOutput : Int) (run : ScratchRun) : ScratchRun :=
  let nextInput := directInput + candidate.amountIn
  let nextOutput := directOutput + candidate.amountOut
  if nextInput > maxSettlementAmount ∨ nextOutput > maxSettlementAmount then
    { run with
      search := { run.search with amountCappedSubsets := run.search.amountCappedSubsets + 1 }
      visited := run.visited ++
        [.direct (run.scratch.selected ++ [candidate]) nextInput nextOutput false] }
  else
    let run := acceptDirect candidate nextInput nextOutput run
    let run :=
      if run.search.stop.isNone ∧
          run.scratch.selected.length < env.budget.limits.maxMakersPerCombination then
        descend nextInput nextOutput run
      else run
    { run with scratch := { run.scratch with selected := run.scratch.selected.dropLast } }

/-- What the composed arm does with its verdict. -/
def PairVerdict.judge (verdict : PairVerdict) (env : PairEnv) (branch : Branch)
    (search : PairSearch) : PairSearch :=
  match verdict with
  | .rejected => search
  | .amountCapped => { search with amountCappedSubsets := search.amountCappedSubsets + 1 }
  | .economic input output => considerEconomic env branch input output search

/-- The writes of a pass over a composed bucket, and its `try` up to the recursive call. -/
def judgeComposed (env : PairEnv) (candidate : Crossable) (sortedPrefixSafe : Bool)
    (run : ScratchRun) : ScratchRun :=
  let (scratch, nextSortedPrefixSafe) :=
    extendScratch env.tokenAt candidate (run.scratch, sortedPrefixSafe)
  let verdict := scratch.balances.verdict (indexIn env.tokenAt env.tokenIn)
    (indexIn env.tokenAt env.tokenOut)
  { scratch
    search := verdict.judge env
      ⟨0, 0, scratch.balances, scratch.selected, nextSortedPrefixSafe⟩ run.search
    visited := run.visited ++
      [.composed scratch.selected scratch.balances nextSortedPrefixSafe verdict] }

/-- The `finally` on the run; what it throws replaces any earlier stop. -/
def ScratchRun.finish (run : ScratchRun) (saved : SavedSlots) (input output : Nat) : ScratchRun :=
  match run.scratch.restore saved input output with
  | (none, scratch) => { run with scratch }
  | (some message, scratch) =>
    { run with scratch, search := { run.search with stop := some (.thrown message) } }

/-- A pass of the loop over a composed bucket. -/
def visitComposed (env : PairEnv) (descend : Bool → ScratchRun → ScratchRun)
    (candidate : Crossable) (sortedPrefixSafe : Bool) (run : ScratchRun) : ScratchRun :=
  let input := indexIn env.tokenAt candidate.tokenIn
  let output := indexIn env.tokenAt candidate.tokenOut
  let saved := run.scratch.save input output
  let nextSortedPrefixSafe :=
    (extendScratch env.tokenAt candidate (run.scratch, sortedPrefixSafe)).2
  let run := judgeComposed env candidate sortedPrefixSafe run
  let run :=
    if run.search.stop.isNone ∧
        run.scratch.selected.length < env.budget.limits.maxMakersPerCombination then
      descend nextSortedPrefixSafe run
    else run
  run.finish saved input output

/-- `visit(start, …)` on the scratch. -/
def visitScratch (env : PairEnv) : List Crossable → Int → Int → Bool → ScratchRun → ScratchRun
  | [], _, _, _, run => run
  | candidate :: bucket, directInput, directOutput, sortedPrefixSafe, run =>
    if run.search.stop.isSome then run
    else
      let run := { run with search := enterSubset env.budget run.search }
      if run.search.stop.isSome then run
      else
        let run :=
          if env.direct then
            visitDirect env (fun nextInput nextOutput run =>
              visitScratch env bucket nextInput nextOutput true run)
              candidate directInput directOutput run
          else
            visitComposed env (fun nextSortedPrefixSafe run =>
              visitScratch env bucket 0 0 nextSortedPrefixSafe run)
              candidate sortedPrefixSafe run
        visitScratch env bucket directInput directOutput sortedPrefixSafe run

/-- `enumeratePair` on the scratch it is handed. -/
def enumeratePairOn (scratch : PairSearchScratch) (budget : Budget) (bucket : List Crossable)
    (tokenIn tokenOut : String) (tokenAt : List String) (work : Work) : ScratchRun :=
  let direct := bucket.all fun entry => entry.tokenIn = tokenIn && entry.tokenOut = tokenOut
  let search : PairSearch := ⟨[], 0, 0, 0, 0, none, work⟩
  if scratch.activeTokenIndices.length ≠ 0 ∨ scratch.selected.length ≠ 0 then
    ⟨scratch, { search with stop := some (.thrown "pair search scratch is not empty") }, []⟩
  else
    visitScratch ⟨budget, tokenAt, tokenIn, tokenOut, direct⟩ bucket 0 0 true ⟨scratch, search, []⟩

/-- The scratch of a derivation before one of its pair searches. -/
inductive ScratchReached : PairSearchScratch → Prop
  | start : ScratchReached {}
  | search {scratch : PairSearchScratch} (budget : Budget) (bucket : List Crossable)
      (tokenIn tokenOut : String) (tokenAt : List String) (work : Work)
      (reached : ScratchReached scratch) :
      ScratchReached (enumeratePairOn scratch budget bucket tokenIn tokenOut tokenAt work).scratch

end ZswapKernel
