import Mathlib.Data.List.Sort
import ZswapKernel.SolverCore.WholeOfferBalance

/-!
# The safe physical merge order

`findSafeWholeOfferMergeOrder` (`packages/solver-core/whole-offer-balance.ts`): the sorted-hash
order first, then a memoized subset-mask search, both under one transition budget.

* A `Map<string, bigint>` of running deltas is a total function; an absent token is `0`, as every
  read of it is.
* `balancesByMask` is the argument the search passes down: its entry for a mask is written just
  before the mask is searched.
* `shouldAbort` is the answer of each of its calls, in the order they are made; `calls` counts
  the calls made so far.
-/

namespace ZswapKernel

/-! ## Cancellation -/

/-- The answers of a `shouldAbort` callback, call by call; `error` is a throw. -/
abbrev AbortCheck := Nat → Except Unit Bool

inductive AbortReason
  | aborted
  | abortCheckFailed
  deriving DecidableEq, Repr

/-- `abortReason(shouldAbort)`: one call of the callback, when there is one. -/
def abortReason (shouldAbort : Option AbortCheck) (calls : Nat) : Option AbortReason × Nat :=
  match shouldAbort with
  | none => (none, calls)
  | some check =>
    match check calls with
    | .ok true => (some .aborted, calls + 1)
    | .ok false => (none, calls + 1)
    | .error _ => (some .abortCheckFailed, calls + 1)

/-! ## Sources and options -/

structure WholeOfferMergeSource extends WholeOfferBalanceSource where
  offerHash : String
  deriving DecidableEq, Repr

structure WholeOfferMergeOrderOptions where
  maximumDelta : Option Int := none
  maxSources : Option Int := none
  maxWork : Option Int := none
  shouldAbort : Option AbortCheck := none

inductive MergeOrderFailureReason
  | tooManySources
  | unsafeMergeOrder
  | mergeOrderWorkCap
  | interrupted (reason : AbortReason)
  deriving DecidableEq, Repr

inductive WholeOfferMergeOrderResult
  | found (offerHashes : List String) (usedFallback : Bool) (work : Nat)
  | failed (reason : MergeOrderFailureReason) (work : Nat)
  deriving DecidableEq, Repr

def maxPhysicalMakersPerMerge : Nat := 8

/-- `n * 2^(n - 1)` transitions for `n = 8`. -/
def maxSafeMergeOrderWork : Nat :=
  maxPhysicalMakersPerMerge * 2 ^ (maxPhysicalMakersPerMerge - 1)

/-- A source with its canonical hash and its net rows. -/
structure OrderedSource where
  offerHash : String
  rows : List WholeOfferTokenBalance
  deriving DecidableEq, Repr

def byOrderedHash (left right : OrderedSource) : Prop := left.offerHash ≤ right.offerHash

instance : DecidableRel byOrderedHash := fun left right =>
  inferInstanceAs (Decidable (left.offerHash ≤ right.offerHash))

/-! ## Running deltas -/

/-- Signed deltas by token. -/
abbrev Deltas := String → Int

/-- `addNetRows`: `none` when a token leaves `[-maximumDelta, maximumDelta]`. -/
def addNetRows (current : Deltas) (rows : List WholeOfferTokenBalance) (maximumDelta : Int) :
    Option Deltas :=
  match rows with
  | [] => some current
  | row :: rows =>
    let amount := current row.token + row.net
    if amount < -maximumDelta ∨ amount > maximumDelta then none
    else addNetRows (Function.update current row.token amount) rows maximumDelta

/-- The loop over the sorted-hash order. -/
def fastPath (maximumDelta : Int) (ordered : List OrderedSource) : Option Deltas :=
  ordered.foldlM (fun balances entry => addNetRows balances entry.rows maximumDelta) fun _ => 0

/-! ## The memoized search -/

structure MergeSearchEnv where
  ordered : List OrderedSource
  maximumDelta : Int
  maxWork : Nat
  shouldAbort : Option AbortCheck

structure MergeSearch where
  failedMasks : List Nat
  path : List Nat
  work : Nat
  exhausted : Bool
  interruptReason : Option AbortReason
  calls : Nat
  deriving DecidableEq, Repr

def MergeSearchEnv.fullMask (env : MergeSearchEnv) : Nat := 2 ^ env.ordered.length - 1

/-- Charge one transition; `false` when the budget or the callback stops the search. -/
def chargeTransition (env : MergeSearchEnv) (search : MergeSearch) : Bool × MergeSearch :=
  if env.maxWork ≤ search.work then (false, { search with exhausted := true })
  else
    let search := { search with work := search.work + 1 }
    if search.work % 256 = 0 then
      match abortReason env.shouldAbort search.calls with
      | (some reason, calls) =>
        (false, { search with exhausted := true, interruptReason := some reason, calls })
      | (none, calls) => (true, { search with calls })
    else (true, search)

/-- The loop of `search(mask)` over the sources: an unused source whose rows fit extends the path
and is searched by `descend`; a mask with no completion is remembered. -/
def trySources (env : MergeSearchEnv) (descend : Nat → Deltas → MergeSearch → Bool × MergeSearch)
    (mask : Nat) (balances : Deltas) :
    List (OrderedSource × Nat) → MergeSearch → Bool × MergeSearch
  | [], search => (false, { search with failedMasks := mask :: search.failedMasks })
  | (source, index) :: rest, search =>
    if mask.testBit index then trySources env descend mask balances rest search
    else
      match chargeTransition env search with
      | (false, search) => (false, search)
      | (true, search) =>
        match addNetRows balances source.rows env.maximumDelta with
        | none => trySources env descend mask balances rest search
        | some nextBalances =>
          match descend (mask ||| 2 ^ index) nextBalances
              { search with path := search.path ++ [index] } with
          | (true, search) => (true, search)
          | (false, search) =>
            let search := { search with path := search.path.dropLast }
            if search.exhausted then (false, search)
            else trySources env descend mask balances rest search

/-- `search(mask)`; the depth left is the number of unused sources. -/
def searchMask (env : MergeSearchEnv) : Nat → Nat → Deltas → MergeSearch → Bool × MergeSearch
  | depth, mask, balances, search =>
    if mask = env.fullMask then (true, search)
    else if mask ∈ search.failedMasks then (false, search)
    else
      match depth with
      | 0 => (false, search)
      | depth + 1 =>
        trySources env (searchMask env depth) mask balances env.ordered.zipIdx search

/-! ## The planner -/

/-- `{ source, offerHash: canonicalToken(source.offerHash), rows: sourceNetRows(source) }`. -/
def orderedSource (source : WholeOfferMergeSource) : Except String OrderedSource := do
  let offerHash ← canonicalToken source.offerHash
  return ⟨offerHash, ← accountWholeOfferBalances [source.toWholeOfferBalanceSource]⟩

/-- The range checks on the options. -/
def checkMergeOrderOptions (maximumDelta maxSources maxWork : Int) : Except String Unit := do
  if maximumDelta ≤ 0 ∨ maximumDelta > maxSettlementAmount then
    throw s!"maximumDelta must be a bigint between 1 and {maxSettlementAmount}"
  if maxSources < 1 ∨ maxSources > maxPhysicalMakersPerMerge then
    throw s!"maxSources must be between 1 and {maxPhysicalMakersPerMerge}"
  if maxWork < 0 ∨ maxWork > maxSafeMergeOrderWork then
    throw s!"maxWork must be between 0 and {maxSafeMergeOrderWork}"

/-- The fallback: search from the empty mask and read the path or the failure off. -/
def fallbackOrder (env : MergeSearchEnv) (calls : Nat) : WholeOfferMergeOrderResult × Nat :=
  match searchMask env env.ordered.length 0 (fun _ => 0) ⟨[], [], 0, false, none, calls⟩ with
  | (true, search) =>
    (.found (search.path.map fun index => (env.ordered[index]?.map (·.offerHash)).getD "") true
      search.work, search.calls)
  | (false, search) =>
    (.failed (match search.interruptReason with
      | some reason => .interrupted reason
      | none => if search.exhausted then .mergeOrderWorkCap else .unsafeMergeOrder)
      search.work, search.calls)

/-- `findSafeWholeOfferMergeOrder`; `calls` is the number of `shouldAbort` calls made before. -/
def findSafeWholeOfferMergeOrder (sources : List WholeOfferMergeSource)
    (options : WholeOfferMergeOrderOptions) (calls : Nat) :
    Except String (WholeOfferMergeOrderResult × Nat) := do
  let maximumDelta := options.maximumDelta.getD maxSettlementAmount
  let maxSources := options.maxSources.getD maxPhysicalMakersPerMerge
  let maxWork := options.maxWork.getD maxSafeMergeOrderWork
  checkMergeOrderOptions maximumDelta maxSources maxWork
  if (sources.length : Int) > maxSources then return (.failed .tooManySources 0, calls)
  let ordered := (← sources.mapM orderedSource).insertionSort byOrderedHash
  if ¬ (ordered.map (·.offerHash)).Nodup then throw "duplicate offer hash in merge sources"
  match fastPath maximumDelta ordered with
  | some _ => return (.found (ordered.map (·.offerHash)) false 0, calls)
  | none => return fallbackOrder ⟨ordered, maximumDelta, maxWork.toNat, options.shouldAbort⟩ calls

end ZswapKernel
