import ZswapKernel.SolverCore.LadderCapped
import ZswapKernel.SolverCore.MergeBudget
import ZswapKernel.SolverCore.PairScratch
import ZswapKernel.SolverCore.ReceiptsExact

/-!
# The incremental pair search is exact

The search on the shared scratch against the plain functions.

* `restore_push` — the `finally` of a pass undoes its writes, so neither check of it fires.
* `visitScratch_refines` — the walk on the scratch is the walk on values.
* `verdict_matches` — the scan of the active tokens is `evaluateWholeOfferPair`.
* `visitScratch_exact` — every visited subset is judged exactly, by induction on the bucket.
* `incremental_search_exact` — the pair searches of a derivation.
-/

namespace ZswapKernel

open SafeOrder

/-! ## Push and restore -/

@[simp] theorem slot_update (table : Nat → Option Int) (index : Nat) (amount : Int) :
    slot (Function.update table index (some amount)) =
      Function.update (slot table) index amount := by
  funext i
  unfold slot
  by_cases h : i = index
  · rw [h, Function.update_self, Function.update_self, Option.getD_some]
  · rw [Function.update_of_ne h, Function.update_of_ne h]

/-- The writes of a pass extend the vectors by its candidate. -/
theorem balances_push (scratch : PairSearchScratch) (candidate : Crossable) (input output : Nat) :
    (scratch.push candidate input output).balances =
      scratch.balances.add input output candidate.amountIn candidate.amountOut := by
  unfold PairSearchScratch.push PairSearchScratch.balances PairBalances.add
  simp only [slot_update, PairSearchScratch.save, decide_eq_true_eq]

/-- The pop of an index that was pushed last. -/
theorem popActive_push (wasAbsent : Bool) (index : Nat) (active : List Nat) :
    popActive wasAbsent index (active ++ if wasAbsent then [index] else []) = (none, active) := by
  unfold popActive
  cases wasAbsent with
  | true => simp
  | false => simp

/-- **The `finally` of a pass** writes back what the pass found, and neither of its checks fires. -/
theorem restore_push (scratch : PairSearchScratch) (candidate : Crossable) (input output : Nat) :
    (scratch.push candidate input output).restore (scratch.save input output) input output =
      (none, scratch) := by
  have hgives : Function.update (scratch.push candidate input output).gives output
      (scratch.gives output) = scratch.gives := by
    unfold PairSearchScratch.push
    rw [Function.update_idem, Function.update_eq_self]
  have hwants : Function.update (scratch.push candidate input output).wants input
      (scratch.wants input) = scratch.wants := by
    unfold PairSearchScratch.push
    rw [Function.update_idem, Function.update_eq_self]
  have hnets : Function.update (Function.update (scratch.push candidate input output).nets output
      (scratch.nets output)) input (scratch.nets input) = scratch.nets := by
    unfold PairSearchScratch.push
    rw [Function.update_idem]
    funext i
    by_cases hin : i = input
    · rw [hin, Function.update_self]
    · rw [Function.update_of_ne hin]
      by_cases hout : i = output
      · rw [hout, Function.update_self]
      · rw [Function.update_of_ne hout, Function.update_of_ne hin]
  have hselected : (scratch.push candidate input output).selected.dropLast = scratch.selected :=
    List.dropLast_concat
  have hactive : (scratch.push candidate input output).activeTokenIndices =
      (scratch.activeTokenIndices ++
        if (scratch.save input output).inputWasAbsent then [input] else []) ++
        if (scratch.save input output).outputWasAbsent then [output] else [] := rfl
  unfold PairSearchScratch.restore
  simp only [hactive, popActive_push, hselected]
  rw [show (scratch.save input output).previousOutputGives = scratch.gives output from rfl,
    show (scratch.save input output).previousOutputNet = scratch.nets output from rfl,
    show (scratch.save input output).previousInputWants = scratch.wants input from rfl,
    show (scratch.save input output).previousInputNet = scratch.nets input from rfl,
    hgives, hwants, hnets]

/-! ## The walk on the scratch is the walk -/

/-- What the walk reads of its state. -/
def ScratchRun.branch (run : ScratchRun) (directInput directOutput : Int)
    (sortedPrefixSafe : Bool) : Branch :=
  ⟨directInput, directOutput, run.scratch.balances, run.scratch.selected, sortedPrefixSafe⟩

/-- The run ends with the meters and witnesses of `search`, and with the scratch it began with. -/
structure ScratchRun.Refines (run' run : ScratchRun) (search : PairSearch) : Prop where
  search_eq : run'.search = search
  restored : run'.scratch = run.scratch

section Refines

variable {env : PairEnv} {bucket : List Crossable}

theorem visitDirect_refines {below : Int → Int → ScratchRun → ScratchRun}
    (hbelow : ∀ (nextInput nextOutput : Int) (run : ScratchRun),
      (below nextInput nextOutput run).Refines run
        (visit env bucket (run.branch nextInput nextOutput true) run.search))
    (candidate : Crossable) (directInput directOutput : Int) (sortedPrefixSafe : Bool)
    (run : ScratchRun) :
    (visitDirect env below candidate directInput directOutput run).Refines run
      (descend env bucket
        (considerDirect candidate (run.branch directInput directOutput sortedPrefixSafe)
          run.search).1
        (considerDirect candidate (run.branch directInput directOutput sortedPrefixSafe)
          run.search).2) := by
  unfold visitDirect considerDirect ScratchRun.branch
  simp only
  by_cases hcapped : directInput + candidate.amountIn > maxSettlementAmount ∨
      directOutput + candidate.amountOut > maxSettlementAmount
  · rw [if_pos hcapped, if_pos hcapped]
    exact ⟨rfl, rfl⟩
  · rw [if_neg hcapped, if_neg hcapped]
    have hpopped : (acceptDirect candidate (directInput + candidate.amountIn)
        (directOutput + candidate.amountOut) run).scratch.selected.dropLast =
          run.scratch.selected := List.dropLast_concat
    split
    · rename_i hmore
      obtain ⟨hsearch, hscratch⟩ := hbelow (directInput + candidate.amountIn)
        (directOutput + candidate.amountOut) (acceptDirect candidate
          (directInput + candidate.amountIn) (directOutput + candidate.amountOut) run)
      refine ⟨hsearch.trans (if_pos hmore).symm, ?_⟩
      rw [hscratch, hpopped]
      rfl
    · rename_i hmore
      refine ⟨(if_neg hmore).symm, ?_⟩
      rw [hpopped]
      rfl

/-- The branch that the composed arm hands down. -/
theorem branch_extendScratch (candidate : Crossable) (directInput directOutput : Int)
    (sortedPrefixSafe : Bool) (run : ScratchRun) :
    composedBranch env candidate (run.branch directInput directOutput sortedPrefixSafe) =
      ⟨0, 0, (extendScratch env.tokenAt candidate (run.scratch, sortedPrefixSafe)).1.balances,
        (extendScratch env.tokenAt candidate (run.scratch, sortedPrefixSafe)).1.selected,
        (extendScratch env.tokenAt candidate (run.scratch, sortedPrefixSafe)).2⟩ := by
  unfold composedBranch extendScratch ScratchRun.branch
  simp only [balances_push]
  rw [← balances_push]
  rfl

theorem considerComposed_verdict (candidate : Crossable) (branch : Branch) (search : PairSearch) :
    considerComposed env candidate branch search =
      (some (composedBranch env candidate branch),
        ((composedBranch env candidate branch).balances.verdict (indexIn env.tokenAt env.tokenIn)
          (indexIn env.tokenAt env.tokenOut)).judge env (composedBranch env candidate branch)
          search) := by
  rw [considerComposed_eq]
  unfold PairBalances.verdict
  simp only
  split
  · cases scanActive (composedBranch env candidate branch).balances.nets
      (indexIn env.tokenAt env.tokenIn)
      (composedBranch env candidate branch).balances.activeTokenIndices false with
    | none => rfl
    | some capped => cases capped <;> rfl
  · rfl

theorem descend_more {next : Branch} {search : PairSearch} (h : search.stop.isNone = true ∧
    next.selected.length < env.budget.limits.maxMakersPerCombination) :
    descend env bucket (some next) search = visit env bucket next search :=
  if_pos h

theorem descend_done {next : Branch} {search : PairSearch} (h : ¬ (search.stop.isNone = true ∧
    next.selected.length < env.budget.limits.maxMakersPerCombination)) :
    descend env bucket (some next) search = search :=
  if_neg h

/-- The composed arm, read off the run that judges its subset. -/
theorem considerComposed_judged (candidate : Crossable) (directInput directOutput : Int)
    (sortedPrefixSafe : Bool) (run : ScratchRun) :
    considerComposed env candidate (run.branch directInput directOutput sortedPrefixSafe)
        run.search =
      (some ((judgeComposed env candidate sortedPrefixSafe run).branch 0 0
        (extendScratch env.tokenAt candidate (run.scratch, sortedPrefixSafe)).2),
        (judgeComposed env candidate sortedPrefixSafe run).search) := by
  rw [considerComposed_verdict, branch_extendScratch]
  rfl

theorem visitComposed_refines {below : Bool → ScratchRun → ScratchRun}
    (hbelow : ∀ (nextSortedPrefixSafe : Bool) (run : ScratchRun),
      (below nextSortedPrefixSafe run).Refines run
        (visit env bucket (run.branch 0 0 nextSortedPrefixSafe) run.search))
    (candidate : Crossable) (directInput directOutput : Int) (sortedPrefixSafe : Bool)
    (run : ScratchRun) :
    (visitComposed env below candidate sortedPrefixSafe run).Refines run
      (descend env bucket
        (considerComposed env candidate (run.branch directInput directOutput sortedPrefixSafe)
          run.search).1
        (considerComposed env candidate (run.branch directInput directOutput sortedPrefixSafe)
          run.search).2) := by
  rw [considerComposed_judged]
  have hdone : ∀ run' : ScratchRun,
      run'.scratch = (judgeComposed env candidate sortedPrefixSafe run).scratch →
      (run'.finish (run.scratch.save (indexIn env.tokenAt candidate.tokenIn)
        (indexIn env.tokenAt candidate.tokenOut)) (indexIn env.tokenAt candidate.tokenIn)
        (indexIn env.tokenAt candidate.tokenOut)).Refines run run'.search := by
    intro run' hscratch
    have hpushed : run'.scratch = run.scratch.push candidate
        (indexIn env.tokenAt candidate.tokenIn) (indexIn env.tokenAt candidate.tokenOut) := hscratch
    unfold ScratchRun.finish
    rw [hpushed, restore_push]
    exact ⟨rfl, rfl⟩
  unfold visitComposed
  simp only
  split
  · rename_i hmore
    rw [descend_more hmore]
    obtain ⟨hsearch, hscratch⟩ := hbelow
      (extendScratch env.tokenAt candidate (run.scratch, sortedPrefixSafe)).2
      (judgeComposed env candidate sortedPrefixSafe run)
    obtain ⟨hfinished, hrestored⟩ := hdone _ hscratch
    exact ⟨hfinished.trans hsearch, hrestored⟩
  · rename_i hmore
    rw [descend_done hmore]
    exact hdone _ rfl

/-- **The walk on the scratch** is the walk, and it hands the scratch back as it was. -/
theorem visitScratch_refines (env : PairEnv) (bucket : List Crossable) :
    ∀ (directInput directOutput : Int) (sortedPrefixSafe : Bool) (run : ScratchRun),
      (visitScratch env bucket directInput directOutput sortedPrefixSafe run).Refines run
        (visit env bucket (run.branch directInput directOutput sortedPrefixSafe) run.search) := by
  induction bucket with
  | nil => exact fun _ _ _ _ => ⟨rfl, rfl⟩
  | cons candidate bucket ih =>
    intro directInput directOutput sortedPrefixSafe run
    rw [visitScratch, visit]
    by_cases hstop : run.search.stop.isSome = true
    · rw [if_pos hstop, if_pos hstop]
      exact ⟨rfl, rfl⟩
    rw [if_neg hstop, if_neg hstop]
    simp only
    by_cases henter : (enterSubset env.budget run.search).stop.isSome = true
    · rw [if_pos henter, if_pos henter]
      exact ⟨rfl, rfl⟩
    rw [if_neg henter, if_neg henter]
    cases hdirect : env.direct with
    | true =>
      simp only [if_true]
      obtain ⟨hsearch, hscratch⟩ := visitDirect_refines
        (fun nextInput nextOutput run => ih nextInput nextOutput true run) candidate directInput
        directOutput sortedPrefixSafe { run with search := enterSubset env.budget run.search }
      obtain ⟨hrest, hrestored⟩ := ih directInput directOutput sortedPrefixSafe
        (visitDirect env (fun nextInput nextOutput run =>
          visitScratch env bucket nextInput nextOutput true run) candidate directInput directOutput
          { run with search := enterSubset env.budget run.search })
      refine ⟨?_, hrestored.trans hscratch⟩
      rw [hrest, hsearch]
      unfold ScratchRun.branch
      rw [hscratch]
      rfl
    | false =>
      simp only [Bool.false_eq_true, if_false]
      obtain ⟨hsearch, hscratch⟩ := visitComposed_refines
        (fun nextSortedPrefixSafe run => ih 0 0 nextSortedPrefixSafe run) candidate directInput
        directOutput sortedPrefixSafe { run with search := enterSubset env.budget run.search }
      obtain ⟨hrest, hrestored⟩ := ih directInput directOutput sortedPrefixSafe
        (visitComposed env (fun nextSortedPrefixSafe run =>
          visitScratch env bucket 0 0 nextSortedPrefixSafe run) candidate sortedPrefixSafe
          { run with search := enterSubset env.budget run.search })
      refine ⟨?_, hrestored.trans hscratch⟩
      rw [hrest, hsearch]
      unfold ScratchRun.branch
      rw [hscratch]
      rfl

end Refines

/-! ## The plain functions on a subset -/

/-- The row of a token; a token without one has no amount. -/
def rowOf (rows : List WholeOfferTokenBalance) (token : String) : WholeOfferTokenBalance :=
  (rows.find? (·.token = token)).getD ⟨token, 0, 0, 0⟩

theorem Accounts.rowOf_eq {rows : List WholeOfferTokenBalance} {gives wants : Amounts}
    (h : Accounts rows gives wants) (token : String) : rowOf rows token = rowAt gives wants token := by
  unfold rowOf
  cases hfind : rows.find? (·.token = token) with
  | some row =>
    have htoken : row.token = token := by simpa using List.find?_some hfind
    rw [Option.getD_some, h.eq_rowAt (List.mem_of_find?_eq_some hfind), htoken]
  | none =>
    have hnone : ¬ (gives token ≠ 0 ∨ wants token ≠ 0) := fun hne =>
      absurd (decide_eq_true rfl) (List.find?_eq_none.mp hfind _ ((h.mem_iff _).mpr ⟨token, hne, rfl⟩))
    rw [not_or, not_not, not_not] at hnone
    unfold rowAt
    rw [hnone.1, hnone.2]
    rfl

/-- The verdict of the search is the outcome of `evaluateWholeOfferPair`. -/
def PairVerdict.Matches (verdict : PairVerdict)
    (evaluated : Except String (Except WholeOfferPairFailure WholeOfferPairBalance)) : Prop :=
  match verdict with
  | .rejected => ∃ failure, evaluated = .ok (.error failure) ∧
      failure.reason ≠ .settlementAmountCap
  | .amountCapped => ∃ failure, evaluated = .ok (.error failure) ∧
      failure.reason = .settlementAmountCap
  | .economic input output => ∃ pair, evaluated = .ok (.ok pair) ∧ pair.input = input ∧
      pair.output = output

/-- The plain functions account for the makers by `rows` and judge the pair as `verdict` does. -/
structure PlainlyJudged (tokenIn tokenOut : String) (makers : List Crossable)
    (rows : List WholeOfferTokenBalance) (verdict : PairVerdict) : Prop where
  accounted : accountWholeOfferBalances
    (makers.map fun offer => offer.mergeSource.toWholeOfferBalanceSource) = .ok rows
  evaluated : verdict.Matches (evaluateWholeOfferPair rows tokenIn tokenOut)

/-- `safe` is the sorted-order check of the merge-order helper. -/
def SortedOrderCheck (makers : List Crossable) (safe : Bool) : Prop :=
  ∃ ordered, (makers.map (·.mergeSource)).mapM orderedSource = .ok ordered ∧
    safe = (fastPath maxSettlementAmount (ordered.insertionSort byOrderedHash)).isSome

theorem sortedOrderCheck_of_iff {makers : List Crossable} (hvalid : ∀ offer ∈ makers, offer.Valid)
    (hsorted : makers.Pairwise (·.offerHash < ·.offerHash)) {safe : Bool}
    (h : safe = true ↔ SafeFrom (InRange maxSettlementAmount) 0 (makers.map (·.net))) :
    SortedOrderCheck makers safe := by
  obtain ⟨ordered, hmap, hrows, hnet, -, hsort⟩ := mapM_orderedSource_makers hvalid hsorted
  refine ⟨ordered, hmap, ?_⟩
  rw [hsort, Bool.eq_iff_iff, h, ← hnet, ← fastPath_isSome (by decide) hrows,
    Option.isSome_iff_exists]

/-! ## What the scratch holds -/

/-- The scratch and the prefix flag of the selection `makers`. -/
structure ScratchHolds (tokenAt : List String) (makers : List Crossable)
    (state : PairSearchScratch × Bool) : Prop where
  balances : state.1.balances.Holds tokenAt makers
  selected : state.1.selected = makers
  prefixSafe : state.2 = true ↔ SafeFrom (InRange maxSettlementAmount) 0 (makers.map (·.net))

theorem scratchHolds_nil (tokenAt : List String) : ScratchHolds tokenAt [] ({}, true) :=
  ⟨PairBalances.holds_nil tokenAt, rfl, iff_of_true rfl trivial⟩

/-- **One candidate further** the scratch and the flag are those of the longer selection. -/
theorem ScratchHolds.extend {tokenAt : List String} {makers : List Crossable}
    {state : PairSearchScratch × Bool} (h : ScratchHolds tokenAt makers state) {offer : Crossable}
    (hmakers : ∀ maker ∈ makers, maker.Valid) (hvalid : offer.Valid)
    (hin : offer.tokenIn ∈ tokenAt) (hout : offer.tokenOut ∈ tokenAt) :
    ScratchHolds tokenAt (makers ++ [offer]) (extendScratch tokenAt offer state) := by
  have hbalances : (extendScratch tokenAt offer state).1.balances.Holds tokenAt
      (makers ++ [offer]) := by
    have hadd := h.balances.add hvalid hmakers hin hout
    rw [← balances_push] at hadd
    exact hadd
  refine ⟨hbalances, congrArg (· ++ [offer]) h.selected, ?_⟩
  have hflag : (extendScratch tokenAt offer state).2 = (state.2 &&
      inSettlementRange ((extendScratch tokenAt offer state).1.balances.nets
        (indexIn tokenAt offer.tokenIn)) &&
      inSettlementRange ((extendScratch tokenAt offer state).1.balances.nets
        (indexIn tokenAt offer.tokenOut))) := rfl
  rw [hflag, hbalances.nets _ hin, hbalances.nets _ hout, Bool.and_eq_true, Bool.and_eq_true,
    inSettlementRange_iff, inSettlementRange_iff, h.prefixSafe, and_assoc]
  constructor
  · exact fun hall => (safeFrom_concat_iff hall.1).mpr hall.2
  · intro hsafe
    have hpre := hsafe
    rw [List.map_append, safeFrom_append] at hpre
    exact ⟨hpre.1, (safeFrom_concat_iff hpre.1).mp hsafe⟩

/-! ## The verdict -/

/-- A scan that names no additional deficit has seen every deficit. -/
theorem only_deficit_of_scan {balances : PairBalances} {tokenAt : List String}
    {makers : List Crossable} (h : balances.Holds tokenAt makers) (hindexed : Indexed tokenAt makers)
    {tokenIn : String} {capped : Bool}
    (hscan : scanActive balances.nets (indexIn tokenAt tokenIn) balances.activeTokenIndices false =
      some capped) (token : String) (hneg : netSupply makers token < 0) : token = tokenIn := by
  by_contra hne
  have hamount := hasAmount_of_netSupply_ne hneg.ne
  have htoken := hasAmount_mem hindexed hamount
  have hdeficit : ∃ index ∈ balances.activeTokenIndices, index ≠ indexIn tokenAt tokenIn ∧
      balances.nets index < 0 := by
    refine ⟨_, (h.active _).mpr ⟨token, htoken, rfl, hamount⟩, mt (indexIn_inj htoken).mp hne, ?_⟩
    rw [h.nets token htoken]
    exact hneg
  rw [scanActive_eq_none.mpr hdeficit] at hscan
  cases hscan

/-- What a pair search relies on beyond its indices: both tokens are canonical. -/
structure PairEnv.Canonical (env : PairEnv) : Prop extends env.Sound where
  canonicalIn : CanonicalToken env.tokenIn
  canonicalOut : CanonicalToken env.tokenOut

def PairEnv.verdict (env : PairEnv) (balances : PairBalances) : PairVerdict :=
  balances.verdict (indexIn env.tokenAt env.tokenIn) (indexIn env.tokenAt env.tokenOut)

section Judged

variable {env : PairEnv} {makers : List Crossable} {balances : PairBalances}

theorem netSupply_sourcesNet (hvalid : ∀ offer ∈ makers, offer.Valid) :
    sourcesNet (makers.map fun offer => offer.mergeSource.toWholeOfferBalanceSource) =
      netSupply makers := by
  unfold sourcesNet
  rw [mergeSources_gives hvalid, mergeSources_wants hvalid, netSupply_eq]

/-- The rows of a selection, as the plain functions and as the search have them. -/
theorem accounted_rows (h : balances.Holds env.tokenAt makers)
    (hoffers : ∀ offer ∈ makers, env.Offers offer) :
    ∃ rows, accountWholeOfferBalances
        (makers.map fun offer => offer.mergeSource.toWholeOfferBalanceSource) = .ok rows ∧
      CanonicalAccounts rows (netSupply makers) ∧ balances.rows env.tokenAt = rows ∧
      ∀ token ∈ env.tokenAt, rowOf rows token = ⟨token, balances.gives (indexIn env.tokenAt token),
        balances.wants (indexIn env.tokenAt token), balances.nets (indexIn env.tokenAt token)⟩ := by
  have hvalid : ∀ offer ∈ makers, offer.Valid := fun o ho => (hoffers o ho).valid
  have hindexed : Indexed env.tokenAt makers := fun o ho =>
    ⟨(hoffers o ho).tokenIn_mem, (hoffers o ho).tokenOut_mem⟩
  have hsources : ∀ source ∈ makers.map fun offer => offer.mergeSource.toWholeOfferBalanceSource,
      ValidSource source := by
    intro source hsource
    obtain ⟨offer, hoffer, rfl⟩ := List.mem_map.mp hsource
    exact (hvalid offer hoffer).mergeSource.toValidSource
  obtain ⟨rows, hrows, haccounts⟩ := accountMakers_ok hvalid
  obtain ⟨rows', hrows', hcanonical⟩ := accountWholeOfferBalances_canonical hsources
  obtain rfl : rows = rows' := Except.ok.inj (hrows.symm.trans hrows')
  rw [netSupply_sourcesNet hvalid] at hcanonical
  refine ⟨rows, hrows, hcanonical, (h.accounts hindexed).unique haccounts, fun token htoken => ?_⟩
  rw [haccounts.rowOf_eq, h.gives token htoken, h.wants token htoken, h.nets token htoken,
    netSupply_eq]
  rfl

/-- **The verdict** of the search is that of `evaluateWholeOfferPair` on the rows. -/
theorem verdict_matches (henv : env.Canonical) (h : balances.Holds env.tokenAt makers)
    (hoffers : ∀ offer ∈ makers, env.Offers offer) {rows : List WholeOfferTokenBalance}
    (hrows : CanonicalAccounts rows (netSupply makers)) :
    (env.verdict balances).Matches (evaluateWholeOfferPair rows env.tokenIn env.tokenOut) := by
  have hindexed : Indexed env.tokenAt makers := fun o ho =>
    ⟨(hoffers o ho).tokenIn_mem, (hoffers o ho).tokenOut_mem⟩
  have hscan := scanActive_holds h hindexed env.tokenIn
  have hrefused := fun hnot => hrows.evaluateWholeOfferPair_refused henv.canonicalIn
    henv.canonicalOut henv.distinct hnot
  unfold PairEnv.verdict PairBalances.verdict
  simp only
  rw [h.nets _ henv.tokenIn, h.nets _ henv.tokenOut]
  by_cases hnets : netSupply makers env.tokenIn < 0 ∧ netSupply makers env.tokenOut > 0
  · rw [if_pos hnets]
    cases hrun : scanActive balances.nets (indexIn env.tokenAt env.tokenIn)
        balances.activeTokenIndices false with
    | none =>
      rw [hrun] at hscan
      obtain ⟨token, hne, hneg⟩ := hscan
      obtain ⟨failure, heval, hreason⟩ :=
        hrefused fun hfeasible => hne (hfeasible.only_deficit token hneg)
      exact ⟨failure, heval, fun hcap => hne ((hreason.mp hcap).2.2 token hneg)⟩
    | some capped =>
      have honly := only_deficit_of_scan h hindexed hrun
      rw [hrun] at hscan
      cases capped with
      | true =>
        obtain ⟨failure, heval, hreason⟩ := hrefused fun hfeasible => hscan hfeasible.in_range
        exact ⟨failure, heval, hreason.mpr ⟨hnets.1, hnets.2, honly⟩⟩
      | false =>
        refine ⟨_, hrows.evaluateWholeOfferPair_iff.mpr
          ⟨⟨henv.canonicalIn.hex, henv.canonicalOut.hex⟩, ?_, rfl⟩, ?_, ?_⟩
        · rw [henv.canonicalIn.lower, henv.canonicalOut.lower]
          exact ⟨henv.distinct, hnets.1, hnets.2, honly, hscan.2⟩
        · simp only [henv.canonicalIn.lower]
        · simp only [henv.canonicalOut.lower]
  · rw [if_neg hnets]
    obtain ⟨failure, heval, hreason⟩ :=
      hrefused fun hfeasible => hnets ⟨hfeasible.input_neg, hfeasible.output_pos⟩
    exact ⟨failure, heval, fun hcap => hnets ⟨(hreason.mp hcap).1, (hreason.mp hcap).2.1⟩⟩

/-- The verdict on makers that are all on the pair itself. -/
theorem verdict_direct (henv : env.Canonical) (h : balances.Holds env.tokenAt makers)
    (hoffers : ∀ offer ∈ makers, env.Offers offer) (hdirect : env.direct = true)
    (hne : makers ≠ []) :
    env.verdict balances =
      if (makers.map (·.amountIn)).sum > maxSettlementAmount ∨
          (makers.map (·.amountOut)).sum > maxSettlementAmount then .amountCapped
      else .economic (makers.map (·.amountIn)).sum (makers.map (·.amountOut)).sum := by
  have hvalid : ∀ offer ∈ makers, offer.Valid := fun o ho => (hoffers o ho).valid
  have hpair : ∀ offer ∈ makers, offer.tokenIn = env.tokenIn ∧ offer.tokenOut = env.tokenOut :=
    fun o ho => (hoffers o ho).direct hdirect
  have hindexed : Indexed env.tokenAt makers := fun o ho =>
    ⟨(hoffers o ho).tokenIn_mem, (hoffers o ho).tokenOut_mem⟩
  have hpos := sum_amounts_pos hvalid hne
  have hrange := inRange_netSupply_direct henv.distinct hpair hvalid
  have hin : netSupply makers env.tokenIn = -(makers.map (·.amountIn)).sum := by
    rw [netSupply_direct henv.distinct hpair, if_pos rfl]
  have hout : netSupply makers env.tokenOut = (makers.map (·.amountOut)).sum := by
    rw [netSupply_direct henv.distinct hpair, if_neg henv.distinct.symm, if_pos rfl]
  have hscan := scanActive_holds h hindexed env.tokenIn
  unfold PairEnv.verdict PairBalances.verdict
  simp only
  rw [h.nets _ henv.tokenIn, h.nets _ henv.tokenOut, hin, hout, if_pos ⟨by omega, hpos.2⟩]
  cases hrun : scanActive balances.nets (indexIn env.tokenAt env.tokenIn)
      balances.activeTokenIndices false with
  | none =>
    rw [hrun] at hscan
    obtain ⟨token, hne, hneg⟩ := hscan
    rw [netSupply_direct henv.distinct hpair, if_neg hne] at hneg
    split at hneg <;> omega
  | some capped =>
    rw [hrun] at hscan
    cases capped with
    | true =>
      rw [if_pos]
      by_contra hle
      exact hscan (hrange.mpr (by omega))
    | false =>
      have hle := hrange.mp hscan.2
      rw [if_neg (by omega), neg_neg]

end Judged

/-! ## No search throws -/

/-- The search has not ended in an exception. -/
def PairSearch.Unthrown (search : PairSearch) : Prop :=
  ∀ message, search.stop ≠ some (.thrown message)

theorem unthrown_halt (search : PairSearch) (reason : SearchReason) :
    (search.halt reason).Unthrown := fun _ h => by cases h

theorem enterSubset_unthrown {search : PairSearch} (h : search.Unthrown) (budget : Budget) :
    (enterSubset budget search).Unthrown := by
  unfold enterSubset
  split
  · exact unthrown_halt _ _
  · split
    · exact unthrown_halt _ _
    · simp only
      split
      · cases hpoll : budget.poll { search.work with
          diagnostics := { search.work.diagnostics with
            visitedSubsets := search.work.diagnostics.visitedSubsets + 1 } } with
        | mk reason work =>
          cases reason with
          | none => exact h
          | some reason => exact unthrown_halt _ _
      · exact h

theorem chargeMergeOrder_unthrown {search : PairSearch} (h : search.Unthrown) (budget : Budget)
    (units : Nat) : (chargeMergeOrder budget units search).Unthrown := by
  unfold chargeMergeOrder
  split
  · exact h
  · cases hcharge : budget.chargeUnits .safeMergeOrder units search.work with
    | mk stop work =>
      cases stop with
      | none => exact h
      | some stop => exact unthrown_halt _ _

/-- The planner accepts the makers of a selection, whatever the budget and the callback. -/
theorem findSafeWholeOfferMergeOrder_accepts {makers : List Crossable}
    (hvalid : ∀ offer ∈ makers, offer.Valid)
    (hsorted : makers.Pairwise (·.offerHash < ·.offerHash)) {limit : Nat}
    (hlimit : limit ≤ maxSafeMergeOrderWork) (shouldAbort : Option AbortCheck) (calls : Nat) :
    ∃ result, findSafeWholeOfferMergeOrder (makers.map (·.mergeSource))
      { maxWork := some (limit : Int), shouldAbort } calls = .ok result := by
  obtain ⟨ordered, hmap, -, -, hhashes, hsort⟩ := mapM_orderedSource_makers hvalid hsorted
  have hnodup : ((ordered.insertionSort byOrderedHash).map (·.offerHash)).Nodup := by
    rw [hsort, hhashes]
    exact (List.pairwise_map.mpr hsorted).imp ne_of_lt
  have hcheck : checkMergeOrderOptions maxSettlementAmount maxPhysicalMakersPerMerge (limit : Int) =
      .ok () := by
    unfold checkMergeOrderOptions
    rw [if_neg (by decide), if_neg (by decide), if_neg (by omega)]
    rfl
  unfold findSafeWholeOfferMergeOrder
  simp only [Option.getD_none, Option.getD_some, hcheck, bind, Except.bind]
  split
  · exact ⟨_, rfl⟩
  · rw [hmap]
    simp only
    rw [if_neg (not_not.mpr hnodup)]
    split
    · exact ⟨_, rfl⟩
    · exact ⟨_, rfl⟩

theorem considerEconomic_unthrown {env : PairEnv} {branch : Branch} {search : PairSearch}
    (hvalid : ∀ offer ∈ branch.selected, offer.Valid)
    (hsorted : branch.selected.Pairwise (·.offerHash < ·.offerHash)) (input output : Int)
    (h : search.Unthrown) : (considerEconomic env branch input output search).Unthrown := by
  unfold considerEconomic
  simp only
  have hplanned : ∃ planned, (if branch.sortedPrefixSafe = true then
      Except.ok (WholeOfferMergeOrderResult.found [] false 0, search.work.abortCalls)
    else findSafeWholeOfferMergeOrder (branch.selected.map (·.mergeSource))
      { maxWork := some ↑(min maxSafeMergeOrderWork (env.budget.remaining search.work)),
        shouldAbort := env.budget.shouldAbort } search.work.abortCalls) = .ok planned := by
    split
    · exact ⟨_, rfl⟩
    · exact findSafeWholeOfferMergeOrder_accepts hvalid hsorted (Nat.min_le_left _ _) _ _
  obtain ⟨⟨mergeOrder, calls⟩, hplan⟩ := hplanned
  rw [hplan]
  have hcalled : ({ search with
      work := { search.work with abortCalls := calls } } : PairSearch).Unthrown := h
  have hcharged := chargeMergeOrder_unthrown hcalled env.budget
  cases mergeOrder with
  | found hashes usedFallback units =>
    simp only
    split
    · exact hcharged units
    · exact hcharged units
  | failed reason units =>
    simp only
    split
    · exact hcharged units
    · cases reason with
      | tooManySources => exact hcharged units
      | unsafeMergeOrder => exact hcharged units
      | mergeOrderWorkCap => exact unthrown_halt _ _
      | interrupted reason => exact unthrown_halt _ _

theorem judge_unthrown {env : PairEnv} {branch : Branch} {search : PairSearch}
    (hvalid : ∀ offer ∈ branch.selected, offer.Valid)
    (hsorted : branch.selected.Pairwise (·.offerHash < ·.offerHash)) (verdict : PairVerdict)
    (h : search.Unthrown) : (verdict.judge env branch search).Unthrown := by
  cases verdict with
  | rejected => exact h
  | amountCapped => exact h
  | economic input output => exact considerEconomic_unthrown hvalid hsorted input output h

/-! ## Every visited subset -/

/-- The state of the composed arm on a selection, candidate by candidate. -/
def extendAll (tokenAt : List String) (selected : List Crossable) : PairSearchScratch × Bool :=
  selected.foldl (fun state candidate => extendScratch tokenAt candidate state) ({}, true)

theorem extendAll_concat (tokenAt : List String) (selected : List Crossable)
    (candidate : Crossable) : extendAll tokenAt (selected ++ [candidate]) =
      extendScratch tokenAt candidate (extendAll tokenAt selected) := by
  unfold extendAll
  rw [List.foldl_append]
  rfl

theorem extendAll_holds {env : PairEnv} {makers : List Crossable}
    (hoffers : ∀ offer ∈ makers, env.Offers offer) :
    ScratchHolds env.tokenAt makers (extendAll env.tokenAt makers) := by
  induction makers using List.reverseRecOn with
  | nil => exact scratchHolds_nil env.tokenAt
  | append_singleton makers offer ih =>
    have hoffer := hoffers offer (List.mem_append_right _ List.mem_cons_self)
    have hmakers : ∀ maker ∈ makers, env.Offers maker := fun maker hmaker =>
      hoffers maker (List.mem_append_left _ hmaker)
    rw [extendAll_concat]
    exact (ih hmakers).extend (fun maker hmaker => (hmakers maker hmaker).valid) hoffer.valid
      hoffer.tokenIn_mem hoffer.tokenOut_mem

/-- The general path's verdict on a selection. -/
def PairEnv.generalVerdict (env : PairEnv) (selected : List Crossable) : PairVerdict :=
  env.verdict (extendAll env.tokenAt selected).1.balances

/-- A subset of a composed bucket: the tables are the rows of `accountWholeOfferBalances`, the
verdict is that of `evaluateWholeOfferPair`, and the flag is the sorted-order check. -/
structure ComposedExact (env : PairEnv) (selected : List Crossable) (balances : PairBalances)
    (nextSortedPrefixSafe : Bool) (verdict : PairVerdict) : Prop where
  judged : PlainlyJudged env.tokenIn env.tokenOut selected (balances.rows env.tokenAt) verdict
  slots : ∀ token ∈ env.tokenAt, rowOf (balances.rows env.tokenAt) token =
    ⟨token, balances.gives (indexIn env.tokenAt token), balances.wants (indexIn env.tokenAt token),
      balances.nets (indexIn env.tokenAt token)⟩
  prefixSafe : SortedOrderCheck selected nextSortedPrefixSafe

/-- A subset of a direct bucket: it is accepted exactly when the general path accepts it, with the
same amounts and with no order to plan; a refused one is capped, and so is all that extends it. -/
structure DirectExact (env : PairEnv) (bucket selected : List Crossable)
    (nextInput nextOutput : Int) (accepted : Bool) : Prop where
  general : env.generalVerdict selected =
    if accepted then .economic nextInput nextOutput else .amountCapped
  judged : ∃ rows, PlainlyJudged env.tokenIn env.tokenOut selected rows
    (env.generalVerdict selected)
  sorted : SortedOrderCheck selected accepted ∧ (extendAll env.tokenAt selected).2 = accepted
  pruned : accepted = false → ∀ more : List Crossable, (∀ offer ∈ more, offer ∈ bucket) →
    env.generalVerdict (selected ++ more) = .amountCapped

/-- What the search holds of a visited subset is what the plain functions make of it. -/
def VisitedSubset.Exact (env : PairEnv) (bucket : List Crossable) : VisitedSubset → Prop
  | .direct selected nextInput nextOutput accepted =>
    env.direct = true ∧ DirectExact env bucket selected nextInput nextOutput accepted
  | .composed selected balances nextSortedPrefixSafe verdict =>
    env.direct = false ∧ ComposedExact env selected balances nextSortedPrefixSafe verdict

section Visited

variable {env : PairEnv} {bucket makers : List Crossable}

/-- **A composed subset.** -/
theorem ScratchHolds.exact (henv : env.Canonical) {state : PairSearchScratch × Bool}
    (h : ScratchHolds env.tokenAt makers state) (hoffers : ∀ offer ∈ makers, env.Offers offer)
    (hsorted : makers.Pairwise (·.offerHash < ·.offerHash)) :
    ComposedExact env makers state.1.balances state.2 (env.verdict state.1.balances) := by
  obtain ⟨rows, haccounted, hcanonical, hrows, hslots⟩ := accounted_rows h.balances hoffers
  refine ⟨⟨by rw [haccounted, hrows], ?_⟩, ?_, ?_⟩
  · rw [hrows]
    exact verdict_matches henv h.balances hoffers hcanonical
  · rw [hrows]
    exact hslots
  · exact sortedOrderCheck_of_iff (fun o ho => (hoffers o ho).valid) hsorted h.prefixSafe

theorem direct_sums (hoffers : ∀ offer ∈ makers, env.Offers offer) :
    0 ≤ (makers.map (·.amountIn)).sum ∧ 0 ≤ (makers.map (·.amountOut)).sum :=
  sum_amounts_nonneg fun o ho => (hoffers o ho).valid

/-- **A direct subset.** -/
theorem direct_exact (henv : env.Canonical) (hdirect : env.direct = true) (hne : makers ≠ [])
    (hoffers : ∀ offer ∈ makers, env.Offers offer) (hbucket : ∀ offer ∈ bucket, env.Offers offer)
    (hsorted : makers.Pairwise (·.offerHash < ·.offerHash)) {accepted : Bool}
    (haccepted : accepted = true ↔ ¬ ((makers.map (·.amountIn)).sum > maxSettlementAmount ∨
      (makers.map (·.amountOut)).sum > maxSettlementAmount)) :
    DirectExact env bucket makers (makers.map (·.amountIn)).sum (makers.map (·.amountOut)).sum
      accepted := by
  have hholds := extendAll_holds hoffers
  have hvalid : ∀ offer ∈ makers, offer.Valid := fun o ho => (hoffers o ho).valid
  have hpair : ∀ offer ∈ makers, offer.tokenIn = env.tokenIn ∧ offer.tokenOut = env.tokenOut :=
    fun o ho => (hoffers o ho).direct hdirect
  have hexact := hholds.exact henv hoffers hsorted
  have hgeneral : env.generalVerdict makers = _ :=
    verdict_direct henv hholds.balances hoffers hdirect hne
  have hsafe : accepted = true ↔
      SafeFrom (InRange maxSettlementAmount) 0 (makers.map (·.net)) := by
    rw [haccepted, not_or, not_lt, not_lt]
    constructor
    · exact fun hle => safeFrom_direct henv.distinct hpair hvalid hle.1 hle.2
    · intro hsafe
      have hrange := hsafe.sum_ok (inRange_zero (by decide))
      rw [zero_add] at hrange
      exact (inRange_netSupply_direct henv.distinct hpair hvalid).mp hrange
  refine ⟨?_, ⟨_, hexact.judged⟩,
    ⟨sortedOrderCheck_of_iff hvalid hsorted hsafe, ?_⟩, fun hrefused more hmore => ?_⟩
  · rw [hgeneral]
    cases accepted with
    | true => rw [if_neg (haccepted.mp rfl), if_pos rfl]
    | false =>
      rw [if_pos (by by_contra hle; exact absurd (haccepted.mpr hle) (by simp)), if_neg (by simp)]
  · rw [Bool.eq_iff_iff, hholds.prefixSafe, hsafe]
  · have hmoreOffers : ∀ offer ∈ more, env.Offers offer := fun o ho => hbucket o (hmore o ho)
    have hall : ∀ offer ∈ makers ++ more, env.Offers offer := fun o ho =>
      (List.mem_append.mp ho).elim (hoffers o) (hmoreOffers o)
    have hcapped : (makers.map (·.amountIn)).sum > maxSettlementAmount ∨
        (makers.map (·.amountOut)).sum > maxSettlementAmount := by
      by_contra hle
      rw [haccepted.mpr hle] at hrefused
      cases hrefused
    have hrest := direct_sums hmoreOffers
    have hverdict : env.generalVerdict (makers ++ more) = _ := verdict_direct henv
      (extendAll_holds hall).balances hall hdirect (by simp [hne])
    rw [hverdict, if_pos]
    simp only [List.map_append, List.sum_append]
    omega

/-! ## The run -/

/-- No exception, and every subset visited so far is judged exactly. -/
structure ScratchRun.Exact (env : PairEnv) (full : List Crossable) (run : ScratchRun) : Prop where
  unthrown : run.search.Unthrown
  visited : ∀ subset ∈ run.visited, subset.Exact env full

/-- The run and the arguments of `visit` are those of the selection. -/
structure ScratchRun.At (env : PairEnv) (selected : List Crossable) (directInput directOutput : Int)
    (sortedPrefixSafe : Bool) (run : ScratchRun) : Prop where
  stack : run.scratch.selected = selected
  input : env.direct = true → directInput = (selected.map (·.amountIn)).sum
  output : env.direct = true → directOutput = (selected.map (·.amountOut)).sum
  holds : env.direct = false →
    ScratchHolds env.tokenAt selected (run.scratch, sortedPrefixSafe)

/-- A later run with the same scratch is at the same selection. -/
theorem ScratchRun.At.of_scratch {selected : List Crossable} {directInput directOutput : Int}
    {sortedPrefixSafe : Bool} {run run' : ScratchRun}
    (h : run.At env selected directInput directOutput sortedPrefixSafe)
    (hscratch : run'.scratch = run.scratch) :
    run'.At env selected directInput directOutput sortedPrefixSafe := by
  refine ⟨by rw [hscratch]; exact h.stack, h.input, h.output, fun hcomposed => ?_⟩
  rw [hscratch]
  exact h.holds hcomposed

theorem ScratchRun.Exact.visit_one {full : List Crossable} {run run' : ScratchRun}
    (h : run.Exact env full) {subset : VisitedSubset} (hsubset : subset.Exact env full)
    (hunthrown : run'.search.Unthrown) (hvisited : run'.visited = run.visited ++ [subset]) :
    run'.Exact env full := by
  refine ⟨hunthrown, fun s hs => ?_⟩
  rw [hvisited] at hs
  rcases List.mem_append.mp hs with hold | hnew
  · exact h.visited s hold
  · rw [List.mem_singleton.mp hnew]
    exact hsubset

/-- What a call on the descendants needs and does. -/
def KeepsExact (env : PairEnv) (full bucket : List Crossable)
    (below : Int → Int → Bool → ScratchRun → ScratchRun) : Prop :=
  ∀ (selected : List Crossable) (directInput directOutput : Int) (sortedPrefixSafe : Bool)
    (run : ScratchRun), run.At env selected directInput directOutput sortedPrefixSafe →
    (∀ offer ∈ selected, env.Offers offer) →
    (selected ++ bucket).Pairwise (·.offerHash < ·.offerHash) → run.Exact env full →
    (below directInput directOutput sortedPrefixSafe run).Exact env full

variable {full selected : List Crossable} {candidate : Crossable}
  {directInput directOutput : Int} {sortedPrefixSafe : Bool} {run : ScratchRun}

/-- The selection with its next candidate, still in hash order. -/
theorem sorted_concat
    (h : (selected ++ candidate :: bucket).Pairwise (·.offerHash < ·.offerHash)) :
    ((selected ++ [candidate]) ++ bucket).Pairwise (·.offerHash < ·.offerHash) ∧
      (selected ++ [candidate]).Pairwise (·.offerHash < ·.offerHash) ∧
      (selected ++ bucket).Pairwise (·.offerHash < ·.offerHash) := by
  have hall : ((selected ++ [candidate]) ++ bucket).Pairwise (·.offerHash < ·.offerHash) := by
    rwa [List.append_assoc, List.singleton_append]
  exact ⟨hall, hall.sublist (List.sublist_append_left _ _),
    h.sublist ((List.sublist_cons_self candidate bucket).append_left selected)⟩

/-- **A pass over a direct bucket.** -/
theorem visitDirect_exact (henv : env.Canonical) (hdirect : env.direct = true)
    (hfull : ∀ offer ∈ full, env.Offers offer)
    (hoffers : ∀ offer ∈ selected ++ [candidate], env.Offers offer)
    (hsorted : (selected ++ candidate :: bucket).Pairwise (·.offerHash < ·.offerHash))
    (hbelow : KeepsExact env full bucket (visitScratch env bucket))
    (hat : run.At env selected directInput directOutput sortedPrefixSafe)
    (hrun : run.Exact env full) :
    (visitDirect env (fun nextInput nextOutput run =>
      visitScratch env bucket nextInput nextOutput true run) candidate directInput directOutput
      run).Exact env full := by
  obtain ⟨hrest, hnext, -⟩ := sorted_concat hsorted
  have hin : directInput + candidate.amountIn =
      ((selected ++ [candidate]).map (·.amountIn)).sum := by
    simp [hat.input hdirect]
  have hout : directOutput + candidate.amountOut =
      ((selected ++ [candidate]).map (·.amountOut)).sum := by
    simp [hat.output hdirect]
  have hjudged := fun accepted haccepted =>
    @direct_exact env full (selected ++ [candidate]) henv hdirect (by simp) hoffers hfull hnext
      accepted haccepted
  rw [← hin, ← hout] at hjudged
  unfold visitDirect
  simp only
  by_cases hcapped : directInput + candidate.amountIn > maxSettlementAmount ∨
      directOutput + candidate.amountOut > maxSettlementAmount
  · rw [if_pos hcapped, hat.stack]
    have hexact : (VisitedSubset.direct (selected ++ [candidate]) (directInput + candidate.amountIn)
        (directOutput + candidate.amountOut) false).Exact env full :=
      ⟨hdirect, hjudged false (iff_of_false (by simp) (not_not.mpr hcapped))⟩
    exact hrun.visit_one hexact hrun.unthrown rfl
  · rw [if_neg hcapped]
    have hexact : (VisitedSubset.direct (selected ++ [candidate]) (directInput + candidate.amountIn)
        (directOutput + candidate.amountOut) true).Exact env full :=
      ⟨hdirect, hjudged true (iff_of_true rfl hcapped)⟩
    have hstack : (acceptDirect candidate (directInput + candidate.amountIn)
        (directOutput + candidate.amountOut) run).scratch.selected = selected ++ [candidate] :=
      congrArg (· ++ [candidate]) hat.stack
    have haccepted : (acceptDirect candidate (directInput + candidate.amountIn)
        (directOutput + candidate.amountOut) run).Exact env full := by
      rw [← hat.stack] at hexact
      exact hrun.visit_one hexact hrun.unthrown rfl
    split
    · have hdescend := hbelow (selected ++ [candidate]) (directInput + candidate.amountIn)
        (directOutput + candidate.amountOut) true _
        ⟨hstack, fun _ => hin, fun _ => hout, fun h => absurd (hdirect.symm.trans h) (by simp)⟩
        hoffers hrest haccepted
      exact ⟨hdescend.unthrown, hdescend.visited⟩
    · exact ⟨haccepted.unthrown, haccepted.visited⟩

/-- **A pass over a composed bucket.** -/
theorem visitComposed_exact (henv : env.Canonical) (hcomposed : env.direct = false)
    (hoffers : ∀ offer ∈ selected ++ [candidate], env.Offers offer)
    (hsorted : (selected ++ candidate :: bucket).Pairwise (·.offerHash < ·.offerHash))
    (hbelow : KeepsExact env full bucket (visitScratch env bucket))
    (hat : run.At env selected directInput directOutput sortedPrefixSafe)
    (hrun : run.Exact env full) :
    (visitComposed env (fun nextSortedPrefixSafe run =>
      visitScratch env bucket 0 0 nextSortedPrefixSafe run) candidate sortedPrefixSafe run).Exact
      env full := by
  obtain ⟨hrest, hnext, -⟩ := sorted_concat hsorted
  have hcandidate := hoffers candidate (List.mem_append_right _ List.mem_cons_self)
  have hvalid : ∀ offer ∈ selected ++ [candidate], offer.Valid := fun o ho => (hoffers o ho).valid
  have hholds := (hat.holds hcomposed).extend
    (fun o ho => hvalid o (List.mem_append_left _ ho)) hcandidate.valid hcandidate.tokenIn_mem
    hcandidate.tokenOut_mem
  have hselected : (judgeComposed env candidate sortedPrefixSafe run).scratch.selected =
      selected ++ [candidate] := hholds.selected
  have hjudged : (judgeComposed env candidate sortedPrefixSafe run).Exact env full := by
    have hexact := hholds.exact henv hoffers hnext
    rw [← hholds.selected] at hexact hnext hvalid
    have hsubset : (VisitedSubset.composed
        (judgeComposed env candidate sortedPrefixSafe run).scratch.selected _ _ _).Exact env full :=
      ⟨hcomposed, hexact⟩
    exact hrun.visit_one hsubset (judge_unthrown hvalid hnext _ hrun.unthrown) rfl
  -- the `finally` keeps the search and the visited subsets
  have hdone : ∀ run' : ScratchRun, run'.Exact env full →
      run'.scratch = (judgeComposed env candidate sortedPrefixSafe run).scratch →
      (run'.finish (run.scratch.save (indexIn env.tokenAt candidate.tokenIn)
        (indexIn env.tokenAt candidate.tokenOut)) (indexIn env.tokenAt candidate.tokenIn)
        (indexIn env.tokenAt candidate.tokenOut)).Exact env full := by
    intro run' hrun' hscratch
    have hpushed : run'.scratch = run.scratch.push candidate
        (indexIn env.tokenAt candidate.tokenIn) (indexIn env.tokenAt candidate.tokenOut) := hscratch
    unfold ScratchRun.finish
    rw [hpushed, restore_push]
    exact ⟨hrun'.unthrown, hrun'.visited⟩
  unfold visitComposed
  simp only
  split
  · refine hdone _ (hbelow (selected ++ [candidate]) 0 0 _ _ ⟨hselected, ?_, ?_, fun _ => hholds⟩
      hoffers hrest hjudged) (visitScratch_refines env bucket _ _ _ _).restored
    · exact fun h => absurd (hcomposed.symm.trans h) (by simp)
    · exact fun h => absurd (hcomposed.symm.trans h) (by simp)
  · exact hdone _ hjudged rfl

/-- **The walk**, by induction on the bucket. -/
theorem visitScratch_exact (henv : env.Canonical) (hfull : ∀ offer ∈ full, env.Offers offer) :
    ∀ {bucket : List Crossable}, (∀ offer ∈ bucket, env.Offers offer) →
      KeepsExact env full bucket (visitScratch env bucket) := by
  intro bucket
  induction bucket with
  | nil => exact fun _ _ _ _ _ _ _ _ _ hrun => hrun
  | cons candidate bucket ih =>
    intro hbucket selected directInput directOutput sortedPrefixSafe run hat hselected hsorted hrun
    have hbelow := ih fun offer hoffer => hbucket offer (List.mem_cons_of_mem _ hoffer)
    have hoffers : ∀ offer ∈ selected ++ [candidate], env.Offers offer := by
      intro offer hoffer
      rcases List.mem_append.mp hoffer with hold | hnew
      · exact hselected offer hold
      · rw [List.mem_singleton.mp hnew]
        exact hbucket candidate List.mem_cons_self
    obtain ⟨-, -, hsiblings⟩ := sorted_concat hsorted
    rw [visitScratch]
    split
    · exact hrun
    have hentered : ({ run with search := enterSubset env.budget run.search } :
        ScratchRun).Exact env full :=
      ⟨enterSubset_unthrown hrun.unthrown env.budget, hrun.visited⟩
    have hatEntered : ({ run with search := enterSubset env.budget run.search } :
        ScratchRun).At env selected directInput directOutput sortedPrefixSafe :=
      hat.of_scratch rfl
    simp only
    split
    · exact hentered
    cases hdirect : env.direct with
    | true =>
      rw [if_pos rfl]
      refine hbelow selected directInput directOutput sortedPrefixSafe _ (hatEntered.of_scratch ?_)
        hselected hsiblings
        (visitDirect_exact henv hdirect hfull hoffers hsorted hbelow hatEntered hentered)
      exact (visitDirect_refines (fun nextInput nextOutput run =>
        visitScratch_refines env bucket nextInput nextOutput true run) candidate directInput
        directOutput sortedPrefixSafe _).restored
    | false =>
      rw [if_neg (by simp)]
      refine hbelow selected directInput directOutput sortedPrefixSafe _ (hatEntered.of_scratch ?_)
        hselected hsiblings
        (visitComposed_exact henv hdirect hoffers hsorted hbelow hatEntered hentered)
      exact (visitComposed_refines (fun nextSortedPrefixSafe run =>
        visitScratch_refines env bucket 0 0 nextSortedPrefixSafe run) candidate directInput
        directOutput sortedPrefixSafe _).restored

end Visited

/-- **The shared scratch is empty** before every pair search. -/
theorem ScratchReached.empty {scratch : PairSearchScratch} (h : ScratchReached scratch) :
    scratch = {} := by
  induction h with
  | start => rfl
  | search budget bucket tokenIn tokenOut tokenAt work reached ih =>
    subst ih
    exact (visitScratch_refines _ bucket 0 0 true _).restored

/-- A search on the empty scratch is the search. -/
theorem enumeratePairOn_search (budget : Budget) (bucket : List Crossable)
    (tokenIn tokenOut : String) (tokenAt : List String) (work : Work) :
    (enumeratePairOn {} budget bucket tokenIn tokenOut tokenAt work).search =
      enumeratePair budget bucket tokenIn tokenOut tokenAt work :=
  (visitScratch_refines _ bucket 0 0 true _).search_eq

/-- What the search of a pair reads. -/
def PairContext.searchEnv (ctx : PairContext) : PairEnv :=
  ⟨ctx.budget, ctx.tokenAt, ctx.tokenIn, ctx.tokenOut, ctx.cachedUniverse.offers.all fun entry =>
    entry.tokenIn = ctx.tokenIn && entry.tokenOut = ctx.tokenOut⟩

/-- **The incremental search is exact.** At every pair the loop of a derivation may come to, the
search on the shared scratch is the search on values; it hands the scratch back as it got it, stops
on no exception, and judges every subset it visits as the plain functions do. -/
theorem incremental_search_exact {offers : List LadderSourceOffer} {options : DeriveLadderOptions}
    {limits : LadderResourceLimits} {graph : DiscoveryGraph} {policy : JobAdmissionPolicy}
    {ctx : PairContext} {scratch : PairSearchScratch}
    (hlimits : resolveLadderResourceLimits options.resourceLimits = .ok limits)
    (hgraph : GraphOf (retainedOffers offers options) graph)
    (hreached : ctx.Reached limits policy graph (retainedOffers offers options))
    (hpair : ctx.tokenOut ≠ ctx.tokenIn) (hscratch : ScratchReached scratch) (work : Work) :
    let run := enumeratePairOn scratch ctx.budget ctx.cachedUniverse.offers ctx.tokenIn ctx.tokenOut
      ctx.tokenAt work
    run.search = enumeratePair ctx.budget ctx.cachedUniverse.offers ctx.tokenIn ctx.tokenOut
      ctx.tokenAt work ∧
    run.scratch = scratch ∧ scratch.activeTokenIndices = [] ∧ scratch.selected = [] ∧
    (∀ message, run.search.stop ≠ some (.thrown message)) ∧
    ∀ subset ∈ run.visited, subset.Exact ctx.searchEnv ctx.cachedUniverse.offers := by
  obtain ⟨budget, work', work'', hbuilt⟩ := hgraph
  have hsound : ctx.Sound (retainedOffers offers options) := hreached.sound
    (buildDiscoveryGraph_returns budget _ work' graph work'' hbuilt)
    (fun _ => retainedOffers_valid) (resolveLadderResourceLimits_ok hlimits).1
    (resolveLadderResourceLimits_ok hlimits).2
  have henv : ctx.searchEnv.Canonical := ⟨⟨hsound.tokenIn_mem, hsound.tokenOut_mem, hpair.symm,
    hsound.makers_pos, hsound.makers_le⟩, hsound.canonicalIn, hsound.canonicalOut⟩
  have hoffers : ∀ offer ∈ ctx.cachedUniverse.offers, ctx.searchEnv.Offers offer := by
    refine fun offer hoffer => ⟨hsound.valid offer (hsound.universe_sub.subset hoffer),
      (hsound.indexed offer hoffer).1, (hsound.indexed offer hoffer).2, fun hdirect => ?_⟩
    have hall := List.all_eq_true.mp hdirect offer hoffer
    rwa [Bool.and_eq_true, decide_eq_true_eq, decide_eq_true_eq] at hall
  have hsorted : ctx.cachedUniverse.offers.Pairwise (·.offerHash < ·.offerHash) :=
    (retainedOffers_sorted offers options).sublist hsound.universe_sub
  obtain rfl := hscratch.empty
  have hroot : (⟨{}, ⟨[], 0, 0, 0, 0, none, work⟩, []⟩ : ScratchRun).At ctx.searchEnv [] 0 0 true :=
    ⟨rfl, fun _ => rfl, fun _ => rfl, fun _ => scratchHolds_nil _⟩
  have hexact := visitScratch_exact henv hoffers hoffers [] 0 0 true _ hroot nofun hsorted
    ⟨nofun, nofun⟩
  exact ⟨enumeratePairOn_search _ _ _ _ _ _, (visitScratch_refines _ _ 0 0 true _).restored, rfl,
    rfl, hexact.unthrown, hexact.visited⟩

namespace TwoPairs

open TwoOffers

/-- The one component of the book, which has a cycle. -/
def component : DiscoveryComponent := ⟨0, tokenA, [tokenA, tokenB], true⟩

def graph : DiscoveryGraph := ⟨[tokenA, tokenB], [component]⟩

/-- The eligible offers of the book. -/
def retained : List Crossable := [
  ⟨"0000000000000000000000000000000000000000000000000000000000002725", tokenA, tokenB, 1, 1,
    ["00000000000000000000000000000000000000000000000000000000000f4255"]⟩,
  ⟨"0000000000000000000000000000000000000000000000000000000000002726", tokenA, tokenB, 1, 2,
    ["00000000000000000000000000000000000000000000000000000000000f4256"]⟩,
  ⟨"0000000000000000000000000000000000000000000000000000000000002727", tokenB, tokenA, 7, 5,
    ["00000000000000000000000000000000000000000000000000000000000f4257"]⟩]

theorem retainedOffers_book : retainedOffers TwoPairs.book options = retained := by decide +kernel

theorem graphOf : GraphOf retained graph :=
  @GraphOf.of_run _ ⟨hardLadderResourceLimits, none⟩ {} _ (by decide +kernel)

/-- The search for `B` against `A`, over all three offers. -/
def ctx : PairContext where
  budget := ⟨hardLadderResourceLimits, none⟩
  comparisons := fun _ => 0
  policy := options.toJobAdmissionPolicy
  tokenAt := graph.tokenAt
  root := 0
  cachedUniverse := ⟨retained, [tokenA, tokenB]⟩
  tokenIn := tokenA
  tokenOut := tokenB

theorem ctx_reached :
    ctx.Reached hardLadderResourceLimits options.toJobAdmissionPolicy graph retained where
  limits_eq := rfl
  policy_eq := rfl
  tokenAt_eq := rfl
  wanted := by decide +kernel
  component := ⟨component, by decide +kernel, by decide +kernel, by decide +kernel⟩
  enumerated := by decide +kernel

end TwoPairs

open TwoPairs TwoOffers in
/-- The search over the three offers visits all seven subsets. -/
theorem incremental_search_exact_two_pairs :
    (enumeratePairOn {} TwoPairs.ctx.budget retained tokenA tokenB TwoPairs.graph.tokenAt
      {}).visited.length = 7 ∧
    ∀ subset ∈ (enumeratePairOn {} TwoPairs.ctx.budget retained tokenA tokenB
      TwoPairs.graph.tokenAt {}).visited, subset.Exact TwoPairs.ctx.searchEnv retained := by
  have hlimits : resolveLadderResourceLimits options.resourceLimits =
      .ok hardLadderResourceLimits := rfl
  have hgraph := TwoPairs.graphOf
  have hreached := TwoPairs.ctx_reached
  rw [← retainedOffers_book] at hgraph hreached
  exact ⟨by decide +kernel, (incremental_search_exact hlimits hgraph hreached (by decide) .start
    {}).2.2.2.2.2⟩

end ZswapKernel
