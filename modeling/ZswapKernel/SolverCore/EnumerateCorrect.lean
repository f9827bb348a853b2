import ZswapKernel.SolverCore.PairWitness

/-!
# The pair search keeps the best witness at each input

A search that is not stopped has considered every feasible subset of its bucket: for each input
some feasible subset requires, `exact` holds the witness that `betterSelectedWitness` prefers.

* `considerEconomic_spec`, `considerDirect_spec`, `considerComposed_spec` — one subset.
* `visit_spec` — the whole walk below a branch, by induction on the bucket.
* `enumeratePair_spec` — the search of a pair.
-/

namespace ZswapKernel

open SafeOrder BestByKey

/-! ## The planner's verdict -/

theorem inSettlementRange_iff (amount : Int) : inSettlementRange amount = true ↔
    -maxSettlementAmount ≤ amount ∧ amount ≤ maxSettlementAmount := by
  simp [inSettlementRange]

theorem scanActive_eq_none {nets : Nat → Int} {tokenInIndex : Nat} {indices : List Nat}
    {amountCapped : Bool} : scanActive nets tokenInIndex indices amountCapped = none ↔
      ∃ index ∈ indices, index ≠ tokenInIndex ∧ nets index < 0 := by
  induction indices generalizing amountCapped with
  | nil => simp [scanActive]
  | cons index indices ih =>
    unfold scanActive
    by_cases hdeficit : index ≠ tokenInIndex ∧ nets index < 0
    · rw [if_pos hdeficit]
      exact iff_of_true rfl ⟨index, List.mem_cons_self, hdeficit⟩
    · rw [if_neg hdeficit, ih, List.exists_mem_cons_iff]
      exact ⟨Or.inr, fun h => h.resolve_left hdeficit⟩

theorem scanActive_eq_some {nets : Nat → Int} {tokenInIndex : Nat} {indices : List Nat}
    {amountCapped capped : Bool}
    (h : scanActive nets tokenInIndex indices amountCapped = some capped) :
    capped = true ↔ amountCapped = true ∨ ∃ index ∈ indices, inSettlementRange (nets index) = false := by
  induction indices generalizing amountCapped with
  | nil =>
    cases h
    simp
  | cons index indices ih =>
    unfold scanActive at h
    split at h
    · cases h
    · rw [ih h, Bool.or_eq_true, Bool.not_eq_true', List.exists_mem_cons_iff, or_assoc]

@[simp] theorem chargeMergeOrder_exact (budget : Budget) (units : Nat) (search : PairSearch) :
    (chargeMergeOrder budget units search).exact = search.exact := by
  unfold chargeMergeOrder
  split
  · rfl
  · cases hcharge : budget.chargeUnits .safeMergeOrder units search.work with
    | mk stop work => cases stop <;> rfl

/-- The entry a feasible composed branch records. -/
def Branch.entry (branch : Branch) (tokenAt : List String) (input output : Int) :
    CombinationState :=
  ⟨input, output, branch.selected.map (·.offerHash), some (branch.balances.rows tokenAt)⟩

/-- A safe order of the makers is the sorted one, or the planner finds it within the discovery
budget. -/
def PlannedWithin (maxDiscoveryWork : Nat) (makers : List Crossable) : Prop :=
  SafeFrom (InRange maxSettlementAmount) 0 (makers.map (·.net)) ∨
    ∃ (limit : Nat) (shouldAbort : Option AbortCheck) (calls calls' units : Nat)
      (hashes : List String) (usedFallback : Bool),
      limit ≤ maxSafeMergeOrderWork ∧ limit ≤ maxDiscoveryWork ∧
      findSafeWholeOfferMergeOrder (makers.map (·.mergeSource))
        { maxWork := some limit, shouldAbort } calls = .ok (.found hashes usedFallback units, calls')

/-- **The planner's verdict.** An economic candidate is recorded iff its makers can be merged
safely, in an order found within the budget. -/
theorem considerEconomic_spec {env : PairEnv} {branch : Branch} {input output : Int}
    {search : PairSearch} (hvalid : ∀ offer ∈ branch.selected, offer.Valid)
    (hlength : branch.selected.length ≤ maxPhysicalMakersPerMerge)
    (hpre : branch.sortedPrefixSafe = true →
      SafeFrom (InRange maxSettlementAmount) 0 (branch.selected.map (·.net)))
    (hstop : (considerEconomic env branch input output search).stop = none) :
    (SafelyMergeable branch.selected ∧
      PlannedWithin env.budget.limits.maxDiscoveryWork branch.selected ∧
      (considerEconomic env branch input output search).exact =
        recordWitness search.exact (branch.entry env.tokenAt input output)) ∨
    (¬ SafelyMergeable branch.selected ∧
      (considerEconomic env branch input output search).exact = search.exact) := by
  unfold considerEconomic at hstop ⊢
  simp only at hstop ⊢
  by_cases hsafe : branch.sortedPrefixSafe = true
  · rw [if_pos hsafe] at hstop ⊢
    refine Or.inl ⟨(hpre hsafe).orderable, Or.inl (hpre hsafe), ?_⟩
    simp only at hstop ⊢
    split
    · rename_i hhalt
      rw [if_pos hhalt] at hstop
      rw [hstop] at hhalt
      cases hhalt
    · simp only [chargeMergeOrder_exact]
      rfl
  · rw [if_neg hsafe] at hstop ⊢
    have hnets := map_mergeSource_net hvalid
    have hsources := map_mergeSource_valid hvalid
    generalize hplan : findSafeWholeOfferMergeOrder (branch.selected.map (·.mergeSource))
      { maxWork := some ↑(min maxSafeMergeOrderWork (env.budget.remaining search.work)),
        shouldAbort := env.budget.shouldAbort } search.work.abortCalls = planned at hstop ⊢
    cases planned with
    | error message => cases hstop
    | ok result =>
      obtain ⟨mergeOrder, calls⟩ := result
      cases mergeOrder with
      | found hashes usedFallback units =>
        obtain ⟨ordered, order, hall, horder, -⟩ :=
          findSafeWholeOfferMergeOrder_found hplan hsources
        have hmergeable : SafelyMergeable branch.selected := by
          unfold SafelyMergeable
          rw [← hnets]
          exact horder.orderable hall
        have hwithin : PlannedWithin env.budget.limits.maxDiscoveryWork branch.selected :=
          Or.inr ⟨_, _, _, _, _, _, _, Nat.min_le_left _ _,
            (Nat.min_le_right _ _).trans (Nat.sub_le _ _), hplan⟩
        refine Or.inl ⟨hmergeable, hwithin, ?_⟩
        simp only at hstop ⊢
        split
        · rename_i hhalt
          rw [if_pos hhalt] at hstop
          rw [hstop] at hhalt
          cases hhalt
        · simp only [chargeMergeOrder_exact]
          rfl
      | failed reason units =>
        simp only at hstop ⊢
        split at hstop
        · rename_i hhalt
          rw [hstop] at hhalt
          cases hhalt
        rename_i hrun
        rw [if_neg hrun]
        cases reason with
        | unsafeMergeOrder =>
          have hnosafe := findSafeWholeOfferMergeOrder_unsafe hplan hsources
          rw [hnets] at hnosafe
          exact Or.inr ⟨hnosafe, by simp⟩
        | mergeOrderWorkCap =>
          simp only [PairSearch.halt] at hstop
          cases hstop
        | interrupted reason =>
          simp only [PairSearch.halt] at hstop
          cases hstop
        | tooManySources =>
          have hmany := findSafeWholeOfferMergeOrder_tooManySources hplan hsources
          simp only [List.length_map, Option.getD_none] at hmany
          omega

/-! ## The invariant of a branch -/

/-- What a pair search relies on: its tokens are indexed, and the maker limit is the planner's or
lower. -/
structure PairEnv.Sound (env : PairEnv) : Prop where
  tokenIn : env.tokenIn ∈ env.tokenAt
  tokenOut : env.tokenOut ∈ env.tokenAt
  distinct : env.tokenIn ≠ env.tokenOut
  makers_pos : 0 < env.budget.limits.maxMakersPerCombination
  makers_le : env.budget.limits.maxMakersPerCombination ≤ maxPhysicalMakersPerMerge

/-- An offer of the bucket: valid, indexed, and on the pair itself when the search is direct. -/
structure PairEnv.Offers (env : PairEnv) (offer : Crossable) : Prop where
  valid : offer.Valid
  tokenIn_mem : offer.tokenIn ∈ env.tokenAt
  tokenOut_mem : offer.tokenOut ∈ env.tokenAt
  direct : env.direct = true → offer.tokenIn = env.tokenIn ∧ offer.tokenOut = env.tokenOut

/-- The locals of a branch are those of its selection. -/
structure PairEnv.Holds (env : PairEnv) (branch : Branch) : Prop where
  offers : ∀ offer ∈ branch.selected, env.Offers offer
  input : env.direct = true → branch.directInput = (branch.selected.map (·.amountIn)).sum
  output : env.direct = true → branch.directOutput = (branch.selected.map (·.amountOut)).sum
  balances : env.direct = false → branch.balances.Holds env.tokenAt branch.selected
  prefixSafe : env.direct = false → branch.sortedPrefixSafe = true →
    SafeFrom (InRange maxSettlementAmount) 0 (branch.selected.map (·.net))

/-- A feasible selection of the pair. -/
abbrev PairEnv.Feasible (env : PairEnv) (makers : List Crossable) : Prop :=
  Candidate env.budget.limits.maxMakersPerCombination env.tokenIn env.tokenOut makers

/-- What considering one subset leaves: the witness of a feasible subset is recorded; a branch goes
on with the extended selection, or no extension of it is feasible. -/
structure Considered (env : PairEnv) (candidate : Crossable) (branch : Branch)
    (search : PairSearch) (next : Option Branch) (search' : PairSearch) : Prop where
  recorded : (env.Feasible (branch.selected ++ [candidate]) ∧
      PlannedWithin env.budget.limits.maxDiscoveryWork (branch.selected ++ [candidate]) ∧
      ∃ entry, Witness env.tokenIn env.tokenOut (branch.selected ++ [candidate]) entry ∧
        search'.exact = recordWitness search.exact entry) ∨
    (¬ env.Feasible (branch.selected ++ [candidate]) ∧ search'.exact = search.exact)
  pruned : next = none → ∀ makers, (∀ offer ∈ makers, env.Offers offer) →
    ¬ env.Feasible (branch.selected ++ candidate :: makers)
  extended : ∀ branch', next = some branch' →
    branch'.selected = branch.selected ++ [candidate] ∧ env.Holds branch'

variable {env : PairEnv} {candidate : Crossable} {branch : Branch} {search : PairSearch}

theorem offers_concat (hbranch : env.Holds branch) (hcandidate : env.Offers candidate) :
    ∀ offer ∈ branch.selected ++ [candidate], env.Offers offer := by
  intro offer hoffer
  rcases List.mem_append.mp hoffer with hmem | hmem
  · exact hbranch.offers offer hmem
  · rw [List.mem_singleton.mp hmem]
    exact hcandidate

/-- **The direct arm.** -/
theorem considerDirect_spec (henv : env.Sound) (hdirect : env.direct = true)
    (hbranch : env.Holds branch) (hcandidate : env.Offers candidate)
    (hlength : branch.selected.length < env.budget.limits.maxMakersPerCombination) :
    Considered env candidate branch search (considerDirect candidate branch search).1
      (considerDirect candidate branch search).2 := by
  have hoffers := offers_concat hbranch hcandidate
  have hpair : ∀ makers : List Crossable, (∀ offer ∈ makers, env.Offers offer) →
      ∀ offer ∈ makers, offer.tokenIn = env.tokenIn ∧ offer.tokenOut = env.tokenOut :=
    fun makers h offer hoffer => (h offer hoffer).direct hdirect
  have hin : ((branch.selected ++ [candidate]).map (·.amountIn)).sum =
      branch.directInput + candidate.amountIn := by
    simp [hbranch.input hdirect]
  have hout : ((branch.selected ++ [candidate]).map (·.amountOut)).sum =
      branch.directOutput + candidate.amountOut := by
    simp [hbranch.output hdirect]
  have hshort : (branch.selected ++ [candidate]).length ≤
      env.budget.limits.maxMakersPerCombination := by
    simpa using Nat.succ_le_of_lt hlength
  have hfeasible := candidate_direct_iff henv.distinct (hpair _ hoffers)
    (fun o ho => (hoffers o ho).valid) (by simp) hshort
  rw [hin, hout] at hfeasible
  unfold considerDirect
  simp only
  by_cases hcapped : branch.directInput + candidate.amountIn > maxSettlementAmount ∨
      branch.directOutput + candidate.amountOut > maxSettlementAmount
  · rw [if_pos hcapped]
    refine ⟨Or.inr ⟨fun h => ?_, rfl⟩, fun _ makers hmakers h => ?_, fun _ h => by cases h⟩
    · have := hfeasible.mp h
      omega
    · -- the sums of an extension are no smaller
      have hall : ∀ offer ∈ branch.selected ++ candidate :: makers, env.Offers offer := by
        intro offer hoffer
        rw [← List.singleton_append, ← List.append_assoc] at hoffer
        rcases List.mem_append.mp hoffer with hmem | hmem
        · exact hoffers offer hmem
        · exact hmakers offer hmem
      have hle := (inRange_netSupply_direct henv.distinct (hpair _ hall)
        (fun o ho => (hall o ho).valid)).mp h.in_range
      have hrest := sum_amounts_nonneg fun o ho => (hmakers o ho).valid
      have h1 := hbranch.input hdirect
      have h2 := hbranch.output hdirect
      simp only [List.map_append, List.sum_append, List.map_cons, List.sum_cons] at hle
      omega
  · rw [if_neg hcapped]
    rw [not_or, not_lt, not_lt] at hcapped
    have hwitness := witness_direct henv.distinct (hcandidate.direct hdirect |>.1 ▸
      hcandidate.valid.tokenIn) (hcandidate.direct hdirect |>.2 ▸ hcandidate.valid.tokenOut)
      (hpair _ hoffers) (fun o ho => (hoffers o ho).valid) (by simp)
    rw [hin, hout] at hwitness
    have hsafe := safeFrom_direct henv.distinct (hpair _ hoffers)
      (fun o ho => (hoffers o ho).valid) (hin ▸ hcapped.1) (hout ▸ hcapped.2)
    refine ⟨Or.inl ⟨hfeasible.mpr hcapped, Or.inl hsafe, _, hwitness, rfl⟩,
      fun h => absurd h (by simp), ?_⟩
    intro branch' h
    cases h
    exact ⟨rfl, hoffers, fun _ => hin.symm, fun _ => hout.symm,
      fun h => absurd (hdirect.symm.trans h) (by simp),
      fun h => absurd (hdirect.symm.trans h) (by simp)⟩

/-- The extended branch of the composed arm. -/
def composedBranch (env : PairEnv) (candidate : Crossable) (branch : Branch) : Branch :=
  let input := indexIn env.tokenAt candidate.tokenIn
  let output := indexIn env.tokenAt candidate.tokenOut
  let balances := branch.balances.add input output candidate.amountIn candidate.amountOut
  { directInput := 0
    directOutput := 0
    balances
    selected := branch.selected ++ [candidate]
    sortedPrefixSafe := branch.sortedPrefixSafe && inSettlementRange (balances.nets input) &&
      inSettlementRange (balances.nets output) }

/-- A safe list stays safe exactly when the two tokens of the next maker end in range. -/
theorem safeFrom_concat_iff {makers : List Crossable} {offer : Crossable}
    (h : SafeFrom (InRange maxSettlementAmount) 0 (makers.map (·.net))) :
    SafeFrom (InRange maxSettlementAmount) 0 ((makers ++ [offer]).map (·.net)) ↔
      (-maxSettlementAmount ≤ netSupply (makers ++ [offer]) offer.tokenIn ∧
        netSupply (makers ++ [offer]) offer.tokenIn ≤ maxSettlementAmount) ∧
      (-maxSettlementAmount ≤ netSupply (makers ++ [offer]) offer.tokenOut ∧
        netSupply (makers ++ [offer]) offer.tokenOut ≤ maxSettlementAmount) := by
  have hbefore : InRange maxSettlementAmount (netSupply makers) := by
    have := h.sum_ok (inRange_zero (by decide))
    rwa [zero_add] at this
  have hsum : 0 + (makers.map (·.net)).sum + offer.net = netSupply (makers ++ [offer]) := by
    rw [netSupply_append, netSupply_cons, netSupply_nil, add_zero, zero_add]
    rfl
  rw [List.map_append, safeFrom_append, List.map_cons, List.map_nil, safeFrom_cons, hsum]
  constructor
  · exact fun hsafe => ⟨hsafe.2.1 offer.tokenIn, hsafe.2.1 offer.tokenOut⟩
  · rintro ⟨hin, hout⟩
    refine ⟨h, fun token => ?_, trivial⟩
    -- the tokens the offer does not touch kept their amount
    by_cases hti : token = offer.tokenIn
    · exact hti ▸ hin
    · by_cases hto : token = offer.tokenOut
      · exact hto ▸ hout
      · have hkept := hbefore token
        simpa [Crossable.net, Pi.single_eq_of_ne hti, Pi.single_eq_of_ne hto] using hkept

/-- The extended branch holds the extended selection. -/
theorem composedBranch_holds (hcomposed : env.direct = false) (hbranch : env.Holds branch)
    (hcandidate : env.Offers candidate) : env.Holds (composedBranch env candidate branch) := by
  have hoffers := offers_concat hbranch hcandidate
  have hbalances : (composedBranch env candidate branch).balances.Holds env.tokenAt
      (branch.selected ++ [candidate]) :=
    (hbranch.balances hcomposed).add hcandidate.valid
      (fun o ho => (hbranch.offers o ho).valid) hcandidate.tokenIn_mem hcandidate.tokenOut_mem
  refine ⟨hoffers, fun h => absurd (hcomposed.symm.trans h) (by simp),
    fun h => absurd (hcomposed.symm.trans h) (by simp), fun _ => hbalances, fun _ hsafe => ?_⟩
  have hsafe : ((branch.sortedPrefixSafe &&
      inSettlementRange ((composedBranch env candidate branch).balances.nets
        (indexIn env.tokenAt candidate.tokenIn))) &&
      inSettlementRange ((composedBranch env candidate branch).balances.nets
        (indexIn env.tokenAt candidate.tokenOut))) = true := hsafe
  rw [hbalances.nets _ hcandidate.tokenIn_mem, hbalances.nets _ hcandidate.tokenOut_mem,
    Bool.and_eq_true, Bool.and_eq_true, inSettlementRange_iff, inSettlementRange_iff] at hsafe
  obtain ⟨⟨hpre, hin⟩, hout⟩ := hsafe
  exact (safeFrom_concat_iff (hbranch.prefixSafe hcomposed hpre)).mpr ⟨hin, hout⟩

theorem hasAmount_of_netSupply_ne {makers : List Crossable} {token : String}
    (h : netSupply makers token ≠ 0) :
    makerGives makers token ≠ 0 ∨ makerWants makers token ≠ 0 := by
  by_contra hnone
  push Not at hnone
  rw [netSupply_eq, Pi.sub_apply, hnone.1, hnone.2] at h
  exact h rfl

/-- The scan of the active tokens decides the economic conditions. -/
theorem scanActive_holds {balances : PairBalances} {tokenAt : List String}
    {makers : List Crossable} (h : balances.Holds tokenAt makers)
    (hindexed : Indexed tokenAt makers) (tokenIn : String) :
    match scanActive balances.nets (indexIn tokenAt tokenIn) balances.activeTokenIndices false with
    | none => ∃ token, token ≠ tokenIn ∧ netSupply makers token < 0
    | some true => ¬ InRange maxSettlementAmount (netSupply makers)
    | some false => (∀ token, netSupply makers token < 0 → token = tokenIn) ∧
        InRange maxSettlementAmount (netSupply makers) := by
  have hactive : ∀ token, netSupply makers token ≠ 0 → token ∈ tokenAt ∧
      indexIn tokenAt token ∈ balances.activeTokenIndices := by
    intro token hne
    have hamount := hasAmount_of_netSupply_ne hne
    have htoken := hasAmount_mem hindexed hamount
    exact ⟨htoken, (h.active _).mpr ⟨token, htoken, rfl, hamount⟩⟩
  cases hscan : scanActive balances.nets (indexIn tokenAt tokenIn) balances.activeTokenIndices
      false with
  | none =>
    obtain ⟨index, hindex, hne, hneg⟩ := scanActive_eq_none.mp hscan
    obtain ⟨token, htoken, rfl, -⟩ := (h.active index).mp hindex
    rw [h.nets token htoken] at hneg
    exact ⟨token, fun heq => hne (heq ▸ rfl), hneg⟩
  | some capped =>
    have hcapped := scanActive_eq_some hscan
    cases capped with
    | true =>
      obtain habs | ⟨index, hindex, hout⟩ := hcapped.mp rfl
      · cases habs
      · obtain ⟨token, htoken, rfl, -⟩ := (h.active index).mp hindex
        rw [h.nets token htoken] at hout
        intro hrange
        rw [(inSettlementRange_iff _).mpr (hrange token)] at hout
        cases hout
    | false =>
      have hnone : ¬ ∃ index ∈ balances.activeTokenIndices,
          inSettlementRange (balances.nets index) = false :=
        fun hex => absurd (hcapped.mpr (Or.inr hex)) (by simp)
      have hdeficit : ¬ ∃ index ∈ balances.activeTokenIndices, index ≠ indexIn tokenAt tokenIn ∧
          balances.nets index < 0 := fun hex => by
        rw [scanActive_eq_none.mpr hex] at hscan
        cases hscan
      constructor
      · intro token hneg
        by_contra hne
        obtain ⟨htoken, hmem⟩ := hactive token hneg.ne
        refine hdeficit ⟨_, hmem, mt (indexIn_inj htoken).mp hne, ?_⟩
        rw [h.nets token htoken]
        exact hneg
      · intro token
        by_cases hzero : netSupply makers token = 0
        · rw [hzero]
          decide
        · obtain ⟨htoken, hmem⟩ := hactive token hzero
          have hok : inSettlementRange (balances.nets (indexIn tokenAt token)) = true := by
            by_contra hout
            exact hnone ⟨_, hmem, by simpa using hout⟩
          rw [h.nets token htoken] at hok
          exact (inSettlementRange_iff _).mp hok

/-- The rows a composed branch records are its witness. -/
theorem witness_composed {tokenAt : List String} {branch : Branch} {tokenIn tokenOut : String}
    (h : branch.balances.Holds tokenAt branch.selected) (hindexed : Indexed tokenAt branch.selected)
    (hvalid : ∀ offer ∈ branch.selected, offer.Valid) :
    Witness tokenIn tokenOut branch.selected (branch.entry tokenAt
      (-netSupply branch.selected tokenIn) (netSupply branch.selected tokenOut)) := by
  have haccounts := h.accounts hindexed
  refine ⟨rfl, rfl, rfl, branch.balances.rows tokenAt, ?_, haccounts⟩
  refine canonicalBalances_of_accounts haccounts fun row hrow => ?_
  obtain ⟨token, hne, rfl⟩ := (haccounts.mem_iff row).mp hrow
  exact ⟨hasAmount_canonical hvalid hne, makerGives_nonneg hvalid token,
    makerWants_nonneg hvalid token, rfl⟩

/-- What the composed arm does, by the two nets of the pair and the scan. -/
theorem considerComposed_eq (env : PairEnv) (candidate : Crossable) (branch : Branch)
    (search : PairSearch) :
    considerComposed env candidate branch search =
      (let next := composedBranch env candidate branch
      let inputNet := next.balances.nets (indexIn env.tokenAt env.tokenIn)
      let outputNet := next.balances.nets (indexIn env.tokenAt env.tokenOut)
      (some next, if inputNet < 0 ∧ outputNet > 0 then
        match scanActive next.balances.nets (indexIn env.tokenAt env.tokenIn)
          next.balances.activeTokenIndices false with
        | none => search
        | some true => { search with amountCappedSubsets := search.amountCappedSubsets + 1 }
        | some false => considerEconomic env next (-inputNet) outputNet search
        else search)) := by
  unfold considerComposed composedBranch
  simp only
  split
  · cases scanActive (branch.balances.add (indexIn env.tokenAt candidate.tokenIn)
        (indexIn env.tokenAt candidate.tokenOut) candidate.amountIn candidate.amountOut).nets
      (indexIn env.tokenAt env.tokenIn) (branch.balances.add
        (indexIn env.tokenAt candidate.tokenIn) (indexIn env.tokenAt candidate.tokenOut)
        candidate.amountIn candidate.amountOut).activeTokenIndices false with
    | none => rfl
    | some capped => cases capped <;> rfl
  · rfl

/-- **The composed arm.** -/
theorem considerComposed_spec (henv : env.Sound) (hcomposed : env.direct = false)
    (hbranch : env.Holds branch) (hcandidate : env.Offers candidate)
    (hlength : branch.selected.length < env.budget.limits.maxMakersPerCombination)
    (hstop : (considerComposed env candidate branch search).2.stop = none) :
    Considered env candidate branch search (considerComposed env candidate branch search).1
      (considerComposed env candidate branch search).2 := by
  have hoffers := offers_concat hbranch hcandidate
  have hnext := composedBranch_holds hcomposed hbranch hcandidate
  have hselected : (composedBranch env candidate branch).selected =
      branch.selected ++ [candidate] := rfl
  have hbalances := hnext.balances hcomposed
  rw [hselected] at hbalances
  have hindexed : Indexed env.tokenAt (branch.selected ++ [candidate]) := fun offer hoffer =>
    ⟨(hoffers offer hoffer).tokenIn_mem, (hoffers offer hoffer).tokenOut_mem⟩
  have hvalid : ∀ offer ∈ branch.selected ++ [candidate], offer.Valid :=
    fun offer hoffer => (hoffers offer hoffer).valid
  have hlen : (branch.selected ++ [candidate]).length ≤
      env.budget.limits.maxMakersPerCombination := by
    simpa using Nat.succ_le_of_lt hlength
  rw [considerComposed_eq] at hstop ⊢
  simp only at hstop ⊢
  rw [hbalances.nets _ henv.tokenIn, hbalances.nets _ henv.tokenOut] at hstop ⊢
  refine ⟨?_, fun h => absurd h (by simp), fun branch' h => by cases h; exact ⟨rfl, hnext⟩⟩
  by_cases hnets : netSupply (branch.selected ++ [candidate]) env.tokenIn < 0 ∧
      netSupply (branch.selected ++ [candidate]) env.tokenOut > 0
  · rw [if_pos hnets] at hstop ⊢
    have hscan := scanActive_holds hbalances hindexed env.tokenIn
    generalize scanActive (composedBranch env candidate branch).balances.nets
      (indexIn env.tokenAt env.tokenIn)
      (composedBranch env candidate branch).balances.activeTokenIndices false = scan
      at hscan hstop ⊢
    match scan with
    | none =>
      obtain ⟨token, hne, hneg⟩ := hscan
      exact Or.inr ⟨fun h => hne (h.only_deficit token hneg), rfl⟩
    | some true => exact Or.inr ⟨fun h => hscan h.in_range, rfl⟩
    | some false =>
      have hfeasible : env.Feasible (branch.selected ++ [candidate]) ↔
          SafelyMergeable (branch.selected ++ [candidate]) :=
        ⟨fun h => h.mergeable, fun h => ⟨by simp, hlen, hnets.1, hscan.1, hnets.2, hscan.2, h⟩⟩
      rw [hfeasible]
      rcases considerEconomic_spec hvalid (hlen.trans henv.makers_le)
        (hnext.prefixSafe hcomposed) hstop with ⟨hsafe, hplanned, hexact⟩ | hnosafe
      · exact Or.inl ⟨hsafe, hplanned, _, witness_composed hbalances hindexed hvalid, hexact⟩
      · exact Or.inr hnosafe
  · rw [if_neg hnets]
    exact Or.inr ⟨fun h => hnets ⟨h.input_neg, h.output_pos⟩, rfl⟩

/-! ## The walk -/

@[simp] theorem enterSubset_exact (budget : Budget) (search : PairSearch) :
    (enterSubset budget search).exact = search.exact := by
  unfold enterSubset
  split
  · rfl
  · split
    · rfl
    · simp only
      split
      · cases hpoll : budget.poll { search.work with
          diagnostics := { search.work.diagnostics with
            visitedSubsets := search.work.diagnostics.visitedSubsets + 1 } } with
        | mk reason work => cases reason <;> rfl
      · rfl

/-- A stopped search stays as it is. -/
theorem visit_of_stop (env : PairEnv) (bucket : List Crossable) (branch : Branch)
    {search : PairSearch} (h : search.stop.isSome = true) :
    visit env bucket branch search = search := by
  cases bucket with
  | nil => rfl
  | cons candidate bucket =>
    unfold visit
    rw [if_pos h]

/-- A walk that ends unstopped began unstopped. -/
theorem stop_of_visit_stop {bucket : List Crossable}
    (h : (visit env bucket branch search).stop = none) : search.stop = none := by
  cases hstop : search.stop with
  | none => rfl
  | some stop =>
    rw [visit_of_stop env bucket branch (by rw [hstop]; rfl), hstop] at h
    cases h

/-- Considering a candidate in either arm. -/
def consider (env : PairEnv) (candidate : Crossable) (branch : Branch) (search : PairSearch) :
    Option Branch × PairSearch :=
  if env.direct then considerDirect candidate branch search
  else considerComposed env candidate branch search

theorem consider_spec (henv : env.Sound) (hbranch : env.Holds branch)
    (hcandidate : env.Offers candidate)
    (hlength : branch.selected.length < env.budget.limits.maxMakersPerCombination)
    (hstop : (consider env candidate branch search).2.stop = none) :
    Considered env candidate branch search (consider env candidate branch search).1
      (consider env candidate branch search).2 := by
  unfold consider at hstop ⊢
  cases hdirect : env.direct with
  | true =>
    rw [hdirect, if_pos rfl] at hstop
    rw [if_pos rfl]
    exact considerDirect_spec henv hdirect hbranch hcandidate hlength
  | false =>
    rw [hdirect, if_neg (by simp)] at hstop
    rw [if_neg (by simp)]
    exact considerComposed_spec henv hdirect hbranch hcandidate hlength hstop

/-- What the descent below an extended branch does. -/
def descend (env : PairEnv) (bucket : List Crossable) (next : Option Branch)
    (search : PairSearch) : PairSearch :=
  match next with
  | none => search
  | some next =>
    if search.stop.isNone ∧ next.selected.length < env.budget.limits.maxMakersPerCombination then
      visit env bucket next search
    else search

/-- One pass of the loop: consider the candidate, descend, go on with its siblings. -/
theorem visit_cons (env : PairEnv) (candidate : Crossable) (bucket : List Crossable)
    (branch : Branch) {search : PairSearch} (hstop : search.stop = none)
    (henter : (enterSubset env.budget search).stop = none) :
    visit env (candidate :: bucket) branch search =
      visit env bucket branch (descend env bucket
        (consider env candidate branch (enterSubset env.budget search)).1
        (consider env candidate branch (enterSubset env.budget search)).2) := by
  rw [visit, if_neg (by simp [hstop]), if_neg (by simp [henter])]
  rfl

/-- The states that witness a feasible extension of `selected` by makers of `bucket`. -/
def ExtensionWitness (env : PairEnv) (selected bucket : List Crossable)
    (state : CombinationState) : Prop :=
  ∃ makers : List Crossable, makers.Sublist bucket ∧ makers ≠ [] ∧
    env.Feasible (selected ++ makers) ∧
    Witness env.tokenIn env.tokenOut (selected ++ makers) state

theorem extensionWitness_cons (env : PairEnv) (selected : List Crossable) (candidate : Crossable)
    (bucket : List Crossable) (state : CombinationState) :
    ExtensionWitness env selected (candidate :: bucket) state ↔
      (env.Feasible (selected ++ [candidate]) ∧
        Witness env.tokenIn env.tokenOut (selected ++ [candidate]) state) ∨
      ExtensionWitness env (selected ++ [candidate]) bucket state ∨
      ExtensionWitness env selected bucket state := by
  constructor
  · rintro ⟨makers, hsub, hne, hfeasible, hwitness⟩
    cases hsub with
    | cons _ hsub => exact Or.inr (Or.inr ⟨makers, hsub, hne, hfeasible, hwitness⟩)
    | @cons_cons rest _ _ hsub =>
      by_cases hrest : rest = []
      · subst hrest
        exact Or.inl ⟨hfeasible, hwitness⟩
      · refine Or.inr (Or.inl ⟨rest, hsub, hrest, ?_⟩)
        rw [List.append_assoc]
        exact ⟨hfeasible, hwitness⟩
  · rintro (⟨hfeasible, hwitness⟩ | ⟨rest, hsub, -, hfound⟩ | ⟨rest, hsub, hne, hfound⟩)
    · exact ⟨[candidate], List.singleton_sublist.mpr List.mem_cons_self, by simp, hfeasible,
        hwitness⟩
    · rw [List.append_assoc] at hfound
      exact ⟨candidate :: rest, hsub.cons_cons candidate, by simp, hfound⟩
    · exact ⟨rest, hsub.cons candidate, hne, hfound⟩

/-- Recording a considered subset. -/
theorem Considered.records {next : Option Branch} {search' : PairSearch}
    (h : Considered env candidate branch search next search') {seen : CombinationState → Prop}
    (hseen : Witnesses seen search.exact) :
    Witnesses (fun state => seen state ∨ (env.Feasible (branch.selected ++ [candidate]) ∧
      Witness env.tokenIn env.tokenOut (branch.selected ++ [candidate]) state)) search'.exact := by
  rcases h.recorded with ⟨hfeasible, -, entry, hentry, hexact⟩ | ⟨hnot, hexact⟩
  · rw [hexact]
    exact (hseen.record_witness hentry).congr fun state => by simp [hfeasible]
  · rw [hexact]
    exact hseen.congr fun state => by simp [hnot]

/-- Every nonempty sublist of `candidate :: bucket` is the candidate alone, the candidate before
some others, or leaves the candidate out. -/
theorem sublist_cons_cases {makers bucket : List Crossable} {candidate : Crossable}
    (h : makers.Sublist (candidate :: bucket)) (hne : makers ≠ []) :
    makers = [candidate] ∨
      (∃ rest, rest ≠ [] ∧ rest.Sublist bucket ∧ makers = candidate :: rest) ∨
      makers.Sublist bucket := by
  cases h with
  | cons _ hsub => exact Or.inr (Or.inr hsub)
  | @cons_cons rest _ _ hsub =>
    by_cases hrest : rest = []
    · exact Or.inl (by rw [hrest])
    · exact Or.inr (Or.inl ⟨rest, hrest, hsub, rfl⟩)

/-- What an unstopped walk over `bucket` below `selected` has done: the witnesses of every feasible
extension are recorded, and each of these was planned within the budget. -/
structure Walked (env : PairEnv) (selected bucket : List Crossable)
    (seen : CombinationState → Prop) (exact : List CombinationState) : Prop where
  witnesses : Witnesses (fun state => seen state ∨ ExtensionWitness env selected bucket state) exact
  planned : ∀ makers : List Crossable, makers.Sublist bucket → makers ≠ [] →
    env.Feasible (selected ++ makers) →
      PlannedWithin env.budget.limits.maxDiscoveryWork (selected ++ makers)

/-- No extension is feasible: nothing was to be recorded. -/
theorem Walked.of_infeasible {selected bucket : List Crossable} {seen : CombinationState → Prop}
    {exact : List CombinationState} (h : Witnesses seen exact)
    (hnone : ∀ makers : List Crossable, makers.Sublist bucket → makers ≠ [] →
      ¬ env.Feasible (selected ++ makers)) : Walked env selected bucket seen exact := by
  refine ⟨h.congr fun state => ⟨Or.inl, fun h => h.resolve_right ?_⟩,
    fun makers hsub hne hfeasible => absurd hfeasible (hnone makers hsub hne)⟩
  rintro ⟨makers, hsub, hne, hfeasible, -⟩
  exact hnone makers hsub hne hfeasible

/-- The walks below the extended selection and over the siblings are the walk of the bucket. -/
theorem Walked.cons {bucket : List Crossable} {seen : CombinationState → Prop}
    {exact exact' : List CombinationState} {next : Option Branch} {search' : PairSearch}
    (hconsidered : Considered env candidate branch search next search')
    (hbelow : Walked env (branch.selected ++ [candidate]) bucket (fun state => seen state ∨
      (env.Feasible (branch.selected ++ [candidate]) ∧
        Witness env.tokenIn env.tokenOut (branch.selected ++ [candidate]) state)) exact)
    (hsiblings : Walked env branch.selected bucket (fun state => (seen state ∨
      (env.Feasible (branch.selected ++ [candidate]) ∧
        Witness env.tokenIn env.tokenOut (branch.selected ++ [candidate]) state)) ∨
      ExtensionWitness env (branch.selected ++ [candidate]) bucket state) exact') :
    Walked env branch.selected (candidate :: bucket) seen exact' := by
  refine ⟨hsiblings.witnesses.congr fun state => ?_, fun makers hsub hne hfeasible => ?_⟩
  · rw [extensionWitness_cons, or_assoc, or_assoc]
  · rcases sublist_cons_cases hsub hne with rfl | ⟨rest, hrest, hrestsub, rfl⟩ | hsub
    · rcases hconsidered.recorded with ⟨-, hplanned, -⟩ | ⟨hnot, -⟩
      · exact hplanned
      · exact absurd hfeasible hnot
    · have := hbelow.planned rest hrestsub hrest (by rwa [List.append_assoc])
      rwa [List.append_assoc] at this
    · exact hsiblings.planned makers hsub hne hfeasible

/-- **The walk below a branch.** By induction on the bucket: when it ends unstopped, every feasible
extension of the selection has been planned and recorded. -/
theorem visit_spec (henv : env.Sound) {bucket : List Crossable}
    (hbucket : ∀ offer ∈ bucket, env.Offers offer) :
    ∀ {branch : Branch} {search : PairSearch} {seen : CombinationState → Prop},
      env.Holds branch →
      branch.selected.length < env.budget.limits.maxMakersPerCombination →
      Witnesses seen search.exact → (visit env bucket branch search).stop = none →
      Walked env branch.selected bucket seen (visit env bucket branch search).exact := by
  induction bucket with
  | nil =>
    intro branch search seen _ _ hseen _
    exact Walked.of_infeasible hseen fun makers hsub hne _ => hne (List.sublist_nil.mp hsub)
  | cons candidate bucket ih =>
    intro branch search seen hbranch hlength hseen hstop
    have hcandidate := hbucket candidate List.mem_cons_self
    have hrest : ∀ offer ∈ bucket, env.Offers offer := fun o ho =>
      hbucket o (List.mem_cons_of_mem _ ho)
    have hstart := stop_of_visit_stop hstop
    have henter : (enterSubset env.budget search).stop = none := by
      by_contra hne
      rw [visit, if_neg (by simp [hstart]), if_pos (Option.isSome_iff_ne_none.mpr hne)] at hstop
      exact hne hstop
    rw [visit_cons env candidate bucket branch hstart henter] at hstop ⊢
    have hdescend := stop_of_visit_stop hstop
    have hconsider : (consider env candidate branch (enterSubset env.budget search)).2.stop =
        none := by
      by_contra hne
      have hnone : ¬ ((consider env candidate branch
          (enterSubset env.budget search)).2.stop.isNone = true) := by
        simpa using hne
      unfold descend at hdescend
      cases hnext : (consider env candidate branch (enterSubset env.budget search)).1 with
      | none =>
        rw [hnext] at hdescend
        exact hne hdescend
      | some next =>
        rw [hnext] at hdescend
        simp only at hdescend
        rw [if_neg fun h => hnone h.1] at hdescend
        exact hne hdescend
    have hconsidered := consider_spec henv hbranch hcandidate hlength hconsider
    have hseen' : Witnesses seen (enterSubset env.budget search).exact := by simpa using hseen
    have hrecorded := hconsidered.records hseen'
    -- the extensions of `selected ++ [candidate]`: visited, or none is feasible
    have hbelow : Walked env (branch.selected ++ [candidate]) bucket (fun state => seen state ∨
        (env.Feasible (branch.selected ++ [candidate]) ∧
          Witness env.tokenIn env.tokenOut (branch.selected ++ [candidate]) state))
        (descend env bucket (consider env candidate branch (enterSubset env.budget search)).1
          (consider env candidate branch (enterSubset env.budget search)).2).exact := by
      unfold descend at hdescend ⊢
      cases hnext : (consider env candidate branch (enterSubset env.budget search)).1 with
      | none =>
        refine Walked.of_infeasible hrecorded fun makers hsub _ hfeasible => ?_
        rw [List.append_assoc] at hfeasible
        exact hconsidered.pruned hnext makers (fun o ho => hrest o (hsub.subset ho)) hfeasible
      | some next =>
        obtain ⟨hselected, hholds⟩ := hconsidered.extended next hnext
        rw [hnext] at hdescend
        simp only at hdescend ⊢
        by_cases hmore : next.selected.length < env.budget.limits.maxMakersPerCombination
        · rw [if_pos ⟨by rw [hconsider]; rfl, hmore⟩] at hdescend ⊢
          rw [← hselected] at hrecorded ⊢
          exact ih hrest hholds hmore hrecorded hdescend
        · rw [if_neg fun h => hmore h.2]
          refine Walked.of_infeasible hrecorded fun makers _ hne hfeasible => ?_
          have hlen := hfeasible.length_le
          have hpos := List.length_pos_of_ne_nil hne
          rw [List.length_append, ← hselected] at hlen
          omega
    exact Walked.cons hconsidered hbelow (ih hrest hbranch hlength hbelow.witnesses hstop)

/-- What an unstopped search of a pair has found: the best witness at each input among those of the
feasible sublists of the bucket, each of which was planned within the budget. -/
structure PairSearched (limits : LadderResourceLimits) (tokenIn tokenOut : String)
    (bucket : List Crossable) (exact : List CombinationState) : Prop where
  witnesses : Witnesses (fun state => ∃ makers : List Crossable, makers.Sublist bucket ∧
    Candidate limits.maxMakersPerCombination tokenIn tokenOut makers ∧
    Witness tokenIn tokenOut makers state) exact
  planned : ∀ makers : List Crossable, makers.Sublist bucket →
    Candidate limits.maxMakersPerCombination tokenIn tokenOut makers →
      PlannedWithin limits.maxDiscoveryWork makers

/-- **The search of a pair.** -/
theorem enumeratePair_spec {budget : Budget} {bucket : List Crossable} {tokenIn tokenOut : String}
    {tokenAt : List String} {work : Work} (hin : tokenIn ∈ tokenAt) (hout : tokenOut ∈ tokenAt)
    (hdistinct : tokenIn ≠ tokenOut) (hpos : 0 < budget.limits.maxMakersPerCombination)
    (hle : budget.limits.maxMakersPerCombination ≤ maxPhysicalMakersPerMerge)
    (hvalid : ∀ offer ∈ bucket, offer.Valid) (hindexed : Indexed tokenAt bucket)
    (hstop : (enumeratePair budget bucket tokenIn tokenOut tokenAt work).stop = none) :
    PairSearched budget.limits tokenIn tokenOut bucket
      (enumeratePair budget bucket tokenIn tokenOut tokenAt work).exact := by
  unfold enumeratePair at hstop ⊢
  simp only at hstop ⊢
  generalize henv : (⟨budget, tokenAt, tokenIn, tokenOut, bucket.all fun entry =>
    entry.tokenIn = tokenIn && entry.tokenOut = tokenOut⟩ : PairEnv) = env at hstop ⊢
  have hsound : env.Sound := by
    subst henv
    exact ⟨hin, hout, hdistinct, hpos, hle⟩
  have hoffers : ∀ offer ∈ bucket, env.Offers offer := by
    subst henv
    refine fun offer hoffer => ⟨hvalid offer hoffer, (hindexed offer hoffer).1,
      (hindexed offer hoffer).2, fun hdirect => ?_⟩
    simpa using List.all_eq_true.mp hdirect offer hoffer
  have hroot : env.Holds ⟨0, 0, {}, [], true⟩ :=
    ⟨by simp, by simp, by simp, fun _ => PairBalances.holds_nil env.tokenAt, fun _ _ => trivial⟩
  have hvisit := visit_spec hsound hoffers hroot hsound.makers_pos keeps_nil hstop
  subst henv
  refine ⟨hvisit.witnesses.congr fun state => ?_, fun makers hsub hfeasible =>
    hvisit.planned makers hsub hfeasible.nonempty hfeasible⟩
  rw [false_or]
  constructor
  · rintro ⟨makers, hsub, -, hfound⟩
    exact ⟨makers, hsub, hfound⟩
  · rintro ⟨makers, hsub, hfeasible, hwitness⟩
    exact ⟨makers, hsub, hfeasible.nonempty, hfeasible, hwitness⟩

end ZswapKernel
