import ZswapKernel.Solver.RouteMakers
import ZswapKernel.SolverCore.LadderQuotes
import ZswapKernel.SolverCore.MergeBudget

/-!
# Publication and admission agree

The executor repeats the derivation of the publisher and takes the combination it recorded, so it
refuses no job inside a ladder that it would itself publish from the same state.

* `deriveCurrent_ok`, `matchingPair_ok`, `findWitness_ok` — the executor's way to the combination.
* `Prices.route` — the makers behind it: accounting, receipts and merge order.
* `published_jobs_admitted` — every job inside a published ladder.
-/

namespace ZswapKernel

/-- A job for a published pair, with its input inside the ladder and its output within the quote. -/
structure QuotedJob (derived : DerivedLadder) (policy : JobAdmissionPolicy)
    (entry : PriceLevelsPair × LadderPairProvenance) (job : SwapMessage) (quote : Int) : Prop where
  published : entry ∈ derived.levels.zip derived.provenance
  tokenIn : toLowerCase job.tokenIn = entry.1.tokenIn
  tokenOut : toLowerCase job.tokenOut = entry.1.tokenOut
  low : ∀ first, entry.1.levels.head? = some first → bigInt first.input ≤ bigInt job.amountIn
  high : bigInt job.amountIn ≤ bigInt entry.2.terminalInput
  quoted : RelayWsContract.interpolateQuote entry.1.levels (bigInt job.amountIn) = some quote
  positive : 1 ≤ bigInt job.amountOut
  minimum : ∀ least, policy.minimum entry.1.tokenOut = some least → least ≤ bigInt job.amountOut
  within : bigInt job.amountOut ≤ quote

/-! ## The derivation -/

section Derivation

variable {comparisons : List CombinationState → Nat} {cache : SwapJobCache} {options : RouteOptions}
  {derived : DerivedLadder}

/-- A cancelled derivation publishes nothing. -/
theorem not_cancelled (hderived : deriveLadder comparisons cache.book.sources
      (options.derivation cache options.resourceLimits) = .ok derived)
    (hpublished : derived.levels ≠ []) : cache.cancelled options.shouldAbort = false := by
  obtain ⟨-, hpoll, -⟩ := deriveLadder_ran hderived hpublished
  cases hcancelled : cache.cancelled options.shouldAbort with
  | false => rfl
  | true =>
    have habort : (abortReason (some fun _ => .ok (cache.cancelled options.shouldAbort)) 0).1 =
      none := hpoll
    rw [hcancelled] at habort
    cases habort

/-- **The same derivation**, on the executor's side. -/
theorem deriveCurrent_ok (hclock : options.freshNowMs.getD options.nowMs = options.nowMs)
    (hderived : deriveLadder comparisons cache.book.sources
      (options.derivation cache options.resourceLimits) = .ok derived)
    (hpublished : derived.levels ≠ []) :
    deriveCurrent comparisons cache options = .ok derived := by
  obtain ⟨hlimits, -, hsize⟩ := deriveLadder_ran hderived hpublished
  have hlimits : resolveLadderResourceLimits options.resourceLimits = .ok derived.limits := hlimits
  have hsize : cache.book.size ≤ derived.limits.maxSourceOffers := by
    unfold Book.sources Book.all at hsize
    rw [List.length_map] at hsize
    exact hsize
  have hagain : deriveLadder comparisons cache.book.sources
      (options.derivation cache (some derived.limits.controls)) = .ok derived := by
    rw [← hderived]
    have hresolved : resolveLadderResourceLimits (some derived.limits.controls) =
        resolveLadderResourceLimits
          (options.derivation cache options.resourceLimits).resourceLimits :=
      (resolveLadderResourceLimits_again hlimits).trans hlimits.symm
    exact deriveLadder_rerun hresolved
  have hsame : ¬ (cache.book.size ≠ cache.book.all.length ∨ cache.book.all.any (fun offer =>
      cache.book.get offer.offerHash ≠ some offer || offer.expiredDuring options
        (options.freshNowMs.getD options.nowMs)) = true) := by
    rw [hclock, not_or, not_not, List.any_eq_true]
    refine ⟨rfl, ?_⟩
    rintro ⟨offer, hoffer, hchanged⟩
    have hfound : cache.book.get offer.offerHash = some offer := cache.book.get_of_mem hoffer
    have hlive : offer.expiredDuring options options.nowMs = false := by
      unfold BookOffer.expiredDuring
      cases offer.expiresAt with
      | none => rfl
      | some expiresAt =>
        rw [decide_eq_false_iff_not]
        omega
    rw [hfound, hlive] at hchanged
    simp at hchanged
  unfold deriveCurrent
  rw [hlimits]
  simp only
  rw [if_neg (not_lt.mpr hsize), hagain]
  simp only [orThrown, bind, Except.bind]
  rw [not_cancelled hderived hpublished, if_neg Bool.false_ne_true, if_neg hsame]

end Derivation

/-! ## The combination -/

section Combination

variable {limits : LadderResourceLimits} {policy : JobAdmissionPolicy} {retained : List Crossable}
  {derived : DerivedLadder} {published : List Publication} {publication : Publication}
  {steps : List CombinationState} {final step : CombinationState} {terminal x : Int}
  {makers : List Crossable}

/-- **The pair of a job** is the published one with its tokens. -/
theorem matchingPair_ok (h : DerivedFrom limits policy retained derived published)
    {entry : PriceLevelsPair × LadderPairProvenance}
    (hentry : entry ∈ derived.levels.zip derived.provenance) {job : SwapMessage}
    (hin : toLowerCase job.tokenIn = entry.1.tokenIn)
    (hout : toLowerCase job.tokenOut = entry.1.tokenOut) :
    matchingPair derived job = some entry := by
  have hmatches : (entry.1.tokenIn = toLowerCase job.tokenIn &&
      entry.1.tokenOut = toLowerCase job.tokenOut) = true := by simp [hin, hout]
  rw [h.levels, h.provenance, List.zip_map', List.mem_map] at hentry
  obtain ⟨publication, hmem, rfl⟩ := hentry
  unfold matchingPair
  rw [h.levels, h.provenance, List.zip_map']
  cases hfind : (published.map fun publication =>
      (publication.pair, publication.provenance)).find? fun entry =>
        entry.1.tokenIn = toLowerCase job.tokenIn && entry.1.tokenOut = toLowerCase job.tokenOut with
  | none => exact absurd hmatches (List.find?_eq_none.mp hfind _ (List.mem_map_of_mem hmem))
  | some found =>
    obtain ⟨other, hother, rfl⟩ := List.mem_map.mp (List.mem_of_find?_eq_some hfind)
    have htokens : other.pair.tokenIn = toLowerCase job.tokenIn ∧
        other.pair.tokenOut = toLowerCase job.tokenOut := by simpa using List.find?_some hfind
    by_contra hne
    have : Std.Symm fun left right : Publication =>
        ¬ (left.pair.tokenIn = right.pair.tokenIn ∧ left.pair.tokenOut = right.pair.tokenOut) :=
      ⟨fun _ _ h heq => h ⟨heq.1.symm, heq.2.symm⟩⟩
    refine h.holds.distinct.forall hother hmem (fun heq => hne (by rw [heq])) ?_
    exact ⟨htokens.1.trans hin, htokens.2.trans hout⟩

theorem Prices.combinations_climb
    (h : Prices limits policy retained publication steps final terminal) :
    publication.provenance.combinations.Pairwise (bigInt ·.input < bigInt ·.input) := by
  have hinputs : steps.map (·.input) =
      publication.provenance.combinations.map (bigInt ·.input) :=
    forall2_map_eq (h.combination.imp fun _ _ hof => by
      rw [(combinationOf_ok hof).1, bigInt_decimal])
  refine List.pairwise_map.mp (hinputs ▸ ?_)
  exact List.pairwise_map.mpr (h.climbs.imp fun hlt => hlt.1)

/-- `findLast` picks the combination of the last step. -/
theorem Prices.findLast (h : Prices limits policy retained publication steps final terminal)
    (hstep : LastWithin steps x step) :
    ∃ witness, publication.provenance.combinations.reverse.find? (bigInt ·.input ≤ x) =
      some witness ∧ combinationOf publication.pair.tokenIn publication.pair.tokenOut step =
        .ok witness := by
  obtain ⟨combination, hlast⟩ := h.last_combination hstep
  cases hfind : publication.provenance.combinations.reverse.find? (bigInt ·.input ≤ x) with
  | none =>
    have := List.find?_eq_none.mp hfind combination (List.mem_reverse.mpr hlast.mem)
    exact absurd hlast.input_le (by simpa using this)
  | some witness =>
    obtain ⟨hle, later, earlier, hsplit, hlater⟩ := List.find?_eq_some_iff_append.mp hfind
    rw [decide_eq_true_eq] at hle
    have hfound : LastCombination publication.provenance.combinations x witness := by
      refine ⟨List.mem_reverse.mp (List.mem_of_find?_eq_some hfind), hle, fun other hother hx => ?_⟩
      have hclimb := List.pairwise_reverse.mpr h.combinations_climb
      rw [hsplit] at hclimb
      rcases List.mem_append.mp (hsplit ▸ List.mem_reverse.mpr hother) with hmem | hmem
      · exact absurd hx (by simpa using hlater other hmem)
      · rcases List.mem_cons.mp hmem with rfl | hmem
        · exact le_rfl
        · exact (List.rel_of_pairwise_cons (List.pairwise_append.mp hclimb).2.1 hmem).le
    obtain ⟨found, hwithin, hof⟩ := h.last_step hfound
    obtain rfl := hwithin.unique h.climbs hstep
    exact ⟨witness, rfl, hof⟩

/-- **The witness** the executor picks is the combination of the last step. -/
theorem Prices.findWitness (h : Prices derived.limits policy retained publication steps final terminal)
    (hstep : LastWithin steps x step) (hsorted : retained.Pairwise (·.offerHash < ·.offerHash))
    (hmakers : StepOf derived.limits (policy.minimum publication.pair.tokenOut)
      publication.pair.tokenIn publication.pair.tokenOut retained step makers)
    (hle : derived.limits.maxMakersPerCombination ≤ maxPhysicalMakersPerMerge) :
    ∃ witness, ZswapKernel.findWitness derived publication.provenance x = .ok witness ∧
      combinationOf publication.pair.tokenIn publication.pair.tokenOut step = .ok witness := by
  obtain ⟨witness, hfind, hof⟩ := h.findLast hstep
  refine ⟨witness, ?_, hof⟩
  have hhashes : witness.offerHashes = makers.map (·.offerHash) :=
    (combinationOf_ok hof).2.2.trans hmakers.witness.offerHashes
  have hnodup : (makers.map (·.offerHash)).Nodup :=
    (List.pairwise_map.mpr (hsorted.sublist hmakers.sublist)).imp ne_of_lt
  have hnonempty : makers.length ≠ 0 := fun hzero =>
    hmakers.candidate.nonempty (List.eq_nil_of_length_eq_zero hzero)
  have hlength := hmakers.candidate.length_le
  have hmax : maxPhysicalMakersPerMerge = maxExactFilesPerRead := rfl
  unfold ZswapKernel.findWitness
  rw [hfind]
  simp only
  rw [hhashes, List.length_map, if_neg]
  rintro (hzero | hmany | hmany | hdup)
  · exact hnonempty hzero
  · omega
  · omega
  · exact hdup hnodup

end Combination

/-! ## The makers -/

section Makers

variable {limits : LadderResourceLimits} {minimum : Option Int} {tokenIn tokenOut : String}
  {retained makers : List Crossable} {offers : List BookOffer} {step : CombinationState}
  {witness : LadderCombinationProvenance} {rows : List WholeOfferTokenBalance}

/-- The offers of the witness are in the book. -/
theorem routeOffers_ok {book : Book} {options : DeriveLadderOptions}
    (hsub : makers.Sublist (retainedOffers book.sources options))
    (hhashes : witness.offerHashes = makers.map (·.offerHash)) :
    ∃ offers, routeOffers book witness = .ok offers ∧ List.Forall₂ Offers offers makers := by
  have hsorted : (makers.map (·.offerHash)).Pairwise (· ≤ ·) :=
    List.pairwise_map.mpr (((retainedOffers_sorted _ _).sublist hsub).imp le_of_lt)
  unfold routeOffers
  rw [hhashes, hsorted.insertionSort_eq]
  have hretained : ∀ maker ∈ makers, maker ∈ retainedOffers book.sources options :=
    fun _ hmaker => hsub.subset hmaker
  clear hsorted hsub hhashes
  induction makers with
  | nil => exact ⟨[], rfl, .nil⟩
  | cons maker makers ih =>
    obtain ⟨offer, hget, hoffer⟩ := book.offers_of_retained (hretained maker List.mem_cons_self)
    obtain ⟨offers, hoffers, hall⟩ := ih fun o ho => hretained o (List.mem_cons_of_mem _ ho)
    refine ⟨snapshotOffer offer :: offers, ?_, .cons hoffer.snapshot hall⟩
    rw [List.map_cons, List.mapM_cons, hget, hoffers]
    rfl

theorem forall2_statesTerms (h : List.Forall₂ Offers offers makers)
    (hvalid : ∀ maker ∈ makers, maker.Valid) :
    List.Forall₂ StatesTerms (offers.map (·.mergeSource)) makers := by
  induction h with
  | nil => exact .nil
  | cons hfirst _ ih =>
    exact .cons (hfirst.statesTerms (hvalid _ List.mem_cons_self))
      (ih fun o ho => hvalid o (List.mem_cons_of_mem _ ho))

theorem all_matchesWitnessTerms (h : List.Forall₂ Offers offers makers)
    (hvalid : ∀ maker ∈ makers, maker.Valid) : offers.all matchesWitnessTerms = true := by
  rw [List.all_eq_true]
  intro offer hoffer
  obtain ⟨maker, hmaker, hof⟩ := exists_of_forall2 h hoffer
  exact hof.matchesWitnessTerms (hvalid maker hmaker)

/-- The recorded balances are those the makers account for. -/
theorem Witness.serialize_eq (h : Witness tokenIn tokenOut makers step)
    (haccounts : Accounts rows (makerGives makers) (makerWants makers))
    (hvalid : ∀ maker ∈ makers, maker.Valid)
    (hof : combinationOf tokenIn tokenOut step = .ok witness) :
    serializeWholeOfferTokenBalances rows = .ok witness.tokenBalances := by
  obtain ⟨rows', hrows', haccounts'⟩ := h.rows
  obtain rfl := haccounts.unique haccounts'
  have hcanonical := canonicalBalances_of_accounts haccounts (haccounts.canonical hvalid)
  have hrecorded : serializeWholeOfferTokenBalances (step.rows tokenIn tokenOut) =
      .ok witness.tokenBalances := by
    unfold combinationOf at hof
    simp only [Except.bind_eq_ok] at hof
    obtain ⟨balances, hbalances, hof⟩ := hof
    cases hof
    exact hbalances
  unfold serializeWholeOfferTokenBalances at hrecorded ⊢
  rw [hrows'] at hrecorded
  rw [hcanonical]
  exact hrecorded

/-- **The accounting** of the executor is the recorded one. -/
theorem routeBalances_ok (hoffers : List.Forall₂ Offers offers makers)
    (hvalid : ∀ maker ∈ makers, maker.Valid) (h : Witness tokenIn tokenOut makers step)
    (hof : combinationOf tokenIn tokenOut step = .ok witness) :
    ∃ rows, routeBalances offers witness = .ok rows ∧
      Accounts rows (makerGives makers) (makerWants makers) ∧
      serializeWholeOfferTokenBalances rows = .ok witness.tokenBalances := by
  obtain ⟨rows, hrows, haccounts⟩ := accountMakers_ok hvalid
  have hserialize := h.serialize_eq haccounts hvalid hof
  refine ⟨rows, ?_, haccounts, hserialize⟩
  have hsources := accountWholeOfferBalances_congr (forall2_statesTerms hoffers hvalid) hvalid
  rw [List.map_map, hrows] at hsources
  unfold routeBalances
  rw [show (accountWholeOfferBalances (offers.map fun offer =>
    offer.mergeSource.toWholeOfferBalanceSource)) = .ok rows from hsources]
  simp only [hserialize, orThrown, bind, Except.bind]
  rw [if_neg (not_not.mpr rfl)]

/-- **The receipts** of a quoted job. -/
theorem routeReceipts_ok {job : SwapMessage} (htokenIn : toLowerCase job.tokenIn = tokenIn)
    (htokenOut : toLowerCase job.tokenOut = tokenOut) (hvalid : ∀ maker ∈ makers, maker.Valid)
    (haccounts : Accounts rows (makerGives makers) (makerWants makers))
    (hstep : StepOf limits minimum tokenIn tokenOut retained step makers)
    (hof : combinationOf tokenIn tokenOut step = .ok witness) (hin : CanonicalToken tokenIn)
    (hout : CanonicalToken tokenOut) (hdistinct : tokenIn ≠ tokenOut)
    (hrequired : step.input ≤ bigInt job.amountIn)
    (hsettles : bigInt job.amountIn ≤ maxSettlementAmount) (hpos : 1 ≤ bigInt job.amountOut)
    (hwithin : bigInt job.amountOut ≤ step.output) :
    ∃ receipts, routeReceipts job step.output witness rows = .ok receipts ∧
      buildWholeOfferReceipts rows job.trade =
        .ok (.ok ⟨bigInt witness.input, step.output, receipts⟩) := by
  subst htokenIn htokenOut
  obtain ⟨hinput, houtput, -⟩ := combinationOf_ok hof
  rw [hstep.witness.input] at hrequired
  have hsupplied := hstep.witness.output
  have hbuilt : ∃ receipts, buildWholeOfferReceipts rows job.trade =
      .ok (.ok ⟨step.input, step.output, receipts⟩) := by
    rw [hstep.witness.input, hsupplied]
    exact buildWholeOfferReceipts_ok haccounts hvalid hstep.candidate hin hout hdistinct hrequired
      hsettles hpos (hsupplied ▸ hwithin)
  obtain ⟨receipts, hbuilt⟩ := hbuilt
  refine ⟨receipts, ?_, by rw [hinput, bigInt_decimal, hbuilt]⟩
  unfold routeReceipts
  simp only [hbuilt, orThrown, bind, Except.bind]
  rw [hinput, houtput, bigInt_decimal, bigInt_decimal, if_neg]
  rintro (hne | hne | hne) <;> exact hne rfl

/-! ## The merge order -/

/-- The limits of the executor's planner admit what the derivation planned. -/
theorem routeMergeOptions_accepted (hpos : 1 ≤ limits.maxMakersPerCombination)
    (hle : limits.maxMakersPerCombination ≤ maxPhysicalMakersPerMerge) {count : Nat}
    (hcount : count ≤ limits.maxMakersPerCombination) :
    AcceptedLimits count (routeMergeOptions limits).maxSources (routeMergeOptions limits).maxWork
      (min maxSafeMergeOrderWork limits.maxDiscoveryWork) where
  many := Int.ofNat_le.mpr hcount
  sources_pos := Int.ofNat_le.mpr hpos
  sources_le := Int.ofNat_le.mpr hle
  work := rfl
  work_le := min_le_left _ _

theorem defaultLimits_accepted {count : Nat} (hcount : count ≤ maxPhysicalMakersPerMerge) :
    AcceptedLimits count none none maxSafeMergeOrderWork where
  many := Int.ofNat_le.mpr hcount
  sources_pos := by decide
  sources_le := le_rfl
  work := rfl
  work_le := le_rfl

/-- **The merge order** of the executor is found, and found again from any sources that state the
terms of the makers. -/
theorem routeMergeOrder_ok (hstep : StepOf limits minimum tokenIn tokenOut retained step makers)
    (hsorted : retained.Pairwise (·.offerHash < ·.offerHash))
    (hvalid : ∀ maker ∈ makers, maker.Valid) (hoffers : List.Forall₂ Offers offers makers)
    (hpos : 1 ≤ limits.maxMakersPerCombination)
    (hle : limits.maxMakersPerCombination ≤ maxPhysicalMakersPerMerge) :
    ∃ hashes, routeMergeOrder offers limits = .ok hashes ∧
      (∃ usedFallback work, findSafeWholeOfferMergeOrder (offers.map (·.mergeSource))
        (routeMergeOptions limits) 0 = .ok (.found hashes usedFallback work, 0)) ∧
      ∀ sources, List.Forall₂ StatesTerms sources makers → ∃ usedFallback work,
        findSafeWholeOfferMergeOrder sources {} 0 = .ok (.found hashes usedFallback work, 0) := by
  obtain ⟨hashes, hfound⟩ := hstep.planned.found hvalid (hsorted.sublist hstep.sublist)
  have hcount := hstep.candidate.length_le
  have hterms := forall2_statesTerms hoffers hvalid
  obtain ⟨usedFallback, work, hplan⟩ := hfound (offers.map (·.mergeSource)) _ _ _ 0
    (mapM_orderedSource_congr hterms hvalid)
    (hterms.length_eq ▸ routeMergeOptions_accepted hpos hle hcount) le_rfl
  have hplan : findSafeWholeOfferMergeOrder (offers.map (·.mergeSource)) (routeMergeOptions limits)
      0 = .ok (.found hashes usedFallback work, 0) := hplan
  refine ⟨hashes, ?_, ⟨usedFallback, work, hplan⟩, fun sources hsources => ?_⟩
  · unfold routeMergeOrder
    rw [hplan]
    rfl
  · exact hfound sources none none _ 0 (mapM_orderedSource_congr hsources hvalid)
      (hsources.length_eq ▸ defaultLimits_accepted (hcount.trans hle)) (min_le_left _ _)

theorem readMaker_source {τ : Type} {dependencies : ExactDependencies τ} {cached : BookOffer}
    {file : ExactFilesEntry} {exact : ExactMaker τ}
    (h : readMaker dependencies cached file = .ok exact) :
    ∃ semantics, exactSemanticsMatch cached semantics = true ∧
      exact.source = exactSource cached semantics := by
  unfold readMaker at h
  split at h
  · split at h
    · cases h
    · split at h
      · cases h
      · simp only [Except.bind_eq_ok] at h
        obtain ⟨transaction, -, semantics, -, h⟩ := h
        split at h
        · cases h
        · rename_i hmatch
          simp only [Except.bind_eq_ok] at h
          obtain ⟨_, -, _, -, h⟩ := h
          cases h
          exact ⟨semantics, not_not.mp hmatch, rfl⟩
  · cases h

/-- Exact files that are accepted for the offers of makers state their terms. -/
theorem readMakers_statesTerms {τ : Type} {dependencies : ExactDependencies τ}
    {route : ResolvedRoute} {files : List ExactFilesEntry} {exact : List (ExactMaker τ)}
    (hoffers : List.Forall₂ Offers route.offers makers) (hvalid : ∀ maker ∈ makers, maker.Valid)
    (hlength : files.length = route.offers.length)
    (h : readMakers dependencies route files = .ok exact) :
    List.Forall₂ StatesTerms (exact.map (·.source)) makers := by
  have hread := Except.forall₂_of_mapM h
  clear h
  generalize route.offers = offers at *
  induction hoffers generalizing files exact with
  | nil =>
    cases hread
    exact .nil
  | cons hfirst _ ih =>
    cases files with
    | nil => cases hlength
    | cons file files =>
      cases hread with
      | cons hhead htail =>
        obtain ⟨semantics, hmatch, hsource⟩ := readMaker_source hhead
        have hstates := exactSource_statesTerms hfirst (hvalid _ List.mem_cons_self) hmatch
        rw [← hsource] at hstates
        exact .cons hstates (ih (fun o ho => hvalid o (List.mem_cons_of_mem _ ho))
          (Nat.succ.inj hlength) htail)

/-- The exact sources of the makers pass the checks of the read. -/
theorem requireSameRoute_ok {route : ResolvedRoute} {sources : List WholeOfferMergeSource}
    (hsources : List.Forall₂ StatesTerms sources makers) (hvalid : ∀ maker ∈ makers, maker.Valid)
    (haccounts : Accounts route.tokenBalances (makerGives makers) (makerWants makers))
    {usedFallback : Bool} {work : Nat} (hplan : findSafeWholeOfferMergeOrder sources {} 0 =
      .ok (.found route.mergeOrder usedFallback work, 0)) :
    requireSameRoute route sources = .ok () := by
  obtain ⟨rows, hrows, hexact⟩ := accountMakers_ok hvalid
  obtain rfl := haccounts.unique hexact
  have hserialize := serializeWholeOfferTokenBalances_of_accounts haccounts
    (haccounts.canonical hvalid)
  unfold requireSameRoute
  rw [accountWholeOfferBalances_congr hsources hvalid, hrows]
  simp only [orThrown, bind, Except.bind, hserialize, hplan]
  rw [if_neg (not_not.mpr rfl), if_neg (not_not.mpr rfl)]

end Makers

/-! ## The job -/

section Job

variable {derived : DerivedLadder} {policy : JobAdmissionPolicy}
  {entry : PriceLevelsPair × LadderPairProvenance} {job : SwapMessage} {quote : Int}

theorem QuotedJob.requireCanonicalJob (h : QuotedJob derived policy entry job quote)
    (hin : CanonicalToken entry.1.tokenIn) (hout : CanonicalToken entry.1.tokenOut)
    (hdistinct : entry.1.tokenIn ≠ entry.1.tokenOut) (hpos : 0 < bigInt job.amountIn)
    (hsettles : bigInt job.amountIn ≤ maxSettlementAmount) (hquote : quote ≤ maxSettlementAmount) :
    ZswapKernel.requireCanonicalJob job = .ok () := by
  have htokenIn : hex64 job.tokenIn = true :=
    (hex64_toLowerCase job.tokenIn).symm.trans (h.tokenIn.symm ▸ hin.hex)
  have htokenOut : hex64 job.tokenOut = true :=
    (hex64_toLowerCase job.tokenOut).symm.trans (h.tokenOut.symm ▸ hout.hex)
  have hpositive := h.positive
  have hwithin := h.within
  unfold ZswapKernel.requireCanonicalJob
  simp only
  rw [htokenIn, htokenOut, h.tokenIn, h.tokenOut, if_neg (by decide), if_neg hdistinct,
    if_neg (by omega)]

theorem QuotedJob.requireAdmitted (h : QuotedJob derived policy entry job quote)
    (hsupported : policy.refusesPair entry.1.tokenIn entry.1.tokenOut = false)
    (hbounded : policy.lacksMinimum entry.1.tokenOut = false) :
    ZswapKernel.requireAdmitted job policy = .ok () := by
  have hminimum := h.minimum
  unfold ZswapKernel.requireAdmitted
  rw [h.tokenIn, h.tokenOut, hsupported, if_neg Bool.false_ne_true, if_neg]
  rintro ⟨hsome, hbelow⟩
  unfold JobAdmissionPolicy.lacksMinimum at hbounded
  rw [hsome, Bool.true_and] at hbounded
  obtain ⟨least, hleast⟩ := Option.isSome_iff_exists.mp (Option.isNone_eq_false_iff.mp hbounded)
  rw [hleast, Option.all_some, decide_eq_true_eq] at hbelow
  exact absurd (hminimum least hleast) (not_le.mpr hbelow)

theorem QuotedJob.requireQuoted (h : QuotedJob derived policy entry job quote) :
    ZswapKernel.requireQuoted entry.1 job = .ok quote := by
  unfold ZswapKernel.requireQuoted
  rw [h.quoted]
  simp only
  rw [if_neg (not_lt.mpr h.within)]

/-- **What the executor resolves** for a job: the recorded combination with the quoted output, its
accounting, its receipts, and a merge order that the exact files give again. -/
structure RouteQuoted (derived : DerivedLadder) (entry : PriceLevelsPair × LadderPairProvenance)
    (job : SwapMessage) (quote : Int) (witness : LadderCombinationProvenance)
    (route : ResolvedRoute) : Prop where
  picked : findWitness derived entry.2 (bigInt job.amountIn) = .ok witness
  output : bigInt witness.output = quote
  accounted : accountWholeOfferBalances
    (route.offers.map fun offer => offer.mergeSource.toWholeOfferBalanceSource) =
      .ok route.tokenBalances
  recorded : serializeWholeOfferTokenBalances route.tokenBalances = .ok witness.tokenBalances
  receipts : buildWholeOfferReceipts route.tokenBalances job.trade =
    .ok (.ok ⟨bigInt witness.input, quote, route.receipts⟩)
  planned : ∃ usedFallback work, findSafeWholeOfferMergeOrder (route.offers.map (·.mergeSource))
    (routeMergeOptions derived.limits) 0 = .ok (.found route.mergeOrder usedFallback work, 0)
  replanned : ∀ (τ : Type) (dependencies : ExactDependencies τ) (files : List ExactFilesEntry)
    (exact : List (ExactMaker τ)), files.length = route.offers.length →
    readMakers dependencies route files = .ok exact →
    (∃ usedFallback work, findSafeWholeOfferMergeOrder (exact.map (·.source)) {} 0 =
      .ok (.found route.mergeOrder usedFallback work, 0)) ∧
    requireSameRoute route (exact.map (·.source)) = .ok ()

end Job

/-- The set the tie order prefers among all that may fill an order of `x`. -/
structure BestFill (retained : List Crossable) (maxMakers : Nat) (minimum : Option Int)
    (tokenIn tokenOut : String) (x : Int) (makers : Finset Crossable) : Prop where
  fills : Fills retained maxMakers minimum tokenIn tokenOut x makers
  preferred : ∀ other, Fills retained maxMakers minimum tokenIn tokenOut x other →
    Preferred tokenIn tokenOut makers other

/-- The offers of a route are the book offers of its makers. -/
structure RouteOf (book : Book) (makers : Finset Crossable) (offers : List BookOffer) : Prop where
  made : ∀ offer ∈ offers, ∃ maker ∈ makers, offer.offerHash = maker.offerHash ∧
    ∃ source ∈ book.offers, offer = snapshotOffer source
  all : ∀ maker ∈ makers, ∃ offer ∈ offers, offer.offerHash = maker.offerHash

/-- What the executor collects for the makers. -/
theorem routeOf_of_routeOffers {book : Book} {witness : LadderCombinationProvenance}
    {offers : List BookOffer} {makers : List Crossable} (h : routeOffers book witness = .ok offers)
    (hall : List.Forall₂ Offers offers makers) : RouteOf book makers.toFinset offers := by
  have hread := Except.forall₂_of_mapM h
  refine ⟨fun offer hoffer => ?_, fun maker hmaker => ?_⟩
  · obtain ⟨maker, hmaker, hof⟩ := exists_of_forall2 hall hoffer
    obtain ⟨hash, -, hget⟩ := exists_of_forall2 hread.flip hoffer
    refine ⟨maker, List.mem_toFinset.mpr hmaker, hof.hash, ?_⟩
    split at hget
    · cases hget
    · rename_i source hsource
      cases hget
      exact ⟨source, (book.mem_of_get hsource).1, rfl⟩
  · obtain ⟨offer, hoffer, hof⟩ := exists_of_forall2 hall.flip (List.mem_toFinset.mp hmaker)
    exact ⟨offer, hoffer, hof.hash⟩

/-- **The way of a quoted job** through the executor: it reaches the reservation with a route of the
set of makers behind the quote, and the reservation decides. -/
theorem QuotedJob.resolves {comparisons : List CombinationState → Nat} {cache : SwapJobCache}
    {stock : Stock} {options : RouteOptions} {derived : DerivedLadder}
    {entry : PriceLevelsPair × LadderPairProvenance} {job : SwapMessage} {quote : Int}
    (hjob : QuotedJob derived options.toJobAdmissionPolicy entry job quote)
    (hclock : options.freshNowMs.getD options.nowMs = options.nowMs)
    (hderived : deriveLadder comparisons cache.book.sources
      (options.derivation cache options.resourceLimits) = .ok derived) :
    ∃ route witness makers,
      resolveSwapJobRoute comparisons job cache stock options =
        (match stock.reserve route.claim with
          | (false, _) => refuse .routeUnavailable "route is already claimed"
          | (true, stock') => .ok (route, stock')) ∧
      RouteQuoted derived entry job quote witness route ∧
      BestFill (retainedOffers cache.book.sources
        (options.derivation cache options.resourceLimits)) derived.limits.maxMakersPerCombination
        (options.minimum entry.1.tokenOut) entry.1.tokenIn entry.1.tokenOut (bigInt job.amountIn)
        makers ∧
      route.claim = claimFor route.offers [] ∧ RouteOf cache.book makers route.offers := by
  have hnonempty : derived.levels ≠ [] := by
    intro hnil
    have := hjob.published
    rw [hnil] at this
    exact absurd this List.not_mem_nil
  have hcancelled := not_cancelled hderived hnonempty
  have hcurrent : cache.isCurrent = true := by
    unfold SwapJobCache.cancelled at hcancelled
    rw [Bool.or_eq_false_iff, Bool.not_eq_false'] at hcancelled
    exact hcancelled.1
  obtain ⟨hpos, hle⟩ := resolveLadderResourceLimits_ok (deriveLadder_ran hderived hnonempty).1
  obtain ⟨published, hpublished⟩ := deriveLadder_published hderived
  have hsorted := retainedOffers_sorted cache.book.sources
    (options.derivation cache options.resourceLimits)
  have hmatching := matchingPair_ok hpublished hjob.published hjob.tokenIn hjob.tokenOut
  have hentry := hjob.published
  rw [hpublished.levels, hpublished.provenance, List.zip_map', List.mem_map] at hentry
  obtain ⟨publication, hmem, rfl⟩ := hentry
  obtain ⟨steps, final, terminal, hprices⟩ := hpublished.holds.priced publication hmem
  -- the step behind the quote
  obtain ⟨head, hhead, hlevel⟩ := hprices.head
  obtain ⟨step, makers, hstep, hmakers, -, hrelay, -⟩ :=
    hprices.quote hsorted hlevel (hjob.low _ hlevel) hjob.high
  obtain rfl : step.output = quote := Option.some.inj (hrelay.symm.trans hjob.quoted)
  have hvalid : ∀ maker ∈ makers, maker.Valid := fun maker hmaker =>
    retainedOffers_valid (hmakers.sublist.subset hmaker)
  obtain ⟨witness, hwitness, hof⟩ := hprices.findWitness hstep hsorted hmakers hle
  obtain ⟨hinput, houtput, hhashes⟩ := combinationOf_ok hof
  -- its makers
  obtain ⟨offers, hoffers, hall⟩ :=
    routeOffers_ok hmakers.sublist (hhashes.trans hmakers.witness.offerHashes)
  obtain ⟨rows, hrows, haccounts, hrecorded⟩ := routeBalances_ok hall hvalid hmakers.witness hof
  have hsettles : bigInt job.amountIn ≤ maxSettlementAmount := by
    have := hjob.high
    rw [hprices.terminalInput, bigInt_decimal] at this
    exact this.trans hprices.settles
  have hinputPos : 0 < step.input := by
    have := hmakers.candidate.input_neg
    rw [hmakers.witness.input]
    omega
  have houtputLe : step.output ≤ maxSettlementAmount := by
    have := hmakers.candidate.in_range publication.pair.tokenOut
    rw [hmakers.witness.output]
    exact this.2
  obtain ⟨receipts, hreceipts, hbuilt⟩ := routeReceipts_ok hjob.tokenIn hjob.tokenOut hvalid
    haccounts hmakers hof hprices.canonicalIn hprices.canonicalOut hprices.distinct
    hstep.input_le hsettles hjob.positive hjob.within
  obtain ⟨hashes, horder, hplanned, hreplanned⟩ :=
    routeMergeOrder_ok hmakers hsorted hvalid hall hpos hle
  -- every check of the executor passes
  refine ⟨⟨offers, rows, receipts, hashes, claimFor offers []⟩, witness, makers.toFinset, ?_, ?_,
    ⟨hmakers.fills hsorted hstep.input_le, fun other hother => ?_⟩, rfl, ?_⟩
  · unfold resolveSwapJobRoute
    rw [hjob.requireCanonicalJob hprices.canonicalIn hprices.canonicalOut hprices.distinct
      (hinputPos.trans_le hstep.input_le) hsettles houtputLe]
    simp only [bind, Except.bind, hcurrent, Bool.not_true, Bool.false_eq_true, if_false]
    rw [hjob.requireAdmitted hprices.supported hprices.bounded,
      deriveCurrent_ok hclock hderived hnonempty]
    simp only [hmatching, hjob.requireQuoted, hwitness, hoffers,
      all_matchesWitnessTerms hall hvalid, Bool.not_true, Bool.false_eq_true, if_false, hrows,
      hreceipts, horder] <;> rfl
  · refine ⟨hwitness, by rw [houtput, bigInt_decimal], ?_, hrecorded, hbuilt, hplanned, ?_⟩
    · obtain ⟨rows', hrows', haccounts'⟩ := accountMakers_ok hvalid
      obtain rfl := haccounts.unique haccounts'
      have hsources := accountWholeOfferBalances_congr (forall2_statesTerms hall hvalid) hvalid
      rwa [List.map_map, hrows'] at hsources
    · intro τ dependencies files exact hlength hread
      have hterms := readMakers_statesTerms hall hvalid hlength hread
      obtain ⟨usedFallback, work, hplan⟩ := hreplanned _ hterms
      exact ⟨⟨usedFallback, work, hplan⟩, requireSameRoute_ok hterms hvalid haccounts hplan⟩
  · refine hprices.preferred hsorted ?_ hstep hmakers hother
    have := hjob.high
    rwa [hprices.terminalInput, bigInt_decimal] at this
  · exact routeOf_of_routeOffers hoffers hall

/-- **Publication and admission agree.** A job for a pair published from a state, with its input
inside the ladder and its output between the minimum and the quote, is admitted from that state, by
the recorded combination. -/
theorem published_jobs_admitted {comparisons : List CombinationState → Nat} {cache : SwapJobCache}
    {stock : Stock} {options : RouteOptions} {derived : DerivedLadder}
    {entry : PriceLevelsPair × LadderPairProvenance} {job : SwapMessage} {quote : Int}
    (hstock : stock.Unclaimed) (hclock : options.freshNowMs.getD options.nowMs = options.nowMs)
    (hderived : deriveLadder comparisons cache.book.sources
      (options.derivation cache options.resourceLimits) = .ok derived)
    (hjob : QuotedJob derived options.toJobAdmissionPolicy entry job quote) :
    ∃ route stock' witness,
      resolveSwapJobRoute comparisons job cache stock options = .ok (route, stock') ∧
      RouteQuoted derived entry job quote witness route := by
  obtain ⟨route, witness, _, hroute, hquoted, -, hclaim, -⟩ := hjob.resolves hclock hderived
  have hreserve := Stock.reserve_of_unclaimed hstock route.claim (hclaim ▸ rfl)
  refine ⟨route, (stock.reserve route.claim).2, witness, ?_, hquoted⟩
  rw [hroute]
  cases hresult : stock.reserve route.claim with
  | mk reserved stock' =>
    rw [hresult] at hreserve
    obtain rfl : reserved = true := hreserve
    rfl

/-! ## A job for the book of two offers -/

namespace TwoOffers

/-- The cache of the two offers. -/
def cache : SwapJobCache where
  book := {
    offers := book.map fun offer => ⟨offer, none, none⟩
    lower := by decide +kernel
    distinct := by decide +kernel }
  isCurrent := true

def routeOptions : RouteOptions where
  nowMs := 1700000000000
  expiryMarginSeconds := 60
  unavailableOfferHashes := []

def job : SwapMessage := ⟨"job", tokenA, tokenB, "7", "3"⟩

end TwoOffers

open TwoOffers in
/-- The job for 3 `B` is admitted. -/
theorem published_jobs_admitted_two_offers : ∃ route stock',
    resolveSwapJobRoute (fun _ => 0) job cache {} routeOptions = .ok (route, stock') := by
  obtain ⟨derived, provenance, hderived, hmem, hterminal⟩ := derived_entry
  have htokenIn : toLowerCase job.tokenIn = pair.tokenIn := by decide +kernel
  have htokenOut : toLowerCase job.tokenOut = pair.tokenOut := by decide +kernel
  have hquoted : RelayWsContract.interpolateQuote pair.levels (bigInt job.amountIn) = some 3 := by
    decide
  have hderived : deriveLadder (fun _ => 0) cache.book.sources
      (routeOptions.derivation cache routeOptions.resourceLimits) = .ok derived := hderived
  have hstock : Stock.Unclaimed {} := ⟨rfl, rfl, rfl⟩
  have hjob : QuotedJob derived routeOptions.toJobAdmissionPolicy (pair, provenance) job 3 := {
    published := hmem
    tokenIn := htokenIn
    tokenOut := htokenOut
    low := by
      rintro first hfirst
      cases hfirst
      decide
    high := by
      rw [hterminal]
      decide
    quoted := hquoted
    positive := by decide
    minimum := by
      rintro least hleast
      cases hleast
    within := by decide }
  obtain ⟨route, stock', -, hroute, -⟩ :=
    published_jobs_admitted hstock rfl hderived hjob
  exact ⟨route, stock', hroute⟩

end ZswapKernel
