import ZswapKernel.SolverCore.LadderQuotes
import ZswapKernel.SolverCore.LadderSurvey

/-!
# Derived pairs as wire frames

What a published pair promises to whoever decodes it: both validators accept it, its amounts settle
and ascend, both interpolations agree, its terminal stays below the first improvement it leaves out,
and whatever it leaves out is explained by a resource cap.

* `ValidFrame` — a published pair and its provenance.
* `derived_pairs_valid` — every pair of a derivation, and every pair the loop comes to.
-/

namespace ZswapKernel

open Program

/-- A published pair, whose levels encode the first `combinations.length` steps of the frontier of
the whole retained book. -/
structure ValidFrame (limits : LadderResourceLimits) (policy : JobAdmissionPolicy)
    (retained : List Crossable) (pair : PriceLevelsPair) (provenance : LadderPairProvenance) :
    Prop where
  accepted : LadderSchema.rejectPair pair = none
  relayed : RelayWsContract.isPriceLevelsPair pair = true
  wire : WireLadder pair.levels
  terminal : Settles (bigInt provenance.terminalInput)
  quotes : ∀ amount, LadderSchema.interpolateQuote pair.levels amount =
    RelayWsContract.interpolateQuote pair.levels amount
  frontier : ∃ frontier, FrontierSteps limits (policy.minimum pair.tokenOut) pair.tokenIn
      pair.tokenOut retained frontier ∧
    (frontier.take provenance.combinations.length).mapM
      (combinationOf pair.tokenIn pair.tokenOut) = .ok provenance.combinations ∧
    (∀ omitted, frontier[provenance.combinations.length]? = some omitted →
      bigInt provenance.terminalInput < omitted.input) ∧
    (provenance.combinations.length < frontier.length →
      ∃ reason ∈ provenance.capReasons, reason.Truncates)

/-- What holds where a pass encodes the frontier of its search: the check of the encoded pair
passes, and a frontier that is not wholly encoded has a truncation reason. -/
def PairContext.EncodesValid (ctx : PairContext) : Prop :=
  ∀ work search, enumeratePair ctx.budget ctx.cachedUniverse.offers ctx.tokenIn ctx.tokenOut
      ctx.tokenAt work = search → search.stop = none → ctx.frontier search.exact ≠ [] →
    ∀ encoded truncationReasons, longestEncodableFrontier (ctx.frontier search.exact)
      ctx.budget.limits.maxWirePointsPerPair ctx.tokenIn ctx.tokenOut =
        .ok ⟨encoded, truncationReasons⟩ →
    (∀ best, encoded = some best →
      LadderSchema.rejectPair ⟨ctx.tokenIn, ctx.tokenOut, best.levels⟩ = none ∧
        RelayWsContract.isPriceLevelsPair ⟨ctx.tokenIn, ctx.tokenOut, best.levels⟩ = true) ∧
    Truncation (ctx.frontier search.exact) encoded truncationReasons

section Frames

variable {ctx : PairContext} {limits : LadderResourceLimits} {policy : JobAdmissionPolicy}
  {graph : DiscoveryGraph} {retained : List Crossable}

/-- The frontier of a universe that holds every feasible set is that of the whole book. -/
theorem FrontierSteps.lift {minimum : Option Int} {tokenIn tokenOut : String}
    {bucket : List Crossable} {steps : List CombinationState}
    (h : FrontierSteps limits minimum tokenIn tokenOut bucket steps)
    (hsub : bucket.Sublist retained)
    (hcomplete : ∀ makers : List Crossable, makers.Sublist retained →
      (∀ token, netSupply makers token < 0 → token = tokenIn) → makers.Sublist bucket) :
    FrontierSteps limits minimum tokenIn tokenOut retained steps where
  climbs := h.climbs
  witnessed := fun step hstep => by
    obtain ⟨makers, hmakers⟩ := h.witnessed step hstep
    exact ⟨makers, { hmakers with sublist := hmakers.sublist.trans hsub }⟩
  dominant := fun makers hmakers hcandidate hreaches =>
    h.dominant makers (hcomplete makers hmakers hcandidate.only_deficit) hcandidate hreaches

/-- The combinations of an encoded prefix, one for each of its steps. -/
theorem EncodesPrefix.length_combinations {frontier : List CombinationState}
    {count maxWirePoints : Nat} {tokenIn tokenOut : String} {encoded : EncodedFrontier}
    (h : EncodesPrefix frontier count maxWirePoints tokenIn tokenOut encoded) :
    encoded.combinations.length = min count frontier.length := by
  rw [← List.length_take]
  exact (Except.forall₂_of_mapM h.combinations).length_eq.symm

theorem PairContext.Sound.encodesValid (hctx : ctx.Sound retained) (hadmitted : ctx.Admitted)
    (hmost : ctx.budget.limits.maxWirePointsPerPair ≤ maxRungsPerPair) : ctx.EncodesValid := by
  rintro work search hsearch hstop hne encoded truncationReasons hencode
  have hsearched : PairSearched ctx.budget.limits ctx.tokenIn ctx.tokenOut
      ctx.cachedUniverse.offers search.exact := by
    subst hsearch
    exact enumeratePair_spec hctx.tokenIn_mem hctx.tokenOut_mem hadmitted.distinct
      hctx.makers_pos hctx.makers_le (fun o ho => hctx.valid o (hctx.universe_sub.subset ho))
      hctx.indexed hstop
  obtain ⟨hsettles, hvalid⟩ := PairContext.frontier_valid hctx hadmitted hmost hsearched
  refine ⟨fun best hbest => ?_, longestEncodableFrontier_truncation hne hsettles hencode⟩
  rw [hbest] at hencode
  exact hvalid best truncationReasons hencode

/-- A pair its pass publishes is a valid frame. -/
theorem PairContext.Publishes.validFrame {publication : Publication}
    (h : ctx.Publishes publication) (hctx : ctx.Sound retained)
    (hmost : ctx.budget.limits.maxWirePointsPerPair ≤ maxRungsPerPair) :
    ValidFrame ctx.budget.limits ctx.policy retained publication.pair publication.provenance := by
  obtain ⟨exact, hsearched, encoded, truncationReasons, hencode, haccepted, hrelayed, rfl⟩ :=
    h.searched
  have hsteps := frontier_steps hsearched
    (fun o ho => hctx.valid o (hctx.universe_sub.subset ho)) (ctx.policy.minimum ctx.tokenOut)
  have hsettles := (PairContext.frontier_valid hctx h.admitted hmost hsearched).1
  obtain ⟨count, hencodes⟩ := longestEncodableFrontier_best hencode
  obtain ⟨final, hfinal, hterminal, -⟩ := hencodes.final
  have hne : ctx.frontier exact ≠ [] := by
    intro hnil
    rw [hnil, List.take_nil] at hfinal
    cases hfinal
  have htruncation := longestEncodableFrontier_truncation hne hsettles hencode
  have hlength := hencodes.length_combinations
  have htake : (ctx.frontier exact).take encoded.combinations.length =
      (ctx.frontier exact).take count := by
    rw [hlength, ← List.take_eq_take_min]
  refine ⟨haccepted, hrelayed, hencodes.wire hsteps.climbs hsettles hmost, ⟨?_, ?_⟩,
    fun _ => rfl, ctx.frontier exact,
    hsteps.lift hctx.universe_sub hctx.complete, ?_, fun omitted homitted => ?_, fun hshort => ?_⟩
  · have hpos := (hsettles final (List.mem_of_mem_take (List.mem_of_getLast? hfinal))).1.1
    show 0 < bigInt (decimal encoded.terminalInput)
    rw [bigInt_decimal]
    omega
  · show bigInt (decimal encoded.terminalInput) ≤ maxSettlementAmount
    rw [bigInt_decimal]
    exact hencodes.settles
  · show ((ctx.frontier exact).take encoded.combinations.length).mapM _ = _
    rw [htake]
    exact hencodes.combinations
  · show bigInt (decimal encoded.terminalInput) < omitted.input
    rw [bigInt_decimal]
    refine hencodes.omitted omitted ?_
    have hbound := (List.getElem?_eq_some_iff.mp homitted).1
    have hcount : encoded.combinations.length = count := by
      have : encoded.combinations.length < (ctx.frontier exact).length := hbound
      omega
    rw [← hcount]
    exact homitted
  · have hreasons := htruncation.explained fun best hbest => by
      obtain rfl := Option.some.inj hbest
      exact hshort.ne
    obtain ⟨reason, hreason⟩ := List.exists_mem_of_ne_nil _ hreasons
    exact ⟨reason, htruncation.named encoded rfl reason hreason,
      htruncation.truncates reason hreason⟩

end Frames

/-- The limits of a derivation are the hard ones or lower. -/
theorem deriveLadder_limits {comparisons : List CombinationState → Nat}
    {offers : List LadderSourceOffer} {options : DeriveLadderOptions} {derived : DerivedLadder}
    (h : deriveLadder comparisons offers options = .ok derived) :
    0 < derived.limits.maxMakersPerCombination ∧
      derived.limits.maxMakersPerCombination ≤ maxPhysicalMakersPerMerge ∧
      derived.limits.maxWirePointsPerPair ≤ maxRungsPerPair := by
  have hlimits : ∀ limits, resolveLadderResourceLimits options.resourceLimits = .ok limits →
      0 < limits.maxMakersPerCombination ∧
        limits.maxMakersPerCombination ≤ maxPhysicalMakersPerMerge ∧
        limits.maxWirePointsPerPair ≤ maxRungsPerPair := fun limits h =>
    ⟨(resolveLadderResourceLimits_ok h).1, (resolveLadderResourceLimits_ok h).2,
      resolveLadderResourceLimits_wire h⟩
  have hhard : 0 < hardLadderResourceLimits.maxMakersPerCombination ∧
      hardLadderResourceLimits.maxMakersPerCombination ≤ maxPhysicalMakersPerMerge ∧
      hardLadderResourceLimits.maxWirePointsPerPair ≤ maxRungsPerPair := by decide
  unfold deriveLadder at h
  split at h
  · cases h
    exact hhard
  · rename_i limits hresolved
    simp only at h
    split at h
    · cases h
      exact hlimits limits hresolved
    · split at h
      · cases h
        exact hlimits limits hresolved
      · unfold deriveFrom at h
        simp only at h
        split at h
        · cases h
          exact hlimits limits hresolved
        · cases h
          exact hlimits limits hresolved
        · cases h
          exact hlimits limits hresolved
        · cases h

/-- **Every derived pair is a valid frame.** Every published pair passes both validators, with
positive settling amounts in order, the same quotes on both sides, a terminal below the first
improvement left out, and a resource cap named for whatever is left out. No examined pair is ever
called invalid, each one that is not published says why, and at every pair the loop may come to the
check of the encoded pair passes and a frontier that is not wholly encoded has a truncation
reason. -/
theorem derived_pairs_valid {comparisons : List CombinationState → Nat}
    {offers : List LadderSourceOffer} {options : DeriveLadderOptions} {derived : DerivedLadder}
    (h : deriveLadder comparisons offers options = .ok derived) :
    (∀ entry ∈ derived.levels.zip derived.provenance,
      ValidFrame derived.limits options.toJobAdmissionPolicy (retainedOffers offers options)
        entry.1 entry.2) ∧
    (∀ diagnostic ∈ derived.diagnostics.pairs, diagnostic.Reasoned) ∧
    ∀ graph, GraphOf (retainedOffers offers options) graph → ∀ ctx : PairContext,
      ctx.Reached derived.limits options.toJobAdmissionPolicy graph
        (retainedOffers offers options) → ctx.Admitted → ctx.EncodesValid := by
  obtain ⟨published, hpublished⟩ := deriveLadder_published h
  obtain ⟨hpos, hle, hmost⟩ := deriveLadder_limits h
  have hvalid : ∀ offer ∈ retainedOffers offers options, offer.Valid := fun _ =>
    retainedOffers_valid
  have hgraph : ∀ graph, GraphOf (retainedOffers offers options) graph →
      GraphSound (retainedOffers offers options) graph := fun graph ⟨budget, work, work', hrun⟩ =>
    buildDiscoveryGraph_returns budget _ work graph work' hrun
  refine ⟨fun entry hentry => ?_, (deriveLadder_surveyed h).reasoned,
    fun graph hof ctx hreached hadmitted => ?_⟩
  · rw [hpublished.levels, hpublished.provenance, List.zip_map', List.mem_map] at hentry
    obtain ⟨publication, hmem, rfl⟩ := hentry
    obtain ⟨graph, hof, ctx, hreached, hpublishes⟩ := hpublished.holds.listed publication hmem
    have hframe := hpublishes.validFrame (hreached.sound (hgraph graph hof) hvalid hpos hle)
      (by rw [hreached.limits_eq]; exact hmost)
    rw [hreached.limits_eq, hreached.policy_eq] at hframe
    exact hframe
  · exact (hreached.sound (hgraph graph hof) hvalid hpos hle).encodesValid hadmitted
      (by rw [hreached.limits_eq]; exact hmost)

open TwoOffers in
/-- The pair of the two offers is a valid frame that leaves nothing out. -/
theorem derived_pairs_valid_two_offers : ∃ derived provenance,
    deriveLadder (fun _ => 0) book options = .ok derived ∧
    ValidFrame derived.limits options.toJobAdmissionPolicy (retainedOffers book options) pair
      provenance ∧ ∀ diagnostic ∈ derived.diagnostics.pairs, diagnostic.Reasoned := by
  obtain ⟨derived, provenance, hderived, hmem, -⟩ := derived_entry
  obtain ⟨hframes, hreasoned, -⟩ := derived_pairs_valid hderived
  exact ⟨derived, provenance, hderived, hframes _ hmem, hreasoned⟩

end ZswapKernel
