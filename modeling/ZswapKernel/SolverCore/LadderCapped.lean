import ZswapKernel.SolverCore.DiscoveryExact
import ZswapKernel.SolverCore.LadderFrames

/-!
# Cancelled and capped derivations

What a derivation publishes does not depend on its caps: two unstopped searches of one pair find the
same witnesses, whatever universes they were given, so a pair that a capped derivation still publishes
is published alike by one that no cap cut. A derivation that was cancelled publishes nothing.

* `longestEncodableFrontier_face` — an encoding reads the face of its states only.
* `PairSearched.face_eq`, `PairContext.Encodes.transfer` — searches of one pair agree.
* `cancelled_and_capped` — what cancellation and caps leave.
-/

namespace ZswapKernel

open Program BestByKey

/-! ## What an encoding reads -/

/-- What an encoding reads of a state: its rows count only through their provenance. -/
def CombinationState.face (tokenIn tokenOut : String) (state : CombinationState) :
    Int × Int × Except String LadderCombinationProvenance :=
  (state.input, state.output, combinationOf tokenIn tokenOut state)

section Face

variable {tokenIn tokenOut : String} {states states' : List CombinationState}

theorem improving_face (bestOutput : Int)
    (h : states.map (·.face tokenIn tokenOut) = states'.map (·.face tokenIn tokenOut)) :
    (improving bestOutput states).map (·.face tokenIn tokenOut) =
      (improving bestOutput states').map (·.face tokenIn tokenOut) := by
  induction states generalizing states' bestOutput with
  | nil => rw [List.map_eq_nil_iff.mp h.symm]
  | cons state states ih =>
    obtain ⟨state', rest', rfl, hhead, htail⟩ := List.map_eq_cons_iff.mp h.symm
    have houtput : state'.output = state.output := congrArg (·.2.1) hhead
    unfold improving
    rw [houtput]
    by_cases hle : state.output ≤ bestOutput
    · rw [if_pos hle, if_pos hle]
      exact ih bestOutput htail.symm
    · rw [if_neg hle, if_neg hle, List.map_cons, List.map_cons, hhead, ih _ htail.symm]

theorem admittedFrontier_face (minimum : Option Int)
    (h : states.map (·.face tokenIn tokenOut) = states'.map (·.face tokenIn tokenOut)) :
    (admittedFrontier minimum states).map (·.face tokenIn tokenOut) =
      (admittedFrontier minimum states').map (·.face tokenIn tokenOut) := by
  have hfilter : ∀ (bound : Int) (frontier : List CombinationState),
      (frontier.filter (bound ≤ ·.output)).map (·.face tokenIn tokenOut) =
        (frontier.map (·.face tokenIn tokenOut)).filter (bound ≤ ·.2.1) := fun bound frontier => by
    rw [List.filter_map]
    rfl
  unfold admittedFrontier
  cases minimum with
  | none => exact h
  | some bound => exact (hfilter bound states).trans (h ▸ (hfilter bound states').symm)

theorem thresholdLevels_face
    (h : states.map (·.face tokenIn tokenOut) = states'.map (·.face tokenIn tokenOut)) :
    thresholdLevels states = thresholdLevels states' := by
  induction states generalizing states' with
  | nil => rw [List.map_eq_nil_iff.mp h.symm]
  | cons state states ih =>
    obtain ⟨state', rest', rfl, hhead, htail⟩ := List.map_eq_cons_iff.mp h.symm
    have hinput : state'.input = state.input := congrArg (·.1) hhead
    have houtput : state'.output = state.output := congrArg (·.2.1) hhead
    cases states with
    | nil =>
      rw [List.map_eq_nil_iff.mp htail, thresholdLevels, thresholdLevels, hinput, houtput]
    | cons next states =>
      obtain ⟨next', more', rfl, hnext, -⟩ := List.map_eq_cons_iff.mp htail
      have hnextin : next'.input = next.input := congrArg (·.1) hnext
      rw [thresholdLevels, thresholdLevels, hinput, houtput, hnextin, ih htail.symm]

theorem mapM_combinationOf_face
    (h : states.map (·.face tokenIn tokenOut) = states'.map (·.face tokenIn tokenOut)) :
    states.mapM (combinationOf tokenIn tokenOut) =
      states'.mapM (combinationOf tokenIn tokenOut) := by
  have hface : ∀ frontier : List CombinationState, frontier.mapM (combinationOf tokenIn tokenOut) =
      (frontier.map (·.face tokenIn tokenOut)).mapM (·.2.2) := fun frontier => by
    rw [List.mapM_map]
    rfl
  rw [hface, hface, h]

/-- The terminal reads the inputs only. -/
theorem terminalOf_face {final final' : CombinationState} (h : final.input = final'.input)
    {next next' : Option CombinationState} (hnext : next.map (·.input) = next'.map (·.input)) :
    terminalOf final next = terminalOf final' next' := by
  cases next with
  | none =>
    rw [Option.map_eq_none_iff.mp hnext.symm]
    unfold terminalOf
    rw [h]
  | some next =>
    obtain ⟨next', rfl, hinput⟩ := Option.map_eq_some_iff.mp hnext.symm
    simp only [terminalOf, h, hinput]

theorem encodePrefix_face (retainedCount maxWirePoints : Nat)
    (h : states.map (·.face tokenIn tokenOut) = states'.map (·.face tokenIn tokenOut)) :
    encodePrefix states retainedCount maxWirePoints tokenIn tokenOut =
      encodePrefix states' retainedCount maxWirePoints tokenIn tokenOut := by
  have htake : (states.take retainedCount).map (·.face tokenIn tokenOut) =
      (states'.take retainedCount).map (·.face tokenIn tokenOut) := by
    rw [List.map_take, List.map_take, h]
  have hlast : (states.take retainedCount).getLast?.map (·.face tokenIn tokenOut) =
      (states'.take retainedCount).getLast?.map (·.face tokenIn tokenOut) := by
    rw [← List.getLast?_map, ← List.getLast?_map, htake]
  have hnext : states[retainedCount]?.map (·.input) = states'[retainedCount]?.map (·.input) := by
    have hface := congrArg (fun faces => (faces[retainedCount]?).map (·.1)) h
    simpa [List.getElem?_map, Option.map_map, Function.comp_def, CombinationState.face] using hface
  unfold encodePrefix
  simp only
  cases hfinal : (states.take retainedCount).getLast? with
  | none =>
    rw [hfinal] at hlast
    rw [Option.map_eq_none_iff.mp hlast.symm]
  | some final =>
    rw [hfinal] at hlast
    obtain ⟨final', hfinal', hsame⟩ := Option.map_eq_some_iff.mp hlast.symm
    have hinput : final'.input = final.input := congrArg (·.1) hsame
    have houtput : final'.output = final.output := congrArg (·.2.1) hsame
    simp only [hfinal', terminalOf_face hinput.symm hnext, thresholdLevels_face htake,
      mapM_combinationOf_face htake, houtput, hinput, failureReasons]

theorem tryPrefix_face (maxWirePoints : Nat)
    (h : states.map (·.face tokenIn tokenOut) = states'.map (·.face tokenIn tokenOut)) :
    tryPrefix states maxWirePoints tokenIn tokenOut =
      tryPrefix states' maxWirePoints tokenIn tokenOut := by
  funext scan retained
  unfold tryPrefix
  rw [encodePrefix_face retained maxWirePoints h]

/-- **An encoding** reads the faces of the frontier. -/
theorem longestEncodableFrontier_face (maxWirePoints : Nat)
    (h : states.map (·.face tokenIn tokenOut) = states'.map (·.face tokenIn tokenOut)) :
    longestEncodableFrontier states maxWirePoints tokenIn tokenOut =
      longestEncodableFrontier states' maxWirePoints tokenIn tokenOut := by
  have hlength : states.length = states'.length := by simpa using congrArg List.length h
  unfold longestEncodableFrontier
  rw [tryPrefix_face maxWirePoints h, hlength]

end Face

/-! ## Two searches of one pair -/

theorem eq_of_map_eq {α β : Type} {f : α → β} {l l' : List α}
    (hinj : ∀ a ∈ l, ∀ b ∈ l', f a = f b → a = b) (h : l.map f = l'.map f) : l = l' := by
  induction l generalizing l' with
  | nil => exact (List.map_eq_nil_iff.mp h.symm).symm
  | cons a l ih =>
    obtain ⟨b, rest, rfl, hhead, htail⟩ := List.map_eq_cons_iff.mp h.symm
    rw [hinj a List.mem_cons_self b List.mem_cons_self hhead.symm,
      ih (fun x hx y hy => hinj x (List.mem_cons_of_mem _ hx) y (List.mem_cons_of_mem _ hy))
        htail.symm]

/-- Makers of a book with distinct hashes are known by their hashes. -/
theorem makers_eq_of_hashes {retained makers makers' : List Crossable}
    (hnodup : (retained.map (·.offerHash)).Nodup) (h : makers.Sublist retained)
    (h' : makers'.Sublist retained)
    (heq : makers.map (·.offerHash) = makers'.map (·.offerHash)) : makers = makers' :=
  eq_of_map_eq (fun _ ha _ hb hhash =>
    List.inj_on_of_nodup_map hnodup (h.subset ha) (h'.subset hb) hhash) heq

/-- Witnesses of one selection have one face. -/
theorem Witness.face_eq {tokenIn tokenOut : String} {makers : List Crossable}
    {state state' : CombinationState} (h : Witness tokenIn tokenOut makers state)
    (h' : Witness tokenIn tokenOut makers state') :
    state.face tokenIn tokenOut = state'.face tokenIn tokenOut := by
  have hinput : state.input = state'.input := h.input.trans h'.input.symm
  have houtput : state.output = state'.output := h.output.trans h'.output.symm
  have hhashes : state.offerHashes = state'.offerHashes := h.offerHashes.trans h'.offerHashes.symm
  obtain ⟨rows, hrows, haccounts⟩ := h.rows
  obtain ⟨rows', hrows', haccounts'⟩ := h'.rows
  rw [← haccounts.unique haccounts'] at hrows'
  have hcombination : combinationOf tokenIn tokenOut state =
      combinationOf tokenIn tokenOut state' := by
    have hof : ∀ entry : CombinationState, canonicalBalances (entry.rows tokenIn tokenOut) = .ok rows →
        combinationOf tokenIn tokenOut entry = .ok ⟨decimal entry.input, decimal entry.output,
          entry.offerHashes, rows.map fun balance =>
            ⟨balance.token, decimal balance.gives, decimal balance.wants, decimal balance.net⟩⟩ := by
      intro entry hentry
      unfold combinationOf serializeWholeOfferTokenBalances
      unfold CombinationState.rows at hentry
      simp only [hentry]
      rfl
    rw [hof state hrows, hof state' hrows', hinput, houtput, hhashes]
  unfold CombinationState.face
  rw [hinput, houtput, hcombination]

/-- What one list keeps under a key, any other list that keeps the same entries has of equal
rank. -/
theorem Witnesses.matched {seen : CombinationState → Prop} {exact exact' : List CombinationState}
    (h : Witnesses seen exact) (h' : Witnesses seen exact') {state : CombinationState}
    (hstate : state ∈ exact) :
    ∃ other ∈ exact', other.input = state.input ∧ other.rank = state.rank := by
  obtain ⟨other, hother, hkey, hle⟩ := h'.best state (h.sound state hstate)
  obtain ⟨back, hback, hkey', hle'⟩ := h.best other (h'.sound other hother)
  obtain rfl := h.eq_of_key hback hstate (hkey'.trans hkey)
  exact ⟨other, hother, hkey, le_antisymm hle hle'⟩

/-- The feasible sublists of `retained` and their witnesses. -/
def FeasibleState (retained : List Crossable) (maxMakers : Nat) (tokenIn tokenOut : String)
    (state : CombinationState) : Prop :=
  ∃ makers : List Crossable, makers.Sublist retained ∧
    Candidate maxMakers tokenIn tokenOut makers ∧ Witness tokenIn tokenOut makers state

section Searches

variable {retained : List Crossable} {maxMakers : Nat} {tokenIn tokenOut : String}
  {exact exact' : List CombinationState}

theorem mem_face_of_mem (hnodup : (retained.map (·.offerHash)).Nodup)
    (h : Witnesses (FeasibleState retained maxMakers tokenIn tokenOut) exact)
    (h' : Witnesses (FeasibleState retained maxMakers tokenIn tokenOut) exact')
    {state : CombinationState} (hstate : state ∈ exact) :
    state.face tokenIn tokenOut ∈ exact'.map (·.face tokenIn tokenOut) := by
  obtain ⟨other, hother, -, hrank⟩ := h.matched h' hstate
  obtain ⟨makers, hsub, -, hwitness⟩ := h.sound state hstate
  obtain ⟨makers', hsub', -, hwitness'⟩ := h'.sound other hother
  have hhashes : other.offerHashes = state.offerHashes := by
    have hlex := toLex.injective hrank
    exact (Prod.mk.inj (toLex.injective (Prod.mk.inj hlex).2)).2
  obtain rfl : makers = makers' := makers_eq_of_hashes hnodup hsub hsub' <| by
    rw [← hwitness.offerHashes, ← hwitness'.offerHashes, hhashes]
  exact List.mem_map.mpr ⟨other, hother, hwitness'.face_eq hwitness⟩

/-- The sorted witnesses of two searches have the same faces. -/
theorem sorted_face_eq (hnodup : (retained.map (·.offerHash)).Nodup)
    (h : Witnesses (FeasibleState retained maxMakers tokenIn tokenOut) exact)
    (h' : Witnesses (FeasibleState retained maxMakers tokenIn tokenOut) exact') :
    (exact.insertionSort byInput).map (·.face tokenIn tokenOut) =
      (exact'.insertionSort byInput).map (·.face tokenIn tokenOut) := by
  have hsorted : ∀ {found : List CombinationState},
      Witnesses (FeasibleState retained maxMakers tokenIn tokenOut) found →
      ((found.insertionSort byInput).map (·.face tokenIn tokenOut)).Pairwise
        fun low high => low.1 < high.1 := fun hfound =>
    List.pairwise_map.mpr (sorted_byInput hfound.distinct)
  have hmem : ∀ (found : List CombinationState) face,
      face ∈ (found.insertionSort byInput).map (·.face tokenIn tokenOut) ↔
        face ∈ found.map (·.face tokenIn tokenOut) := fun found face =>
    ((List.perm_insertionSort byInput found).map _).mem_iff
  have hne : ∀ {faces : List (Int × Int × Except String LadderCombinationProvenance)},
      faces.Pairwise (fun low high => low.1 < high.1) → faces.Nodup := fun hfaces =>
    hfaces.imp fun hlt heq => absurd (heq ▸ hlt) (lt_irrefl _)
  have hperm := (List.perm_ext_iff_of_nodup (hne (hsorted h)) (hne (hsorted h'))).mpr fun face => by
    rw [hmem, hmem]
    constructor
    · intro hface
      obtain ⟨state, hstate, rfl⟩ := List.mem_map.mp hface
      exact mem_face_of_mem hnodup h h' hstate
    · intro hface
      obtain ⟨state, hstate, rfl⟩ := List.mem_map.mp hface
      exact mem_face_of_mem hnodup h' h hstate
  exact hperm.eq_of_pairwise (fun _ _ _ _ hab hba => absurd (hab.trans hba) (lt_irrefl _))
    (hsorted h) (hsorted h')

end Searches

namespace PairContext

variable {ctx other : PairContext} {retained : List Crossable} {exact exact' : List CombinationState}

/-- A search of the universe is a search of the retained book. -/
theorem Sound.feasible (hctx : ctx.Sound retained)
    (h : PairSearched ctx.budget.limits ctx.tokenIn ctx.tokenOut ctx.cachedUniverse.offers exact) :
    Witnesses (FeasibleState retained ctx.budget.limits.maxMakersPerCombination ctx.tokenIn
      ctx.tokenOut) exact := by
  refine h.witnesses.congr fun state => ⟨?_, ?_⟩
  · rintro ⟨makers, hsub, hcandidate, hwitness⟩
    exact ⟨makers, hsub.trans hctx.universe_sub, hcandidate, hwitness⟩
  · rintro ⟨makers, hsub, hcandidate, hwitness⟩
    exact ⟨makers, hctx.complete makers hsub hcandidate.only_deficit, hcandidate, hwitness⟩

/-- Two contexts that search one pair with the same makers and points. -/
structure SamePair (ctx other : PairContext) : Prop where
  tokenIn : other.tokenIn = ctx.tokenIn
  tokenOut : other.tokenOut = ctx.tokenOut
  policy : other.policy = ctx.policy
  makers : other.budget.limits.maxMakersPerCombination =
    ctx.budget.limits.maxMakersPerCombination
  points : other.budget.limits.maxWirePointsPerPair = ctx.budget.limits.maxWirePointsPerPair

/-- **Unstopped searches of one pair** encode the same publication. -/
theorem Encodes.transfer (hnodup : (retained.map (·.offerHash)).Nodup) (hsame : ctx.SamePair other)
    (hctx : ctx.Sound retained) (hother : other.Sound retained)
    (h : PairSearched ctx.budget.limits ctx.tokenIn ctx.tokenOut ctx.cachedUniverse.offers exact)
    (h' : PairSearched other.budget.limits other.tokenIn other.tokenOut
      other.cachedUniverse.offers exact') {publication : Publication}
    (hencodes : ctx.Encodes exact publication) : other.Encodes exact' publication := by
  have hfeasible := hctx.feasible h
  have hfeasible' := hother.feasible h'
  rw [hsame.makers, hsame.tokenIn, hsame.tokenOut] at hfeasible'
  have hfrontier : (other.frontier exact').map (·.face ctx.tokenIn ctx.tokenOut) =
      (ctx.frontier exact).map (·.face ctx.tokenIn ctx.tokenOut) := by
    unfold frontier
    rw [hsame.policy, hsame.tokenOut]
    exact admittedFrontier_face _ (improving_face 0 (sorted_face_eq hnodup hfeasible' hfeasible))
  obtain ⟨encoded, truncationReasons, hencode, haccepted, hrelayed, rfl⟩ := hencodes
  refine ⟨encoded, truncationReasons, ?_, ?_, ?_, ?_⟩
  · rw [hsame.points, hsame.tokenIn, hsame.tokenOut, longestEncodableFrontier_face _ hfrontier]
    exact hencode
  · rw [hsame.tokenIn, hsame.tokenOut]
    exact haccepted
  · rw [hsame.tokenIn, hsame.tokenOut]
    exact hrelayed
  · unfold provenanceOf
    rw [hsame.tokenIn, hsame.tokenOut]

end PairContext

/-! ## Caps -/

/-- No cap cut the derivation: nothing stopped it, and no pair was withheld for a cap. -/
structure DerivedLadder.Uncapped (derived : DerivedLadder) : Prop where
  unstopped : derived.diagnostics.stopReason = none
  whole : ∀ diagnostic ∈ derived.diagnostics.pairs, ¬ diagnostic.Capped

/-- The retained offers have distinct hashes. -/
theorem nodup_retainedHashes (offers : List LadderSourceOffer) (options : DeriveLadderOptions) :
    ((retainedOffers offers options).map (·.offerHash)).Nodup :=
  List.pairwise_map.mpr ((retainedOffers_sorted offers options).imp ne_of_lt)

/-- A publication needs a witness: some feasible sublist of the book. -/
theorem PairContext.Encodes.feasible {ctx : PairContext} {retained : List Crossable}
    {exact : List CombinationState} {publication : Publication}
    (h : ctx.Encodes exact publication) (hfeasible : Witnesses (FeasibleState retained
      ctx.budget.limits.maxMakersPerCombination ctx.tokenIn ctx.tokenOut) exact) :
    ∃ makers : List Crossable, makers.Sublist retained ∧
      Candidate ctx.budget.limits.maxMakersPerCombination ctx.tokenIn ctx.tokenOut makers := by
  obtain ⟨encoded, truncationReasons, hencode, -⟩ := h
  obtain ⟨count, hencodes⟩ := longestEncodableFrontier_best hencode
  obtain ⟨final, hfinal, -⟩ := hencodes.final
  have hmem : final ∈ ctx.frontier exact := List.mem_of_mem_take (List.mem_of_getLast? hfinal)
  have hexact : final ∈ exact := by
    have himproving : final ∈ improving 0 (exact.insertionSort byInput) := by
      unfold PairContext.frontier admittedFrontier at hmem
      split at hmem
      · exact hmem
      · exact (List.mem_filter.mp hmem).1
    exact (List.perm_insertionSort byInput exact).mem_iff.mp
      ((improving_sublist _ _).subset himproving)
  obtain ⟨makers, hsub, hcandidate, -⟩ := hfeasible.sound final hexact
  exact ⟨makers, hsub, hcandidate⟩

theorem Candidate.exists_taker {maxMakers : Nat} {tokenIn tokenOut : String}
    {makers : List Crossable} (h : Candidate maxMakers tokenIn tokenOut makers)
    (hvalid : ∀ offer ∈ makers, offer.Valid) (hnodup : makers.Nodup) :
    ∃ offer ∈ makers, offer.tokenIn = tokenIn := by
  obtain ⟨offer, hoffer, hin⟩ := @ZswapKernel.exists_taker makers.toFinset
    (fun o ho => hvalid o (List.mem_toFinset.mp ho)) tokenIn
    (by rw [setNet_toFinset hnodup]; exact h.input_neg)
  exact ⟨offer, List.mem_toFinset.mp hoffer, hin⟩

theorem Candidate.exists_giver {maxMakers : Nat} {tokenIn tokenOut : String}
    {makers : List Crossable} (h : Candidate maxMakers tokenIn tokenOut makers)
    (hvalid : ∀ offer ∈ makers, offer.Valid) (hnodup : makers.Nodup) :
    ∃ offer ∈ makers, offer.tokenOut = tokenOut := by
  obtain ⟨offer, hoffer, hout⟩ := @ZswapKernel.exists_giver makers.toFinset
    (fun o ho => hvalid o (List.mem_toFinset.mp ho)) tokenOut
    (by rw [setNet_toFinset hnodup]; exact h.output_pos)
  exact ⟨offer, List.mem_toFinset.mp hoffer, hout⟩

/-- **What a capped derivation publishes** an uncapped one of the same book publishes alike. -/
theorem published_of_uncapped {limits limits' : LadderResourceLimits}
    {comparisons comparisons' : List CombinationState → Nat} {offers : List LadderSourceOffer}
    {options options' : DeriveLadderOptions} {derived full : DerivedLadder}
    (hpos : 1 ≤ limits.maxMakersPerCombination)
    (hle : limits.maxMakersPerCombination ≤ maxPhysicalMakersPerMerge)
    (hmost : limits.maxWirePointsPerPair ≤ maxRungsPerPair)
    (hmakers : limits'.maxMakersPerCombination = limits.maxMakersPerCombination)
    (hpoints : limits'.maxWirePointsPerPair = limits.maxWirePointsPerPair)
    (hretained : retainedOffers offers options' = retainedOffers offers options)
    (hpolicy : options'.toJobAdmissionPolicy = options.toJobAdmissionPolicy)
    (h : deriveWithin limits comparisons offers options = .ok derived)
    (hfull : deriveWithin limits' comparisons' offers options' = .ok full)
    (huncapped : full.Uncapped) : derived.publications ⊆ full.publications := by
  intro publication hpublication
  obtain ⟨published, hpublished⟩ := deriveWithin_published hpos hle h
  rw [hpublished.publications_eq] at hpublication
  obtain ⟨graph, ⟨budget, work, work', hrun⟩, ctx, hreached, hadmitted, exact, hsearched, hencodes⟩ :=
    hpublished.holds.listed publication hpublication
  have hvalid : ∀ offer ∈ retainedOffers offers options, offer.Valid := fun _ =>
    retainedOffers_valid
  have hnodup := nodup_retainedHashes offers options
  have hctx := hreached.sound (buildDiscoveryGraph_returns budget _ work graph work' hrun) hvalid
    hpos hle
  -- a feasible sublist of the book, which every graph of it enumerates
  obtain ⟨makers, hsub, hcandidate⟩ := hencodes.feasible (hctx.feasible hsearched)
  obtain ⟨taker, htaker, hin⟩ := hcandidate.exists_taker (fun o ho => hvalid o (hsub.subset ho))
    (hsub.nodup (List.Nodup.of_map _ hnodup))
  obtain ⟨giver, hgiver, hout⟩ := hcandidate.exists_giver (fun o ho => hvalid o (hsub.subset ho))
    (hsub.nodup (List.Nodup.of_map _ hnodup))
  obtain ⟨-, hcomplete⟩ := deriveWithin_surveyed (hmakers ▸ hpos) (hmakers ▸ hle)
    (hpoints ▸ hmost) hfull
  rw [hretained, hpolicy] at hcomplete
  obtain ⟨discovery, hlimits, hsame, hbook, hgraph, hall⟩ :=
    (hcomplete.resolve_left fun hstop => hstop huncapped.unstopped).resolve_left
      fun ⟨diagnostic, hmem, hcapped⟩ => huncapped.whole diagnostic hmem hcapped
  obtain ⟨_, hfound⟩ := deriveWithin_published (hmakers ▸ hpos) (hmakers ▸ hle) hfull
  have hwithin : discovery.budget.limits = limits' := hlimits.trans hfound.limits_eq
  obtain ⟨component, hcomponent⟩ := hgraph.component taker.tokenIn
    (hgraph.indexed taker (hsub.subset htaker)).1
  let searched : Universe := ⟨universeOffers discovery.graph (retainedOffers offers options) component,
    sortedSet ((universeOffers discovery.graph (retainedOffers offers options) component).map
      (·.tokenOut))⟩
  let other := discovery.pairContext ctx.tokenIn component.root searched ctx.tokenOut
  have huniverse : UniverseOf discovery.graph discovery.retained component searched := by
    rw [hbook]
    exact ⟨rfl, rfl⟩
  have houtputs : ctx.tokenOut ∈ searched.outputs := by
    rw [← hout]
    exact mem_sortedSet.mpr (List.mem_map_of_mem ((sublist_universeOffers hgraph hvalid hcomponent
      hsub (hin ▸ hcandidate.only_deficit)).subset hgiver))
  have hwanted : ctx.tokenIn ∈ (retainedOffers offers options).map (·.tokenIn) :=
    hin ▸ List.mem_map_of_mem (hsub.subset htaker)
  rw [hin] at hcomponent
  have hsamepair : ctx.SamePair other := by
    refine ⟨rfl, rfl, ?_, ?_, ?_⟩
    · exact hsame.trans hreached.policy_eq.symm
    · show discovery.budget.limits.maxMakersPerCombination = _
      rw [hwithin, hmakers, hreached.limits_eq]
    · show discovery.budget.limits.maxWirePointsPerPair = _
      rw [hwithin, hpoints, hreached.limits_eq]
  have hother : other.Sound (retainedOffers offers options) := by
    refine PairContext.Reached.sound ⟨hwithin, rfl, rfl, hwanted,
      ⟨component, hcomponent, hbook ▸ huniverse⟩, houtputs⟩ hgraph hvalid ?_ ?_
    · rw [hmakers]
      exact hpos
    · rw [hmakers]
      exact hle
  rcases hall other ⟨ctx.tokenIn, mem_sortedSet.mpr hwanted, component, searched, hcomponent,
    huniverse, ctx.tokenOut, houtputs, hadmitted.distinct.symm, rfl⟩ with hnot | hdone
  · exact absurd ⟨hadmitted.distinct, hsamepair.policy ▸ hadmitted.supported,
      hsamepair.policy ▸ hadmitted.bounded⟩ hnot
  · obtain ⟨exact', hsearched', hall'⟩ := hdone
    exact hall' publication
      (hencodes.transfer hnodup hsamepair hctx hother hsearched hsearched')

/-! ## Cancellation -/

/-- How often `deriveLadder` calls `shouldAbort`. -/
def deriveLadderCalls (comparisons : List CombinationState → Nat) (offers : List LadderSourceOffer)
    (options : DeriveLadderOptions) : Nat :=
  match resolveLadderResourceLimits options.resourceLimits with
  | .error _ => 0
  | .ok limits =>
    let budget : Budget := ⟨limits, options.shouldAbort⟩
    match budget.poll {} with
    | (some _, work) => work.abortCalls
    | (none, work) =>
      let unavailable := options.unavailableOfferHashes.map toLowerCase
      match (scanOffers budget options unavailable offers).outcome work with
      | (.error _, work) => work.abortCalls
      | (.ok crossable, work) =>
        let (retained, shared) := claimCoins [] (uniqueOffers crossable)
        let excluded := work.excluded ++ duplicateExclusions crossable ++ shared
        match (discoverPairs budget comparisons options.toJobAdmissionPolicy retained).outcome
          { work := { work with excluded } } with
        | (.ok _, s) => (cancel budget retained s).work.abortCalls
        | (.error .exclusionScanStop, s) =>
          (cancel budget retained { s with work := s.work.noteScanStop }).work.abortCalls
        | (.error _, s) => s.work.abortCalls

/-- Nothing of the derivation is published. -/
structure DerivedLadder.Withdrawn (derived : DerivedLadder) : Prop where
  levels : derived.levels = []
  provenance : derived.provenance = []
  pairs : ∀ pair ∈ derived.diagnostics.pairs, pair.published = false

theorem withdrawn_empty {limits : LadderResourceLimits} {derived : DerivedLadder}
    {diagnostics : LadderDerivationDiagnostics} {excluded : List LadderExclusion}
    (h : derived = emptyDerived limits diagnostics excluded) (hpairs : diagnostics.pairs = []) :
    derived.Withdrawn := by
  rw [h]
  refine ⟨rfl, rfl, fun pair hpair => ?_⟩
  have hnil : (emptyDerived limits diagnostics excluded).diagnostics.pairs = [] := hpairs
  rw [hnil] at hpair
  exact absurd hpair List.not_mem_nil

/-- A noted cancellation withdraws every pair. -/
theorem withdrawn_cancel {budget : Budget} {retained : List Crossable} {s : Derivation}
    (habort : isAbort s.work.globalStop = true) :
    (assemble budget.limits (cancel budget retained s)).Withdrawn := by
  unfold cancel
  split
  · rename_i reason hreason
    let withdrawn : Derivation := { s with work := { s.work with diagnostics := {
      s.work.diagnostics with
      pairs := s.work.diagnostics.pairs.map (·.withdraw reason.exclusion) } } }
    have hscan := @addPairExclusions_noted budget .retained retained reason.exclusion none
      withdrawn.work.verdict habort withdrawn rfl
    have hpairs : ∀ pair ∈ withdrawn.work.diagnostics.pairs, pair.published = false := by
      intro pair hpair
      obtain ⟨old, -, rfl⟩ := List.mem_map.mp hpair
      unfold LadderPairDiagnostic.withdraw
      split
      · rfl
      · exact eq_false_of_ne_true ‹_›
    refine ⟨rfl, rfl, ?_⟩
    dsimp only [assemble]
    cases hrun : (addPairExclusions budget .retained retained reason.exclusion none).outcome
        withdrawn with
    | mk result s' =>
      rw [hrun] at hscan
      have hkept : s'.work.verdict = withdrawn.work.verdict := by
        cases result with
        | ok _ => exact hscan
        | error exit => exact hscan.2
      have hsame : s'.work.diagnostics.pairs = withdrawn.work.diagnostics.pairs :=
        congrArg (·.2.2) hkept
      simp only
      rw [hsame]
      exact hpairs
  · rename_i hnot
    cases hstop : s.work.globalStop with
    | none =>
      rw [hstop] at habort
      cases habort
    | some stop =>
      rw [hstop] at habort
      cases stop with
      | abort reason => exact absurd hstop (hnot reason)
      | globalSearchCap => cases habort
      | candidatePairCap => cases habort
      | discoveryWorkCap => cases habort

/-- A derivation whose callback stopped it somewhere is noted as cancelled, or withdraws nothing
because nothing stopped it. -/
theorem withdrawn_of_noted {budget : Budget} {retained : List Crossable} {s : Derivation}
    (hnoted : budget.Noted s)
    (hstop : ¬ Calm budget.shouldAbort (cancel budget retained s).work.abortCalls) :
    (assemble budget.limits (cancel budget retained s)).Withdrawn := by
  by_cases habort : isAbort s.work.globalStop = true
  · exact withdrawn_cancel habort
  · have hsame : cancel budget retained s = s := by
      unfold cancel
      split
      · rename_i reason hreason
        rw [hreason] at habort
        exact absurd rfl habort
      · rfl
    rw [hsame] at hstop
    exact absurd (hnoted.resolve_left habort) hstop

/-- **A cancelled derivation** publishes nothing. -/
theorem deriveLadder_cancelled {comparisons : List CombinationState → Nat}
    {offers : List LadderSourceOffer} {options : DeriveLadderOptions} {derived : DerivedLadder}
    (h : deriveLadder comparisons offers options = .ok derived)
    (hstop : ¬ Calm options.shouldAbort (deriveLadderCalls comparisons offers options)) :
    derived.Withdrawn := by
  unfold deriveLadder at h
  unfold deriveLadderCalls at hstop
  cases hlimits : resolveLadderResourceLimits options.resourceLimits with
  | error invalid =>
    rw [hlimits] at h
    exact withdrawn_empty (Except.ok.inj h).symm rfl
  | ok limits =>
    rw [hlimits] at h hstop
    simp only at h hstop
    generalize hbudget : (⟨limits, options.shouldAbort⟩ : Budget) = budget at h hstop
    have habort : budget.shouldAbort = options.shouldAbort := by rw [← hbudget]
    cases hpoll : budget.poll {} with
    | mk reason work =>
      rw [hpoll] at h hstop
      cases reason with
      | some reason => exact withdrawn_empty (Except.ok.inj h).symm rfl
      | none =>
        simp only at h hstop
        obtain ⟨hframe, -, hcalm⟩ := budget.poll_heeds hpoll
        have hscanned := scanOffers_heeds budget options
          (options.unavailableOfferHashes.map toLowerCase) offers work.frame work
          ⟨hcalm rfl (calm_zero _), rfl⟩
        cases hscan : (scanOffers budget options
            (options.unavailableOfferHashes.map toLowerCase) offers).outcome work with
        | mk result scanned =>
          rw [hscan] at h hstop hscanned
          cases result with
          | error _ =>
            exact withdrawn_empty (Except.ok.inj h).symm
              (hscanned.1.trans (congrArg (·.pairs) hframe))
          | ok crossable =>
            have hkept := hscanned.2.trans hframe
            unfold deriveFrom at h
            simp only at h hstop
            generalize scanned.excluded ++ duplicateExclusions crossable ++
              (claimCoins [] (uniqueOffers crossable)).2 = excluded at h hstop
            generalize (claimCoins [] (uniqueOffers crossable)).1 = retained at h hstop
            have hheeds := @discoverPairs_heeds budget retained comparisons
              options.toJobAdmissionPolicy { work := { scanned with excluded } }
              ⟨hscanned.1, congrArg (·.excludedUniverses) hkept, congrArg (·.pairs) hkept⟩
            cases hrun : (discoverPairs budget comparisons options.toJobAdmissionPolicy
                retained).outcome { work := { scanned with excluded } } with
            | mk result s =>
              rw [hrun] at h hstop hheeds
              rw [← habort] at hstop
              cases result with
              | ok _ =>
                obtain rfl := Except.ok.inj h
                exact withdrawn_of_noted hheeds hstop
              | error exit =>
                cases exit with
                | exclusionScanStop =>
                  obtain rfl := Except.ok.inj h
                  exact withdrawn_of_noted hheeds.noted hstop
                | returned =>
                  exact withdrawn_empty (Except.ok.inj h).symm (hheeds.returned rfl).1
                | thrown message => cases h

theorem not_calm_of_call {check : AbortCheck} {call calls : Nat} (hlt : call < calls)
    (hcall : check call ≠ .ok false) : ¬ Calm (some check) calls := by
  intro hcalm
  have hnone := hcalm call hlt
  unfold abortReason at hnone
  simp only at hnone
  split at hnone
  · cases hnone
  · exact hcall ‹_›
  · cases hnone

/-! ## What is left -/

theorem mem_publications {derived : DerivedLadder} {entry : PriceLevelsPair × LadderPairProvenance} :
    (⟨entry.1, entry.2⟩ : Publication) ∈ derived.publications ↔
      entry ∈ derived.levels.zip derived.provenance := by
  unfold DerivedLadder.publications
  rw [List.mem_map]
  constructor
  · rintro ⟨other, hother, heq⟩
    obtain ⟨hpair, hprovenance⟩ := Publication.mk.inj heq
    rwa [← Prod.ext hpair hprovenance]
  · exact fun hentry => ⟨entry, hentry, rfl⟩

/-- **Cancellation and caps never publish a partial search.** When a call of `shouldAbort` answered
anything but `false`, nothing is published. Whatever caps were exhausted, each published pair has
the levels and the provenance that a derivation of the same book within any other search caps, if
none of them cut it, gives the pair. -/
theorem cancelled_and_capped {comparisons : List CombinationState → Nat}
    {offers : List LadderSourceOffer} {options : DeriveLadderOptions} {derived : DerivedLadder}
    (h : deriveLadder comparisons offers options = .ok derived) :
    (∀ check, options.shouldAbort = some check →
      (∃ call < deriveLadderCalls comparisons offers options, check call ≠ .ok false) →
        derived.Withdrawn) ∧
    ∀ (limits : LadderResourceLimits) (comparisons' : List CombinationState → Nat)
      (shouldAbort : Option AbortCheck) (full : DerivedLadder),
      limits.maxMakersPerCombination = derived.limits.maxMakersPerCombination →
      limits.maxWirePointsPerPair = derived.limits.maxWirePointsPerPair →
      deriveWithin limits comparisons' offers { options with shouldAbort } = .ok full →
      full.Uncapped → ∀ entry ∈ derived.levels.zip derived.provenance,
        entry ∈ full.levels.zip full.provenance ∧
        ∀ other ∈ full.levels.zip full.provenance, other.1.tokenIn = entry.1.tokenIn →
          other.1.tokenOut = entry.1.tokenOut → other = entry := by
  refine ⟨fun check hcheck hcall => ?_, ?_⟩
  · obtain ⟨call, hlt, hcall⟩ := hcall
    refine deriveLadder_cancelled h ?_
    rw [hcheck]
    exact not_calm_of_call hlt hcall
  · intro limits comparisons' shouldAbort full hmakers hpoints hfull huncapped entry hentry
    rcases deriveLadder_cases h with ⟨invalid, rfl⟩ | ⟨resolved, hresolved, hwithin⟩
    · exact absurd hentry List.not_mem_nil
    · obtain ⟨hpos, hle⟩ := resolveLadderResourceLimits_ok hresolved
      obtain ⟨published, hpublished⟩ := deriveWithin_published hpos hle hwithin
      rw [hpublished.limits_eq] at hmakers hpoints
      have hsub := @published_of_uncapped resolved limits comparisons comparisons' offers options
        { options with shouldAbort } derived full hpos hle
        (resolveLadderResourceLimits_wire hresolved) hmakers hpoints rfl rfl hwithin hfull huncapped
      have hmem := hsub (mem_publications.mpr hentry)
      refine ⟨mem_publications.mp hmem, fun other hother hin hout => ?_⟩
      obtain ⟨found, hfound⟩ := deriveWithin_published (hmakers ▸ hpos) (hmakers ▸ hle) hfull
      have hdistinct := hfound.holds.distinct
      rw [← hfound.publications_eq] at hdistinct
      have hsymm : Std.Symm fun left right : Publication =>
          ¬ (left.pair.tokenIn = right.pair.tokenIn ∧ left.pair.tokenOut = right.pair.tokenOut) :=
        ⟨fun _ _ hne heq => hne ⟨heq.1.symm, heq.2.symm⟩⟩
      by_contra hne
      refine hdistinct.forall (mem_publications.mpr hother) hmem (fun heq => ?_) ⟨hin, hout⟩
      obtain ⟨hpair, hprovenance⟩ := Publication.mk.inj heq
      exact hne (Prod.ext hpair hprovenance)

namespace TwoPairs

open TwoOffers

/-- The two offers, and one that gives five `A` for seven `B`. -/
def book : List LadderSourceOffer := TwoOffers.book ++ [
  ⟨"0000000000000000000000000000000000000000000000000000000000002727",
    [⟨tokenA, 5, .shielded⟩], [⟨tokenB, 7, .shielded⟩], some 1700003600000,
    ["00000000000000000000000000000000000000000000000000000000000f4257"]⟩]

/-- The discovery stops after one pair. -/
def capped : DeriveLadderOptions :=
  { options with resourceLimits := some { maxCandidatePairs := some 1 } }

/-- The fourth call of the callback cancels. -/
def cancelled : DeriveLadderOptions :=
  { options with shouldAbort := some fun call => .ok (call == 3) }

theorem capped_derived : ∃ derived provenance,
    deriveLadder (fun _ => 0) book capped = .ok derived ∧
      (pair, provenance) ∈ derived.levels.zip derived.provenance ∧
      derived.diagnostics.stopReason = some .candidatePairCap ∧
      derived.limits.maxMakersPerCombination =
        hardLadderResourceLimits.maxMakersPerCombination ∧
      derived.limits.maxWirePointsPerPair = hardLadderResourceLimits.maxWirePointsPerPair := by
  have hrun : ((deriveLadder (fun _ => 0) book capped).toOption.map fun derived =>
      ((derived.levels.zip derived.provenance).map (·.1), derived.diagnostics.stopReason,
        derived.limits.maxMakersPerCombination, derived.limits.maxWirePointsPerPair)) =
      some ([pair], some .candidatePairCap, hardLadderResourceLimits.maxMakersPerCombination,
        hardLadderResourceLimits.maxWirePointsPerPair) := by decide +kernel
  obtain ⟨derived, hderived, hresult⟩ := Option.map_eq_some_iff.mp hrun
  obtain ⟨hlevels, hstop, hmakers, hpoints⟩ := by simpa only [Prod.mk.injEq] using hresult
  obtain ⟨entry, hentry, heq⟩ := List.mem_map.mp (hlevels ▸ List.mem_cons_self :
    pair ∈ (derived.levels.zip derived.provenance).map (·.1))
  exact ⟨derived, entry.2, eq_ok_of_toOption hderived, heq ▸ hentry, hstop, hmakers, hpoints⟩

/-- Within the hard limits nothing cuts the derivation. -/
theorem full_derived : ∃ full, deriveWithin hardLadderResourceLimits (fun _ => 0) book
    { capped with shouldAbort := none } = .ok full ∧ full.Uncapped := by
  have hrun : ((deriveWithin hardLadderResourceLimits (fun _ => 0) book
      { capped with shouldAbort := none }).toOption.map fun full =>
        (full.diagnostics.stopReason, full.diagnostics.pairs.map (·.reason))) =
      some (none, [none, none]) := by decide +kernel
  obtain ⟨full, hfull, hresult⟩ := Option.map_eq_some_iff.mp hrun
  obtain ⟨hstop, hreasons⟩ := Prod.mk.inj hresult
  refine ⟨full, eq_ok_of_toOption hfull, hstop, ?_⟩
  rintro diagnostic hmem ⟨reason, hreason, -⟩
  have hnone : diagnostic.reason ∈ full.diagnostics.pairs.map (·.reason) :=
    List.mem_map_of_mem hmem
  rw [hreasons, hreason] at hnone
  simp at hnone

theorem cancelled_derived : ∃ derived, deriveLadder (fun _ => 0) book cancelled = .ok derived ∧
    3 < deriveLadderCalls (fun _ => 0) book cancelled := by
  have hrun : (deriveLadder (fun _ => 0) book cancelled).toOption.isSome = true ∧
      3 < deriveLadderCalls (fun _ => 0) book cancelled := by decide +kernel
  obtain ⟨derived, hderived⟩ := Option.isSome_iff_exists.mp hrun.1
  exact ⟨derived, eq_ok_of_toOption hderived, hrun.2⟩

end TwoPairs

open TwoPairs TwoOffers in
/-- The derivation that stops after one pair publishes it as the uncapped one does; the cancelled
one publishes nothing. -/
theorem cancelled_and_capped_two_pairs : (∃ derived full provenance,
    deriveLadder (fun _ => 0) TwoPairs.book capped = .ok derived ∧
    derived.diagnostics.stopReason = some .candidatePairCap ∧
    deriveWithin hardLadderResourceLimits (fun _ => 0) TwoPairs.book
      { capped with shouldAbort := none } = .ok full ∧
    (pair, provenance) ∈ derived.levels.zip derived.provenance ∧
    (pair, provenance) ∈ full.levels.zip full.provenance) ∧
    ∃ derived, deriveLadder (fun _ => 0) TwoPairs.book cancelled = .ok derived ∧
      derived.Withdrawn := by
  obtain ⟨derived, provenance, hderived, hmem, hstop, hmakers, hpoints⟩ := capped_derived
  obtain ⟨full, hfull, huncapped⟩ := full_derived
  obtain ⟨stopped, hstopped, hcalls⟩ := cancelled_derived
  refine ⟨⟨derived, full, provenance, hderived, hstop, hfull, hmem, ?_⟩, stopped, hstopped, ?_⟩
  · exact ((cancelled_and_capped hderived).2 hardLadderResourceLimits (fun _ => 0) none full
      hmakers.symm hpoints.symm hfull huncapped _ hmem).1
  · exact (cancelled_and_capped hstopped).1 _ rfl ⟨3, hcalls, fun heq => by cases heq⟩

end ZswapKernel
