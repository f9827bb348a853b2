import ZswapKernel.SolverCore.LadderExact

/-!
# What `deriveLadder` publishes

The pair loop changes what is published in one place, and there it publishes an exact pair
(`Priced`). Everything else it does, to its meters, diagnostics and exclusions, leaves the
publications and the cached universes as they were (`Frames Derivation.shown`).

* `pass_leads`, `pairDiscovery_leads` — one pass, and the whole loop over the pending pairs.
* `deriveLadder_published` — every publication of a derivation is exact, whatever stopped it.
-/

namespace ZswapKernel

open Program

/-! ## Frames -/

/-- Publications and cached universes. -/
abbrev Shown := List Publication × List (Nat × Universe)

/-- The part of a derivation the pair loop is about. -/
def Derivation.shown (s : Derivation) : Shown := (s.published, s.universes)

section Frames

theorem metered_frames {α : Type} (stage : Budgeted α) :
    Frames Derivation.shown (Derive.metered stage) := fun _ => rfl

theorem poll_frames (budget : Budget) : Frames Derivation.shown (Derive.poll budget) :=
  fun _ => rfl

theorem setStop_frames (stop : GlobalStop) : Frames Derivation.shown (Derive.setStop stop) :=
  Frames.modify fun _ => rfl

theorem updatePair_frames (f : LadderPairDiagnostic → LadderPairDiagnostic) :
    Frames Derivation.shown (Derive.updatePair f) := Frames.modify fun _ => rfl

theorem scanExclusions_frames (budget : Budget) (reason : LadderExclusionReason)
    (detail : Option LadderRejection) (bucket : List Crossable) :
    Frames Derivation.shown (scanExclusions budget reason detail bucket) := by
  induction bucket with
  | nil => exact Frames.pure
  | cons offer bucket ih =>
    unfold scanExclusions
    refine Frames.bind (metered_frames _) fun result => ?_
    cases result with
    | error stop =>
      refine Frames.bind Frames.get fun s => ?_
      refine Frames.ite (Frames.bind (setStop_frames _) fun _ => Frames.throw) Frames.throw
    | ok _ => exact Frames.bind (Frames.modify fun _ => rfl) fun _ => ih

theorem addPairExclusions_frames (budget : Budget) (id : BucketId) (bucket : List Crossable)
    (reason : LadderExclusionReason) (detail : Option LadderRejection) :
    Frames Derivation.shown (addPairExclusions budget id bucket reason detail) := by
  unfold addPairExclusions
  refine Frames.bind Frames.get fun s => ?_
  refine Frames.ite Frames.pure ?_
  exact Frames.bind (scanExclusions_frames _ _ _ _) fun _ => Frames.modify fun _ => rfl

theorem withhold_frames (ctx : PairContext) (reason : LadderExclusionReason)
    (detail : Option LadderRejection) : Frames Derivation.shown (ctx.withhold reason detail) :=
  Frames.bind (updatePair_frames _) fun _ =>
    Frames.bind (addPairExclusions_frames _ _ _ _ _) fun _ => Frames.pure

theorem stopDiscovery_frames (ctx : PairContext) (stop : GlobalStop) :
    Frames Derivation.shown (ctx.stopDiscovery stop) :=
  Frames.bind (setStop_frames _) fun _ => Frames.bind (updatePair_frames _) fun _ =>
    Frames.bind (addPairExclusions_frames _ _ _ _ _) fun _ => Frames.pure

theorem excludeUnused_frames (ctx : PairContext) (used : List String)
    (truncationReasons : List LadderTerminalCapReason) (bucket : List Crossable) :
    Frames Derivation.shown (ctx.excludeUnused used truncationReasons bucket) := by
  induction bucket with
  | nil => exact Frames.pure
  | cons offer bucket ih =>
    unfold PairContext.excludeUnused
    refine Frames.bind (metered_frames _) fun result => ?_
    cases result with
    | error stop => exact Frames.bind (setStop_frames _) fun _ => Frames.throw
    | ok _ =>
      refine Frames.ite ?_ ih
      exact Frames.bind (Frames.forM fun _ => Frames.modify fun _ => rfl) fun _ => ih

end Frames

/-! ## One pass -/

/-- What the pair loop hands to a pass. -/
structure PairContext.Sound (ctx : PairContext) (retained : List Crossable) : Prop where
  valid : ∀ offer ∈ retained, offer.Valid
  canonicalIn : CanonicalToken ctx.tokenIn
  canonicalOut : CanonicalToken ctx.tokenOut
  tokenIn_mem : ctx.tokenIn ∈ ctx.tokenAt
  tokenOut_mem : ctx.tokenOut ∈ ctx.tokenAt
  makers_pos : 0 < ctx.budget.limits.maxMakersPerCombination
  makers_le : ctx.budget.limits.maxMakersPerCombination ≤ maxPhysicalMakersPerMerge
  universe_sub : ctx.cachedUniverse.offers.Sublist retained
  indexed : Indexed ctx.tokenAt ctx.cachedUniverse.offers
  complete : ∀ makers : List Crossable, makers.Sublist retained →
    (∀ token, netSupply makers token < 0 → token = ctx.tokenIn) →
      makers.Sublist ctx.cachedUniverse.offers

/-- The pair passed the admission policy. -/
structure PairContext.Admitted (ctx : PairContext) : Prop where
  distinct : ctx.tokenIn ≠ ctx.tokenOut
  supported : ctx.policy.refusesPair ctx.tokenIn ctx.tokenOut = false
  bounded : ctx.policy.lacksMinimum ctx.tokenOut = false

/-- The frontier of the witnesses a search found. -/
def PairContext.frontier (ctx : PairContext) (exact : List CombinationState) :
    List CombinationState :=
  admittedFrontier (ctx.policy.minimum ctx.tokenOut) (improving 0 (exact.insertionSort byInput))

/-- `publication` encodes the witnesses of a search, and both schemas accept it. -/
def PairContext.Encodes (ctx : PairContext) (exact : List CombinationState)
    (publication : Publication) : Prop :=
  ∃ encoded truncationReasons,
    longestEncodableFrontier (ctx.frontier exact) ctx.budget.limits.maxWirePointsPerPair ctx.tokenIn
      ctx.tokenOut = .ok ⟨some encoded, truncationReasons⟩ ∧
    LadderSchema.rejectPair ⟨ctx.tokenIn, ctx.tokenOut, encoded.levels⟩ = none ∧
    RelayWsContract.isPriceLevelsPair ⟨ctx.tokenIn, ctx.tokenOut, encoded.levels⟩ = true ∧
    publication = ⟨⟨ctx.tokenIn, ctx.tokenOut, encoded.levels⟩, ctx.provenanceOf encoded⟩

/-- `publication` is what a search of the whole pair encodes. -/
structure PairContext.Publishes (ctx : PairContext) (publication : Publication) : Prop where
  admitted : ctx.Admitted
  searched : ∃ exact, PairSearched ctx.budget.limits ctx.tokenIn ctx.tokenOut
    ctx.cachedUniverse.offers exact ∧ ctx.Encodes exact publication

section Pass

variable {ctx : PairContext} {retained : List Crossable} {P Q : Shown → Prop}

/-- Publishing an encoding of an exact frontier publishes an exact pair. -/
theorem priced_of_encodes (hctx : ctx.Sound retained) (hadmitted : ctx.Admitted)
    {frontier : List CombinationState} {encoded : EncodedFrontier} {count maxWirePoints : Nat}
    (hsteps : FrontierSteps ctx.budget.limits (ctx.policy.minimum ctx.tokenOut) ctx.tokenIn
      ctx.tokenOut ctx.cachedUniverse.offers frontier)
    (hencodes : EncodesPrefix frontier count maxWirePoints ctx.tokenIn ctx.tokenOut encoded)
    (haccepted : LadderSchema.rejectPair ⟨ctx.tokenIn, ctx.tokenOut, encoded.levels⟩ = none)
    (hrelayed : RelayWsContract.isPriceLevelsPair
      ⟨ctx.tokenIn, ctx.tokenOut, encoded.levels⟩ = true) :
    Priced ctx.budget.limits ctx.policy retained
      ⟨⟨ctx.tokenIn, ctx.tokenOut, encoded.levels⟩, ctx.provenanceOf encoded⟩ := by
  obtain ⟨final, hfinal, hlt, hlevels, -⟩ := hencodes.final
  refine ⟨frontier.take count, final, encoded.terminalInput, {
    tokenIn := rfl
    tokenOut := rfl
    canonicalIn := hctx.canonicalIn
    canonicalOut := hctx.canonicalOut
    distinct := hadmitted.distinct
    supported := hadmitted.supported
    bounded := hadmitted.bounded
    last := hfinal
    levels := hlevels
    accepted := haccepted
    relayed := hrelayed
    combinations := hencodes.combinations
    terminalInput := rfl
    final_lt := hlt
    settles := hencodes.settles
    climbs := hsteps.climbs.sublist (List.take_sublist _ _)
    witnessed := fun step hstep => ?_
    dominant := fun makers hsub hcandidate hreaches hle => ?_ }⟩
  · obtain ⟨makers, hmakers⟩ := hsteps.witnessed step (List.mem_of_mem_take hstep)
    exact ⟨makers, { hmakers with sublist := hmakers.sublist.trans hctx.universe_sub }⟩
  · obtain ⟨step, hstep, hinput, hpreferred⟩ := hsteps.dominant makers
      (hctx.complete makers hsub hcandidate.only_deficit) hcandidate hreaches
    refine ⟨step, ?_, hinput, hpreferred⟩
    exact dominant_take hsteps.climbs hencodes.omitted hstep (hinput.trans hle)

/-- From `P`, `m` leads to `Q`, whether it returns or throws. -/
abbrev Leads {α : Type} (P Q : Shown → Prop) (m : Derive α) : Prop :=
  Triple (fun s => P s.shown) m (fun _ s => Q s.shown) (fun _ s => Q s.shown)

/-- `Q` holds of everything a pass may leave where `P` held: the same publications, or one more,
the exact pair of its tokens. -/
structure PairContext.Admits (ctx : PairContext) (retained : List Crossable)
    (P Q : Shown → Prop) : Prop where
  keep : ∀ shown, P shown → Q shown
  publish : ∀ published universes publication, P (published, universes) →
    publication.pair.tokenIn = ctx.tokenIn → publication.pair.tokenOut = ctx.tokenOut →
    Priced ctx.budget.limits ctx.policy retained publication → ctx.Publishes publication →
      Q (published ++ [publication], universes)

/-- A framed program leads where `P` does. -/
theorem leads_of_frames {α : Type} {m : Derive α} (h : Frames Derivation.shown m)
    (hPQ : ∀ shown, P shown → Q shown) : Leads P Q m :=
  (h.triple P).conseq (fun _ h => h) (fun _ _ h => hPQ _ h) fun _ _ h => hPQ _ h

/-- A framed program before a publication. -/
theorem before_of_frames {α : Type} {m : Derive α} (h : Frames Derivation.shown m)
    (hPQ : ∀ shown, P shown → Q shown) :
    Triple (fun s => P s.shown) m (fun _ s => P s.shown) (fun _ s => Q s.shown) :=
  (h.triple P).conseq (fun _ h => h) (fun _ _ h => h) fun _ _ h => hPQ _ h

theorem modify_frames {f : Derivation → Derivation} (hf : ∀ s, (f s).shown = s.shown) :
    Frames Derivation.shown (modify f : Derive Unit) := Frames.modify hf

theorem unlessAborted_leads {rest : Derive PairFlow} (h : Leads P Q rest)
    (hPQ : ∀ shown, P shown → Q shown) : Leads P Q (ctx.unlessAborted rest) := by
  unfold PairContext.unlessAborted
  refine Triple.bind (before_of_frames (poll_frames _) hPQ) fun reason => ?_
  cases reason with
  | some reason => exact leads_of_frames (stopDiscovery_frames _ _) hPQ
  | none => exact h

theorem publishPair_leads (hPQ : ctx.Admits retained P Q) (frontierLength : Nat)
    {encoded : EncodedFrontier} (truncationReasons : List LadderTerminalCapReason)
    (hpriced : LadderSchema.rejectPair ⟨ctx.tokenIn, ctx.tokenOut, encoded.levels⟩ = none →
      RelayWsContract.isPriceLevelsPair ⟨ctx.tokenIn, ctx.tokenOut, encoded.levels⟩ = true →
      Priced ctx.budget.limits ctx.policy retained
        ⟨⟨ctx.tokenIn, ctx.tokenOut, encoded.levels⟩, ctx.provenanceOf encoded⟩ ∧
      ctx.Publishes ⟨⟨ctx.tokenIn, ctx.tokenOut, encoded.levels⟩, ctx.provenanceOf encoded⟩) :
    Leads P Q (ctx.publishPair frontierLength encoded truncationReasons) := by
  unfold PairContext.publishPair
  refine Triple.ite (fun _ => leads_of_frames (withhold_frames _ _ _) hPQ.keep) fun haccepted => ?_
  rw [not_or, not_not, Bool.not_eq_true, Option.isSome_eq_false_iff, Option.isNone_iff_eq_none]
    at haccepted
  obtain ⟨hpublication, hpublishes⟩ := hpriced haccepted.1 haccepted.2
  refine Triple.bind (Q := fun _ s => Q s.shown)
    (Triple.modify fun s hs => hPQ.publish _ _ _ hs rfl rfl hpublication hpublishes) fun _ => ?_
  refine Triple.bind ((updatePair_frames _).triple Q) fun _ => ?_
  refine Triple.ite (fun _ => ?_) fun _ => Frames.pure.triple Q
  exact Triple.bind ((excludeUnused_frames _ _ _ _).triple Q) fun _ => Frames.pure.triple Q

/-- A stage that returns leaves what it returns. -/
theorem metered_leaves {α : Type} {stage : Budgeted α} {R : α → Prop} (h : Returns stage R) :
    Triple (fun s => P s.shown) (Derive.metered stage)
      (fun result s => P s.shown ∧ ∀ a, result = .ok a → R a) (fun _ s => Q s.shown) := by
  intro s hs
  refine ⟨hs, fun a ha => ?_⟩
  exact h s.work a _ (Prod.ext ha rfl)

theorem encodePair_leads (hctx : ctx.Sound retained) (hadmitted : ctx.Admitted)
    (hPQ : ctx.Admits retained P Q) {search : PairSearch}
    (hsearch : PairSearched ctx.budget.limits ctx.tokenIn ctx.tokenOut ctx.cachedUniverse.offers
      search.exact)
    (hpublishes : ∀ publication, ctx.Encodes search.exact publication →
      ctx.Publishes publication) : Leads P Q (ctx.encodePair search) := by
  unfold PairContext.encodePair
  refine Triple.bind (metered_leaves (bestOutputFrontier_returns _ _ _)) fun result => ?_
  cases result with
  | error stop =>
    intro s hs
    exact leads_of_frames (stopDiscovery_frames ctx stop.global) hPQ.keep s hs.1
  | ok exactFrontier =>
    intro s hs
    have hfrontier := hs.2 exactFrontier rfl
    refine (?_ : Leads P Q _) s hs.1
    have hsteps := frontier_steps hsearch
      (fun o ho => hctx.valid o (hctx.universe_sub.subset ho)) (ctx.policy.minimum ctx.tokenOut)
    have hencodes : ctx.frontier search.exact =
        admittedFrontier (ctx.policy.minimum ctx.tokenOut) exactFrontier := by
      rw [hfrontier]
      rfl
    rw [← hfrontier] at hsteps
    refine Triple.ite (fun _ => leads_of_frames (withhold_frames _ _ _) hPQ.keep) fun _ => ?_
    split
    · exact leads_of_frames Frames.throw hPQ.keep
    · rename_i truncationReasons hencode
      have hexclude : Frames Derivation.shown (truncationReasons.forM fun reason =>
          ctx.exclude reason.exclusion) :=
        Frames.forM fun _ => addPairExclusions_frames _ _ _ _ _
      have hnext := Frames.bind hexclude fun _ => Frames.pure (a := PairFlow.next)
      split
      · exact leads_of_frames hnext hPQ.keep
      · exact leads_of_frames (Frames.bind (updatePair_frames _) fun _ => hnext) hPQ.keep
    · rename_i encoded truncationReasons hencode
      obtain ⟨count, hprefix⟩ := longestEncodableFrontier_best hencode
      refine unlessAborted_leads (publishPair_leads hPQ _ _ fun haccepted hrelayed =>
        ⟨priced_of_encodes hctx hadmitted hsteps hprefix haccepted hrelayed, ?_⟩) hPQ.keep
      rw [← hencodes] at hencode
      exact hpublishes _ ⟨encoded, truncationReasons, hencode, haccepted, hrelayed, rfl⟩

theorem searchPair_leads (hctx : ctx.Sound retained) (hadmitted : ctx.Admitted)
    (hPQ : ctx.Admits retained P Q) : Leads P Q ctx.searchPair := by
  unfold PairContext.searchPair
  refine Triple.bind (before_of_frames Frames.get hPQ.keep) fun s => ?_
  generalize hsearch : enumeratePair ctx.budget ctx.cachedUniverse.offers ctx.tokenIn ctx.tokenOut
    ctx.tokenAt s.work = search
  have hspec : search.stop = none → PairSearched ctx.budget.limits ctx.tokenIn ctx.tokenOut
      ctx.cachedUniverse.offers search.exact := by
    subst hsearch
    exact enumeratePair_spec hctx.tokenIn_mem hctx.tokenOut_mem hadmitted.distinct
      hctx.makers_pos hctx.makers_le (fun o ho => hctx.valid o (hctx.universe_sub.subset ho))
      hctx.indexed
  refine Triple.bind (before_of_frames (modify_frames fun _ => rfl) hPQ.keep) fun _ => ?_
  split
  · exact leads_of_frames Frames.throw hPQ.keep
  · refine Triple.bind (before_of_frames (modify_frames fun _ => rfl) hPQ.keep) fun _ => ?_
    split
    · exact leads_of_frames (stopDiscovery_frames _ _) hPQ.keep
    · exact leads_of_frames (withhold_frames _ _ _) hPQ.keep
  · rename_i hstop
    refine Triple.bind (before_of_frames (modify_frames fun _ => rfl) hPQ.keep) fun _ => ?_
    exact unlessAborted_leads (encodePair_leads hctx hadmitted hPQ (hspec hstop)
      fun publication hencodes => ⟨hadmitted, search.exact, hspec hstop, hencodes⟩) hPQ.keep

theorem examinePair_leads (hctx : ctx.Sound retained) (hdistinct : ctx.tokenIn ≠ ctx.tokenOut)
    (hPQ : ctx.Admits retained P Q) : Leads P Q ctx.examinePair := by
  have hwithhold : ∀ reason detail, Leads P Q (ctx.withhold reason detail) := fun _ _ =>
    leads_of_frames (withhold_frames _ _ _) hPQ.keep
  unfold PairContext.examinePair
  refine Triple.bind (before_of_frames Frames.get hPQ.keep) fun s => ?_
  refine Triple.ite (fun _ => hwithhold _ _) fun _ => ?_
  refine Triple.ite (fun _ => hwithhold _ _) fun hsupported => ?_
  refine Triple.ite (fun _ => hwithhold _ _) fun hbounded => ?_
  exact unlessAborted_leads (searchPair_leads hctx
    ⟨hdistinct, by simpa using hsupported, by simpa using hbounded⟩ hPQ) hPQ.keep

/-- A final step that is not shown. -/
theorem ensuring_leads {α : Type} {body : Derive α} (h : Leads P Q body)
    {f : Derivation → Derivation} (hf : ∀ s, (f s).shown = s.shown) :
    Leads P Q (body.ensuring f) :=
  h.ensuring (fun _ s hs => (hf s).symm ▸ hs) fun _ s hs => (hf s).symm ▸ hs

/-- **One pass** through the pair loop publishes nothing, or the exact pair of its tokens. -/
theorem pass_leads (hctx : ctx.Sound retained) (hPQ : ctx.Admits retained P Q) :
    Leads P Q ctx.pass := by
  unfold PairContext.pass
  refine Triple.ite (fun _ => leads_of_frames Frames.pure hPQ.keep) fun hdistinct => ?_
  refine Triple.bind (before_of_frames Frames.get hPQ.keep) fun s => ?_
  refine Triple.ite (fun _ => ?_) fun _ => ?_
  · exact leads_of_frames (Frames.bind (setStop_frames _) fun _ => Frames.pure) hPQ.keep
  · refine Triple.bind (before_of_frames (metered_frames _) hPQ.keep) fun result => ?_
    cases result with
    | error stop =>
      exact leads_of_frames (Frames.bind (setStop_frames _) fun _ => Frames.pure) hPQ.keep
    | ok _ =>
      refine Triple.bind (before_of_frames (modify_frames fun _ => rfl) hPQ.keep) fun _ => ?_
      exact ensuring_leads (examinePair_leads hctx (Ne.symm hdistinct) hPQ) fun _ => rfl

end Pass

/-! ## The pair loop -/

/-- The cached universe of a component. -/
structure UniverseOf (graph : DiscoveryGraph) (retained : List Crossable)
    (component : DiscoveryComponent) (cachedUniverse : Universe) : Prop where
  offers : cachedUniverse.offers = universeOffers graph retained component
  outputs : cachedUniverse.outputs = sortedSet (cachedUniverse.offers.map (·.tokenOut))

/-- `ctx` is what the pair loop hands to the pass of one of its pairs. -/
structure PairContext.Reached (ctx : PairContext) (limits : LadderResourceLimits)
    (policy : JobAdmissionPolicy) (graph : DiscoveryGraph) (retained : List Crossable) : Prop where
  limits_eq : ctx.budget.limits = limits
  policy_eq : ctx.policy = policy
  tokenAt_eq : ctx.tokenAt = graph.tokenAt
  wanted : ctx.tokenIn ∈ retained.map (·.tokenIn)
  component : ∃ component, graph.componentOf ctx.tokenIn = some component ∧
    UniverseOf graph retained component ctx.cachedUniverse
  enumerated : ctx.tokenOut ∈ ctx.cachedUniverse.outputs

/-- A pass of the pair loop publishes it. -/
def Listed (limits : LadderResourceLimits) (policy : JobAdmissionPolicy) (graph : DiscoveryGraph)
    (retained : List Crossable) (publication : Publication) : Prop :=
  ∃ ctx : PairContext, ctx.Reached limits policy graph retained ∧ ctx.Publishes publication

/-- What holds of the publications and the cached universes throughout the pair loop, while the
pairs of `pending` are still to be examined. -/
structure ShownHolds (limits : LadderResourceLimits) (policy : JobAdmissionPolicy)
    (graph : DiscoveryGraph) (retained : List Crossable) (pending : String → String → Prop)
    (shown : Shown) : Prop where
  priced : ∀ publication ∈ shown.1, Priced limits policy retained publication
  listed : ∀ publication ∈ shown.1, Listed limits policy graph retained publication
  distinct : shown.1.Pairwise fun left right =>
    ¬ (left.pair.tokenIn = right.pair.tokenIn ∧ left.pair.tokenOut = right.pair.tokenOut)
  fresh : ∀ publication ∈ shown.1, ¬ pending publication.pair.tokenIn publication.pair.tokenOut
  cached : ∀ entry ∈ shown.2, ∃ component ∈ graph.components, component.root = entry.1 ∧
    entry.2.offers = universeOffers graph retained component ∧
    entry.2.outputs = sortedSet (entry.2.offers.map (·.tokenOut))

theorem ShownHolds.weaken {limits : LadderResourceLimits} {policy : JobAdmissionPolicy}
    {graph : DiscoveryGraph} {retained : List Crossable} {pending pending' : String → String → Prop}
    {shown : Shown} (h : ShownHolds limits policy graph retained pending shown)
    (hless : ∀ tokenIn tokenOut, pending' tokenIn tokenOut → pending tokenIn tokenOut) :
    ShownHolds limits policy graph retained pending' shown :=
  { h with fresh := fun p hp hpending => h.fresh p hp (hless _ _ hpending) }

/-- A pass over a pending pair leaves it examined. -/
theorem ShownHolds.admits {ctx : PairContext} {graph : DiscoveryGraph} {retained : List Crossable}
    {pending pending' : String → String → Prop}
    (hreached : ctx.Reached ctx.budget.limits ctx.policy graph retained)
    (hpending : pending ctx.tokenIn ctx.tokenOut)
    (hless : ∀ tokenIn tokenOut, pending' tokenIn tokenOut →
      pending tokenIn tokenOut ∧ ¬ (tokenIn = ctx.tokenIn ∧ tokenOut = ctx.tokenOut)) :
    ctx.Admits retained (ShownHolds ctx.budget.limits ctx.policy graph retained pending)
      (ShownHolds ctx.budget.limits ctx.policy graph retained pending') where
  keep := fun _ h => h.weaken fun tokenIn tokenOut hp => (hless tokenIn tokenOut hp).1
  publish := fun published universes publication h hin hout hpriced hpublishes => by
    have hmem : ∀ p ∈ published ++ [publication], p ∈ published ∨ p = publication := fun p hp =>
      (List.mem_append.mp hp).imp_right List.mem_singleton.mp
    refine ⟨fun p hp => ?_, fun p hp => ?_, ?_, fun p hp hp' => ?_, h.cached⟩
    · rcases hmem p hp with hold | rfl
      · exact h.priced p hold
      · exact hpriced
    · rcases hmem p hp with hold | rfl
      · exact h.listed p hold
      · exact ⟨ctx, hreached, hpublishes⟩
    · refine List.pairwise_append.mpr ⟨h.distinct, List.pairwise_singleton _ _, ?_⟩
      intro p hp q hq
      rw [List.mem_singleton.mp hq, hin, hout]
      rintro ⟨heqIn, heqOut⟩
      exact h.fresh p hp (by rw [heqIn, heqOut]; exact hpending)
    · rcases hmem p hp with hold | rfl
      · exact h.fresh p hold (hless _ _ hp').1
      · exact (hless _ _ hp').2 ⟨hin, hout⟩

theorem buildUniverse_returns (budget : Budget) (graph : DiscoveryGraph)
    (retained : List Crossable) (component : DiscoveryComponent) :
    Returns (buildUniverse budget graph retained component)
      (UniverseOf graph retained component) := by
  unfold buildUniverse
  refine Returns.bind (Returns.trivial _) fun _ _ => ?_
  refine Returns.bind (Returns.trivial _) fun _ _ => ?_
  refine Returns.bind (Returns.trivial _) fun _ _ => ?_
  exact Returns.pure ⟨rfl, rfl⟩

/-- Components of one root are one component. -/
theorem component_eq_of_root {graph : DiscoveryGraph} {retained : List Crossable}
    (hgraph : GraphSound retained graph) {component component' : DiscoveryComponent}
    (h : component ∈ graph.components) (h' : component' ∈ graph.components)
    (hroot : component.root = component'.root) : component = component' := by
  by_contra hne
  have hpairwise := hgraph.distinct
  have : Std.Symm fun left right : DiscoveryComponent => left.root ≠ right.root :=
    ⟨fun _ _ h => Ne.symm h⟩
  exact hpairwise.forall h h' hne hroot

/-- What the pair loop hands to a pass is sound. -/
theorem PairContext.Reached.sound {ctx : PairContext} {limits : LadderResourceLimits}
    {policy : JobAdmissionPolicy} {graph : DiscoveryGraph} {retained : List Crossable}
    (h : ctx.Reached limits policy graph retained) (hgraph : GraphSound retained graph)
    (hvalid : ∀ offer ∈ retained, offer.Valid) (hpos : 0 < limits.maxMakersPerCombination)
    (hle : limits.maxMakersPerCombination ≤ maxPhysicalMakersPerMerge) : ctx.Sound retained := by
  obtain ⟨component, hcomponent, huniverse⟩ := h.component
  have hsub : ctx.cachedUniverse.offers.Sublist retained := by
    rw [huniverse.offers]
    exact List.filter_sublist
  obtain ⟨taker, htaker, hin⟩ := List.mem_map.mp h.wanted
  obtain ⟨giver, hgiver, hout⟩ : ∃ giver ∈ ctx.cachedUniverse.offers,
      giver.tokenOut = ctx.tokenOut := by
    have henumerated := h.enumerated
    rw [huniverse.outputs] at henumerated
    unfold sortedSet at henumerated
    rw [List.mem_insertionSort, List.mem_dedup] at henumerated
    exact List.mem_map.mp henumerated
  exact {
    valid := hvalid
    canonicalIn := hin ▸ (hvalid taker htaker).tokenIn
    canonicalOut := hout ▸ (hvalid giver (hsub.subset hgiver)).tokenOut
    tokenIn_mem := by rw [h.tokenAt_eq, ← hin]; exact (hgraph.indexed taker htaker).1
    tokenOut_mem := by
      rw [h.tokenAt_eq, ← hout]
      exact (hgraph.indexed giver (hsub.subset hgiver)).2
    makers_pos := by rw [h.limits_eq]; exact hpos
    makers_le := by rw [h.limits_eq]; exact hle
    universe_sub := hsub
    indexed := fun offer hoffer => by
      rw [h.tokenAt_eq]
      exact hgraph.indexed offer (hsub.subset hoffer)
    complete := fun makers hmakers honly => by
      rw [huniverse.offers]
      exact sublist_universeOffers hgraph hvalid hcomponent hmakers honly }

section Loop

variable {budget : Budget} {comparisons : List CombinationState → Nat}
  {policy : JobAdmissionPolicy} {graph : DiscoveryGraph} {retained : List Crossable}
  {pending : String → String → Prop}

/-- The cache holds the universes of the roots it is keyed by. -/
def CacheHolds (graph : DiscoveryGraph) (retained : List Crossable)
    (universes : List (Nat × Universe)) : Prop :=
  ∀ entry ∈ universes, ∃ component ∈ graph.components, component.root = entry.1 ∧
    entry.2.offers = universeOffers graph retained component ∧
    entry.2.outputs = sortedSet (entry.2.offers.map (·.tokenOut))

/-- `universeFor` hands out the universe of the component, cached or built, and publishes
nothing. -/
theorem universeFor_cached (hgraph : GraphSound retained graph) {component : DiscoveryComponent}
    (hcomponent : component ∈ graph.components) (P : List Publication → Prop) :
    Triple (fun s => P s.published ∧ CacheHolds graph retained s.universes)
      (universeFor budget graph retained component)
      (fun result s => (P s.published ∧ CacheHolds graph retained s.universes) ∧
        ∀ cachedUniverse, result = .ok cachedUniverse →
          UniverseOf graph retained component cachedUniverse)
      (fun _ s => P s.published ∧ CacheHolds graph retained s.universes) := by
  unfold universeFor
  refine Triple.bind (Q := fun seen s => seen = s ∧
    P s.published ∧ CacheHolds graph retained s.universes)
    (Triple.get fun s hs => ⟨rfl, hs⟩) fun seen => ?_
  split
  · rename_i root cachedUniverse hfind
    refine Triple.pure fun s hs => ⟨hs.2, fun found h => ?_⟩
    obtain ⟨rfl, hs⟩ := hs
    cases h
    obtain ⟨cachedComponent, hmem, hroot, hoffers, houtputs⟩ :=
      hs.2 _ (List.mem_of_find?_eq_some hfind)
    have hentry : root = component.root := by simpa using List.find?_some hfind
    rw [component_eq_of_root hgraph hmem hcomponent (hroot.trans hentry)] at hoffers
    exact ⟨hoffers, houtputs⟩
  · intro s hs
    refine (Triple.bind (metered_leaves
      (P := fun shown => P shown.1 ∧ CacheHolds graph retained shown.2)
      (Q := fun shown => P shown.1 ∧ CacheHolds graph retained shown.2)
      (buildUniverse_returns budget graph retained component)) fun result => ?_) s hs.2
    cases result with
    | error stop => exact Triple.pure fun s hs => ⟨hs.1, fun _ h => by cases h⟩
    | ok built =>
      intro s hs
      have hbuilt := hs.2 built rfl
      refine ⟨⟨hs.1.1, fun entry hentry => ?_⟩, fun _ h => by cases h; exact hbuilt⟩
      rcases List.mem_cons.mp hentry with rfl | hold
      · exact ⟨component, hcomponent, rfl, hbuilt.offers, hbuilt.outputs⟩
      · exact hs.1.2 entry hold

theorem universeFor_leads (hgraph : GraphSound retained graph) {component : DiscoveryComponent}
    (hcomponent : component ∈ graph.components) :
    Triple (fun s => ShownHolds budget.limits policy graph retained pending s.shown)
      (universeFor budget graph retained component)
      (fun result s => ShownHolds budget.limits policy graph retained pending s.shown ∧
        ∀ cachedUniverse, result = .ok cachedUniverse →
          UniverseOf graph retained component cachedUniverse)
      (fun _ s => ShownHolds budget.limits policy graph retained pending s.shown) :=
  (universeFor_cached hgraph hcomponent fun published =>
    ShownHolds budget.limits policy graph retained pending (published, [])).conseq
    (fun _ hs => ⟨{ hs with cached := fun _ h => absurd h List.not_mem_nil }, hs.cached⟩)
    (fun _ _ hs => ⟨{ hs.1.1 with cached := hs.1.2 }, hs.2⟩)
    fun _ _ hs => { hs.1 with cached := hs.2 }

theorem nodup_sortedSet (values : List String) : (sortedSet values).Nodup :=
  (List.perm_insertionSort _ _).nodup_iff.mpr (List.nodup_dedup values)

theorem mem_sortedSet {values : List String} {value : String} :
    value ∈ sortedSet values ↔ value ∈ values := by
  unfold sortedSet
  rw [List.mem_insertionSort, List.mem_dedup]

/-- The pairs still pending inside the loop over the outputs of one input token. -/
def PendingOutputs (wantedTokens : List String) (tokenIn : String) (outputs : List String)
    (input output : String) : Prop :=
  input ∈ wantedTokens ∨ (input = tokenIn ∧ output ∈ outputs)

/-- The loop over the outputs of one input token. -/
theorem examineOutputs_leads {root : Nat} {cachedUniverse : Universe}
    {wantedTokens : List String} {tokenIn : String} (hfresh : tokenIn ∉ wantedTokens)
    {outputs : List String} (hnodup : outputs.Nodup)
    (hsound : ∀ tokenOut ∈ outputs, (DiscoveryContext.pairContext
      ⟨budget, comparisons, policy, graph, retained⟩ tokenIn root cachedUniverse tokenOut).Sound
        retained)
    (hreached : ∀ tokenOut ∈ outputs, (DiscoveryContext.pairContext
      ⟨budget, comparisons, policy, graph, retained⟩ tokenIn root cachedUniverse tokenOut).Reached
        budget.limits policy graph retained) :
    Leads (ShownHolds budget.limits policy graph retained
        (PendingOutputs wantedTokens tokenIn outputs))
      (ShownHolds budget.limits policy graph retained fun input _ => input ∈ wantedTokens)
      (DiscoveryContext.examineOutputs (DiscoveryContext.pairContext
        ⟨budget, comparisons, policy, graph, retained⟩ tokenIn root cachedUniverse) outputs) := by
  induction outputs with
  | nil => exact leads_of_frames Frames.pure fun _ h => h.weaken fun _ _ => Or.inl
  | cons tokenOut outputs ih =>
    obtain ⟨hnotin, hrest⟩ := List.nodup_cons.mp hnodup
    have hadmits : (DiscoveryContext.pairContext ⟨budget, comparisons, policy, graph, retained⟩
        tokenIn root cachedUniverse tokenOut).Admits retained
        (ShownHolds budget.limits policy graph retained
          (PendingOutputs wantedTokens tokenIn (tokenOut :: outputs)))
        (ShownHolds budget.limits policy graph retained
          (PendingOutputs wantedTokens tokenIn outputs)) := by
      refine ShownHolds.admits (hreached tokenOut List.mem_cons_self)
        (Or.inr ⟨rfl, List.mem_cons_self⟩) ?_
      rintro input output (hwanted | ⟨rfl, houtput⟩)
      · refine ⟨Or.inl hwanted, fun heq => hfresh ?_⟩
        obtain rfl : input = tokenIn := heq.1
        exact hwanted
      · refine ⟨Or.inr ⟨rfl, List.mem_cons_of_mem _ houtput⟩, fun heq => hnotin ?_⟩
        obtain rfl : output = tokenOut := heq.2
        exact houtput
    unfold DiscoveryContext.examineOutputs
    refine Triple.bind ((pass_leads (hsound tokenOut List.mem_cons_self) hadmits).conseq
      (fun _ h => h) (fun _ _ h => h) fun _ _ h => h.weaken fun _ _ => Or.inl) fun flow => ?_
    cases flow with
    | breakPairDiscovery =>
      exact leads_of_frames Frames.pure fun _ h => h.weaken fun _ _ => Or.inl
    | next =>
      exact ih hrest (fun o ho => hsound o (List.mem_cons_of_mem _ ho))
        fun o ho => hreached o (List.mem_cons_of_mem _ ho)

/-- The loop over the outputs of an input token's universe. -/
theorem examineUniverse_leads (hgraph : GraphSound retained graph)
    (hvalid : ∀ offer ∈ retained, offer.Valid)
    (hpos : 0 < budget.limits.maxMakersPerCombination)
    (hle : budget.limits.maxMakersPerCombination ≤ maxPhysicalMakersPerMerge)
    {wantedTokens : List String} {tokenIn : String} (hfresh : tokenIn ∉ wantedTokens)
    (hwanted : tokenIn ∈ retained.map (·.tokenIn)) {component : DiscoveryComponent}
    (hcomponent : graph.componentOf tokenIn = some component) {cachedUniverse : Universe}
    (huniverse : UniverseOf graph retained component cachedUniverse) :
    Leads (ShownHolds budget.limits policy graph retained
        fun input _ => input ∈ tokenIn :: wantedTokens)
      (ShownHolds budget.limits policy graph retained fun input _ => input ∈ wantedTokens)
      (DiscoveryContext.examineOutputs (DiscoveryContext.pairContext
        ⟨budget, comparisons, policy, graph, retained⟩ tokenIn component.root cachedUniverse)
        cachedUniverse.outputs) := by
  refine (examineOutputs_leads hfresh ?_ (fun tokenOut hout => ?_) fun tokenOut hout => ?_).pre
    fun s hs => hs.weaken fun input output hp => ?_
  · rw [huniverse.outputs]
    exact nodup_sortedSet _
  · exact PairContext.Reached.sound ⟨rfl, rfl, rfl, hwanted, ⟨component, hcomponent, huniverse⟩,
      hout⟩ hgraph hvalid hpos hle
  · exact ⟨rfl, rfl, rfl, hwanted, ⟨component, hcomponent, huniverse⟩, hout⟩
  · rcases hp with hold | ⟨rfl, -⟩
    · exact List.mem_cons_of_mem _ hold
    · exact List.mem_cons_self

/-- **The pair loop** keeps what holds of the publications. -/
theorem pairDiscovery_leads (hgraph : GraphSound retained graph)
    (hvalid : ∀ offer ∈ retained, offer.Valid)
    (hpos : 0 < budget.limits.maxMakersPerCombination)
    (hle : budget.limits.maxMakersPerCombination ≤ maxPhysicalMakersPerMerge)
    {wantedTokens : List String} (hnodup : wantedTokens.Nodup)
    (hwanted : ∀ tokenIn ∈ wantedTokens, tokenIn ∈ retained.map (·.tokenIn)) :
    Leads (ShownHolds budget.limits policy graph retained fun input _ => input ∈ wantedTokens)
      (ShownHolds budget.limits policy graph retained fun _ _ => False)
      (DiscoveryContext.pairDiscovery ⟨budget, comparisons, policy, graph, retained⟩
        wantedTokens) := by
  have hforget : ∀ (pending : String → String → Prop) shown,
      ShownHolds budget.limits policy graph retained pending shown →
      ShownHolds budget.limits policy graph retained (fun _ _ => False) shown :=
    fun _ _ h => h.weaken fun _ _ => False.elim
  induction wantedTokens with
  | nil => exact leads_of_frames Frames.pure (hforget _)
  | cons tokenIn wantedTokens ih =>
    obtain ⟨hfresh, hrest⟩ := List.nodup_cons.mp hnodup
    unfold DiscoveryContext.pairDiscovery
    cases hcomponent : graph.componentOf tokenIn with
    | none => exact leads_of_frames Frames.throw (hforget _)
    | some component =>
      refine Triple.bind ((universeFor_leads hgraph (componentOf_mem hcomponent).1).conseq
        (fun _ h => h) (fun _ _ h => h) fun _ _ h => hforget _ _ h) fun result => ?_
      cases result with
      | error stop =>
        intro s hs
        exact leads_of_frames (setStop_frames stop.global) (hforget _) s hs.1
      | ok cachedUniverse =>
        intro s hs
        have hloop := @examineUniverse_leads budget comparisons policy graph retained hgraph hvalid
          hpos hle wantedTokens tokenIn hfresh (hwanted tokenIn List.mem_cons_self) component
          hcomponent cachedUniverse (hs.2 cachedUniverse rfl)
        refine (Triple.bind (hloop.conseq (fun _ h => h) (fun _ _ h => h)
          fun _ _ h => hforget _ _ h) fun flow => ?_) s hs.1
        cases flow with
        | breakPairDiscovery => exact leads_of_frames Frames.pure (hforget _)
        | next => exact ih hrest fun token htoken => hwanted token (List.mem_cons_of_mem _ htoken)

theorem orReturn_leaves {α : Type} {stage : Budgeted α} {R : α → Prop} (h : Returns stage R)
    {P : Shown → Prop} :
    Triple (fun s => P s.shown) (orReturn budget retained stage) (fun a s => P s.shown ∧ R a)
      (fun _ s => P s.shown) := by
  unfold orReturn
  refine Triple.bind (metered_leaves h) fun result => ?_
  cases result with
  | ok a => exact Triple.pure fun s hs => ⟨hs.1, hs.2 a rfl⟩
  | error stop =>
    refine Triple.bind (Q := fun _ s => P s.shown)
      (fun s hs => (setStop_frames stop.global).triple P s hs.1) fun _ => ?_
    refine Triple.bind ((addPairExclusions_frames _ _ _ _ _).triple P) fun _ => ?_
    exact Triple.throw fun _ hs => hs

/-- The discovery graph of a book, as some budget allowed to build it. -/
def GraphOf (retained : List Crossable) (graph : DiscoveryGraph) : Prop :=
  ∃ (budget : Budget) (work work' : Work),
    (buildDiscoveryGraph budget retained).outcome work = (.ok graph, work')

/-- Publications of one derivation: each is exact, and no two are of one pair. -/
structure PublishedHolds (limits : LadderResourceLimits) (policy : JobAdmissionPolicy)
    (retained : List Crossable) (published : List Publication) : Prop where
  priced : ∀ publication ∈ published, Priced limits policy retained publication
  listed : ∀ publication ∈ published, ∃ graph, GraphOf retained graph ∧
    Listed limits policy graph retained publication
  distinct : published.Pairwise fun left right =>
    ¬ (left.pair.tokenIn = right.pair.tokenIn ∧ left.pair.tokenOut = right.pair.tokenOut)

theorem PublishedHolds.nil (limits : LadderResourceLimits) (policy : JobAdmissionPolicy)
    (retained : List Crossable) : PublishedHolds limits policy retained [] :=
  ⟨fun _ h => absurd h List.not_mem_nil, fun _ h => absurd h List.not_mem_nil, List.Pairwise.nil⟩

/-- **The discovery** publishes exact pairs only, each at most once. -/
theorem discoverPairs_published (hvalid : ∀ offer ∈ retained, offer.Valid)
    (hpos : 0 < budget.limits.maxMakersPerCombination)
    (hle : budget.limits.maxMakersPerCombination ≤ maxPhysicalMakersPerMerge) :
    Triple (fun s => s.shown = ([], [])) (discoverPairs budget comparisons policy retained)
      (fun _ s => PublishedHolds budget.limits policy retained s.published)
      (fun _ s => PublishedHolds budget.limits policy retained s.published) := by
  have hempty : ∀ s : Derivation, s.shown = ([], []) →
      PublishedHolds budget.limits policy retained s.published := by
    intro s hs
    rw [show s.published = [] from congrArg Prod.fst hs]
    exact PublishedHolds.nil _ _ _
  have hstage : ∀ stage : Budgeted Unit, Triple (fun s => s.shown = ([], []))
      (orReturn budget retained stage) (fun _ s => s.shown = ([], []))
      (fun _ s => PublishedHolds budget.limits policy retained s.published) := fun stage =>
    (orReturn_leaves (Returns.trivial _) (P := (· = ([], [])))).conseq (fun _ h => h)
      (fun _ _ h => h.1) fun _ s h => hempty s h
  unfold discoverPairs
  have hbuilt : Returns (buildDiscoveryGraph budget retained)
      fun graph => GraphSound retained graph ∧ GraphOf retained graph := fun work graph work' h =>
    ⟨buildDiscoveryGraph_returns budget retained work graph work' h, budget, work, work', h⟩
  refine Triple.bind ((orReturn_leaves hbuilt
    (P := (· = ([], [])))).conseq (fun _ h => h) (fun _ _ h => h) fun _ s h => hempty s h)
    fun graph => ?_
  intro s hs
  obtain ⟨hgraph, hof⟩ := hs.2
  refine (?_ : Triple (fun s => s.shown = ([], [])) _ _ _) s hs.1
  refine Triple.bind (hstage _) fun _ => ?_
  refine Triple.bind (hstage _) fun _ => ?_
  refine Triple.bind (hstage _) fun _ => ?_
  refine (pairDiscovery_leads hgraph hvalid hpos hle (nodup_sortedSet _)
    fun tokenIn htoken => mem_sortedSet.mp htoken).conseq (fun s hs => ?_)
    (fun _ _ hs => ⟨hs.priced, fun p hp => ⟨graph, hof, hs.listed p hp⟩, hs.distinct⟩)
    fun _ _ hs => ⟨hs.priced, fun p hp => ⟨graph, hof, hs.listed p hp⟩, hs.distinct⟩
  rw [hs]
  exact ⟨fun _ h => absurd h List.not_mem_nil, fun _ h => absurd h List.not_mem_nil,
    List.Pairwise.nil, fun _ h => absurd h List.not_mem_nil, fun _ h => absurd h List.not_mem_nil⟩

end Loop

/-! ## The derivation -/

theorem stopScan_returns {α : Type} {R : α → Prop} (offer : LadderSourceOffer)
    (stopReason : LadderDerivationStopReason) (reason : LadderExclusionReason) :
    Returns (stopScan offer stopReason reason) R :=
  Returns.bind (Returns.trivial _) fun _ _ => Returns.bind (Returns.trivial _) fun _ _ =>
    Returns.throw

/-- A scan that reaches its end has read off the eligible offers. -/
theorem scanOffers_returns (budget : Budget) (options : DeriveLadderOptions)
    (unavailable : List String) (offers : List LadderSourceOffer) :
    Returns (scanOffers budget options unavailable offers)
      (· = offers.filterMap fun offer =>
        (toCrossable offer options.nowMs options.expiryMarginSeconds unavailable).toOption) := by
  induction offers with
  | nil => exact Returns.pure rfl
  | cons offer offers ih =>
    unfold scanOffers
    refine Returns.bind (Returns.trivial _) fun _ _ => ?_
    refine Returns.bind (Returns.trivial _) fun _ _ => ?_
    refine Returns.ite (fun _ => stopScan_returns _ _ _) fun _ => ?_
    refine Returns.bind (Returns.trivial _) fun _ _ => ?_
    refine Returns.bind (Returns.trivial _) fun _ _ => ?_
    split
    · exact stopScan_returns _ _ _
    · rw [List.filterMap_cons]
      cases toCrossable offer options.nowMs options.expiryMarginSeconds unavailable with
      | error reason => exact Returns.bind (Returns.trivial _) fun _ _ => ih
      | ok crossable =>
        refine Returns.bind ih fun rest hrest => ?_
        exact Returns.pure (by rw [hrest]; rfl)

/-- Resolved limits are the hard ones or lower, and positive. -/
theorem resolveControl_ok {field : LadderResourceLimitName} {maximum : Nat} {control : Option Int}
    {value : Nat} (hmaximum : 1 ≤ maximum) (h : resolveControl field maximum control = .ok value) :
    1 ≤ value ∧ value ≤ maximum := by
  unfold resolveControl at h
  cases control with
  | none =>
    cases h
    exact ⟨hmaximum, le_rfl⟩
  | some control =>
    simp only [Except.ite_error_eq_ok] at h
    obtain ⟨hrange, h⟩ := h
    cases h
    omega

theorem resolveLadderResourceLimits_ok {controls : Option LadderResourceLimitControls}
    {limits : LadderResourceLimits} (h : resolveLadderResourceLimits controls = .ok limits) :
    1 ≤ limits.maxMakersPerCombination ∧
      limits.maxMakersPerCombination ≤ maxPhysicalMakersPerMerge := by
  unfold resolveLadderResourceLimits at h
  cases controls with
  | none =>
    cases h
    exact ⟨by decide, by decide⟩
  | some controls =>
    simp only [Except.bind_eq_ok] at h
    obtain ⟨_, -, _, -, _, -, makers, hmakers, _, -, _, -, _, -, _, -, h⟩ := h
    cases h
    exact resolveControl_ok (by decide) hmakers

theorem resolveLadderResourceLimits_wire {controls : Option LadderResourceLimitControls}
    {limits : LadderResourceLimits} (h : resolveLadderResourceLimits controls = .ok limits) :
    limits.maxWirePointsPerPair ≤ maxRungsPerPair := by
  unfold resolveLadderResourceLimits at h
  cases controls with
  | none =>
    cases h
    exact le_rfl
  | some controls =>
    simp only [Except.bind_eq_ok] at h
    obtain ⟨_, -, _, -, _, -, _, -, points, hpoints, _, -, _, -, _, -, h⟩ := h
    cases h
    exact (resolveControl_ok (by decide) hpoints).2

/-- The publications of a result, entry by entry. -/
structure DerivedFrom (limits : LadderResourceLimits) (policy : JobAdmissionPolicy)
    (retained : List Crossable) (derived : DerivedLadder) (published : List Publication) : Prop where
  levels : derived.levels = published.map (·.pair)
  provenance : derived.provenance = published.map (·.provenance)
  limits_eq : derived.limits = limits
  holds : PublishedHolds limits policy retained published

theorem cancel_published {limits : LadderResourceLimits} {policy : JobAdmissionPolicy}
    {budget : Budget} {retained : List Crossable} {s : Derivation}
    (h : PublishedHolds limits policy retained s.published) :
    PublishedHolds limits policy retained (cancel budget retained s).published := by
  unfold cancel
  split
  · exact PublishedHolds.nil _ _ _
  · exact h

theorem deriveFrom_published {budget : Budget} {comparisons : List CombinationState → Nat}
    {policy : JobAdmissionPolicy} {crossable : List Crossable} {work : Work}
    {derived : DerivedLadder}
    (hvalid : ∀ offer ∈ (claimCoins [] (uniqueOffers crossable)).1, offer.Valid)
    (hpos : 1 ≤ budget.limits.maxMakersPerCombination)
    (hle : budget.limits.maxMakersPerCombination ≤ maxPhysicalMakersPerMerge)
    (h : deriveFrom budget comparisons policy crossable work = .ok derived) :
    ∃ published, DerivedFrom budget.limits policy (claimCoins [] (uniqueOffers crossable)).1
      derived published := by
  unfold deriveFrom at h
  simp only at h
  generalize work.excluded ++ duplicateExclusions crossable ++
    (claimCoins [] (uniqueOffers crossable)).2 = excluded at h
  have hdiscover : Triple _ (discoverPairs budget comparisons policy _) _ _ :=
    discoverPairs_published hvalid hpos hle
  have hpublished := hdiscover { work := { work with excluded } } rfl
  split at h
  · rename_i s hrun
    rw [hrun] at hpublished
    cases h
    exact ⟨_, rfl, rfl, rfl, cancel_published hpublished⟩
  · rename_i s hrun
    rw [hrun] at hpublished
    cases h
    exact ⟨_, rfl, rfl, rfl,
      cancel_published (s := { s with work := s.work.noteScanStop }) hpublished⟩
  · cases h
    exact ⟨[], rfl, rfl, rfl, PublishedHolds.nil _ _ _⟩
  · cases h

/-- `deriveLadder` from its resolved limits on. -/
def deriveWithin (limits : LadderResourceLimits) (comparisons : List CombinationState → Nat)
    (offers : List LadderSourceOffer) (options : DeriveLadderOptions) :
    Except String DerivedLadder :=
  let budget : Budget := ⟨limits, options.shouldAbort⟩
  match budget.poll {} with
  | (some reason, _) =>
    .ok (emptyDerived limits { stopReason := some (GlobalStop.abort reason).stopReason })
  | (none, work) =>
    let unavailable := options.unavailableOfferHashes.map toLowerCase
    match (scanOffers budget options unavailable offers).outcome work with
    | (.error _, work) => .ok (emptyDerived limits work.diagnostics work.excluded)
    | (.ok crossable, work) =>
      deriveFrom budget comparisons options.toJobAdmissionPolicy crossable work

/-- A derivation has refused its limits, or is one within the limits it resolved. -/
theorem deriveLadder_cases {comparisons : List CombinationState → Nat}
    {offers : List LadderSourceOffer} {options : DeriveLadderOptions} {derived : DerivedLadder}
    (h : deriveLadder comparisons offers options = .ok derived) :
    (∃ invalid, derived = emptyDerived hardLadderResourceLimits
      { stopReason := some .invalidResourceLimit, invalidResourceLimit := some invalid }) ∨
    ∃ limits, resolveLadderResourceLimits options.resourceLimits = .ok limits ∧
      deriveWithin limits comparisons offers options = .ok derived := by
  unfold deriveLadder at h
  split at h
  · rename_i invalid _
    exact Or.inl ⟨invalid, (Except.ok.inj h).symm⟩
  · rename_i limits hlimits
    exact Or.inr ⟨limits, hlimits, h⟩

theorem derivedFrom_empty {limits : LadderResourceLimits} (policy : JobAdmissionPolicy)
    (retained : List Crossable) {derived : DerivedLadder} {diagnostics excluded}
    (h : derived = emptyDerived limits diagnostics excluded) :
    DerivedFrom limits policy retained derived [] := by
  rw [h]
  exact ⟨rfl, rfl, rfl, PublishedHolds.nil _ _ _⟩

theorem deriveWithin_published {limits : LadderResourceLimits}
    {comparisons : List CombinationState → Nat} {offers : List LadderSourceOffer}
    {options : DeriveLadderOptions} {derived : DerivedLadder}
    (hpos : 1 ≤ limits.maxMakersPerCombination)
    (hle : limits.maxMakersPerCombination ≤ maxPhysicalMakersPerMerge)
    (h : deriveWithin limits comparisons offers options = .ok derived) :
    ∃ published, DerivedFrom limits options.toJobAdmissionPolicy
      (retainedOffers offers options) derived published := by
  unfold deriveWithin at h
  simp only at h
  split at h
  · exact ⟨[], derivedFrom_empty _ _ (Except.ok.inj h).symm⟩
  · split at h
    · exact ⟨[], derivedFrom_empty _ _ (Except.ok.inj h).symm⟩
    · rename_i crossable work hscan
      have hcrossable := scanOffers_returns _ _ _ _ _ _ _ hscan
      obtain ⟨published, hpublished⟩ := deriveFrom_published
        (fun offer hoffer => retainedOffers_valid (by rwa [hcrossable] at hoffer)) hpos hle h
      rw [hcrossable] at hpublished
      exact ⟨published, hpublished⟩

/-- **Every publication of a derivation** is exact for the retained book. -/
theorem deriveLadder_published {comparisons : List CombinationState → Nat}
    {offers : List LadderSourceOffer} {options : DeriveLadderOptions} {derived : DerivedLadder}
    (h : deriveLadder comparisons offers options = .ok derived) :
    ∃ published, DerivedFrom derived.limits options.toJobAdmissionPolicy
      (retainedOffers offers options) derived published := by
  rcases deriveLadder_cases h with ⟨invalid, rfl⟩ | ⟨limits, hlimits, hwithin⟩
  · exact ⟨[], derivedFrom_empty _ _ rfl⟩
  · obtain ⟨hpos, hle⟩ := resolveLadderResourceLimits_ok hlimits
    obtain ⟨published, hpublished⟩ := deriveWithin_published hpos hle hwithin
    refine ⟨published, ?_⟩
    rw [hpublished.limits_eq]
    exact hpublished

end ZswapKernel
