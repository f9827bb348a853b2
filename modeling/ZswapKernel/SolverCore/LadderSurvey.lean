import ZswapKernel.SolverCore.LadderSettled

/-!
# The survey of a derivation

Over a whole run every pair that was examined is published or says why not, and a derivation that
nothing stopped has surveyed every pair of its graph: unless a cap withheld one of them, what an
unstopped search of a pair encodes is published.

* `pairDiscovery_surveys`, `discoverPairs_surveys` — the loops over the pairs.
* `deriveLadder_surveyed` — a whole derivation.
-/

namespace ZswapKernel

open Program

/-! ## The pair loop -/

/-- Every pair examined so far is published or says why not. -/
def Derivation.Reasoned (s : Derivation) : Prop :=
  ∀ diagnostic ∈ s.work.diagnostics.pairs, diagnostic.Reasoned

/-- While nothing has stopped the derivation: unless a cap withheld some pair, the pairs of `done`
are complete. -/
structure Derivation.Surveyed (done : PairContext → Prop) (s : Derivation) : Prop where
  reasoned : s.Reasoned
  complete : (∃ diagnostic ∈ s.work.diagnostics.pairs, diagnostic.Capped) ∨
    ∀ ctx, done ctx → ctx.Complete s.published

/-- How a loop over pairs ends: it goes on only with the pairs surveyed and nothing stopped. -/
structure Budget.Surveys (budget : Budget) (done : PairContext → Prop) (flow : PairFlow)
    (s : Derivation) : Prop where
  next : flow = .next → budget.Calm s.work ∧ s.work.globalStop = none ∧ s.Surveyed done
  stop : flow = .breakPairDiscovery → s.Stopped ∧ s.Reasoned

/-- An exclusion scan that stops the loop leaves a global stop. -/
def SurveyThrows (exit : DerivationExit) (s : Derivation) : Prop :=
  exit = .exclusionScanStop → s.Stopped ∧ s.Reasoned

theorem PairContext.Complete.mono {ctx : PairContext} {publications more : List Publication}
    (h : ctx.Complete publications) (hsub : publications ⊆ more) : ctx.Complete more :=
  h.imp_right fun ⟨exact, hsearched, hmem⟩ => ⟨exact, hsearched, fun p hp => hsub (hmem p hp)⟩

theorem PairContext.Settles.reasoned {ctx : PairContext} {pairs : List LadderPairDiagnostic}
    {published : List Publication} {s : Derivation} (h : ctx.Settles pairs published s)
    (hpairs : ∀ diagnostic ∈ pairs, diagnostic.Reasoned) : s.Reasoned := by
  obtain ⟨diagnostic, publications, h⟩ := h
  intro found hfound
  rw [h.pairs_eq] at hfound
  rcases List.mem_append.mp hfound with hold | hnew
  · exact hpairs found hold
  · rw [List.mem_singleton.mp hnew]
    exact h.reasoned

theorem Derivation.Surveyed.weaken {done done' : PairContext → Prop} {s : Derivation}
    (h : s.Surveyed done) (hless : ∀ ctx, done' ctx → done ctx) : s.Surveyed done' :=
  ⟨h.reasoned, h.complete.imp_right fun hdone ctx hctx => hdone ctx (hless ctx hctx)⟩

/-- A pass adds its pair to the surveyed ones. -/
theorem PairContext.pass_surveys {ctx : PairContext} {retained : List Crossable}
    (hctx : ctx.Sound retained) (hmost : ctx.budget.limits.maxWirePointsPerPair ≤ maxRungsPerPair)
    {done : PairContext → Prop} :
    Triple (fun s => ctx.budget.Calm s.work ∧ s.work.globalStop = none ∧ s.Surveyed done) ctx.pass
      (ctx.budget.Surveys fun other => done other ∨ (ctx.tokenOut ≠ ctx.tokenIn ∧ other = ctx))
      SurveyThrows := by
  rintro s ⟨hcalm, hrunning, hsurveyed⟩
  refine ((ctx.pass_passes.and (@pass_settles ctx s.work.diagnostics.pairs s.published retained
    hctx hmost)).conseq (fun _ h => h) (fun flow s' h => ⟨fun hflow => ?_, fun hflow => ?_⟩)
      fun exit s' h hexit => ⟨(h.2 hexit).1, (h.2 hexit).2.reasoned hsurveyed.reasoned⟩) s
    ⟨hcalm, hcalm, hrunning, rfl, rfl⟩
  · refine ⟨h.1.2 hflow, h.2.next hflow, ?_⟩
    rcases h.2.settles with hsettles | ⟨hpairs, hpublished, hskipped⟩
    · refine ⟨hsettles.reasoned hsurveyed.reasoned, ?_⟩
      obtain ⟨diagnostic, publications, hsettled⟩ := hsettles
      rw [hsettled.pairs_eq, hsettled.published_eq]
      have hnostop : ¬ s'.Stopped := fun hstopped => hstopped.1 (h.2.next hflow)
      rcases hsurveyed.complete with ⟨capped, hmem, hcapped⟩ | hdone
      · exact Or.inl ⟨capped, List.mem_append_left _ hmem, hcapped⟩
      · rcases hsettled.complete.resolve_left hnostop with hcapped | hcomplete
        · exact Or.inl ⟨diagnostic, List.mem_append_right _ (List.mem_singleton.mpr rfl), hcapped⟩
        · refine Or.inr fun other hother => ?_
          rcases hother with hold | ⟨-, rfl⟩
          · exact (hdone other hold).mono (List.subset_append_left _ _)
          · exact hcomplete.mono (List.subset_append_right _ _)
    · refine ⟨fun d hd => hsurveyed.reasoned d (hpairs ▸ hd), ?_⟩
      rw [hpairs, hpublished]
      refine hsurveyed.complete.imp_right fun hdone other hother => ?_
      rcases hother with hold | ⟨hne, -⟩
      · exact hdone other hold
      · exact absurd (hskipped hflow) hne
  · refine ⟨h.2.stop hflow, ?_⟩
    rcases h.2.settles with hsettles | ⟨hpairs, -, -⟩
    · exact hsettles.reasoned hsurveyed.reasoned
    · exact fun d hd => hsurveyed.reasoned d (hpairs ▸ hd)

section Loop

variable {budget : Budget} {comparisons : List CombinationState → Nat}
  {policy : JobAdmissionPolicy} {graph : DiscoveryGraph} {retained : List Crossable}

/-- The loop over the outputs of one input token. -/
theorem examineOutputs_surveys {pairContext : String → PairContext} {outputs : List String}
    (hbudget : ∀ tokenOut, (pairContext tokenOut).budget = budget)
    (hsound : ∀ tokenOut ∈ outputs, (pairContext tokenOut).Sound retained)
    (hmost : budget.limits.maxWirePointsPerPair ≤ maxRungsPerPair) {done : PairContext → Prop} :
    Triple (fun s => budget.Calm s.work ∧ s.work.globalStop = none ∧ s.Surveyed done)
      (DiscoveryContext.examineOutputs pairContext outputs)
      (budget.Surveys fun other => done other ∨ ∃ tokenOut ∈ outputs,
        (pairContext tokenOut).tokenOut ≠ (pairContext tokenOut).tokenIn ∧
          other = pairContext tokenOut) SurveyThrows := by
  induction outputs generalizing done with
  | nil =>
    refine Triple.pure fun s h => ⟨fun _ => ⟨h.1, h.2.1, h.2.2.weaken fun other hother => ?_⟩,
      by simp⟩
    rcases hother with hold | ⟨_, hmem, -⟩
    · exact hold
    · exact absurd hmem List.not_mem_nil
  | cons tokenOut outputs ih =>
    have hpass := @PairContext.pass_surveys (pairContext tokenOut) retained
      (hsound tokenOut List.mem_cons_self) (by rw [hbudget]; exact hmost) done
    rw [hbudget] at hpass
    unfold DiscoveryContext.examineOutputs
    refine Triple.bind hpass fun flow => ?_
    cases flow with
    | breakPairDiscovery => exact Triple.pure fun s h => ⟨by simp, fun _ => h.stop rfl⟩
    | next =>
      refine ((ih fun o ho => hsound o (List.mem_cons_of_mem _ ho)).pre fun s h =>
        h.next rfl).conseq (fun _ h => h) (fun flow s h => ⟨fun hflow => ?_, h.stop⟩)
          fun _ _ h => h
      obtain ⟨hcalm, hrunning, hsurveyed⟩ := h.next hflow
      refine ⟨hcalm, hrunning, hsurveyed.weaken fun other hother => ?_⟩
      rcases hother with hold | ⟨output, hmem, hne, rfl⟩
      · exact Or.inl (Or.inl hold)
      · rcases List.mem_cons.mp hmem with rfl | hmem
        · exact Or.inl (Or.inr ⟨hne, rfl⟩)
        · exact Or.inr ⟨output, hmem, hne, rfl⟩

/-- A metered stage that goes on leaves the survey as it is. -/
theorem metered_surveys {α : Type} {stage : Budgeted α} (h : budget.Heeds stage)
    {done : PairContext → Prop} {E : DerivationExit → Derivation → Prop} :
    Triple (fun s => budget.Calm s.work ∧ s.work.globalStop = none ∧ s.Surveyed done)
      (Derive.metered stage) (fun result s => (∀ value, result = .ok value → budget.Calm s.work) ∧
        s.work.globalStop = none ∧ s.Surveyed done) E := by
  rintro s ⟨hcalm, hrunning, hsurveyed⟩
  have hstage := h s.work.frame s.work ⟨hcalm, rfl⟩
  unfold Program.outcome Derive.metered
  cases hrun : stage.outcome s.work with
  | mk result work =>
    rw [hrun] at hstage
    have hkept : work.frame = s.work.frame → work.globalStop = none ∧
        Derivation.Surveyed done { s with work } := by
      intro hframe
      have hpairs : work.diagnostics.pairs = s.work.diagnostics.pairs :=
        congrArg (·.pairs) hframe
      refine ⟨(congrArg (·.globalStop) hframe).trans hrunning, fun d hd => ?_, ?_⟩
      · exact hsurveyed.reasoned d (hpairs ▸ hd)
      · simp only
        rw [hpairs]
        exact hsurveyed.complete
    cases result with
    | ok value => exact ⟨fun _ _ => hstage.1, hkept hstage.2⟩
    | error stop => exact ⟨nofun, hkept hstage.1⟩

theorem universeFor_surveys (component : DiscoveryComponent) {done : PairContext → Prop}
    {E : DerivationExit → Derivation → Prop} :
    Triple (fun s => budget.Calm s.work ∧ s.work.globalStop = none ∧ s.Surveyed done)
      (universeFor budget graph retained component)
      (fun result s => (∀ value, result = .ok value → budget.Calm s.work) ∧
        s.work.globalStop = none ∧ s.Surveyed done) E := by
  unfold universeFor
  refine Triple.bind (Q := fun _ s => budget.Calm s.work ∧ s.work.globalStop = none ∧
    s.Surveyed done) (Triple.get fun _ h => h) fun before => ?_
  split
  · exact Triple.pure fun _ h => ⟨fun _ _ => h.1, h.2⟩
  · refine Triple.bind (metered_surveys (buildUniverse_heeds budget _ _ _)) fun result => ?_
    cases result with
    | error stop => exact Triple.pure fun _ h => ⟨nofun, h.2⟩
    | ok cachedUniverse =>
      refine Triple.bind (Q := fun _ s => budget.Calm s.work ∧ s.work.globalStop = none ∧
        s.Surveyed done) (Triple.modify fun s h => ?_) fun _ => ?_
      · exact ⟨h.1 _ rfl, h.2.1, h.2.2.reasoned, h.2.2.complete⟩
      · exact Triple.pure fun _ h => ⟨fun _ _ => h.1, h.2⟩

theorem UniverseOf.unique {component : DiscoveryComponent} {built built' : Universe}
    (h : UniverseOf graph retained component built)
    (h' : UniverseOf graph retained component built') : built = built' := by
  obtain ⟨hoffers, houtputs⟩ := h
  obtain ⟨hoffers', houtputs'⟩ := h'
  rw [hoffers] at houtputs
  rw [hoffers'] at houtputs'
  cases built
  cases built'
  simp only at hoffers houtputs hoffers' houtputs'
  rw [hoffers, houtputs, hoffers', houtputs']

/-- The pairs the loop enumerates for the tokens of `wantedTokens`. -/
def DiscoveryContext.Enumerates (ctx : DiscoveryContext) (wantedTokens : List String)
    (other : PairContext) : Prop :=
  ∃ tokenIn ∈ wantedTokens, ∃ component cachedUniverse,
    ctx.graph.componentOf tokenIn = some component ∧
    UniverseOf ctx.graph ctx.retained component cachedUniverse ∧
    ∃ tokenOut ∈ cachedUniverse.outputs, tokenOut ≠ tokenIn ∧
      other = ctx.pairContext tokenIn component.root cachedUniverse tokenOut

/-- **The pair loop** surveys every pair it enumerates, or stops. -/
theorem pairDiscovery_surveys (hgraph : GraphSound retained graph)
    (hvalid : ∀ offer ∈ retained, offer.Valid)
    (hpos : 0 < budget.limits.maxMakersPerCombination)
    (hle : budget.limits.maxMakersPerCombination ≤ maxPhysicalMakersPerMerge)
    (hmost : budget.limits.maxWirePointsPerPair ≤ maxRungsPerPair) {wantedTokens : List String}
    (hnodup : wantedTokens.Nodup)
    (hwanted : ∀ tokenIn ∈ wantedTokens, tokenIn ∈ retained.map (·.tokenIn))
    {done : PairContext → Prop} :
    Triple (fun s => (budget.Calm s.work ∧ s.work.globalStop = none ∧ s.Surveyed done) ∧
        ShownHolds budget.limits policy graph retained (fun input _ => input ∈ wantedTokens)
          s.shown)
      (DiscoveryContext.pairDiscovery ⟨budget, comparisons, policy, graph, retained⟩ wantedTokens)
      (fun _ s => s.Reasoned ∧ (s.Stopped ∨ (s.work.globalStop = none ∧ s.Surveyed fun other =>
        done other ∨ DiscoveryContext.Enumerates ⟨budget, comparisons, policy, graph, retained⟩
          wantedTokens other))) SurveyThrows := by
  induction wantedTokens generalizing done with
  | nil =>
    refine Triple.pure fun s h => ⟨h.1.2.2.reasoned,
      Or.inr ⟨h.1.2.1, h.1.2.2.weaken fun other hother => ?_⟩⟩
    rcases hother with hold | ⟨_, hmem, -⟩
    · exact hold
    · exact absurd hmem List.not_mem_nil
  | cons tokenIn wantedTokens ih =>
    obtain ⟨hfresh, hrest⟩ := List.nodup_cons.mp hnodup
    unfold DiscoveryContext.pairDiscovery
    cases hcomponent : graph.componentOf tokenIn with
    | none => exact Triple.throw fun _ _ h => by cases h
    | some component =>
      refine Triple.bind (((universeFor_surveys (E := SurveyThrows) component).and
        (universeFor_leads hgraph (componentOf_mem hcomponent).1)).conseq (fun _ h => h)
          (fun _ _ h => h) fun _ _ h => h.1) fun result => ?_
      cases result with
      | error stop =>
        exact Triple.modify fun s h => ⟨h.1.2.2.reasoned, Or.inl (stopped_setStop _ s)⟩
      | ok cachedUniverse =>
        rintro s ⟨⟨hcalm, hrunning, hsurveyed⟩, hshown, hbuilt⟩
        have huniverse := hbuilt cachedUniverse rfl
        have hin := hwanted tokenIn List.mem_cons_self
        have hloop := (@examineOutputs_surveys budget retained (DiscoveryContext.pairContext
          ⟨budget, comparisons, policy, graph, retained⟩ tokenIn component.root cachedUniverse)
          cachedUniverse.outputs (fun _ => rfl) (fun _ hout => PairContext.Reached.sound
            ⟨rfl, rfl, rfl, hin, ⟨component, hcomponent, huniverse⟩, hout⟩ hgraph hvalid hpos hle)
          hmost done).and
          (@examineUniverse_leads budget comparisons policy graph retained hgraph hvalid hpos hle
            wantedTokens tokenIn hfresh hin component hcomponent cachedUniverse huniverse)
        refine (Triple.bind (hloop.conseq (fun _ h => h) (fun _ _ h => h) fun _ _ h => h.1)
          fun flow => ?_) s ⟨⟨hcalm _ rfl, hrunning, hsurveyed⟩, hshown⟩
        cases flow with
        | breakPairDiscovery =>
          exact Triple.pure fun _ h => ⟨(h.1.stop rfl).2, Or.inl (h.1.stop rfl).1⟩
        | next =>
          refine ((ih hrest fun token htoken => hwanted token (List.mem_cons_of_mem _ htoken)).pre
            fun s h => ⟨h.1.next rfl, h.2⟩).conseq (fun _ h => h) (fun _ s h => ⟨h.1,
              h.2.imp_right fun hend => ⟨hend.1, hend.2.weaken fun other hother => ?_⟩⟩)
              fun _ _ h => h
          rcases hother with hold | ⟨token, hmem, component', built, hcomponent', hbuilt', hout⟩
          · exact Or.inl (Or.inl hold)
          · rcases List.mem_cons.mp hmem with rfl | hmem
            · obtain rfl := Option.some.inj (hcomponent.symm.trans hcomponent')
              obtain rfl := huniverse.unique hbuilt'
              exact Or.inl (Or.inr hout)
            · exact Or.inr ⟨token, hmem, component', built, hcomponent', hbuilt', hout⟩

/-! ## The discovery -/

/-- Nothing has stopped the derivation, and no pair is examined yet. -/
structure Budget.Fresh (budget : Budget) (s : Derivation) : Prop where
  calm : budget.Calm s.work
  running : s.work.globalStop = none
  pairs : s.work.diagnostics.pairs = []

/-- A stage before the pair loop goes on, or stops the derivation. -/
theorem orReturn_fresh {α : Type} {stage : Budgeted α} (h : budget.Heeds stage) :
    Triple budget.Fresh (orReturn budget retained stage) (fun _ => budget.Fresh)
      (fun _ s => s.Stopped ∧ s.work.diagnostics.pairs = []) := by
  unfold orReturn
  refine Triple.bind (Q := fun result s => s.work.globalStop = none ∧
    s.work.diagnostics.pairs = [] ∧ ∀ value, result = .ok value → budget.Calm s.work)
    (fun s hs => ?_) fun result => ?_
  · have hstage := h s.work.frame s.work ⟨hs.calm, rfl⟩
    have hframe : ∀ work : Work, work.frame = s.work.frame →
        work.globalStop = none ∧ work.diagnostics.pairs = [] := fun work hwork =>
      ⟨(congrArg (·.globalStop) hwork).trans hs.running,
        (congrArg (·.pairs) hwork).trans hs.pairs⟩
    unfold Program.outcome Derive.metered
    cases hrun : stage.outcome s.work with
    | mk result work =>
      rw [hrun] at hstage
      cases result with
      | ok value => exact ⟨(hframe work hstage.2).1, (hframe work hstage.2).2, fun _ _ => hstage.1⟩
      | error stop => exact ⟨(hframe work hstage.1).1, (hframe work hstage.1).2, nofun⟩
  · cases result with
    | ok value => exact Triple.pure fun _ h => ⟨h.2.2 _ rfl, h.1, h.2.1⟩
    | error stop =>
      rintro s ⟨-, hpairs, -⟩
      let ledger : DerivationLedger :=
        ((some stop.global, some stop.global.stopReason, []), s.published)
      refine (Triple.bind (P := (· = s)) (Q := fun _ s' => s'.ledger = ledger)
        (Triple.modify fun _ hs => ?_) fun _ => ?_) s rfl
      · subst hs
        exact Prod.ext (Prod.ext rfl (Prod.ext rfl hpairs)) rfl
      · refine Triple.bind ((addPairExclusions_ledger _ _ _ _ (by intro _ h; cases h)).conseq
          (fun _ h => h) (fun _ _ h => h) fun _ s' h => ⟨h.stopped, h.pairs_eq⟩) fun _ => ?_
        refine Triple.throw fun s' h => ⟨⟨?_, ?_⟩, congrArg (·.1.2.2) h⟩
        · rw [show s'.work.globalStop = some stop.global from congrArg (·.1.1) h]
          exact nofun
        · rw [show s'.work.diagnostics.stopReason = some stop.global.stopReason from
            congrArg (·.1.2.1) h]
          exact nofun

/-- **The discovery** leaves every pair it examined with a reason; while nothing stops it, it
surveys every pair of the graph. -/
theorem discoverPairs_surveys (hvalid : ∀ offer ∈ retained, offer.Valid)
    (hpos : 0 < budget.limits.maxMakersPerCombination)
    (hle : budget.limits.maxMakersPerCombination ≤ maxPhysicalMakersPerMerge)
    (hmost : budget.limits.maxWirePointsPerPair ≤ maxRungsPerPair) :
    Triple (fun s => budget.Fresh s ∧ s.shown = ([], []))
      (discoverPairs budget comparisons policy retained)
      (fun _ s => s.Reasoned ∧ (s.Stopped ∨ (s.work.globalStop = none ∧ ∃ graph,
        GraphSound retained graph ∧ s.Surveyed (DiscoveryContext.Enumerates
          ⟨budget, comparisons, policy, graph, retained⟩
            (sortedSet (retained.map (·.tokenIn)))))))
      (fun exit s => (exit = .exclusionScanStop → s.Stopped ∧ s.Reasoned) ∧
        (exit = .returned → s.Stopped ∧ s.work.diagnostics.pairs = [])) := by
  let E : DerivationExit → Derivation → Prop := fun exit s =>
    (exit = .exclusionScanStop → s.Stopped ∧ s.Reasoned) ∧
      (exit = .returned → s.Stopped ∧ s.work.diagnostics.pairs = [])
  have hexit : ∀ exit (s : Derivation), s.Stopped ∧ s.work.diagnostics.pairs = [] → E exit s := by
    intro exit s h
    refine ⟨fun _ => ⟨h.1, fun d hd => ?_⟩, fun _ => h⟩
    rw [h.2] at hd
    exact absurd hd List.not_mem_nil
  have hstage : ∀ {α : Type} {stage : Budgeted α} {R : α → Prop}, budget.Heeds stage →
      Returns stage R → Triple (fun s => budget.Fresh s ∧ s.shown = ([], []))
        (orReturn budget retained stage) (fun a s => (budget.Fresh s ∧ s.shown = ([], [])) ∧ R a)
        E := fun hheeds hreturns =>
    ((orReturn_fresh hheeds).and (orReturn_leaves hreturns (P := (· = ([], []))))).conseq
      (fun _ h => h) (fun _ _ h => ⟨⟨h.1, h.2.1⟩, h.2.2⟩) fun exit s h => hexit exit s h.1
  unfold discoverPairs
  refine Triple.bind (hstage (buildDiscoveryGraph_heeds budget _)
    (buildDiscoveryGraph_returns budget retained)) fun graph => ?_
  rintro s ⟨hs, hgraph⟩
  refine (?_ : Triple (fun s => budget.Fresh s ∧ s.shown = ([], [])) _ _ E) s hs
  refine Triple.bind ((hstage (budget.charge_heeds _) (Returns.trivial _)).conseq (fun _ h => h)
    (fun _ _ h => h.1) fun _ _ h => h) fun _ => ?_
  refine Triple.bind ((hstage (budget.charge_heeds _) (Returns.trivial _)).conseq (fun _ h => h)
    (fun _ _ h => h.1) fun _ _ h => h) fun _ => ?_
  refine Triple.bind ((hstage (budget.chargeSort_heeds _) (Returns.trivial _)).conseq
    (fun _ h => h) (fun _ _ h => h.1) fun _ _ h => h) fun _ => ?_
  have hloop := @pairDiscovery_surveys budget comparisons policy graph retained hgraph hvalid hpos
    hle hmost (sortedSet (retained.map (·.tokenIn))) (nodup_sortedSet _)
    (fun tokenIn htoken => mem_sortedSet.mp htoken) fun _ => False
  refine (((DiscoveryContext.pairDiscovery_heeds
    ⟨budget, comparisons, policy, graph, retained⟩ _).and hloop).conseq (fun s h => ?_)
    (fun _ s h => ⟨h.2.1, h.2.2.imp_right fun hend => ⟨hend.1, graph, hgraph, hend.2.weaken
      fun _ hother => Or.inr hother⟩⟩) fun exit s h => ⟨h.2, fun heq => absurd heq h.1.1⟩)
  obtain ⟨⟨hcalm, hrunning, hpairs⟩, hshown⟩ := h
  refine ⟨hcalm, ⟨hcalm, hrunning, fun d hd => ?_, Or.inr fun _ => False.elim⟩, ?_⟩
  · rw [hpairs] at hd
    exact absurd hd List.not_mem_nil
  · rw [hshown]
    exact ⟨fun _ h => absurd h List.not_mem_nil, fun _ h => absurd h List.not_mem_nil,
      List.Pairwise.nil, fun _ h => absurd h List.not_mem_nil,
      fun _ h => absurd h List.not_mem_nil⟩

end Loop

/-! ## The derivation -/

/-- The publications of a result, each level with its provenance. -/
def DerivedLadder.publications (derived : DerivedLadder) : List Publication :=
  (derived.levels.zip derived.provenance).map fun entry => ⟨entry.1, entry.2⟩

theorem publications_assemble (limits : LadderResourceLimits) (s : Derivation) :
    (assemble limits s).publications = s.published := by
  unfold DerivedLadder.publications assemble
  simp only
  rw [List.zip_map', List.map_map]
  exact List.map_id s.published

theorem DerivedFrom.publications_eq {limits : LadderResourceLimits} {policy : JobAdmissionPolicy}
    {retained : List Crossable} {derived : DerivedLadder} {published : List Publication}
    (h : DerivedFrom limits policy retained derived published) :
    derived.publications = published := by
  unfold DerivedLadder.publications
  rw [h.levels, h.provenance, List.zip_map', List.map_map]
  exact List.map_id published

/-- What a whole derivation says of its pairs. -/
structure DerivedLadder.Surveyed (derived : DerivedLadder) (policy : JobAdmissionPolicy)
    (retained : List Crossable) : Prop where
  reasoned : ∀ diagnostic ∈ derived.diagnostics.pairs, diagnostic.Reasoned
  complete : derived.diagnostics.stopReason ≠ none ∨
    (∃ diagnostic ∈ derived.diagnostics.pairs, diagnostic.Capped) ∨
    ∃ ctx : DiscoveryContext, ctx.budget.limits = derived.limits ∧ ctx.policy = policy ∧
      ctx.retained = retained ∧ GraphSound retained ctx.graph ∧
      ∀ other, ctx.Enumerates (sortedSet (retained.map (·.tokenIn))) other →
        other.Complete derived.publications

theorem exclusion_stop_ne (stop : GlobalStop) : stop.exclusion ≠ .invalidPair := by
  cases stop with
  | abort reason => cases reason <;> exact nofun
  | globalSearchCap => exact nofun
  | candidatePairCap => exact nofun
  | discoveryWorkCap => exact nofun

theorem mem_updateLast {f : LadderPairDiagnostic → LadderPairDiagnostic}
    {pairs : List LadderPairDiagnostic} {diagnostic : LadderPairDiagnostic}
    (h : diagnostic ∈ updateLast f pairs) : diagnostic ∈ pairs ∨ ∃ last ∈ pairs,
      diagnostic = f last := by
  induction pairs with
  | nil => exact absurd h List.not_mem_nil
  | cons pair pairs ih =>
    cases pairs with
    | nil => exact Or.inr ⟨pair, List.mem_cons_self, List.mem_singleton.mp h⟩
    | cons next pairs =>
      rcases List.mem_cons.mp h with rfl | hmem
      · exact Or.inl List.mem_cons_self
      · rcases ih hmem with hold | ⟨last, hlast, heq⟩
        · exact Or.inl (List.mem_cons_of_mem _ hold)
        · exact Or.inr ⟨last, List.mem_cons_of_mem _ hlast, heq⟩

/-- The pair a scan stop found open takes the global stop as its reason. -/
theorem reasoned_noteScanStop {s : Derivation} (hstopped : s.Stopped) (h : s.Reasoned) :
    Derivation.Reasoned { s with work := s.work.noteScanStop } := by
  obtain ⟨stop, hstop⟩ := Option.ne_none_iff_exists'.mp hstopped.1
  intro diagnostic hmem
  rcases mem_updateLast hmem with hold | ⟨last, hlast, rfl⟩
  · exact h diagnostic hold
  · split
    · exact h last hlast
    · rw [hstop]
      exact ⟨fun heq => exclusion_stop_ne stop (Option.some.inj heq), fun _ => nofun⟩

/-- Cancellation leaves every pair with a reason, and the stop reason there. -/
theorem cancel_reasoned {budget : Budget} {retained : List Crossable} {s : Derivation}
    (hstopped : isAbort s.work.globalStop = true → s.Stopped) (h : s.Reasoned) :
    (cancel budget retained s).Reasoned ∧
      (s.work.diagnostics.stopReason ≠ none →
        (cancel budget retained s).work.diagnostics.stopReason ≠ none) ∧
      (isAbort s.work.globalStop = false → cancel budget retained s = s) := by
  unfold cancel
  split
  · rename_i reason habort
    obtain ⟨-, hreason⟩ := hstopped (by rw [habort]; rfl)
    have hwithdrawn : ∀ diagnostic ∈
        s.work.diagnostics.pairs.map (·.withdraw reason.exclusion), diagnostic.Reasoned := by
      intro diagnostic hmem
      obtain ⟨pair, hpair, rfl⟩ := List.mem_map.mp hmem
      unfold LadderPairDiagnostic.withdraw
      split
      · refine ⟨fun heq => ?_, fun _ => nofun⟩
        cases reason <;> cases heq
      · exact h pair hpair
    let withdrawn : Derivation := { s with work := { s.work with diagnostics := {
      s.work.diagnostics with
      pairs := s.work.diagnostics.pairs.map (·.withdraw reason.exclusion) } } }
    have hscan := @addPairExclusions_ledger budget .retained retained reason.exclusion none
      withdrawn.ledger (fun _ => hreason) withdrawn rfl
    refine ⟨?_, fun _ => ?_, fun hnot => by rw [habort] at hnot; cases hnot⟩
    · intro diagnostic hmem
      refine hwithdrawn diagnostic ?_
      dsimp only at hmem
      cases hrun : (addPairExclusions budget .retained retained reason.exclusion none).outcome
          withdrawn with
      | mk result s' =>
        rw [hrun] at hscan hmem
        have hpairs : s'.work.diagnostics.pairs = withdrawn.work.diagnostics.pairs := by
          cases result with
          | ok _ => exact congrArg (·.1.2.2) hscan
          | error exit => exact hscan.pairs_eq
        simp only at hmem
        rw [hpairs] at hmem
        exact hmem
    · dsimp only
      cases hrun : (addPairExclusions budget .retained retained reason.exclusion none).outcome
          withdrawn with
      | mk result s' =>
        rw [hrun] at hscan
        cases result with
        | ok _ =>
          have hkept : s'.work.diagnostics.stopReason = s.work.diagnostics.stopReason :=
            congrArg (·.1.2.1) hscan
          simp only
          rw [hkept]
          exact hreason
        | error exit => exact hscan.stopped.2
  · rename_i hnot
    exact ⟨h, fun h => h, fun _ => rfl⟩

theorem deriveFrom_surveyed {budget : Budget} {comparisons : List CombinationState → Nat}
    {policy : JobAdmissionPolicy} {crossable : List Crossable} {work : Work}
    {derived : DerivedLadder}
    (hvalid : ∀ offer ∈ (claimCoins [] (uniqueOffers crossable)).1, offer.Valid)
    (hpos : 1 ≤ budget.limits.maxMakersPerCombination)
    (hle : budget.limits.maxMakersPerCombination ≤ maxPhysicalMakersPerMerge)
    (hmost : budget.limits.maxWirePointsPerPair ≤ maxRungsPerPair) (hcalm : budget.Calm work)
    (hrunning : work.globalStop = none) (hpairs : work.diagnostics.pairs = [])
    (h : deriveFrom budget comparisons policy crossable work = .ok derived) :
    derived.Surveyed policy (claimCoins [] (uniqueOffers crossable)).1 := by
  unfold deriveFrom at h
  simp only at h
  generalize work.excluded ++ duplicateExclusions crossable ++
    (claimCoins [] (uniqueOffers crossable)).2 = excluded at h
  generalize (claimCoins [] (uniqueOffers crossable)).1 = retained at hvalid h
  have hdiscover := @discoverPairs_surveys budget comparisons policy retained hvalid hpos hle hmost
    { work := { work with excluded } } ⟨⟨hcalm, hrunning, hpairs⟩, rfl⟩
  split at h
  · rename_i s hrun
    rw [hrun] at hdiscover
    obtain ⟨hreasoned, hcomplete⟩ := hdiscover
    obtain rfl := Except.ok.inj h
    have habort : isAbort s.work.globalStop = true → s.Stopped := by
      intro habort
      rcases hcomplete with hstopped | ⟨hnone, -⟩
      · exact hstopped
      · rw [hnone] at habort
        cases habort
    obtain ⟨hkept, hstop, hsame⟩ := @cancel_reasoned budget retained s habort hreasoned
    refine ⟨hkept, ?_⟩
    rcases hcomplete with hstopped | ⟨hnone, graph, hgraph, hsurveyed⟩
    · exact Or.inl (hstop hstopped.2)
    · rw [hsame (by rw [hnone]; rfl)]
      refine Or.inr (hsurveyed.complete.imp_right fun hdone => ?_)
      refine ⟨⟨budget, comparisons, policy, graph, retained⟩, rfl, rfl, rfl, hgraph, ?_⟩
      intro other hother
      rw [publications_assemble]
      exact hdone other hother
  · rename_i s hrun
    rw [hrun] at hdiscover
    obtain rfl := Except.ok.inj h
    obtain ⟨hstopped, hreasoned⟩ := hdiscover.1 rfl
    obtain ⟨hkept, hstop, -⟩ := @cancel_reasoned budget retained
      { s with work := s.work.noteScanStop } (fun _ => hstopped)
      (reasoned_noteScanStop hstopped hreasoned)
    exact ⟨hkept, Or.inl (hstop hstopped.2)⟩
  · rename_i s hrun
    rw [hrun] at hdiscover
    obtain rfl := Except.ok.inj h
    obtain ⟨hstopped, hnone⟩ := hdiscover.2 rfl
    refine ⟨fun d hd => ?_, Or.inl hstopped.2⟩
    have hnil : (emptyDerived budget.limits s.work.diagnostics
      s.work.excluded).diagnostics.pairs = [] := hnone
    rw [hnil] at hd
    exact absurd hd List.not_mem_nil
  · cases h

theorem surveyed_empty {limits : LadderResourceLimits} (policy : JobAdmissionPolicy)
    (retained : List Crossable) {derived : DerivedLadder}
    {diagnostics : LadderDerivationDiagnostics} {excluded : List LadderExclusion}
    (h : derived = emptyDerived limits diagnostics excluded) (hpairs : diagnostics.pairs = [])
    (hstop : diagnostics.stopReason ≠ none) : derived.Surveyed policy retained := by
  rw [h]
  refine ⟨fun d hd => ?_, Or.inl hstop⟩
  have hnil : (emptyDerived limits diagnostics excluded).diagnostics.pairs = [] := hpairs
  rw [hnil] at hd
  exact absurd hd List.not_mem_nil

theorem deriveWithin_surveyed {limits : LadderResourceLimits}
    {comparisons : List CombinationState → Nat} {offers : List LadderSourceOffer}
    {options : DeriveLadderOptions} {derived : DerivedLadder}
    (hpos : 1 ≤ limits.maxMakersPerCombination)
    (hle : limits.maxMakersPerCombination ≤ maxPhysicalMakersPerMerge)
    (hmost : limits.maxWirePointsPerPair ≤ maxRungsPerPair)
    (h : deriveWithin limits comparisons offers options = .ok derived) :
    derived.Surveyed options.toJobAdmissionPolicy (retainedOffers offers options) := by
  unfold deriveWithin at h
  simp only at h
  split at h
  · exact surveyed_empty _ _ (Except.ok.inj h).symm rfl nofun
  · rename_i work hpoll
    obtain ⟨hframe, -, hcalm⟩ := Budget.poll_heeds ⟨limits, options.shouldAbort⟩ hpoll
    have hscanned := scanOffers_heeds ⟨limits, options.shouldAbort⟩ options
      (options.unavailableOfferHashes.map toLowerCase) offers work.frame work
      ⟨hcalm rfl (calm_zero _), rfl⟩
    split at h
    · rename_i stopped hscan
      rw [hscan] at hscanned
      refine surveyed_empty _ _ (Except.ok.inj h).symm
        (hscanned.1.trans (congrArg (·.pairs) hframe)) ?_
      rcases hscanned.2 with hcap | ⟨reason, hreason⟩
      · rw [hcap]
        exact nofun
      · rw [hreason]
        exact nofun
    · rename_i crossable scanned hscan
      rw [hscan] at hscanned
      have hcrossable := scanOffers_returns _ _ _ _ _ _ _ hscan
      have hkept := hscanned.2.trans hframe
      have hsurveyed := deriveFrom_surveyed
        (fun offer hoffer => retainedOffers_valid (by rwa [hcrossable] at hoffer)) hpos hle hmost
        hscanned.1 (congrArg (·.globalStop) hkept) (congrArg (·.pairs) hkept) h
      rw [hcrossable] at hsurveyed
      exact hsurveyed

/-- **Every derivation** says of each pair it examined why it is not published; one that nothing
stopped and no cap cut has surveyed every pair. -/
theorem deriveLadder_surveyed {comparisons : List CombinationState → Nat}
    {offers : List LadderSourceOffer} {options : DeriveLadderOptions} {derived : DerivedLadder}
    (h : deriveLadder comparisons offers options = .ok derived) :
    derived.Surveyed options.toJobAdmissionPolicy (retainedOffers offers options) := by
  rcases deriveLadder_cases h with ⟨invalid, hempty⟩ | ⟨limits, hlimits, hwithin⟩
  · exact surveyed_empty _ _ hempty rfl nofun
  · obtain ⟨hpos, hle⟩ := resolveLadderResourceLimits_ok hlimits
    exact deriveWithin_surveyed hpos hle (resolveLadderResourceLimits_wire hlimits) hwithin

end ZswapKernel
