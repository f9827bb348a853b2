import ZswapKernel.SolverCore.LadderRerun

/-!
# The derivation does not read the order of the book

The book lists its offers in insertion order, and a derivation only copies that order to its
exclusions. So two books with the same offers derive the same ladder, at any two times between which
no offer enters the expiry margin.

* `Work.Same` — meters and diagnostics that differ in their exclusions only.
* `discoverPairs_respects` — the pair discovery does not read the exclusions.
* `deriveLadder_sameBook` — the same levels from the same offers.
-/

namespace ZswapKernel

open Program

/-- The meters without the exclusions. -/
def Work.bare (work : Work) : Work := { work with excluded := [] }

/-- The meters with other exclusions. -/
def Work.excluding (work : Work) (excluded : List LadderExclusion) : Work :=
  { work with excluded }

/-- Meters that differ in their exclusions only, and there by `X`. -/
structure Work.Same (X : List LadderExclusion → List LadderExclusion → Prop)
    (work work' : Work) : Prop where
  bare : work.bare = work'.bare
  excluded : X work.excluded work'.excluded

/-- Nothing is said of the exclusions. -/
abbrev Unrelated : List LadderExclusion → List LadderExclusion → Prop := fun _ _ => True

/-- A relation that adding an exclusion on both sides keeps. -/
def AddsAlike (X : List LadderExclusion → List LadderExclusion → Prop) : Prop :=
  ∀ (work work' : Work) (entry : LadderExclusion), X work.excluded work'.excluded →
    X (work.addExclusion entry).excluded (work'.addExclusion entry).excluded

/-! ## The stages -/

section Stages

variable {X : List LadderExclusion → List LadderExclusion → Prop}

theorem Work.Same.eq_excluding {work work' : Work} (h : work.Same X work') :
    work' = work.excluding work'.excluded := by
  have hbare : work.bare.excluding work'.excluded = work'.bare.excluding work'.excluded := by
    rw [h.bare]
  exact hbare.symm

theorem Budget.chargeUnit_excluding (budget : Budget) (kind : WorkKind) (work : Work)
    (excluded : List LadderExclusion) : budget.chargeUnit kind (work.excluding excluded) =
      ((budget.chargeUnit kind work).1, (budget.chargeUnit kind work).2.excluding excluded) := by
  unfold Budget.chargeUnit Work.excluding
  by_cases hcap : budget.limits.maxDiscoveryWork ≤ work.diagnostics.discoveryWork
  · simp only [if_pos hcap]
  simp only [if_neg hcap]
  by_cases hpoll : (work.diagnostics.discoveryWork + 1) % 256 = 0 ∧ ¬ isAbort work.globalStop = true
  · simp only [if_pos hpoll]
    cases hreason : abortReason budget.shouldAbort work.abortCalls with
    | mk reason calls => cases reason <;> simp only [Budget.poll, hreason]
  · simp only [if_neg hpoll]

theorem Budget.chargeUnits_excluding (budget : Budget) (kind : WorkKind) (units : Nat)
    (work : Work) (excluded : List LadderExclusion) :
    budget.chargeUnits kind units (work.excluding excluded) =
      ((budget.chargeUnits kind units work).1,
        (budget.chargeUnits kind units work).2.excluding excluded) := by
  induction units generalizing work with
  | zero => rfl
  | succ units ih =>
    unfold Budget.chargeUnits
    rw [Budget.chargeUnit_excluding]
    cases budget.chargeUnit kind work with
    | mk stop work =>
      cases stop with
      | some stop => rfl
      | none => exact ih work

/-- A stage that commutes with replacing the exclusions neither reads nor changes them. -/
theorem respects_of_excluding {ε α : Type} {m : Program Work ε α}
    (h : ∀ work excluded, m.outcome (work.excluding excluded) =
      ((m.outcome work).1, (m.outcome work).2.excluding excluded)) :
    Respects (Work.Same X) m := by
  intro work work' hsame
  have hkept : (m.outcome work).2.excluded = work.excluded :=
    congrArg (·.2.excluded) (h work work.excluded)
  have hright : m.outcome work' =
      ((m.outcome work).1, (m.outcome work).2.excluding work'.excluded) := by
    rw [hsame.eq_excluding]
    exact h work work'.excluded
  rw [hright]
  refine ⟨rfl, rfl, ?_⟩
  rw [hkept]
  exact hsame.excluded

theorem Budget.charge_respects (budget : Budget) (units : Nat) :
    Respects (Work.Same X) (budget.charge units) := by
  refine respects_of_excluding fun work excluded => ?_
  have hunits := budget.chargeUnits_excluding .discovery units work excluded
  unfold Program.outcome Budget.charge
  rw [hunits]
  cases budget.chargeUnits .discovery units work with
  | mk stop work => cases stop <;> rfl

theorem Budget.chargeSort_respects (budget : Budget) (length : Nat) :
    Respects (Work.Same X) (budget.chargeSort length) := by
  unfold Budget.chargeSort
  exact Respects.ite Respects.pure (budget.charge_respects _)

theorem indexOffer_respects (budget : Budget) (index : TokenIndex) (offer : Crossable) :
    Respects (Work.Same X) (indexOffer budget index offer) := by
  have hindexFor : ∀ index token, Respects (Work.Same X) (indexFor budget index token) := by
    intro index token
    unfold indexFor
    exact Respects.ite Respects.pure ((budget.charge_respects 1).bind fun _ => Respects.pure)
  unfold indexOffer
  refine (hindexFor index offer.tokenIn).bind fun _ => (hindexFor _ offer.tokenOut).bind fun _ => ?_
  exact (budget.charge_respects 1).bind fun _ => Respects.pure

theorem drainQueue_respects (budget : Budget) (outgoing : Nat → List Nat) (fuel : Nat)
    (state : KahnState) : Respects (Work.Same X) (drainQueue budget outgoing fuel state) := by
  induction fuel generalizing state with
  | zero => exact Respects.pure
  | succ fuel ih =>
    unfold drainQueue
    split
    · exact Respects.pure
    · refine (budget.charge_respects 1).bind fun _ => Respects.bind (Respects.foldlM ?_ _) ih
      exact fun _ _ => (budget.charge_respects 1).bind fun _ => Respects.pure

theorem buildDiscoveryGraph_respects (budget : Budget) (offers : List Crossable) :
    Respects (Work.Same X) (buildDiscoveryGraph budget offers) := by
  have hcharge : Respects (Work.Same X) (budget.charge 1) := budget.charge_respects 1
  unfold buildDiscoveryGraph
  refine Respects.bind (Respects.foldlM (indexOffer_respects budget) _) fun index => ?_
  refine Respects.bind (Respects.foldlM (fun _ _ => hcharge.bind fun _ => Respects.pure) _)
    fun scan => ?_
  refine Respects.bind (Respects.foldlM (fun _ _ => hcharge.bind fun _ => Respects.pure) _)
    fun degrees => ?_
  refine Respects.bind (Respects.foldlM (fun _ _ => hcharge.bind fun _ => Respects.pure) _)
    fun seeded => ?_
  refine (drainQueue_respects budget _ _ _).bind fun drained => ?_
  refine Respects.bind (Respects.foldlM
    (fun _ _ => hcharge.bind fun _ => Respects.ite Respects.pure Respects.pure) _) fun marked => ?_
  refine (budget.chargeSort_respects _).bind fun _ => Respects.bind (Respects.mapM ?_)
    fun _ => Respects.pure
  exact fun _ => (budget.chargeSort_respects _).bind fun _ => Respects.pure

theorem buildUniverse_respects (budget : Budget) (graph : DiscoveryGraph)
    (retained : List Crossable) (component : DiscoveryComponent) :
    Respects (Work.Same X) (buildUniverse budget graph retained component) := by
  unfold buildUniverse
  refine (budget.charge_respects _).bind fun _ => (budget.charge_respects _).bind fun _ => ?_
  exact (budget.chargeSort_respects _).bind fun _ => Respects.pure

theorem Budget.pollTimes_respects (budget : Budget) (times : Nat) :
    Respects (Work.Same X) (budget.pollTimes times) := by
  induction times with
  | zero => exact Respects.pure
  | succ times ih =>
    intro work work' hsame
    have hcalls : work.bare.abortCalls = work'.bare.abortCalls := by rw [hsame.bare]
    change work.abortCalls = work'.abortCalls at hcalls
    unfold Budget.pollTimes
    rw [outcome_bind, outcome_bind, outcome_get, outcome_get]
    simp only [Budget.poll, hcalls]
    cases abortReason budget.shouldAbort work'.abortCalls with
    | mk reason calls =>
      have hpolled : Work.Same X { work with abortCalls := calls }
          { work' with abortCalls := calls } := by
        refine ⟨?_, hsame.excluded⟩
        change { work.bare with abortCalls := calls } = { work'.bare with abortCalls := calls }
        rw [hsame.bare]
      rw [outcome_bind, outcome_bind, outcome_set, outcome_set]
      cases reason with
      | some reason => exact ⟨rfl, hpolled⟩
      | none => exact ih _ _ hpolled

theorem bestOutputFrontier_respects (budget : Budget) (comparisons : List CombinationState → Nat)
    (exact : List CombinationState) :
    Respects (Work.Same X) (bestOutputFrontier budget comparisons exact) := by
  have himproving : ∀ (ordered : List CombinationState) index bestOutput,
      Respects (Work.Same X) (improvingStates budget index bestOutput ordered) := by
    intro ordered
    induction ordered with
    | nil => exact fun _ _ => Respects.pure
    | cons candidate ordered ih =>
      intro index bestOutput
      unfold improvingStates
      refine Respects.bind (Respects.ite (budget.pollTimes_respects 1) Respects.pure) fun _ => ?_
      exact Respects.ite (ih _ _) ((ih _ _).bind fun _ => Respects.pure)
  unfold bestOutputFrontier
  exact (budget.pollTimes_respects _).bind fun _ => himproving _ _ _

end Stages

/-! ## The search -/

section Search

/-- A search with other exclusions in its meters. -/
def PairSearch.excluding (search : PairSearch) (excluded : List LadderExclusion) : PairSearch :=
  { search with work := search.work.excluding excluded }

variable (excluded : List LadderExclusion)

theorem enterSubset_excluding (budget : Budget) (search : PairSearch) :
    enterSubset budget (search.excluding excluded) =
      (enterSubset budget search).excluding excluded := by
  unfold enterSubset PairSearch.excluding Work.excluding
  by_cases hpair : budget.limits.maxVisitedSubsetsPerPair ≤ search.visitedSubsets
  · simp only [if_pos hpair, PairSearch.halt]
  by_cases htotal : budget.limits.maxVisitedSubsetsTotal ≤ search.work.diagnostics.visitedSubsets
  · simp only [if_neg hpair, if_pos htotal, PairSearch.halt]
  simp only [if_neg hpair, if_neg htotal]
  by_cases hpoll : (search.work.diagnostics.visitedSubsets + 1) % 256 = 0
  · simp only [if_pos hpoll]
    cases hreason : abortReason budget.shouldAbort search.work.abortCalls with
    | mk reason calls => cases reason <;> simp only [Budget.poll, hreason, PairSearch.halt]
  · simp only [if_neg hpoll]

theorem considerDirect_excluding (candidate : Crossable) (branch : Branch) (search : PairSearch) :
    considerDirect candidate branch (search.excluding excluded) =
      ((considerDirect candidate branch search).1,
        (considerDirect candidate branch search).2.excluding excluded) := by
  unfold considerDirect PairSearch.excluding
  simp only
  split <;> rfl

theorem chargeMergeOrder_excluding (budget : Budget) (units : Nat) (search : PairSearch) :
    chargeMergeOrder budget units (search.excluding excluded) =
      (chargeMergeOrder budget units search).excluding excluded := by
  unfold chargeMergeOrder PairSearch.excluding
  by_cases hzero : units = 0
  · simp only [if_pos hzero]
  simp only [if_neg hzero, Budget.chargeUnits_excluding]
  cases budget.chargeUnits .safeMergeOrder units search.work with
  | mk stop work => cases stop <;> rfl

theorem considerEconomic_excluding (env : PairEnv) (branch : Branch) (input output : Int)
    (search : PairSearch) : considerEconomic env branch input output (search.excluding excluded) =
      (considerEconomic env branch input output search).excluding excluded := by
  have hcharge : ∀ (calls units : Nat), chargeMergeOrder env.budget units
      { search.excluding excluded with
        work := { (search.excluding excluded).work with abortCalls := calls } } =
        (chargeMergeOrder env.budget units
          { search with work := { search.work with abortCalls := calls } }).excluding excluded :=
    fun calls units => chargeMergeOrder_excluding excluded env.budget units
      { search with work := { search.work with abortCalls := calls } }
  unfold considerEconomic
  simp only [hcharge,
    show (search.excluding excluded).work.abortCalls = search.work.abortCalls from rfl,
    show env.budget.remaining (search.excluding excluded).work =
      env.budget.remaining search.work from rfl]
  generalize (if branch.sortedPrefixSafe then
      .ok (.found [] false 0, search.work.abortCalls)
    else findSafeWholeOfferMergeOrder (branch.selected.map (·.mergeSource))
      { maxWork := some ((min maxSafeMergeOrderWork (env.budget.remaining search.work) : Nat) : Int)
        shouldAbort := env.budget.shouldAbort } search.work.abortCalls :
      Except String (WholeOfferMergeOrderResult × Nat)) = planned
  cases planned with
  | error message => rfl
  | ok planned =>
    obtain ⟨mergeOrder, calls⟩ := planned
    cases mergeOrder with
    | found order fallback units =>
      simp only
      cases hstop : (chargeMergeOrder env.budget units
        { search with work := { search.work with abortCalls := calls } }).stop <;>
        simp [PairSearch.excluding, hstop]
    | failed reason units =>
      simp only
      cases hstop : (chargeMergeOrder env.budget units
        { search with work := { search.work with abortCalls := calls } }).stop with
      | some stop => simp [PairSearch.excluding, hstop]
      | none => cases reason <;> simp [PairSearch.excluding, hstop, PairSearch.halt]

theorem considerComposed_excluding (env : PairEnv) (candidate : Crossable) (branch : Branch)
    (search : PairSearch) : considerComposed env candidate branch (search.excluding excluded) =
      ((considerComposed env candidate branch search).1,
        (considerComposed env candidate branch search).2.excluding excluded) := by
  unfold considerComposed
  simp only [considerEconomic_excluding]
  split
  · split <;> rfl
  · rfl

/-- The descendants of a candidate that was taken. -/
def visitTaken (env : PairEnv) (bucket : List Crossable) (next : Option Branch)
    (search : PairSearch) : PairSearch :=
  match next with
  | none => search
  | some next =>
    if search.stop.isNone ∧
        next.selected.length < env.budget.limits.maxMakersPerCombination then
      visit env bucket next search
    else search

/-- Induction on the bucket: every step of the walk commutes with replacing the exclusions. -/
theorem visit_excluding (env : PairEnv) (bucket : List Crossable) (branch : Branch)
    (search : PairSearch) :
    visit env bucket branch (search.excluding excluded) =
      (visit env bucket branch search).excluding excluded := by
  induction bucket generalizing branch search with
  | nil => rfl
  | cons candidate bucket ih =>
    unfold visit
    simp only [show (search.excluding excluded).stop = search.stop from rfl]
    by_cases hstop : search.stop.isSome = true
    · simp only [if_pos hstop]
    simp only [if_neg hstop, enterSubset_excluding,
      show ((enterSubset env.budget search).excluding excluded).stop =
        (enterSubset env.budget search).stop from rfl]
    by_cases hentered : (enterSubset env.budget search).stop.isSome = true
    · simp only [if_pos hentered]
    simp only [if_neg hentered, considerDirect_excluding, considerComposed_excluding]
    have hrest : ∀ considered : Option Branch × PairSearch,
        visit env bucket branch
            (visitTaken env bucket considered.1 (considered.2.excluding excluded)) =
          (visit env bucket branch (visitTaken env bucket considered.1 considered.2)).excluding
            excluded := by
      rintro ⟨next, considered⟩
      cases next with
      | none => exact ih branch considered
      | some next =>
        unfold visitTaken
        simp only [show (considered.excluding excluded).stop = considered.stop from rfl]
        split
        · rw [ih next considered]
          exact ih branch _
        · exact ih branch considered
    cases env.direct with
    | true => exact hrest (considerDirect candidate branch (enterSubset env.budget search))
    | false => exact hrest (considerComposed env candidate branch (enterSubset env.budget search))

theorem enumeratePair_excluding (budget : Budget) (bucket : List Crossable)
    (tokenIn tokenOut : String) (tokenAt : List String) (work : Work) :
    enumeratePair budget bucket tokenIn tokenOut tokenAt (work.excluding excluded) =
      (enumeratePair budget bucket tokenIn tokenOut tokenAt work).excluding excluded :=
  visit_excluding excluded _ bucket _ ⟨[], 0, 0, 0, 0, none, work⟩

end Search

/-! ## The pair discovery -/

/-- Derivations that differ in their exclusions only, and there by `X`. -/
structure Derivation.Same (X : List LadderExclusion → List LadderExclusion → Prop)
    (s s' : Derivation) : Prop where
  work : s.work.Same X s'.work
  published : s.published = s'.published
  universes : s.universes = s'.universes

section Discovery

variable {X : List LadderExclusion → List LadderExclusion → Prop}

/-- A change of the meters that neither reads nor changes the exclusions. -/
theorem Work.Same.of_excluding (f : Work → Work)
    (hf : ∀ work excluded, f (work.excluding excluded) = (f work).excluding excluded)
    {work work' : Work} (h : work.Same X work') : (f work).Same X (f work') := by
  have hkept : ∀ work, (f work).excluded = work.excluded :=
    fun work => congrArg (·.excluded) (hf work work.excluded)
  refine ⟨?_, ?_⟩
  · rw [h.eq_excluding, hf]
    rfl
  · rw [hkept, hkept]
    exact h.excluded

theorem Work.Same.globalStop {work work' : Work} (h : work.Same X work') :
    work.globalStop = work'.globalStop := by
  have : work.bare.globalStop = work'.bare.globalStop := by rw [h.bare]
  exact this

theorem Work.Same.excludedUniverses {work work' : Work} (h : work.Same X work') :
    work.excludedUniverses = work'.excludedUniverses := by
  have : work.bare.excludedUniverses = work'.bare.excludedUniverses := by rw [h.bare]
  exact this

theorem Work.Same.diagnostics {work work' : Work} (h : work.Same X work') :
    work.diagnostics = work'.diagnostics := by
  have : work.bare.diagnostics = work'.bare.diagnostics := by rw [h.bare]
  exact this

theorem Work.addExclusion_bare (work : Work) (entry : LadderExclusion) :
    (work.addExclusion entry).bare = work.bare := by
  unfold Work.addExclusion
  split <;> rfl

theorem metered_respects {α : Type} {stage : Budgeted α} (h : Respects (Work.Same X) stage) :
    Respects (Derivation.Same X) (Derive.metered stage) := by
  intro s s' hsame
  obtain ⟨hresult, hwork⟩ := h s.work s'.work hsame.work
  exact ⟨congrArg Except.ok hresult, hwork, hsame.published, hsame.universes⟩

theorem poll_respects (budget : Budget) : Respects (Derivation.Same X) (Derive.poll budget) := by
  intro s s' hsame
  have hpoll : (budget.poll s.work).1 = (budget.poll s'.work).1 := by
    rw [hsame.work.eq_excluding]
    rfl
  exact ⟨congrArg Except.ok hpoll, hsame.work.of_excluding (fun work => (budget.poll work).2)
    fun _ _ => rfl, hsame.published, hsame.universes⟩

theorem modifyWork_respects (f : Work → Work)
    (hf : ∀ work work' : Work, work.Same X work' → (f work).Same X (f work')) :
    Respects (Derivation.Same X) (modify fun s : Derivation => { s with work := f s.work } :
      Derive Unit) :=
  Respects.modify fun _ _ hsame => ⟨hf _ _ hsame.work, hsame.published, hsame.universes⟩

theorem setStop_respects (stop : GlobalStop) :
    Respects (Derivation.Same X) (Derive.setStop stop) :=
  modifyWork_respects (·.stopped stop) fun _ _ =>
    Work.Same.of_excluding (·.stopped stop) fun _ _ => rfl

theorem updatePair_respects (f : LadderPairDiagnostic → LadderPairDiagnostic) :
    Respects (Derivation.Same X) (Derive.updatePair f) :=
  modifyWork_respects (·.updatePair f) fun _ _ =>
    Work.Same.of_excluding (·.updatePair f) fun _ _ => rfl

theorem universeFor_respects (budget : Budget) (graph : DiscoveryGraph)
    (retained : List Crossable) (component : DiscoveryComponent) :
    Respects (Derivation.Same X) (universeFor budget graph retained component) := by
  unfold universeFor
  refine Respects.get_bind (fun s s' hsame => ?_) fun s => ?_
  · rw [hsame.universes]
  · split
    · exact Respects.pure
    · refine (metered_respects (buildUniverse_respects _ _ _ _)).bind fun result => ?_
      cases result with
      | error stop => exact Respects.pure
      | ok cachedUniverse =>
        refine Respects.bind (Respects.modify fun s s' hsame => ?_) fun _ => Respects.pure
        exact ⟨hsame.work, hsame.published, congrArg (_ :: ·) hsame.universes⟩

variable (hX : AddsAlike X)

include hX

theorem addExclusion_respects (entry : LadderExclusion) :
    Respects (Derivation.Same X) (modify fun s : Derivation =>
      { s with work := s.work.addExclusion entry } : Derive Unit) := by
  refine modifyWork_respects (·.addExclusion entry) fun work work' hsame => ⟨?_, ?_⟩
  · rw [Work.addExclusion_bare, Work.addExclusion_bare]
    exact hsame.bare
  · exact hX _ _ _ hsame.excluded

theorem scanExclusions_respects (budget : Budget) (reason : LadderExclusionReason)
    (detail : Option LadderRejection) (bucket : List Crossable) :
    Respects (Derivation.Same X) (scanExclusions budget reason detail bucket) := by
  induction bucket with
  | nil => exact Respects.pure
  | cons offer bucket ih =>
    unfold scanExclusions
    refine (metered_respects (budget.charge_respects 1)).bind fun charged => ?_
    cases charged with
    | error stop =>
      refine Respects.get_bind (fun s s' hsame => ?_) fun s => ?_
      · rw [hsame.work.globalStop]
      · simp only
        exact Respects.ite ((setStop_respects _).bind fun _ => Respects.throw) Respects.throw
    | ok _ => exact (addExclusion_respects hX _).bind fun _ => ih

theorem addPairExclusions_respects (budget : Budget) (id : BucketId) (bucket : List Crossable)
    (reason : LadderExclusionReason) (detail : Option LadderRejection) :
    Respects (Derivation.Same X) (addPairExclusions budget id bucket reason detail) := by
  unfold addPairExclusions
  refine Respects.get_bind (fun s s' hsame => ?_) fun s => ?_
  · rw [hsame.work.excludedUniverses]
  · refine Respects.ite Respects.pure ?_
    refine (scanExclusions_respects hX budget reason detail bucket).bind fun _ => ?_
    let note := fun work : Work =>
      { work with excludedUniverses := (id, reason) :: work.excludedUniverses }
    exact modifyWork_respects note fun _ _ => Work.Same.of_excluding note fun _ _ => rfl

theorem orReturn_respects {α : Type} (budget : Budget) (retained : List Crossable)
    {stage : Budgeted α} (h : Respects (Work.Same X) stage) :
    Respects (Derivation.Same X) (orReturn budget retained stage) := by
  unfold orReturn
  refine (metered_respects h).bind fun result => ?_
  cases result with
  | ok value => exact Respects.pure
  | error stop =>
    refine (setStop_respects _).bind fun _ => ?_
    exact (addPairExclusions_respects hX _ _ _ _ _).bind fun _ => Respects.throw

end Discovery

namespace PairContext

variable {X : List LadderExclusion → List LadderExclusion → Prop} (ctx : PairContext)
  (hX : AddsAlike X)

include hX

theorem withhold_respects (reason : LadderExclusionReason) (detail : Option LadderRejection) :
    Respects (Derivation.Same X) (ctx.withhold reason detail) := by
  unfold withhold
  refine (updatePair_respects _).bind fun _ => ?_
  exact (addPairExclusions_respects hX _ _ _ _ _).bind fun _ => Respects.pure

theorem stopDiscovery_respects (stop : GlobalStop) :
    Respects (Derivation.Same X) (ctx.stopDiscovery stop) := by
  unfold stopDiscovery
  refine (setStop_respects _).bind fun _ => (updatePair_respects _).bind fun _ => ?_
  exact (addPairExclusions_respects hX _ _ _ _ _).bind fun _ => Respects.pure

theorem unlessAborted_respects {rest : Derive PairFlow} (h : Respects (Derivation.Same X) rest) :
    Respects (Derivation.Same X) (ctx.unlessAborted rest) := by
  unfold unlessAborted
  refine (poll_respects _).bind fun reason => ?_
  cases reason with
  | some reason => exact ctx.stopDiscovery_respects hX _
  | none => exact h

theorem excludeUnused_respects (used : List String)
    (truncationReasons : List LadderTerminalCapReason) (bucket : List Crossable) :
    Respects (Derivation.Same X) (ctx.excludeUnused used truncationReasons bucket) := by
  induction bucket with
  | nil => exact Respects.pure
  | cons offer bucket ih =>
    unfold excludeUnused
    refine (metered_respects (ctx.budget.charge_respects 1)).bind fun charged => ?_
    cases charged with
    | error stop => exact (setStop_respects _).bind fun _ => Respects.throw
    | ok _ =>
      simp only
      refine Respects.ite (Respects.bind (Respects.forM fun _ => ?_) fun _ => ih) ih
      exact addExclusion_respects hX _

theorem publishPair_respects (frontierLength : Nat) (encoded : EncodedFrontier)
    (truncationReasons : List LadderTerminalCapReason) :
    Respects (Derivation.Same X) (ctx.publishPair frontierLength encoded truncationReasons) := by
  unfold publishPair
  simp only
  refine Respects.ite (ctx.withhold_respects hX _ _) ?_
  refine Respects.bind (Respects.modify fun s s' hsame => ?_) fun _ => ?_
  · exact ⟨hsame.work, congrArg (· ++ _) hsame.published, hsame.universes⟩
  · refine (updatePair_respects _).bind fun _ => ?_
    exact Respects.ite ((ctx.excludeUnused_respects hX _ _ _).bind fun _ => Respects.pure)
      Respects.pure

theorem encodePair_respects (search : PairSearch) :
    Respects (Derivation.Same X) (ctx.encodePair search) := by
  unfold encodePair
  refine (metered_respects (bestOutputFrontier_respects _ _ _)).bind fun result => ?_
  cases result with
  | error stop => exact ctx.stopDiscovery_respects hX _
  | ok frontier =>
    refine Respects.ite (ctx.withhold_respects hX _ _) ?_
    split
    · exact Respects.throw
    · have hrest : ∀ reasons : List LadderTerminalCapReason, Respects (Derivation.Same X)
          (do reasons.forM fun reason => ctx.exclude reason.exclusion
              return PairFlow.next : Derive PairFlow) := fun reasons =>
        Respects.bind (Respects.forM fun _ => addPairExclusions_respects hX _ _ _ _ _)
          fun _ => Respects.pure
      simp only
      split
      · exact hrest _
      · exact (updatePair_respects _).bind fun _ => hrest _
    · exact ctx.unlessAborted_respects hX (ctx.publishPair_respects hX _ _ _)

/-- `searchPair` after its walk. -/
def recordSearch (search : PairSearch) : Derive PairFlow :=
  match search.stop with
  | some (.thrown message) => throw (.thrown message)
  | some (.reason reason) => do
    modify fun s => { s with work := search.record s.work }
    match reason.global with
    | some stop => ctx.stopDiscovery stop
    | none => ctx.withhold reason.exclusion
  | none => do
    modify fun s => { s with work := search.record s.work }
    ctx.unlessAborted (ctx.encodePair search)

theorem recordSearch_respects (search : PairSearch) :
    Respects (Derivation.Same X) (ctx.recordSearch search) := by
  have hrecord : Respects (Derivation.Same X)
      (modify fun s => { s with work := search.record s.work } : Derive Unit) :=
    modifyWork_respects search.record fun _ _ => Work.Same.of_excluding search.record fun _ _ => rfl
  unfold recordSearch
  split
  · exact Respects.throw
  · refine hrecord.bind fun _ => ?_
    split
    · exact ctx.stopDiscovery_respects hX _
    · exact ctx.withhold_respects hX _ _
  · exact hrecord.bind fun _ => ctx.unlessAborted_respects hX (ctx.encodePair_respects hX _)

theorem searchPair_respects : Respects (Derivation.Same X) ctx.searchPair := by
  intro s s' hsame
  have hrun : ∀ s, ctx.searchPair.outcome s =
      let search := enumeratePair ctx.budget ctx.cachedUniverse.offers ctx.tokenIn ctx.tokenOut
        ctx.tokenAt s.work
      (ctx.recordSearch search).outcome { s with work := search.work } := fun _ => rfl
  have hrecord : ∀ search excluded,
      ctx.recordSearch (search.excluding excluded) = ctx.recordSearch search := fun _ _ => rfl
  have hsearch := fun work excluded => enumeratePair_excluding excluded ctx.budget
    ctx.cachedUniverse.offers ctx.tokenIn ctx.tokenOut ctx.tokenAt work
  rw [hrun, hrun]
  simp only
  rw [hsame.work.eq_excluding, hsearch, hrecord]
  refine ctx.recordSearch_respects hX _ _ _ ⟨⟨rfl, ?_⟩, hsame.published, hsame.universes⟩
  rw [show (enumeratePair ctx.budget ctx.cachedUniverse.offers ctx.tokenIn ctx.tokenOut ctx.tokenAt
    s.work).work.excluded = s.work.excluded from
      congrArg (·.work.excluded) (hsearch s.work s.work.excluded)]
  exact hsame.work.excluded

theorem examinePair_respects : Respects (Derivation.Same X) ctx.examinePair := by
  unfold examinePair
  refine Respects.get_bind (fun s s' hsame => ?_) fun s => ?_
  · rw [hsame.published]
  · refine Respects.ite (ctx.withhold_respects hX _ _) ?_
    refine Respects.ite (ctx.withhold_respects hX _ _) ?_
    refine Respects.ite (ctx.withhold_respects hX _ _) ?_
    exact ctx.unlessAborted_respects hX (ctx.searchPair_respects hX)

theorem pass_respects : Respects (Derivation.Same X) ctx.pass := by
  unfold pass
  simp only
  refine Respects.ite Respects.pure ?_
  refine Respects.get_bind (fun s s' hsame => ?_) fun s => ?_
  · rw [hsame.work.diagnostics]
  · refine Respects.ite ((setStop_respects _).bind fun _ => Respects.pure) ?_
    refine (metered_respects (ctx.budget.charge_respects 1)).bind fun charged => ?_
    cases charged with
    | error stop => exact (setStop_respects _).bind fun _ => Respects.pure
    | ok _ =>
      let note := fun work : Work => { work with
        diagnostics := { work.diagnostics with
          candidatePairsExamined := work.diagnostics.candidatePairsExamined + 1
          pairs := work.diagnostics.pairs ++ [ctx.diagnostic] } }
      let meter := fun work : Work => work.updatePair fun pair => { pair with
        discoveryWork := work.diagnostics.discoveryWork - s.work.diagnostics.discoveryWork }
      refine Respects.bind
        (modifyWork_respects note fun _ _ => Work.Same.of_excluding note fun _ _ => rfl)
        fun _ => (ctx.examinePair_respects hX).ensuring fun s s' hsame => ?_
      exact ⟨Work.Same.of_excluding meter (fun _ _ => rfl) hsame.work, hsame.published,
        hsame.universes⟩

end PairContext

section Loop

variable {X : List LadderExclusion → List LadderExclusion → Prop} (hX : AddsAlike X)

include hX

theorem examineOutputs_respects (pairContext : String → PairContext) (outputs : List String) :
    Respects (Derivation.Same X) (DiscoveryContext.examineOutputs pairContext outputs) := by
  induction outputs with
  | nil => exact Respects.pure
  | cons tokenOut outputs ih =>
    unfold DiscoveryContext.examineOutputs
    refine ((pairContext tokenOut).pass_respects hX).bind fun flow => ?_
    cases flow with
    | breakPairDiscovery => exact Respects.pure
    | next => exact ih

theorem pairDiscovery_respects (ctx : DiscoveryContext) (wantedTokens : List String) :
    Respects (Derivation.Same X) (ctx.pairDiscovery wantedTokens) := by
  induction wantedTokens with
  | nil => exact Respects.pure
  | cons tokenIn wantedTokens ih =>
    unfold DiscoveryContext.pairDiscovery
    split
    · exact Respects.throw
    · refine (universeFor_respects _ _ _ _).bind fun result => ?_
      cases result with
      | error stop => exact setStop_respects _
      | ok cachedUniverse =>
        refine (examineOutputs_respects hX _ _).bind fun flow => ?_
        cases flow with
        | breakPairDiscovery => exact Respects.pure
        | next => exact ih

/-- **The pair discovery does not read the exclusions.** -/
theorem discoverPairs_respects (budget : Budget) (comparisons : List CombinationState → Nat)
    (policy : JobAdmissionPolicy) (retained : List Crossable) :
    Respects (Derivation.Same X) (discoverPairs budget comparisons policy retained) := by
  unfold discoverPairs
  refine (orReturn_respects hX _ _ (buildDiscoveryGraph_respects _ _)).bind fun graph => ?_
  refine (orReturn_respects hX _ _ (budget.charge_respects _)).bind fun _ => ?_
  refine (orReturn_respects hX _ _ (budget.charge_respects _)).bind fun _ => ?_
  refine (orReturn_respects hX _ _ (budget.chargeSort_respects _)).bind fun _ => ?_
  exact pairDiscovery_respects hX _ _

end Loop

/-! ## The scan -/

section Scan

variable {budget : Budget} {options options' : DeriveLadderOptions}
  {unavailable unavailable' : List String} {work work' after : Work} {crossable : List Crossable}

/-- The meters after an offer is counted. -/
def Work.counted (work : Work) : Work :=
  { work with diagnostics := { work.diagnostics with
      sourceOffersScanned := work.diagnostics.sourceOffersScanned + 1 } }

/-- The scan after the cap and the poll of one offer. -/
def scanOffer (budget : Budget) (options : DeriveLadderOptions) (unavailable : List String)
    (offer : LadderSourceOffer) (offers : List LadderSourceOffer) :
    Program Work Unit (List Crossable) :=
  match toCrossable offer options.nowMs options.expiryMarginSeconds unavailable with
  | .error reason => do
    excludeOffer offer reason
    scanOffers budget options unavailable offers
  | .ok crossable => return crossable :: (← scanOffers budget options unavailable offers)

/-- What follows the poll at an offer. -/
def scanPolled (budget : Budget) (options : DeriveLadderOptions) (unavailable : List String)
    (offer : LadderSourceOffer) (offers : List LadderSourceOffer) :
    Option AbortReason → Program Work Unit (List Crossable)
  | some reason => stopScan offer (GlobalStop.abort reason).stopReason reason.exclusion
  | none => scanOffer budget options unavailable offer offers

/-- A scan that reaches its end passes its cap and its poll at each offer. -/
theorem scanOffers_cons_ok {offer : LadderSourceOffer} {offers : List LadderSourceOffer} :
    (scanOffers budget options unavailable (offer :: offers)).outcome work =
        (.ok crossable, after) ↔
      ¬ budget.limits.maxSourceOffers < work.counted.diagnostics.sourceOffersScanned ∧
      (budget.poll work.counted).1 = none ∧
      (scanOffer budget options unavailable offer offers).outcome (budget.poll work.counted).2 =
        (.ok crossable, after) := by
  have hrun : (scanOffers budget options unavailable (offer :: offers)).outcome work =
      (if budget.limits.maxSourceOffers < work.counted.diagnostics.sourceOffersScanned then
        stopScan offer .sourceOfferCap .sourceOfferCap
      else do
        let polled := budget.poll (← get)
        set polled.2
        scanPolled budget options unavailable offer offers polled.1).outcome work.counted := rfl
  rw [hrun]
  by_cases hcap : budget.limits.maxSourceOffers < work.counted.diagnostics.sourceOffersScanned
  · rw [if_pos hcap]
    constructor
    · intro h
      cases congrArg Prod.fst h
    · exact fun h => absurd hcap h.1
  · rw [if_neg hcap]
    change (scanPolled budget options unavailable offer offers (budget.poll work.counted).1).outcome
      (budget.poll work.counted).2 = _ ↔ _
    cases hreason : (budget.poll work.counted).1 with
    | some reason =>
      constructor
      · intro h
        cases congrArg Prod.fst h
      · exact fun h => absurd h.2.1 (by simp)
    | none => simp [hcap, scanPolled]

/-- The step of one offer, whatever becomes of it. -/
theorem scanOffer_ok {offer : LadderSourceOffer} {offers : List LadderSourceOffer} :
    (∃ crossable, (scanOffer budget options unavailable offer offers).outcome work =
        (.ok crossable, after)) ↔
      ∃ middle rest, work.bare = middle.bare ∧ middle = (match toCrossable offer options.nowMs
          options.expiryMarginSeconds unavailable with
        | .error reason => { work with
            excluded := work.excluded ++ [⟨excludedHash offer, reason, none⟩] }
        | .ok _ => work) ∧
        (scanOffers budget options unavailable offers).outcome middle = (.ok rest, after) := by
  unfold scanOffer
  cases toCrossable offer options.nowMs options.expiryMarginSeconds unavailable with
  | error reason =>
    simp only
    constructor
    · rintro ⟨rest, h⟩
      exact ⟨{ work with excluded := work.excluded ++ [⟨excludedHash offer, reason, none⟩] },
        rest, rfl, rfl, h⟩
    · rintro ⟨_, rest, -, rfl, h⟩
      exact ⟨rest, h⟩
  | ok found =>
    constructor
    · rintro ⟨crossable, h⟩
      obtain ⟨rest, middle, hrest, h⟩ := outcome_bind_eq_ok.mp h
      cases h
      exact ⟨_, rest, rfl, rfl, hrest⟩
    · rintro ⟨_, rest, -, rfl, h⟩
      exact ⟨found :: rest, outcome_bind_eq_ok.mpr ⟨rest, after, h, rfl⟩⟩

/-- A scan that reaches its end does so for as many other offers, with the same meters. -/
theorem scanOffers_again {offers offers' : List LadderSourceOffer}
    (options' : DeriveLadderOptions) (unavailable' : List String)
    (hlength : offers.length = offers'.length) (hsame : work.bare = work'.bare)
    (h : (scanOffers budget options unavailable offers).outcome work = (.ok crossable, after)) :
    ∃ crossable' after', (scanOffers budget options' unavailable' offers').outcome work' =
      (.ok crossable', after') ∧ after.bare = after'.bare := by
  induction offers generalizing offers' work work' crossable with
  | nil =>
    obtain rfl := List.length_eq_zero_iff.mp hlength.symm
    cases h
    exact ⟨_, _, rfl, hsame⟩
  | cons offer offers ih =>
    obtain ⟨offer', offers', rfl⟩ := List.exists_cons_of_length_eq_add_one hlength.symm
    rw [scanOffers_cons_ok] at h
    obtain ⟨hcap, hpoll, h⟩ := h
    obtain ⟨middle, rest, hmiddle, -, h⟩ := scanOffer_ok.mp ⟨_, h⟩
    have hcounted : work.counted.bare = work'.counted.bare := congrArg Work.counted hsame
    have hpolled : ∀ work : Work, (budget.poll work).1 = (budget.poll work.bare).1 ∧
        (budget.poll work).2.bare = (budget.poll work.bare).2 := fun _ => ⟨rfl, rfl⟩
    have hpoll' : (budget.poll work'.counted).1 = none := by
      rw [(hpolled _).1, ← hcounted, ← (hpolled _).1]
      exact hpoll
    have hstate : (budget.poll work.counted).2.bare = (budget.poll work'.counted).2.bare := by
      rw [(hpolled _).2, (hpolled work'.counted).2, hcounted]
    have hmiddle' : ∃ middle' : Work, (budget.poll work'.counted).2.bare = middle'.bare ∧
        middle' = (match toCrossable offer' options'.nowMs options'.expiryMarginSeconds
          unavailable' with
        | .error reason => { (budget.poll work'.counted).2 with
            excluded := (budget.poll work'.counted).2.excluded ++
              [⟨excludedHash offer', reason, none⟩] }
        | .ok _ => (budget.poll work'.counted).2) := by
      refine ⟨_, ?_, rfl⟩
      split <;> rfl
    obtain ⟨middle', hsame', heq⟩ := hmiddle'
    obtain ⟨rest', after', hrest, hafter⟩ := ih (Nat.succ.inj hlength)
      ((hmiddle.symm.trans hstate).trans hsame') h
    obtain ⟨crossable', hscan⟩ := scanOffer_ok.mpr ⟨middle', rest', hsame', heq, hrest⟩
    refine ⟨crossable', after', scanOffers_cons_ok.mpr ⟨?_, hpoll', hscan⟩, hafter⟩
    rw [← show work.counted.diagnostics = work'.counted.diagnostics from
      congrArg (·.diagnostics) hcounted]
    exact hcap

end Scan

/-! ## The offers -/

/-- An offer with its texts in lower case and its nullifiers sorted: what a derivation reads of it. -/
def LadderSourceOffer.row (offer : LadderSourceOffer) : LadderSourceOffer where
  offerHash := toLowerCase offer.offerHash
  gives := offer.gives.map fun leg => { leg with token := toLowerCase leg.token }
  wants := offer.wants.map fun leg => { leg with token := toLowerCase leg.token }
  expiresAt := offer.expiresAt
  inputNullifiers := (offer.inputNullifiers.map toLowerCase).insertionSort (· ≤ ·)

section Offers

variable {offer : LadderSourceOffer} {nowMs nowMs' expiryMarginSeconds : Int}
  {unavailable unavailable' : List String}

theorem sortedSet_perm {values values' : List String} (h : values.Perm values') :
    sortedSet values = sortedSet values' := by
  have hperm : (sortedSet values).Perm (sortedSet values') :=
    (List.perm_insertionSort _ _).trans
      ((h.dedup).trans (List.perm_insertionSort _ _).symm)
  exact hperm.eq_of_pairwise (fun _ _ _ _ => le_antisymm)
    (List.pairwise_insertionSort _ _) (List.pairwise_insertionSort _ _)

theorem toCrossable_row : toCrossable offer.row nowMs expiryMarginSeconds unavailable =
    toCrossable offer nowMs expiryMarginSeconds unavailable := by
  have hnullifiers : offer.row.inputNullifiers.Perm (offer.inputNullifiers.map toLowerCase) :=
    List.perm_insertionSort _ _
  have hany : offer.row.inputNullifiers.any (!hex64 ·) = offer.inputNullifiers.any (!hex64 ·) := by
    rw [hnullifiers.any_eq, List.any_map]
    simp [Function.comp_def]
  have hset : sortedSet (offer.row.inputNullifiers.map toLowerCase) =
      sortedSet (offer.inputNullifiers.map toLowerCase) := by
    rw [sortedSet_perm (hnullifiers.map toLowerCase), List.map_map]
    congr 1
    exact List.map_congr_left fun value _ => toLowerCase_toLowerCase value
  unfold toCrossable
  rw [hany, hset]
  simp only [LadderSourceOffer.row, toLowerCase_toLowerCase, hex64_toLowerCase]
  rcases offer.gives with _ | ⟨give, _ | ⟨other, gives⟩⟩ <;>
    rcases offer.wants with _ | ⟨want, _ | ⟨another, wants⟩⟩ <;> simp

/-- Nothing but the expiry depends on the clock, nor more than membership on what is unavailable. -/
theorem toCrossable_later (hunavailable : ∀ hash, hash ∈ unavailable ↔ hash ∈ unavailable')
    (htime : ∀ expiresAt, offer.expiresAt = some expiresAt →
      (nowMs ≥ expiresAt - expiryMarginSeconds * 1000 ↔
        nowMs' ≥ expiresAt - expiryMarginSeconds * 1000)) :
    toCrossable offer nowMs expiryMarginSeconds unavailable =
      toCrossable offer nowMs' expiryMarginSeconds unavailable' := by
  have hcontains : ∀ hash, unavailable.contains hash = unavailable'.contains hash := fun hash => by
    rw [Bool.eq_iff_iff, List.contains_iff_mem, List.contains_iff_mem]
    exact hunavailable hash
  unfold toCrossable
  simp only [hcontains]
  cases hexpires : offer.expiresAt with
  | none => rfl
  | some expiresAt => simp only [htime expiresAt hexpires]

/-- The eligible offers are the same, in another order. -/
theorem crossableOffers_perm {offers offers' : List LadderSourceOffer}
    (hrows : (offers.map (·.row)).Perm (offers'.map (·.row)))
    (hunavailable : ∀ hash, hash ∈ unavailable ↔ hash ∈ unavailable')
    (htime : ∀ offer ∈ offers, ∀ expiresAt, offer.expiresAt = some expiresAt →
      (nowMs ≥ expiresAt - expiryMarginSeconds * 1000 ↔
        nowMs' ≥ expiresAt - expiryMarginSeconds * 1000)) :
    (offers.filterMap fun offer =>
        (toCrossable offer nowMs expiryMarginSeconds unavailable).toOption).Perm
      (offers'.filterMap fun offer =>
        (toCrossable offer nowMs' expiryMarginSeconds unavailable').toOption) := by
  have hmap : ∀ (now : Int) (gone : List String) (offers : List LadderSourceOffer),
      (offers.filterMap fun offer => (toCrossable offer now expiryMarginSeconds gone).toOption) =
        (offers.map (·.row)).filterMap fun offer =>
          (toCrossable offer now expiryMarginSeconds gone).toOption := by
    intro now gone offers
    rw [List.filterMap_map]
    exact List.filterMap_congr fun offer _ => congrArg Except.toOption toCrossable_row.symm
  have hlater : ((offers.map (·.row)).filterMap fun offer =>
        (toCrossable offer nowMs expiryMarginSeconds unavailable).toOption) =
      (offers.map (·.row)).filterMap fun offer =>
        (toCrossable offer nowMs' expiryMarginSeconds unavailable').toOption := by
    refine List.filterMap_congr fun row hrow => ?_
    obtain ⟨offer, hoffer, rfl⟩ := List.mem_map.mp hrow
    exact congrArg Except.toOption (toCrossable_later hunavailable fun expiresAt hexpires =>
      htime offer hoffer expiresAt hexpires)
  rw [hmap nowMs unavailable offers, hlater, hmap nowMs' unavailable' offers']
  exact hrows.filterMap _

theorem uniqueOffers_perm {crossable crossable' : List Crossable} (h : crossable.Perm crossable') :
    uniqueOffers crossable = uniqueOffers crossable' := by
  have hcount : ∀ hash, hashCount crossable hash = hashCount crossable' hash :=
    fun hash => (h.map _).count_eq hash
  have hperm : (uniqueOffers crossable).Perm (uniqueOffers crossable') := by
    unfold uniqueOffers
    simp only [hcount]
    exact (((List.perm_insertionSort _ _).trans h).trans
      (List.perm_insertionSort _ _).symm).filter _
  exact hperm.eq_of_pairwise (fun _ _ _ _ hlt hgt => absurd hlt hgt.asymm)
    (uniqueOffers_sorted crossable) (uniqueOffers_sorted crossable')

end Offers

/-! ## The same ladder -/

section Derived

variable {budget : Budget} {comparisons : List CombinationState → Nat} {policy : JobAdmissionPolicy}
  {derived : DerivedLadder}

/-- What is assembled, apart from the exclusions. -/
def DerivedLadder.SameLevels (derived derived' : DerivedLadder) : Prop :=
  derived.levels = derived'.levels ∧ derived.tokenIds = derived'.tokenIds

theorem assemble_sameLevels {limits : LadderResourceLimits} {s s' : Derivation}
    (h : s.published = s'.published) : (assemble limits s).SameLevels (assemble limits s') := by
  unfold assemble DerivedLadder.SameLevels
  rw [h]
  exact ⟨rfl, rfl⟩

theorem cancel_same {X : List LadderExclusion → List LadderExclusion → Prop}
    {retained : List Crossable} {s s' : Derivation} (h : s.Same X s') :
    (cancel budget retained s).published = (cancel budget retained s').published := by
  unfold cancel
  rw [h.work.globalStop]
  split
  · rfl
  · exact h.published

/-- The same levels from the eligible offers in any order. -/
theorem deriveFrom_perm {crossable crossable' : List Crossable} {work work' : Work}
    (hperm : crossable.Perm crossable') (hsame : work.bare = work'.bare)
    (h : deriveFrom budget comparisons policy crossable work = .ok derived) :
    ∃ derived', deriveFrom budget comparisons policy crossable' work' = .ok derived' ∧
      derived.SameLevels derived' := by
  unfold deriveFrom at h ⊢
  rw [← uniqueOffers_perm hperm]
  simp only at h ⊢
  generalize (claimCoins [] (uniqueOffers crossable)).1 = retained at h ⊢
  generalize work.excluded ++ duplicateExclusions crossable ++
    (claimCoins [] (uniqueOffers crossable)).2 = excluded at h
  generalize work'.excluded ++ duplicateExclusions crossable' ++
    (claimCoins [] (uniqueOffers crossable)).2 = excluded'
  have hX : AddsAlike Unrelated := fun _ _ _ _ => trivial
  obtain ⟨hresult, hend⟩ := discoverPairs_respects hX budget comparisons policy retained
    { work := { work with excluded } } { work := { work' with excluded := excluded' } }
    ⟨⟨hsame, trivial⟩, rfl, rfl⟩
  cases hrun : (discoverPairs budget comparisons policy retained).outcome
    { work := { work with excluded } } with
  | mk result t =>
    cases hrun' : (discoverPairs budget comparisons policy retained).outcome
      { work := { work' with excluded := excluded' } } with
    | mk result' t' =>
      rw [hrun, hrun'] at hresult hend
      rw [hrun] at h
      cases hresult
      cases result with
      | ok _ =>
        cases h
        exact ⟨_, rfl, assemble_sameLevels (cancel_same hend)⟩
      | error exit =>
        cases exit with
        | exclusionScanStop =>
          cases h
          have hwork := hend.work.of_excluding Work.noteScanStop fun _ _ => rfl
          exact ⟨_, rfl, assemble_sameLevels (cancel_same
            ⟨hwork, hend.published, hend.universes⟩)⟩
        | returned =>
          cases h
          exact ⟨_, rfl, rfl, rfl⟩
        | thrown message => cases h

/-- **The same levels from the same offers**, in any order, while no offer enters the margin. -/
theorem deriveLadder_sameBook {offers offers' : List LadderSourceOffer}
    {options : DeriveLadderOptions} {nowMs' : Int} {unavailable' : List String}
    (hrows : (offers.map (·.row)).Perm (offers'.map (·.row)))
    (hunavailable : ∀ hash, hash ∈ options.unavailableOfferHashes.map toLowerCase ↔
      hash ∈ unavailable'.map toLowerCase)
    (htime : ∀ offer ∈ offers, ∀ expiresAt, offer.expiresAt = some expiresAt →
      (options.nowMs ≥ expiresAt - options.expiryMarginSeconds * 1000 ↔
        nowMs' ≥ expiresAt - options.expiryMarginSeconds * 1000))
    (h : deriveLadder comparisons offers options = .ok derived) (hpublished : derived.levels ≠ []) :
    ∃ derived', deriveLadder comparisons offers'
        { options with nowMs := nowMs', unavailableOfferHashes := unavailable' } = .ok derived' ∧
      derived.SameLevels derived' := by
  have hempty : ∀ limits diagnostics excluded,
      derived ≠ emptyDerived limits diagnostics excluded := by
    rintro limits diagnostics excluded rfl
    exact hpublished rfl
  unfold deriveLadder at h ⊢
  simp only
  split at h
  · cases h
    exact absurd rfl (hempty _ _ _)
  · rename_i limits hlimits
    simp only at h ⊢
    split at h
    · cases h
      exact absurd rfl (hempty _ _ _)
    · rename_i work hpoll
      split at h
      · cases h
        exact absurd rfl (hempty _ _ _)
      · rename_i crossable after hscan
        have hlength : offers.length = offers'.length := by
          simpa using hrows.length_eq
        obtain ⟨crossable', after', hscan', hafter⟩ := scanOffers_again
          { options with nowMs := nowMs', unavailableOfferHashes := unavailable' }
          (unavailable'.map toLowerCase) hlength rfl hscan
        have hfound := scanOffers_returns _ _ _ _ _ _ _ hscan
        have hfound' := scanOffers_returns _ _ _ _ _ _ _ hscan'
        have hperm : crossable.Perm crossable' := by
          rw [hfound, hfound']
          exact crossableOffers_perm hrows hunavailable htime
        rw [hscan']
        exact deriveFrom_perm hperm hafter h

end Derived

end ZswapKernel
