import ZswapKernel.SolverCore.BookOrder
import ZswapKernel.SolverCore.Cancellation

/-!
# A cancelled derivation

A call of `shouldAbort` that stops a stage becomes the global stop, which no later cap overwrites,
or ends the scan or the discovery with an early return.

* `Budget.Noted` — a cancellation so far is the global stop.
* `pass_passes`, `discoverPairs_heeds` — one pass, and the whole discovery.
* `scanOffers_heeds` — the scan of the source offers.
-/

namespace ZswapKernel

open Program

/-! ## The pair loop -/

/-- A call that stopped the derivation is its global stop. -/
def Budget.Noted (budget : Budget) (s : Derivation) : Prop :=
  isAbort s.work.globalStop = true ∨ budget.Calm s.work

/-- Where the pair loop throws: not to return early, and with every cancellation noted. -/
def Budget.Throws (budget : Budget) (exit : DerivationExit) (s : Derivation) : Prop :=
  exit ≠ .returned ∧ budget.Noted s

/-- A pass that goes on met no cancellation; one that ends the loop has noted it. -/
def Budget.Leaves (budget : Budget) (flow : PairFlow) (s : Derivation) : Prop :=
  budget.Noted s ∧ (flow = .next → budget.Calm s.work)

section Loop

variable {budget : Budget} {α : Type}

theorem Budget.Noted.of_calm {s : Derivation} (h : budget.Calm s.work) : budget.Noted s := Or.inr h

@[simp] theorem Work.addExclusion_globalStop (work : Work) (entry : LadderExclusion) :
    (work.addExclusion entry).globalStop = work.globalStop := by
  unfold Work.addExclusion
  split <;> rfl

@[simp] theorem Work.addExclusion_abortCalls (work : Work) (entry : LadderExclusion) :
    (work.addExclusion entry).abortCalls = work.abortCalls := by
  unfold Work.addExclusion
  split <;> rfl

theorem Budget.Calm.addExclusion {work : Work} (h : budget.Calm work) (entry : LadderExclusion) :
    budget.Calm (work.addExclusion entry) := by
  unfold Budget.Calm
  rw [Work.addExclusion_abortCalls]
  exact h

/-- A metered stage that is not cancelled leaves the calm. -/
theorem metered_calm {stage : Budgeted α} (h : budget.Heeds stage)
    {E : DerivationExit → Derivation → Prop} :
    Triple (fun s => budget.Calm s.work) (Derive.metered stage)
      (fun result s => (∀ reason, result ≠ .error (.abort reason)) → budget.Calm s.work) E := by
  intro s hcalm
  have hstage := h s.work.frame s.work ⟨hcalm, rfl⟩
  unfold Program.outcome Derive.metered
  cases hrun : stage.outcome s.work with
  | mk result work =>
    rw [hrun] at hstage
    cases result with
    | ok value => exact fun _ => hstage.1
    | error stop =>
      cases stop with
      | discoveryWorkCap => exact fun _ => (hstage.2 rfl).1
      | abort reason => exact fun h => absurd rfl (h reason)

theorem poll_calm {E : DerivationExit → Derivation → Prop} :
    Triple (fun s => budget.Calm s.work) (Derive.poll budget)
      (fun reason s => reason = none → budget.Calm s.work) E := by
  intro s hcalm
  unfold Program.outcome Derive.poll
  cases hpoll : budget.poll s.work with
  | mk reason work => exact fun hreason => (budget.poll_heeds hpoll).2.2 hreason hcalm

/-- A stop that is a cancellation is noted as one. -/
theorem setStop_noted (stop : GlobalStop) {E : DerivationExit → Derivation → Prop} :
    Triple (fun s => (∀ reason, stop ≠ .abort reason) → budget.Calm s.work) (Derive.setStop stop)
      (fun _ => budget.Noted) E := by
  refine Triple.modify fun s h => ?_
  cases stop with
  | abort reason => exact Or.inl rfl
  | globalSearchCap => exact Or.inr (h nofun)
  | candidatePairCap => exact Or.inr (h nofun)
  | discoveryWorkCap => exact Or.inr (h nofun)

/-- The stop of a metered stage, as a global one. -/
theorem global_calm {stop : BudgetStop} {work : Work} {α : Type}
    (h : (∀ reason, (.error stop : Except BudgetStop α) ≠ .error (.abort reason)) →
      budget.Calm work) :
    (∀ reason, stop.global ≠ .abort reason) → budget.Calm work := by
  intro hstop
  refine h fun reason heq => ?_
  cases heq
  exact hstop reason rfl

/-- An exclusion scan that ends keeps the calm; one that stops notes why. -/
theorem scanExclusions_calm (reason : LadderExclusionReason) (detail : Option LadderRejection)
    (bucket : List Crossable) :
    Triple (fun s => budget.Calm s.work) (scanExclusions budget reason detail bucket)
      (fun _ s => budget.Calm s.work) budget.Throws := by
  induction bucket with
  | nil => exact Triple.pure fun _ h => h
  | cons offer bucket ih =>
    unfold scanExclusions
    refine Triple.bind (metered_calm (budget.charge_heeds 1)) fun charged => ?_
    cases charged with
    | ok _ =>
      refine Triple.bind (Q := fun _ s => budget.Calm s.work) (Triple.modify fun s h => ?_)
        fun _ => ih
      exact Budget.Calm.addExclusion (h (by simp)) _
    | error stop =>
      refine Triple.bind (Q := fun before s => before = s ∧ ((∀ reason,
        stop.global ≠ .abort reason) → budget.Calm s.work))
        (Triple.get fun s h => ⟨rfl, global_calm h⟩) fun before => ?_
      refine Triple.ite (fun _ => ?_) fun hnoted => ?_
      · refine Triple.bind ((setStop_noted stop.global).pre fun _ h => h.2) fun _ => ?_
        exact Triple.throw fun _ h => ⟨by simp, h⟩
      · rintro s ⟨rfl, -⟩
        exact ⟨by simp, Or.inl (not_not.mp hnoted)⟩

/-- What a derivation says of how it ended, and of its pairs. -/
def Work.verdict (work : Work) :
    Option GlobalStop × Option LadderDerivationStopReason × List LadderPairDiagnostic :=
  (work.globalStop, work.diagnostics.stopReason, work.diagnostics.pairs)

@[simp] theorem Work.addExclusion_verdict (work : Work) (entry : LadderExclusion) :
    (work.addExclusion entry).verdict = work.verdict := by
  unfold Work.addExclusion
  split <;> rfl

theorem metered_charge_verdict {verdict} {E : DerivationExit → Derivation → Prop} :
    Triple (fun s => s.work.verdict = verdict) (Derive.metered (budget.charge 1))
      (fun _ s => s.work.verdict = verdict) E := by
  intro s h
  have hframe := budget.chargeUnits_frame .discovery 1 s.work
  unfold Program.outcome Derive.metered Program.outcome Budget.charge
  cases hrun : budget.chargeUnits .discovery 1 s.work with
  | mk stop work =>
    rw [hrun] at hframe
    have hkept : work.verdict = verdict :=
      (congrArg (fun frame : Work.Frame => (frame.globalStop, frame.stopReason, frame.pairs))
        hframe).trans h
    cases stop <;> exact hkept

/-- Once a cancellation is the global stop, an exclusion scan leaves the verdict as it is. -/
theorem scanExclusions_noted (reason : LadderExclusionReason) (detail : Option LadderRejection)
    (bucket : List Crossable) {verdict} (habort : isAbort (Prod.fst verdict) = true) :
    Triple (fun s => s.work.verdict = verdict) (scanExclusions budget reason detail bucket)
      (fun _ s => s.work.verdict = verdict)
      (fun exit s => exit ≠ .returned ∧ s.work.verdict = verdict) := by
  induction bucket with
  | nil => exact Triple.pure fun _ h => h
  | cons offer bucket ih =>
    unfold scanExclusions
    refine Triple.bind metered_charge_verdict fun charged => ?_
    cases charged with
    | ok _ =>
      refine Triple.bind (Q := fun _ s => s.work.verdict = verdict)
        (Triple.modify fun s h => ?_) fun _ => ih
      rw [Work.addExclusion_verdict]
      exact h
    | error stop =>
      refine Triple.bind (Q := fun before s => before = s ∧ s.work.verdict = verdict)
        (Triple.get fun s h => ⟨rfl, h⟩) fun before => ?_
      refine Triple.ite (fun hnot => ?_) fun _ => ?_
      · rintro s ⟨rfl, h⟩
        rw [← h] at habort
        exact absurd habort hnot
      · exact Triple.throw fun s h => ⟨by simp, h.2⟩

variable (budget) in
theorem addPairExclusions_calm (id : BucketId) (bucket : List Crossable)
    (reason : LadderExclusionReason) (detail : Option LadderRejection) :
    Triple (fun s => budget.Calm s.work) (addPairExclusions budget id bucket reason detail)
      (fun _ s => budget.Calm s.work) budget.Throws := by
  unfold addPairExclusions
  refine Triple.bind (Q := fun _ s => budget.Calm s.work) (Triple.get fun _ h => h) fun before => ?_
  refine Triple.ite (fun _ => Triple.pure fun _ h => h) fun _ => ?_
  exact Triple.bind (scanExclusions_calm reason detail bucket) fun _ => Triple.modify fun _ h => h

variable (budget) in
theorem addPairExclusions_noted (id : BucketId) (bucket : List Crossable)
    (reason : LadderExclusionReason) (detail : Option LadderRejection) {verdict}
    (habort : isAbort (Prod.fst verdict) = true) :
    Triple (fun s => s.work.verdict = verdict) (addPairExclusions budget id bucket reason detail)
      (fun _ s => s.work.verdict = verdict)
      (fun exit s => exit ≠ .returned ∧ s.work.verdict = verdict) := by
  unfold addPairExclusions
  refine Triple.bind (Q := fun _ s => s.work.verdict = verdict) (Triple.get fun _ h => h)
    fun before => ?_
  refine Triple.ite (fun _ => Triple.pure fun _ h => h) fun _ => ?_
  exact Triple.bind (scanExclusions_noted reason detail bucket habort) fun _ =>
    Triple.modify fun _ h => h

/-- Whatever was noted is still noted after an exclusion scan. -/
theorem addPairExclusions_keeps (id : BucketId) (bucket : List Crossable)
    (reason : LadderExclusionReason) (detail : Option LadderRejection) :
    Triple budget.Noted (addPairExclusions budget id bucket reason detail)
      (fun _ => budget.Noted) budget.Throws := by
  rintro s (hnoted | hcalm)
  · have hkept : ∀ s' : Derivation, s'.work.verdict = s.work.verdict → budget.Noted s' :=
      fun s' h => Or.inl (show isAbort s'.work.verdict.1 = true by rw [h]; exact hnoted)
    exact ((addPairExclusions_noted budget id bucket reason detail hnoted).conseq (fun _ h => h)
      (fun _ s' h => hkept s' h) fun _ s' h => ⟨h.1, hkept s' h.2⟩) s rfl
  · exact ((addPairExclusions_calm budget id bucket reason detail).conseq (fun _ h => h)
      (fun _ _ h => Or.inr h) fun _ _ h => h) s hcalm

end Loop

/-! ## One pass -/

/-- `m` leaves the pair loop as a pass does. -/
abbrev Budget.Passes (budget : Budget) (m : Derive PairFlow) : Prop :=
  Triple (fun s => budget.Calm s.work) m budget.Leaves budget.Throws

namespace PairContext

variable (ctx : PairContext)

theorem withhold_passes (reason : LadderExclusionReason) (detail : Option LadderRejection) :
    ctx.budget.Passes (ctx.withhold reason detail) := by
  unfold withhold
  refine Triple.bind (Q := fun _ s => ctx.budget.Calm s.work) (Triple.modify fun _ h => h)
    fun _ => ?_
  refine Triple.bind (addPairExclusions_calm ctx.budget _ _ _ _) fun _ => ?_
  exact Triple.pure fun _ h => ⟨Or.inr h, fun _ => h⟩

theorem stopDiscovery_passes (stop : GlobalStop) :
    Triple (fun s => (∀ reason, stop ≠ .abort reason) → ctx.budget.Calm s.work)
      (ctx.stopDiscovery stop) ctx.budget.Leaves ctx.budget.Throws := by
  unfold stopDiscovery
  refine Triple.bind (setStop_noted stop) fun _ => ?_
  refine Triple.bind (Q := fun _ => ctx.budget.Noted) (Triple.modify fun _ h => h) fun _ => ?_
  refine Triple.bind (addPairExclusions_keeps _ _ _ _) fun _ => ?_
  exact Triple.pure fun _ h => ⟨h, nofun⟩

theorem unlessAborted_passes {rest : Derive PairFlow} (h : ctx.budget.Passes rest) :
    ctx.budget.Passes (ctx.unlessAborted rest) := by
  unfold unlessAborted
  refine Triple.bind poll_calm fun reason => ?_
  cases reason with
  | some reason =>
    exact (ctx.stopDiscovery_passes (.abort reason)).pre fun _ _ h => absurd rfl (h reason)
  | none => exact h.pre fun _ h => h rfl

theorem excludeUnused_calm (used : List String)
    (truncationReasons : List LadderTerminalCapReason) (bucket : List Crossable) :
    Triple (fun s => ctx.budget.Calm s.work) (ctx.excludeUnused used truncationReasons bucket)
      (fun _ s => ctx.budget.Calm s.work) ctx.budget.Throws := by
  induction bucket with
  | nil => exact Triple.pure fun _ h => h
  | cons offer bucket ih =>
    unfold excludeUnused
    refine Triple.bind (metered_calm (ctx.budget.charge_heeds 1)) fun charged => ?_
    cases charged with
    | ok _ =>
      refine Triple.pre (P := fun s => ctx.budget.Calm s.work) ?_ fun _ h => h (by simp)
      refine Triple.ite (fun _ => ?_) fun _ => ih
      refine Triple.bind (Q := fun _ s => ctx.budget.Calm s.work) ?_ fun _ => ih
      exact Triple.forM (I := fun _ (s : Derivation) => ctx.budget.Calm s.work) fun _ _ _ =>
        Triple.modify fun _ h => Budget.Calm.addExclusion h _
    | error stop =>
      refine Triple.bind ((setStop_noted stop.global).pre fun _ h => global_calm h) fun _ => ?_
      exact Triple.throw fun _ h => ⟨by simp, h⟩

theorem publishPair_passes (frontierLength : Nat) (encoded : EncodedFrontier)
    (truncationReasons : List LadderTerminalCapReason) :
    ctx.budget.Passes (ctx.publishPair frontierLength encoded truncationReasons) := by
  unfold publishPair
  refine Triple.ite (fun _ => ctx.withhold_passes _ _) fun _ => ?_
  refine Triple.bind (Q := fun _ s => ctx.budget.Calm s.work) (Triple.modify fun _ h => h)
    fun _ => ?_
  refine Triple.bind (Q := fun _ s => ctx.budget.Calm s.work) (Triple.modify fun _ h => h)
    fun _ => ?_
  have hnext : Triple (fun s => ctx.budget.Calm s.work) (pure .next : Derive PairFlow)
      ctx.budget.Leaves ctx.budget.Throws := Triple.pure fun _ h => ⟨Or.inr h, fun _ => h⟩
  refine Triple.ite (fun _ => ?_) fun _ => hnext
  exact Triple.bind (ctx.excludeUnused_calm _ _ _) fun _ => hnext

theorem encodePair_passes (search : PairSearch) : ctx.budget.Passes (ctx.encodePair search) := by
  have hnext : Triple (fun s => ctx.budget.Calm s.work) (pure .next : Derive PairFlow)
      ctx.budget.Leaves ctx.budget.Throws := Triple.pure fun _ h => ⟨Or.inr h, fun _ => h⟩
  unfold encodePair
  refine Triple.bind (metered_calm (bestOutputFrontier_heeds ctx.budget _ _)) fun result => ?_
  cases result with
  | error stop =>
    exact (ctx.stopDiscovery_passes stop.global).pre fun _ h => global_calm h
  | ok frontier =>
    refine Triple.pre (P := fun s => ctx.budget.Calm s.work) ?_ fun _ h => h nofun
    refine Triple.ite (fun _ => ctx.withhold_passes _ _) fun _ => ?_
    split
    · exact Triple.throw fun _ h => ⟨nofun, Or.inr h⟩
    · have hexcluded : ∀ reasons : List LadderTerminalCapReason, ctx.budget.Passes
          (do reasons.forM fun reason => ctx.exclude reason.exclusion
              return PairFlow.next : Derive PairFlow) := fun reasons =>
        Triple.bind (Triple.forM (I := fun _ (s : Derivation) => ctx.budget.Calm s.work) fun _ _ _ =>
          addPairExclusions_calm ctx.budget _ _ _ _) fun _ => hnext
      simp only
      split
      · exact hexcluded _
      · exact Triple.bind (Q := fun _ s => ctx.budget.Calm s.work) (Triple.modify fun _ h => h)
          fun _ => hexcluded _
    · exact ctx.unlessAborted_passes (ctx.publishPair_passes _ _ _)

theorem searchPair_passes : ctx.budget.Passes ctx.searchPair := by
  intro s hcalm
  have hsearch := enumeratePair_heeds hcalm ctx.cachedUniverse.offers ctx.tokenIn ctx.tokenOut
    ctx.tokenAt
  have hrun : ctx.searchPair.outcome s =
      let search := enumeratePair ctx.budget ctx.cachedUniverse.offers ctx.tokenIn ctx.tokenOut
        ctx.tokenAt s.work
      (ctx.recordSearch search).outcome { s with work := search.work } := rfl
  rw [hrun]
  generalize enumeratePair ctx.budget ctx.cachedUniverse.offers ctx.tokenIn ctx.tokenOut
    ctx.tokenAt s.work = search at hsearch
  refine (?_ : Triple (fun s => (∀ reason, search.stop ≠ some (.reason (.abort reason))) →
    ctx.budget.Calm s.work) (ctx.recordSearch search) ctx.budget.Leaves ctx.budget.Throws)
    { s with work := search.work } hsearch.calm
  unfold recordSearch
  split
  · rename_i message hstop
    exact Triple.throw fun _ h => ⟨nofun, Or.inr (h fun reason => by rw [hstop]; exact nofun)⟩
  · rename_i reason hstop
    refine Triple.bind (Q := fun _ s => (∀ abort, reason ≠ .abort abort) → ctx.budget.Calm s.work)
      (Triple.modify fun _ h hreason => h fun abort => ?_) fun _ => ?_
    · rw [hstop]
      intro heq
      cases heq
      exact hreason abort rfl
    · cases reason with
      | abort reason =>
        exact (ctx.stopDiscovery_passes (.abort reason)).pre fun _ _ h => absurd rfl (h reason)
      | globalSearchCap =>
        exact (ctx.stopDiscovery_passes .globalSearchCap).pre fun _ h _ => h nofun
      | discoveryWorkCap =>
        exact (ctx.stopDiscovery_passes .discoveryWorkCap).pre fun _ h _ => h nofun
      | pairSearchCap => exact (ctx.withhold_passes _ _).pre fun _ h => h nofun
      | mergeOrderWorkCap => exact (ctx.withhold_passes _ _).pre fun _ h => h nofun
  · rename_i hstop
    refine Triple.bind (Q := fun _ s => ctx.budget.Calm s.work)
      (Triple.modify fun _ h => h fun reason => by rw [hstop]; exact nofun) fun _ => ?_
    exact ctx.unlessAborted_passes (ctx.encodePair_passes search)

theorem examinePair_passes : ctx.budget.Passes ctx.examinePair := by
  unfold examinePair
  refine Triple.bind (Q := fun _ s => ctx.budget.Calm s.work) (Triple.get fun _ h => h) fun _ => ?_
  refine Triple.ite (fun _ => ctx.withhold_passes _ _) fun _ => ?_
  refine Triple.ite (fun _ => ctx.withhold_passes _ _) fun _ => ?_
  refine Triple.ite (fun _ => ctx.withhold_passes _ _) fun _ => ?_
  exact ctx.unlessAborted_passes ctx.searchPair_passes

/-- **One pass**: a cancellation ends the loop and is the global stop. -/
theorem pass_passes : ctx.budget.Passes ctx.pass := by
  unfold pass
  refine Triple.ite (fun _ => Triple.pure fun _ h => ⟨Or.inr h, fun _ => h⟩) fun _ => ?_
  refine Triple.bind (Q := fun _ s => ctx.budget.Calm s.work) (Triple.get fun _ h => h)
    fun before => ?_
  refine Triple.ite (fun _ => ?_) fun _ => ?_
  · refine Triple.bind ((setStop_noted .candidatePairCap).pre fun _ h _ => h) fun _ => ?_
    exact Triple.pure fun _ h => ⟨h, nofun⟩
  · refine Triple.bind (metered_calm (ctx.budget.charge_heeds 1)) fun charged => ?_
    cases charged with
    | error stop =>
      refine Triple.bind ((setStop_noted stop.global).pre fun _ h => global_calm h) fun _ => ?_
      exact Triple.pure fun _ h => ⟨h, nofun⟩
    | ok _ =>
      refine Triple.bind (Q := fun _ s => ctx.budget.Calm s.work)
        (Triple.modify fun _ h => h nofun) fun _ => ?_
      exact ctx.examinePair_passes.ensuring (fun _ _ h => h) fun _ _ h => h

end PairContext

namespace DiscoveryContext

theorem examineOutputs_passes {budget : Budget} {pairContext : String → PairContext}
    (hbudget : ∀ tokenOut, (pairContext tokenOut).budget = budget) (outputs : List String) :
    budget.Passes (examineOutputs pairContext outputs) := by
  induction outputs with
  | nil => exact Triple.pure fun _ h => ⟨Or.inr h, fun _ => h⟩
  | cons tokenOut outputs ih =>
    unfold examineOutputs
    refine Triple.bind (hbudget tokenOut ▸ (pairContext tokenOut).pass_passes) fun flow => ?_
    cases flow with
    | breakPairDiscovery => exact Triple.pure fun _ h => ⟨h.1, by simp⟩
    | next => exact ih.pre fun _ h => h.2 rfl

theorem universeFor_calm (budget : Budget) (graph : DiscoveryGraph) (retained : List Crossable)
    (component : DiscoveryComponent) {E : DerivationExit → Derivation → Prop} :
    Triple (fun s => budget.Calm s.work) (universeFor budget graph retained component)
      (fun result s => (∀ reason, result ≠ .error (.abort reason)) → budget.Calm s.work) E := by
  unfold universeFor
  refine Triple.bind (Q := fun _ s => budget.Calm s.work) (Triple.get fun _ h => h) fun before => ?_
  split
  · exact Triple.pure fun _ h _ => h
  · refine Triple.bind (metered_calm (buildUniverse_heeds budget _ _ _)) fun result => ?_
    cases result with
    | error stop =>
      refine Triple.pure fun _ h hnot => h fun reason heq => ?_
      cases heq
      exact hnot reason rfl
    | ok cachedUniverse =>
      refine Triple.bind (Q := fun _ s => budget.Calm s.work) (Triple.modify fun _ h => h nofun)
        fun _ => ?_
      exact Triple.pure fun _ h _ => h

/-- The whole loop over the pairs. -/
theorem pairDiscovery_heeds (ctx : DiscoveryContext) (wantedTokens : List String) :
    Triple (fun s => ctx.budget.Calm s.work) (ctx.pairDiscovery wantedTokens)
      (fun _ => ctx.budget.Noted) ctx.budget.Throws := by
  induction wantedTokens with
  | nil => exact Triple.pure fun _ h => Or.inr h
  | cons tokenIn wantedTokens ih =>
    unfold pairDiscovery
    split
    · exact Triple.throw fun _ h => ⟨nofun, Or.inr h⟩
    · refine Triple.bind (universeFor_calm ctx.budget _ _ _) fun result => ?_
      cases result with
      | error stop => exact (setStop_noted stop.global).pre fun _ h => global_calm h
      | ok cachedUniverse =>
        refine Triple.bind ((@examineOutputs_passes ctx.budget _ (fun _ => rfl) _).pre
          fun _ h => h nofun) fun flow => ?_
        cases flow with
        | breakPairDiscovery => exact Triple.pure fun _ h => h.1
        | next => exact ih.pre fun _ h => h.2 rfl

end DiscoveryContext

/-! ## The whole discovery -/

section Discovery

variable {budget : Budget} {retained : List Crossable}

/-- With the discovery budget spent, an exclusion scan that has an offer stops. -/
theorem addPairExclusions_spent (id : BucketId) (reason : LadderExclusionReason)
    (hretained : retained ≠ []) :
    Triple (fun s => budget.Calm s.work ∧ budget.Spent s.work ∧ s.work.excludedUniverses = [])
      (addPairExclusions budget id retained reason none) (fun _ _ => False) budget.Throws := by
  obtain ⟨offer, rest, rfl⟩ := List.exists_cons_of_ne_nil hretained
  unfold addPairExclusions
  refine Triple.bind (Q := fun before s => before = s ∧ budget.Calm s.work ∧ budget.Spent s.work ∧
    s.work.excludedUniverses = []) (Triple.get fun _ h => ⟨rfl, h⟩) fun before => ?_
  refine Triple.ite (fun hdone => ?_) fun _ => ?_
  · rintro s ⟨rfl, -, -, hnone⟩
    rw [hnone] at hdone
    cases hdone
  · refine Triple.bind (Q := fun _ _ => False) ?_ fun _ _ h => h.elim
    unfold scanExclusions
    have hcharge : Triple (fun s : Derivation => budget.Calm s.work ∧ budget.Spent s.work)
        (Derive.metered (budget.charge 1))
        (fun result s => result = .error .discoveryWorkCap ∧ budget.Calm s.work) budget.Throws := by
      rintro s ⟨hcalm, hspent⟩
      have hunit : budget.chargeUnits .discovery 1 s.work = (some .discoveryWorkCap, s.work) := by
        have hcap : budget.limits.maxDiscoveryWork ≤ s.work.diagnostics.discoveryWork := hspent
        unfold Budget.chargeUnits Budget.chargeUnit
        rw [if_pos hcap]
      unfold Program.outcome Derive.metered Program.outcome Budget.charge
      rw [hunit]
      exact ⟨rfl, hcalm⟩
    refine Triple.bind (hcharge.pre fun _ h => ⟨h.2.1, h.2.2.1⟩) fun charged => ?_
    cases charged with
    | ok _ => exact fun _ h => absurd h.1 (by simp)
    | error stop =>
      refine Triple.bind (Q := fun before s => before = s ∧ budget.Calm s.work)
        (Triple.get fun _ h => ⟨rfl, h.2⟩) fun before => ?_
      refine Triple.ite (fun _ => ?_) fun _ => Triple.throw fun _ h => ⟨by simp, Or.inr h.2⟩
      refine Triple.bind ((setStop_noted stop.global).pre fun _ h _ => h.2) fun _ => ?_
      exact Triple.throw fun _ h => ⟨by simp, h⟩

/-- No pair is examined yet, and nothing has stopped the derivation. -/
structure Budget.Starts (budget : Budget) (s : Derivation) : Prop where
  calm : budget.Calm s.work
  excludedUniverses : s.work.excludedUniverses = []
  pairs : s.work.diagnostics.pairs = []

/-- An early return is for a cancellation, before any pair is examined. -/
structure Budget.Exits (budget : Budget) (exit : DerivationExit) (s : Derivation) : Prop where
  noted : budget.Noted s
  returned : exit = .returned → s.work.diagnostics.pairs = [] ∧
    ∃ reason, s.work.diagnostics.stopReason = some (GlobalStop.abort reason).stopReason

/-- A stage that ends keeps the calm; the discovery cap stops one that spent its budget. -/
def Budget.StageEnds {α : Type} (budget : Budget) : Except BudgetStop α → Work → Prop
  | .ok _, work => budget.Calm work
  | .error stop, work => stop = .discoveryWorkCap → budget.Calm work ∧ budget.Spent work

theorem orReturn_heeds {α : Type} {stage : Budgeted α} (h : budget.Heeds stage)
    (hretained : retained ≠ []) :
    Triple budget.Starts (orReturn budget retained stage) (fun _ => budget.Starts) budget.Exits := by
  unfold orReturn
  refine Triple.bind (Q := fun result s => (s.work.excludedUniverses = [] ∧
    s.work.diagnostics.pairs = []) ∧ budget.StageEnds result s.work)
    (fun s hs => ?_) fun result => ?_
  · have hstage := h s.work.frame s.work ⟨hs.calm, rfl⟩
    have hframe : ∀ work : Work, work.frame = s.work.frame →
        work.excludedUniverses = [] ∧ work.diagnostics.pairs = [] := fun work hwork =>
      ⟨(congrArg (·.excludedUniverses) hwork).trans hs.excludedUniverses,
        (congrArg (·.pairs) hwork).trans hs.pairs⟩
    unfold Program.outcome Derive.metered
    cases hrun : stage.outcome s.work with
    | mk result work =>
      rw [hrun] at hstage
      cases result with
      | ok value => exact ⟨hframe work hstage.2, hstage.1⟩
      | error stop => exact ⟨hframe work hstage.1, hstage.2⟩
  · cases result with
    | ok value => exact Triple.pure fun _ h => ⟨h.2, h.1.1, h.1.2⟩
    | error stop =>
      cases stop with
      | discoveryWorkCap =>
        refine Triple.bind (Q := fun _ s => budget.Calm s.work ∧ budget.Spent s.work ∧
          s.work.excludedUniverses = []) (Triple.modify fun s h => ?_) fun _ => ?_
        · exact ⟨(h.2 rfl).1, (h.2 rfl).2, h.1.1⟩
        · refine Triple.bind (Q := fun _ _ => False) ((addPairExclusions_spent _ _ hretained).conseq
            (fun _ h => h) (fun _ _ h => h) fun exit s h => ⟨h.2, fun hexit => absurd hexit h.1⟩) ?_
          exact fun _ _ h => h.elim
      | abort reason =>
        let verdict : Option GlobalStop × Option LadderDerivationStopReason ×
            List LadderPairDiagnostic :=
          (some (.abort reason), some (GlobalStop.abort reason).stopReason, [])
        have hexits : ∀ exit (s : Derivation), s.work.verdict = verdict → budget.Exits exit s := by
          intro exit s hverdict
          obtain ⟨hglobal, hrest⟩ := Prod.mk.inj hverdict
          obtain ⟨hreason, hpairs⟩ := Prod.mk.inj hrest
          exact ⟨Or.inl (by rw [hglobal]; rfl), fun _ => ⟨hpairs, reason, hreason⟩⟩
        refine Triple.bind (Q := fun _ s => s.work.verdict = verdict)
          (Triple.modify fun s h => ?_) fun _ => ?_
        · exact congrArg (fun pairs => (some (GlobalStop.abort reason),
            some (GlobalStop.abort reason).stopReason, pairs)) h.1.2
        · refine Triple.bind ((addPairExclusions_noted budget _ _ _ _ rfl).conseq (fun _ h => h)
            (fun _ _ h => h) fun exit s h => hexits exit s h.2) fun _ => ?_
          exact Triple.throw fun s h => hexits _ s h

theorem discoverPairs_nil (comparisons : List CombinationState → Nat) (policy : JobAdmissionPolicy)
    (s : Derivation) : (discoverPairs budget comparisons policy []).outcome s = (.ok (), s) := rfl

/-- **The discovery heeds its callback**: it ends with every cancellation noted, and returns early
for nothing else. -/
theorem discoverPairs_heeds (comparisons : List CombinationState → Nat)
    (policy : JobAdmissionPolicy) :
    Triple budget.Starts (discoverPairs budget comparisons policy retained)
      (fun _ => budget.Noted) budget.Exits := by
  by_cases hretained : retained = []
  · rw [hretained]
    intro s hs
    rw [discoverPairs_nil]
    exact Or.inr hs.calm
  unfold discoverPairs
  refine Triple.bind (orReturn_heeds (buildDiscoveryGraph_heeds budget _) hretained) fun graph => ?_
  refine Triple.bind (orReturn_heeds (budget.charge_heeds _) hretained) fun _ => ?_
  refine Triple.bind (orReturn_heeds (budget.charge_heeds _) hretained) fun _ => ?_
  refine Triple.bind (orReturn_heeds (budget.chargeSort_heeds _) hretained) fun _ => ?_
  exact (DiscoveryContext.pairDiscovery_heeds _ _).conseq (fun _ h => h.calm) (fun _ _ h => h)
    fun _ _ h => ⟨h.2, fun hexit => absurd hexit h.1⟩

end Discovery

/-! ## The scan -/

/-- Why the scan ends early. -/
def ScanStopped (work : Work) : Prop :=
  work.diagnostics.stopReason = some .sourceOfferCap ∨
    ∃ reason, work.diagnostics.stopReason = some (GlobalStop.abort reason).stopReason

/-- The scan ends with no call that stops it, or early with its reason. -/
theorem scanOffers_heeds (budget : Budget) (options : DeriveLadderOptions)
    (unavailable : List String) (offers : List LadderSourceOffer) (frame : Work.Frame) :
    Triple (fun work => budget.Calm work ∧ work.frame = frame)
      (scanOffers budget options unavailable offers)
      (fun _ work => budget.Calm work ∧ work.frame = frame)
      (fun _ work => work.diagnostics.pairs = frame.pairs ∧ ScanStopped work) := by
  induction offers with
  | nil => exact Triple.pure fun _ h => h
  | cons offer offers ih =>
    unfold scanOffers
    refine Triple.bind (Q := fun _ work => budget.Calm work ∧ work.frame = frame)
      (Triple.modify fun _ h => h) fun _ => ?_
    refine Triple.bind (Q := fun _ work => budget.Calm work ∧ work.frame = frame)
      (Triple.get fun _ h => h) fun _ => ?_
    refine Triple.ite (fun _ => ?_) fun _ => ?_
    · rintro work ⟨-, hframe⟩
      exact ⟨congrArg (·.pairs) hframe, Or.inl rfl⟩
    · refine Triple.bind (Q := fun before work => before = work ∧ budget.Calm work ∧
        work.frame = frame) (Triple.get fun _ h => ⟨rfl, h⟩) fun before => ?_
      rintro work ⟨rfl, hcalm, hframe⟩
      refine (?_ : Triple (fun _ => True) _ _ _) before trivial
      dsimp only
      cases hpoll : budget.poll before with
      | mk stopped after =>
        obtain ⟨hkept, -, hnext⟩ := budget.poll_heeds hpoll
        refine Triple.bind (Q := fun _ work => (stopped = none → budget.Calm work) ∧
          work.frame = frame) (Triple.set ⟨fun h => hnext h hcalm, hkept.trans hframe⟩) fun _ => ?_
        cases stopped with
        | some reason =>
          rintro work ⟨-, hframe⟩
          exact ⟨congrArg (·.pairs) hframe, Or.inr ⟨reason, rfl⟩⟩
        | none =>
          refine Triple.pre (P := fun work => budget.Calm work ∧ work.frame = frame) ?_
            fun _ h => ⟨h.1 rfl, h.2⟩
          cases toCrossable offer options.nowMs options.expiryMarginSeconds unavailable with
          | error reason => exact Triple.bind (Triple.modify fun _ h => h) fun _ => ih
          | ok found => exact Triple.bind ih fun _ => Triple.pure fun _ h => h

end ZswapKernel
