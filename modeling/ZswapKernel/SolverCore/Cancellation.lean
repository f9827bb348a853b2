import ZswapKernel.SolverCore.DeriveLadder
import ZswapKernel.SolverCore.EnumerateCorrect

/-!
# The stages heed the cancellation callback

`shouldAbort` is called from every meter, from the walk over the subsets, from the merge-order
planner and from the frontier sort. Each stage that sees an answer other than `false` stops for it:
when a stage goes on, or stops at a cap, no answer so far was one.

* `Calm` — no call so far cancels or throws.
* `findSafeWholeOfferMergeOrder_heeds` — the planner reports a cancellation.
* `Budget.Heeds` — what a metered stage does, with `Heeds.bind` and the rules beside it.
* `enumeratePair_heeds` — the pair search.
-/

namespace ZswapKernel

open Program

/-! ## The answers -/

/-- No call of the callback so far cancels or throws. -/
def Calm (shouldAbort : Option AbortCheck) (calls : Nat) : Prop :=
  ∀ call < calls, (abortReason shouldAbort call).1 = none

theorem calm_zero (shouldAbort : Option AbortCheck) : Calm shouldAbort 0 :=
  fun _ hcall => absurd hcall (Nat.not_lt_zero _)

/-- A call that does not stop is one more answer that does not. -/
theorem Calm.next {shouldAbort : Option AbortCheck} {calls calls' : Nat}
    (h : Calm shouldAbort calls) (hcall : abortReason shouldAbort calls = (none, calls')) :
    Calm shouldAbort calls' := by
  intro call hlt
  cases shouldAbort with
  | none => rfl
  | some check =>
    have hcalls : calls' ≤ calls + 1 := by
      unfold abortReason at hcall
      simp only at hcall
      split at hcall <;> cases hcall <;> rfl
    by_cases hlast : call = calls
    · rw [hlast, hcall]
    · exact h call (by omega)

/-! ## The planner -/

/-- A merge search within its budget; while it is not interrupted, no call so far stopped it. -/
structure MergeSearch.Heeds (search : MergeSearch) (env : MergeSearchEnv) : Prop where
  work_le : search.work ≤ env.maxWork
  calm : search.interruptReason = none → Calm env.shouldAbort search.calls
  exhausted : search.interruptReason ≠ none → search.exhausted = true

theorem MergeSearch.Heeds.with_path {search : MergeSearch} {env : MergeSearchEnv}
    (h : search.Heeds env) (path : List Nat) : { search with path := path }.Heeds env :=
  ⟨h.work_le, h.calm, h.exhausted⟩

/-- From a search that heeds its callback, uninterrupted, `descend` leads to one; with an order it
is still uninterrupted. -/
def DescentHeeds (env : MergeSearchEnv)
    (descend : Nat → Deltas → MergeSearch → Bool × MergeSearch) : Prop :=
  ∀ mask balances search found search', search.Heeds env → search.interruptReason = none →
    descend mask balances search = (found, search') →
      search'.Heeds env ∧ (found = true → search'.interruptReason = none)

theorem chargeTransition_heeds {env : MergeSearchEnv} {search search' : MergeSearch} {charged : Bool}
    (hsearch : search.Heeds env) (hnone : search.interruptReason = none)
    (h : chargeTransition env search = (charged, search')) :
    search'.Heeds env ∧ (charged = true → search'.interruptReason = none) := by
  unfold chargeTransition at h
  by_cases hcap : env.maxWork ≤ search.work
  · rw [if_pos hcap] at h
    cases h
    exact ⟨⟨hsearch.work_le, hsearch.calm, fun _ => rfl⟩, nofun⟩
  rw [if_neg hcap] at h
  simp only at h
  have hwork : search.work + 1 ≤ env.maxWork := by omega
  split at h
  · split at h
    · rename_i reason calls hcall
      cases h
      exact ⟨⟨hwork, nofun, fun _ => rfl⟩, nofun⟩
    · rename_i calls hcall
      cases h
      exact ⟨⟨hwork, fun _ => (hsearch.calm hnone).next hcall, hsearch.exhausted⟩, fun _ => hnone⟩
  · cases h
    exact ⟨⟨hwork, hsearch.calm, hsearch.exhausted⟩, fun _ => hnone⟩

theorem trySources_heeds {env : MergeSearchEnv}
    {descend : Nat → Deltas → MergeSearch → Bool × MergeSearch} (hdescend : DescentHeeds env descend)
    {mask : Nat} {balances : Deltas} {sources : List (OrderedSource × Nat)}
    {search search' : MergeSearch} {found : Bool} (hsearch : search.Heeds env)
    (hnone : search.interruptReason = none)
    (h : trySources env descend mask balances sources search = (found, search')) :
    search'.Heeds env ∧ (found = true → search'.interruptReason = none) := by
  induction sources generalizing search with
  | nil =>
    cases h
    exact ⟨⟨hsearch.work_le, hsearch.calm, hsearch.exhausted⟩, nofun⟩
  | cons entry rest ih =>
    obtain ⟨source, index⟩ := entry
    unfold trySources at h
    by_cases hused : mask.testBit index = true
    · rw [if_pos hused] at h
      exact ih hsearch hnone h
    rw [if_neg hused] at h
    cases hcharge : chargeTransition env search with
    | mk charged search1 =>
      rw [hcharge] at h
      obtain ⟨hsearch1, hgoes⟩ := chargeTransition_heeds hsearch hnone hcharge
      cases charged with
      | false =>
        cases h
        exact ⟨hsearch1, nofun⟩
      | true =>
        have hnone1 := hgoes rfl
        simp only at h
        cases hnext : addNetRows balances source.rows env.maximumDelta with
        | none =>
          rw [hnext] at h
          exact ih hsearch1 hnone1 h
        | some nextBalances =>
          rw [hnext] at h
          simp only at h
          cases hrun : descend (mask ||| 2 ^ index) nextBalances
            { search1 with path := search1.path ++ [index] } with
          | mk below search2 =>
            rw [hrun] at h
            obtain ⟨hsearch2, hfound⟩ := hdescend _ _
              { search1 with path := search1.path ++ [index] } _ _ (hsearch1.with_path _) hnone1 hrun
            cases below with
            | true =>
              cases h
              exact ⟨hsearch2, fun _ => hfound rfl⟩
            | false =>
              simp only at h
              by_cases hstop : search2.exhausted = true
              · rw [if_pos hstop] at h
                cases h
                exact ⟨hsearch2.with_path _, nofun⟩
              · rw [if_neg hstop] at h
                refine ih (hsearch2.with_path _) ?_ h
                by_contra hinterrupted
                exact hstop (hsearch2.exhausted hinterrupted)

theorem searchMask_heeds (env : MergeSearchEnv) (depth : Nat) :
    DescentHeeds env (searchMask env depth) := by
  induction depth with
  | zero =>
    intro mask balances search found search' hsearch hnone h
    unfold searchMask at h
    rw [ite_self] at h
    split at h <;> cases h <;> exact ⟨hsearch, fun _ => hnone⟩
  | succ depth ih =>
    intro mask balances search found search' hsearch hnone h
    unfold searchMask at h
    split at h
    · cases h
      exact ⟨hsearch, fun _ => hnone⟩
    · split at h
      · cases h
        exact ⟨hsearch, fun _ => hnone⟩
      · exact trySources_heeds ih hsearch hnone h

/-- What a planner run does: its failure reports a call that stops it, and its work is within its
limit. -/
structure PlanHeeds (shouldAbort : Option AbortCheck) (limit : Nat)
    (result : WholeOfferMergeOrderResult) (calls : Nat) : Prop where
  found : ∀ hashes usedFallback work, result = .found hashes usedFallback work →
    work ≤ limit ∧ Calm shouldAbort calls
  failed : ∀ reason work, result = .failed reason work →
    work ≤ limit ∧ ((∀ abort, reason ≠ .interrupted abort) → Calm shouldAbort calls)

theorem fallbackOrder_heeds {env : MergeSearchEnv} {calls : Nat}
    (hcalm : Calm env.shouldAbort calls) :
    PlanHeeds env.shouldAbort env.maxWork (fallbackOrder env calls).1
      (fallbackOrder env calls).2 := by
  unfold fallbackOrder
  cases hrun : searchMask env env.ordered.length 0 (fun _ => 0) ⟨[], [], 0, false, none, calls⟩ with
  | mk found search =>
    obtain ⟨hsearch, hfound⟩ := searchMask_heeds env _ _ _ _ _ _
      ⟨Nat.zero_le _, fun _ => hcalm, fun h => absurd rfl h⟩ rfl hrun
    cases found with
    | true =>
      refine ⟨fun hashes usedFallback work h => ?_, nofun⟩
      cases h
      exact ⟨hsearch.work_le, hsearch.calm (hfound rfl)⟩
    | false =>
      refine ⟨nofun, fun reason work h => ?_⟩
      simp only at h
      cases h
      refine ⟨hsearch.work_le, fun hnot => hsearch.calm ?_⟩
      cases hreason : search.interruptReason with
      | none => rfl
      | some abort =>
        rw [hreason] at hnot
        exact absurd rfl (hnot abort)

/-- **The planner reports a cancellation.** -/
theorem findSafeWholeOfferMergeOrder_heeds {sources : List WholeOfferMergeSource} {limit : Nat}
    {shouldAbort : Option AbortCheck} {calls calls' : Nat} {result : WholeOfferMergeOrderResult}
    (hcalm : Calm shouldAbort calls)
    (h : findSafeWholeOfferMergeOrder sources { maxWork := some (limit : Int), shouldAbort } calls =
      .ok (result, calls')) : PlanHeeds shouldAbort limit result calls' := by
  unfold findSafeWholeOfferMergeOrder at h
  dsimp only at h
  obtain ⟨-, -, h⟩ := Except.bind_eq_ok.mp h
  split at h
  · cases h
    refine ⟨nofun, fun reason work h => ?_⟩
    cases h
    exact ⟨Nat.zero_le _, fun _ => hcalm⟩
  · obtain ⟨ordered, -, h⟩ := Except.bind_eq_ok.mp h
    split at h
    · cases h
    · split at h
      · cases h
        exact ⟨fun _ _ _ h => by cases h; exact ⟨Nat.zero_le _, hcalm⟩, nofun⟩
      · let env : MergeSearchEnv :=
          ⟨ordered.insertionSort byOrderedHash, maxSettlementAmount, limit, shouldAbort⟩
        have hresult : fallbackOrder env calls = (result, calls') := Except.ok.inj h
        have hheeds := @fallbackOrder_heeds env calls hcalm
        rw [hresult] at hheeds
        exact hheeds

/-! ## Metered stages -/

/-- What no metered stage changes. -/
structure Work.Frame where
  globalStop : Option GlobalStop
  excludedUniverses : List (BucketId × LadderExclusionReason)
  stopReason : Option LadderDerivationStopReason
  pairs : List LadderPairDiagnostic

def Work.frame (work : Work) : Work.Frame :=
  ⟨work.globalStop, work.excludedUniverses, work.diagnostics.stopReason, work.diagnostics.pairs⟩

/-- No call of the derivation so far stops it. -/
def Budget.Calm (budget : Budget) (work : Work) : Prop :=
  ZswapKernel.Calm budget.shouldAbort work.abortCalls

/-- The discovery budget is spent. -/
def Budget.Spent (budget : Budget) (work : Work) : Prop :=
  budget.limits.maxDiscoveryWork ≤ work.diagnostics.discoveryWork

/-- A stage that goes on met no call that stops it; it stops at the cap only with the budget
spent. -/
def Budget.Heeds {α : Type} (budget : Budget) (stage : Budgeted α) : Prop :=
  ∀ frame, Triple (fun work => budget.Calm work ∧ work.frame = frame) stage
    (fun _ work => budget.Calm work ∧ work.frame = frame)
    (fun stop work => work.frame = frame ∧
      (stop = .discoveryWorkCap → budget.Calm work ∧ budget.Spent work))

section Heeds

variable {budget : Budget} {α β γ : Type}

theorem Heeds.pure {a : α} : budget.Heeds (pure a : Budgeted α) :=
  fun _ => Triple.pure fun _ h => h

theorem Heeds.bind {m : Budgeted α} {f : α → Budgeted β} (hm : budget.Heeds m)
    (hf : ∀ a, budget.Heeds (f a)) : budget.Heeds (m >>= f) :=
  fun frame => Triple.bind (hm frame) fun a => hf a frame

theorem Heeds.ite {c : Prop} [Decidable c] {m n : Budgeted α} (hm : budget.Heeds m)
    (hn : budget.Heeds n) : budget.Heeds (if c then m else n) :=
  fun frame => Triple.ite (fun _ => hm frame) fun _ => hn frame

theorem Heeds.foldlM {l : List γ} {f : α → γ → Budgeted α} (h : ∀ a x, budget.Heeds (f a x))
    (a : α) : budget.Heeds (l.foldlM f a) := by
  induction l generalizing a with
  | nil => exact Heeds.pure
  | cons x l ih =>
    rw [List.foldlM_cons]
    exact Heeds.bind (h a x) ih

theorem Heeds.mapM {l : List γ} {f : γ → Budgeted α} (h : ∀ x, budget.Heeds (f x)) :
    budget.Heeds (l.mapM f) := by
  induction l with
  | nil => exact Heeds.pure
  | cons x l ih =>
    rw [List.mapM_cons]
    exact Heeds.bind (h x) fun _ => Heeds.bind ih fun _ => Heeds.pure

variable (budget)

theorem Budget.poll_heeds {work work' : Work} {reason : Option AbortReason}
    (h : budget.poll work = (reason, work')) : work'.frame = work.frame ∧
      work'.diagnostics = work.diagnostics ∧
      (reason = none → budget.Calm work → budget.Calm work') := by
  unfold Budget.poll at h
  cases hcall : abortReason budget.shouldAbort work.abortCalls with
  | mk answer calls =>
    rw [hcall] at h
    cases h
    refine ⟨rfl, rfl, fun hanswer hcalm => Calm.next hcalm ?_⟩
    rw [hcall, hanswer]

theorem Budget.chargeUnit_heeds {kind : WorkKind} {work work' : Work} {stop : Option BudgetStop}
    (hcalm : budget.Calm work) (h : budget.chargeUnit kind work = (stop, work')) :
    work'.frame = work.frame ∧ (stop = none → budget.Calm work') ∧
      (stop = some .discoveryWorkCap → budget.Calm work' ∧ budget.Spent work') := by
  unfold Budget.chargeUnit at h
  split at h
  · rename_i hspent
    cases h
    exact ⟨rfl, nofun, fun _ => ⟨hcalm, hspent⟩⟩
  · simp only at h
    split at h
    · split at h
      · rename_i reason after hpoll
        cases h
        exact ⟨(budget.poll_heeds hpoll).1, nofun, nofun⟩
      · rename_i after hpoll
        cases h
        obtain ⟨hframe, -, hnext⟩ := budget.poll_heeds hpoll
        exact ⟨hframe, fun _ => hnext rfl hcalm, nofun⟩
    · cases h
      exact ⟨rfl, fun _ => hcalm, nofun⟩

theorem Budget.chargeUnits_heeds {kind : WorkKind} {units : Nat} {work work' : Work}
    {stop : Option BudgetStop} (hcalm : budget.Calm work)
    (h : budget.chargeUnits kind units work = (stop, work')) :
    work'.frame = work.frame ∧ (stop = none → budget.Calm work') ∧
      (stop = some .discoveryWorkCap → budget.Calm work' ∧ budget.Spent work') := by
  induction units generalizing work with
  | zero =>
    cases h
    exact ⟨rfl, fun _ => hcalm, nofun⟩
  | succ units ih =>
    unfold Budget.chargeUnits at h
    cases hunit : budget.chargeUnit kind work with
    | mk stopped after =>
      rw [hunit] at h
      have hafter := budget.chargeUnit_heeds hcalm hunit
      cases stopped with
      | some stopped =>
        cases h
        exact hafter
      | none =>
        rw [← hafter.1]
        exact ih (hafter.2.1 rfl) h

theorem Budget.charge_heeds (units : Nat) : budget.Heeds (budget.charge units) := by
  rintro frame work ⟨hcalm, hframe⟩
  unfold Program.outcome Budget.charge
  cases hunits : budget.chargeUnits .discovery units work with
  | mk stop after =>
    obtain ⟨hkept, hnone, hcap⟩ := budget.chargeUnits_heeds hcalm hunits
    cases stop with
    | none => exact ⟨hnone rfl, hkept.trans hframe⟩
    | some stop => exact ⟨hkept.trans hframe, fun hstop => hcap (congrArg some hstop)⟩

theorem Budget.chargeSort_heeds (length : Nat) : budget.Heeds (budget.chargeSort length) := by
  unfold Budget.chargeSort
  exact Heeds.ite Heeds.pure (budget.charge_heeds _)

theorem indexFor_heeds (index : TokenIndex) (token : String) :
    budget.Heeds (indexFor budget index token) := by
  unfold indexFor
  exact Heeds.ite Heeds.pure (Heeds.bind (budget.charge_heeds 1) fun _ => Heeds.pure)

theorem indexOffer_heeds (index : TokenIndex) (offer : Crossable) :
    budget.Heeds (indexOffer budget index offer) := by
  unfold indexOffer
  refine Heeds.bind (indexFor_heeds budget _ _) fun _ => ?_
  refine Heeds.bind (indexFor_heeds budget _ _) fun _ => ?_
  exact Heeds.bind (budget.charge_heeds 1) fun _ => Heeds.pure

theorem drainQueue_heeds (outgoing : Nat → List Nat) (fuel : Nat) (state : KahnState) :
    budget.Heeds (drainQueue budget outgoing fuel state) := by
  induction fuel generalizing state with
  | zero => exact Heeds.pure
  | succ fuel ih =>
    unfold drainQueue
    split
    · exact Heeds.pure
    · refine Heeds.bind (budget.charge_heeds 1) fun _ => Heeds.bind (Heeds.foldlM ?_ _) ih
      exact fun _ _ => Heeds.bind (budget.charge_heeds 1) fun _ => Heeds.pure

theorem buildDiscoveryGraph_heeds (offers : List Crossable) :
    budget.Heeds (buildDiscoveryGraph budget offers) := by
  have hcharge := budget.charge_heeds 1
  unfold buildDiscoveryGraph
  refine Heeds.bind (Heeds.foldlM (indexOffer_heeds budget) _) fun index => ?_
  refine Heeds.bind (Heeds.foldlM (fun _ _ => Heeds.bind hcharge fun _ => Heeds.pure) _)
    fun scan => ?_
  refine Heeds.bind (Heeds.foldlM (fun _ _ => Heeds.bind hcharge fun _ => Heeds.pure) _)
    fun degrees => ?_
  refine Heeds.bind (Heeds.foldlM (fun _ _ => Heeds.bind hcharge fun _ => Heeds.pure) _)
    fun seeded => ?_
  refine Heeds.bind (drainQueue_heeds budget _ _ _) fun drained => ?_
  refine Heeds.bind (Heeds.foldlM
    (fun _ _ => Heeds.bind hcharge fun _ => Heeds.ite Heeds.pure Heeds.pure) _) fun marked => ?_
  refine Heeds.bind (budget.chargeSort_heeds _) fun _ => Heeds.bind (Heeds.mapM ?_)
    fun _ => Heeds.pure
  exact fun _ => Heeds.bind (budget.chargeSort_heeds _) fun _ => Heeds.pure

theorem buildUniverse_heeds (graph : DiscoveryGraph) (retained : List Crossable)
    (component : DiscoveryComponent) :
    budget.Heeds (buildUniverse budget graph retained component) := by
  unfold buildUniverse
  refine Heeds.bind (budget.charge_heeds _) fun _ => Heeds.bind (budget.charge_heeds _) fun _ => ?_
  exact Heeds.bind (budget.chargeSort_heeds _) fun _ => Heeds.pure

theorem Budget.pollTimes_heeds (times : Nat) : budget.Heeds (budget.pollTimes times) := by
  induction times with
  | zero => exact Heeds.pure
  | succ times ih =>
    rintro frame work ⟨hcalm, hframe⟩
    unfold Budget.pollTimes
    rw [outcome_bind, outcome_get]
    simp only
    cases hpoll : budget.poll work with
    | mk reason after =>
      obtain ⟨hkept, -, hnext⟩ := budget.poll_heeds hpoll
      rw [outcome_bind, outcome_set]
      cases reason with
      | some reason => exact ⟨hkept.trans hframe, nofun⟩
      | none => exact ih frame after ⟨hnext rfl hcalm, hkept.trans hframe⟩

theorem bestOutputFrontier_heeds (comparisons : List CombinationState → Nat)
    (exact : List CombinationState) :
    budget.Heeds (bestOutputFrontier budget comparisons exact) := by
  have himproving : ∀ (ordered : List CombinationState) index bestOutput,
      budget.Heeds (improvingStates budget index bestOutput ordered) := by
    intro ordered
    induction ordered with
    | nil => exact fun _ _ => Heeds.pure
    | cons candidate ordered ih =>
      intro index bestOutput
      unfold improvingStates
      refine Heeds.bind (Heeds.ite (budget.pollTimes_heeds 1) Heeds.pure) fun _ => ?_
      exact Heeds.ite (ih _ _) (Heeds.bind (ih _ _) fun _ => Heeds.pure)
  unfold bestOutputFrontier
  exact Heeds.bind (budget.pollTimes_heeds _) fun _ => himproving _ _ _

end Heeds

/-! ## The pair search -/

/-- A search that is not stopped for a cancellation met none. -/
structure PairSearch.Heeds (search : PairSearch) (budget : Budget) (frame : Work.Frame) : Prop where
  frame_eq : search.work.frame = frame
  calm : (∀ reason, search.stop ≠ some (.reason (.abort reason))) → budget.Calm search.work

section Search

variable {budget : Budget} {frame : Work.Frame} {search : PairSearch}

theorem PairSearch.Heeds.calm_of_none (h : search.Heeds budget frame) (hstop : search.stop = none) :
    budget.Calm search.work :=
  h.calm fun reason => by rw [hstop]; exact nofun

theorem Budget.chargeUnits_frame (budget : Budget) (kind : WorkKind) (units : Nat) (work : Work) :
    (budget.chargeUnits kind units work).2.frame = work.frame := by
  have hunit : ∀ work, (budget.chargeUnit kind work).2.frame = work.frame := by
    intro work
    unfold Budget.chargeUnit
    split
    · rfl
    · simp only
      split
      · split <;> rename_i hpoll <;> exact (budget.poll_heeds hpoll).1
      · rfl
  induction units generalizing work with
  | zero => rfl
  | succ units ih =>
    have hfirst := hunit work
    unfold Budget.chargeUnits
    cases hcharge : budget.chargeUnit kind work with
    | mk stop after =>
      rw [hcharge] at hfirst
      cases stop with
      | some stop => exact hfirst
      | none => exact (ih after).trans hfirst

/-- A charge that fits in the discovery budget does not exhaust it. -/
theorem Budget.chargeUnits_fits (budget : Budget) (kind : WorkKind) {units : Nat} {work : Work}
    (hunits : units ≤ budget.remaining work) :
    (budget.chargeUnits kind units work).1 ≠ some .discoveryWorkCap := by
  induction units generalizing work with
  | zero => exact nofun
  | succ units ih =>
    unfold Budget.remaining at hunits
    have hroom : ¬ budget.limits.maxDiscoveryWork ≤ work.diagnostics.discoveryWork := by omega
    have hafter : ∀ stop after, budget.chargeUnit kind work = (stop, after) →
        stop ≠ some .discoveryWorkCap ∧
          after.diagnostics.discoveryWork = work.diagnostics.discoveryWork + 1 := by
      intro stop after h
      unfold Budget.chargeUnit at h
      rw [if_neg hroom] at h
      simp only at h
      split at h
      · split at h
        · rename_i reason polled hpoll
          cases h
          exact ⟨nofun, congrArg (·.discoveryWork) (budget.poll_heeds hpoll).2.1⟩
        · rename_i polled hpoll
          cases h
          exact ⟨nofun, congrArg (·.discoveryWork) (budget.poll_heeds hpoll).2.1⟩
      · cases h
        exact ⟨nofun, rfl⟩
    unfold Budget.chargeUnits
    cases hcharge : budget.chargeUnit kind work with
    | mk stop after =>
      obtain ⟨hnot, hwork⟩ := hafter stop after hcharge
      cases stop with
      | some stop => exact hnot
      | none =>
        refine ih ?_
        unfold Budget.remaining
        omega

theorem enterSubset_heeds (hsearch : search.Heeds budget frame) (hstop : search.stop = none) :
    (enterSubset budget search).Heeds budget frame := by
  have hcalm := hsearch.calm_of_none hstop
  unfold enterSubset
  split
  · exact ⟨hsearch.frame_eq, fun _ => hcalm⟩
  · split
    · exact ⟨hsearch.frame_eq, fun _ => hcalm⟩
    · simp only
      split
      · split
        · rename_i reason after hpoll
          exact ⟨(budget.poll_heeds hpoll).1.trans hsearch.frame_eq, fun h => absurd rfl (h reason)⟩
        · rename_i after hpoll
          obtain ⟨hframe, -, hnext⟩ := budget.poll_heeds hpoll
          exact ⟨hframe.trans hsearch.frame_eq, fun _ => hnext rfl hcalm⟩
      · exact ⟨hsearch.frame_eq, fun _ => hcalm⟩

theorem considerDirect_heeds (candidate : Crossable) (branch : Branch)
    (hsearch : search.Heeds budget frame) :
    (considerDirect candidate branch search).2.Heeds budget frame := by
  unfold considerDirect
  simp only
  split <;> exact ⟨hsearch.frame_eq, hsearch.calm⟩

/-- A charge for planned work within the budget stops for a cancellation only. -/
theorem chargeMergeOrder_heeds {units : Nat} (hstop : search.stop = none)
    (hunits : units ≤ budget.remaining search.work) :
    (chargeMergeOrder budget units search).work.frame = search.work.frame ∧
      (budget.Calm search.work → (chargeMergeOrder budget units search).stop = none →
        budget.Calm (chargeMergeOrder budget units search).work) ∧
      ∀ stop, (chargeMergeOrder budget units search).stop = some stop →
        ∃ reason, stop = .reason (.abort reason) := by
  unfold chargeMergeOrder
  by_cases hzero : units = 0
  · rw [if_pos hzero]
    exact ⟨rfl, fun hcalm _ => hcalm, fun stop h => by rw [hstop] at h; cases h⟩
  rw [if_neg hzero]
  have hframe := budget.chargeUnits_frame .safeMergeOrder units search.work
  have hfits := budget.chargeUnits_fits .safeMergeOrder hunits
  have hcalm := fun hcalm => @Budget.chargeUnits_heeds budget .safeMergeOrder units search.work
    (budget.chargeUnits .safeMergeOrder units search.work).2
    (budget.chargeUnits .safeMergeOrder units search.work).1 hcalm rfl
  cases hcharge : budget.chargeUnits .safeMergeOrder units search.work with
  | mk stop after =>
    rw [hcharge] at hframe hfits hcalm
    cases stop with
    | none => exact ⟨hframe, fun h _ => (hcalm h).2.1 rfl, fun stop h => by rw [hstop] at h; cases h⟩
    | some stop =>
      refine ⟨hframe, fun _ h => (by cases h), fun halted h => ?_⟩
      cases h
      cases stop with
      | discoveryWorkCap => exact absurd rfl hfits
      | abort reason => exact ⟨reason, rfl⟩

/-- The subset after its merge order is charged: a cancellation of the planner, or of the charge,
is the reason the search stops. -/
theorem considerEconomic_heeds {env : PairEnv} {branch : Branch} {input output : Int}
    (hsearch : search.Heeds env.budget frame) (hstop : search.stop = none) :
    (considerEconomic env branch input output search).Heeds env.budget frame := by
  have hcalm := hsearch.calm_of_none hstop
  unfold considerEconomic
  generalize hlimit : min maxSafeMergeOrderWork (env.budget.remaining search.work) = limit
  have hremaining : limit ≤ env.budget.remaining search.work := by omega
  dsimp only
  have hplanned : ∀ result calls, (if branch.sortedPrefixSafe then
        .ok (.found [] false 0, search.work.abortCalls)
      else findSafeWholeOfferMergeOrder (branch.selected.map (·.mergeSource))
        { maxWork := some (limit : Int), shouldAbort := env.budget.shouldAbort }
        search.work.abortCalls : Except String (WholeOfferMergeOrderResult × Nat)) =
          .ok (result, calls) → PlanHeeds env.budget.shouldAbort limit result calls := by
    intro result calls h
    split at h
    · cases h
      exact ⟨fun _ _ _ h => by cases h; exact ⟨Nat.zero_le _, hcalm⟩, nofun⟩
    · exact findSafeWholeOfferMergeOrder_heeds hcalm h
  generalize (if branch.sortedPrefixSafe then
        .ok (.found [] false 0, search.work.abortCalls)
      else findSafeWholeOfferMergeOrder (branch.selected.map (·.mergeSource))
        { maxWork := some (limit : Int), shouldAbort := env.budget.shouldAbort }
        search.work.abortCalls : Except String (WholeOfferMergeOrderResult × Nat)) = planned
    at hplanned ⊢
  cases planned with
  | error message => exact ⟨hsearch.frame_eq, fun _ => hcalm⟩
  | ok planned =>
    obtain ⟨result, calls⟩ := planned
    have hresult := hplanned result calls rfl
    have hcharge := fun units (hunits : units ≤ limit) => @chargeMergeOrder_heeds env.budget
      { search with work := { search.work with abortCalls := calls } } units hstop
      (hunits.trans hremaining)
    cases result with
    | found hashes usedFallback units =>
      obtain ⟨hunits, hcalls⟩ := hresult.found _ _ _ rfl
      obtain ⟨hframe, hnone, hsome⟩ := hcharge units hunits
      simp only
      split
      · rename_i hstopped
        obtain ⟨stop, hstopped⟩ := Option.isSome_iff_exists.mp hstopped
        obtain ⟨reason, rfl⟩ := hsome stop hstopped
        exact ⟨hframe.trans hsearch.frame_eq, fun h => absurd hstopped (h reason)⟩
      · rename_i hgoes
        exact ⟨hframe.trans hsearch.frame_eq, fun _ => hnone hcalls (by simpa using hgoes)⟩
    | failed reason units =>
      obtain ⟨hunits, hcalls⟩ := hresult.failed _ _ rfl
      obtain ⟨hframe, hnone, hsome⟩ := hcharge units hunits
      simp only
      split
      · rename_i hstopped
        obtain ⟨stop, hstopped⟩ := Option.isSome_iff_exists.mp hstopped
        obtain ⟨reason, rfl⟩ := hsome stop hstopped
        exact ⟨hframe.trans hsearch.frame_eq, fun h => absurd hstopped (h reason)⟩
      · rename_i hgoes
        have hquiet := fun hnot => hnone (hcalls hnot) (by simpa using hgoes)
        cases reason with
        | interrupted abort => exact ⟨hframe.trans hsearch.frame_eq, fun h => absurd rfl (h abort)⟩
        | unsafeMergeOrder => exact ⟨hframe.trans hsearch.frame_eq, fun _ => hquiet nofun⟩
        | mergeOrderWorkCap => exact ⟨hframe.trans hsearch.frame_eq, fun _ => hquiet nofun⟩
        | tooManySources => exact ⟨hframe.trans hsearch.frame_eq, fun _ => hquiet nofun⟩

theorem considerComposed_heeds {env : PairEnv} (candidate : Crossable) (branch : Branch)
    (hsearch : search.Heeds env.budget frame) (hstop : search.stop = none) :
    (considerComposed env candidate branch search).2.Heeds env.budget frame := by
  rw [considerComposed_eq]
  dsimp only
  split
  · split
    · exact hsearch
    · exact ⟨hsearch.frame_eq, hsearch.calm⟩
    · exact considerEconomic_heeds hsearch hstop
  · exact hsearch

/-- The walk, by induction on the bucket. -/
theorem visit_heeds {env : PairEnv} (bucket : List Crossable) (branch : Branch)
    (hsearch : search.Heeds env.budget frame) :
    (visit env bucket branch search).Heeds env.budget frame := by
  induction bucket generalizing branch search with
  | nil => exact hsearch
  | cons candidate bucket ih =>
    by_cases hstop : search.stop = none
    · have hentered := enterSubset_heeds hsearch hstop
      by_cases henter : (enterSubset env.budget search).stop = none
      · rw [visit_cons env candidate bucket branch hstop henter]
        refine ih branch ?_
        have hconsidered :
            (consider env candidate branch (enterSubset env.budget search)).2.Heeds
              env.budget frame := by
          unfold consider
          split
          · exact considerDirect_heeds candidate branch hentered
          · exact considerComposed_heeds candidate branch hentered henter
        unfold descend
        split
        · exact hconsidered
        · split
          · exact ih _ hconsidered
          · exact hconsidered
      · unfold visit
        rw [if_neg (by simp [hstop]), if_pos (Option.isSome_iff_ne_none.mpr henter)]
        exact hentered
    · rw [visit_of_stop env _ branch (Option.isSome_iff_ne_none.mpr hstop)]
      exact hsearch

/-- **The pair search stops for a cancellation** it met. -/
theorem enumeratePair_heeds {work : Work} (hcalm : budget.Calm work) (bucket : List Crossable)
    (tokenIn tokenOut : String) (tokenAt : List String) :
    (enumeratePair budget bucket tokenIn tokenOut tokenAt work).Heeds budget work.frame :=
  @visit_heeds _ _ ⟨budget, tokenAt, tokenIn, tokenOut, _⟩ bucket _ ⟨rfl, fun _ => hcalm⟩

end Search

end ZswapKernel
