import ZswapKernel.SolverCore.LadderPublished

/-!
# A derivation made again

The publisher and the executor derive from the same book with controls that resolve to the same
limits, so they derive the same ladder (`deriveLadder_rerun`). A ladder that publishes a pair was
derived to its end: no cancellation at its first poll, and every source offer scanned
(`deriveLadder_ran`).
-/

namespace ZswapKernel

open Program

/-- Resolved limits, as controls. -/
def LadderResourceLimits.controls (limits : LadderResourceLimits) : LadderResourceLimitControls where
  maxSourceOffers := some limits.maxSourceOffers
  maxVisitedSubsetsPerPair := some limits.maxVisitedSubsetsPerPair
  maxVisitedSubsetsTotal := some limits.maxVisitedSubsetsTotal
  maxMakersPerCombination := some limits.maxMakersPerCombination
  maxWirePointsPerPair := some limits.maxWirePointsPerPair
  maxPairs := some limits.maxPairs
  maxCandidatePairs := some limits.maxCandidatePairs
  maxDiscoveryWork := some limits.maxDiscoveryWork

/-! ## The limits -/

/-- A resolved control is accepted as it is. -/
theorem resolveControl_again {field : LadderResourceLimitName} {maximum : Nat}
    {control : Option Int} {value : Nat} (hmaximum : 1 ≤ maximum)
    (h : resolveControl field maximum control = .ok value) :
    resolveControl field maximum (some value) = .ok value := by
  obtain ⟨hpos, hle⟩ := resolveControl_ok hmaximum h
  exact (if_neg (by omega)).trans rfl

theorem resolveLadderResourceLimits_again {controls : Option LadderResourceLimitControls}
    {limits : LadderResourceLimits} (h : resolveLadderResourceLimits controls = .ok limits) :
    resolveLadderResourceLimits (some limits.controls) = .ok limits := by
  unfold resolveLadderResourceLimits at h
  cases controls with
  | none =>
    cases h
    rfl
  | some controls =>
    simp only [Except.bind_eq_ok] at h
    obtain ⟨_, h1, _, h2, _, h3, _, h4, _, h5, _, h6, _, h7, _, h8, h⟩ := h
    cases h
    unfold resolveLadderResourceLimits LadderResourceLimits.controls
    simp only [resolveControl_again (by decide) h1, resolveControl_again (by decide) h2,
      resolveControl_again (by decide) h3, resolveControl_again (by decide) h4,
      resolveControl_again (by decide) h5, resolveControl_again (by decide) h6,
      resolveControl_again (by decide) h7, resolveControl_again (by decide) h8]
    rfl

/-! ## The scan -/

theorem scanOffers_controls (budget : Budget) (options : DeriveLadderOptions)
    (controls : Option LadderResourceLimitControls) (unavailable : List String)
    (offers : List LadderSourceOffer) :
    scanOffers budget { options with resourceLimits := controls } unavailable offers =
      scanOffers budget options unavailable offers := by
  induction offers with
  | nil => rfl
  | cons offer offers ih =>
    unfold scanOffers
    rw [ih]

/-- **The same ladder** under controls that resolve to the same limits. -/
theorem deriveLadder_rerun {comparisons : List CombinationState → Nat}
    {offers : List LadderSourceOffer} {options : DeriveLadderOptions}
    {controls : Option LadderResourceLimitControls}
    (h : resolveLadderResourceLimits controls =
      resolveLadderResourceLimits options.resourceLimits) :
    deriveLadder comparisons offers { options with resourceLimits := controls } =
      deriveLadder comparisons offers options := by
  unfold deriveLadder
  rw [h]
  simp only [scanOffers_controls]

theorem stopScan_throws {α : Type} {P : Work → Prop} {Q : α → Work → Prop}
    (offer : LadderSourceOffer) (stopReason : LadderDerivationStopReason)
    (reason : LadderExclusionReason) :
    Triple P (stopScan offer stopReason reason) Q (fun _ _ => True) := fun _ _ => trivial

/-- A scan that reaches its end has counted every offer. -/
theorem scanOffers_counts (budget : Budget) (options : DeriveLadderOptions)
    (unavailable : List String) (offers : List LadderSourceOffer) (scanned : Nat)
    (hscanned : scanned ≤ budget.limits.maxSourceOffers) :
    Triple (fun work : Work => work.diagnostics.sourceOffersScanned = scanned)
      (scanOffers budget options unavailable offers)
      (fun _ _ => scanned + offers.length ≤ budget.limits.maxSourceOffers) (fun _ _ => True) := by
  induction offers generalizing scanned with
  | nil => exact Triple.pure fun _ _ => hscanned
  | cons offer offers ih =>
    have hlength : scanned + (offer :: offers).length = scanned + 1 + offers.length := by
      rw [List.length_cons]
      omega
    unfold scanOffers
    refine Triple.bind (Q := fun _ work => work.diagnostics.sourceOffersScanned = scanned + 1)
      (Triple.modify fun work hwork => congrArg (· + 1) hwork) fun _ => ?_
    refine Triple.bind (Q := fun before work => before = work ∧
      work.diagnostics.sourceOffersScanned = scanned + 1) (Triple.get fun _ h => ⟨rfl, h⟩)
      fun before => ?_
    intro work hwork
    obtain ⟨rfl, hcount⟩ := hwork
    refine (?_ : Triple (fun work => work = before) _ _ _) before rfl
    refine Triple.ite (fun _ => stopScan_throws _ _ _) fun hfew => ?_
    rw [hcount, not_lt] at hfew
    refine Triple.bind (Q := fun current work => current = work ∧
      work.diagnostics.sourceOffersScanned = scanned + 1)
      (Triple.get fun _ h => ⟨rfl, h ▸ hcount⟩) fun current => ?_
    intro work hwork
    obtain ⟨rfl, hcount⟩ := hwork
    refine (?_ : Triple (fun _ => True) _ _ _) current trivial
    refine Triple.bind (Q := fun _ work => work.diagnostics.sourceOffersScanned = scanned + 1)
      (Triple.set hcount) fun _ => ?_
    split
    · exact stopScan_throws _ _ _
    · rw [hlength]
      split
      · exact Triple.bind (Triple.modify fun _ h => h) fun _ => ih (scanned + 1) hfew
      · exact Triple.bind (ih (scanned + 1) hfew) fun _ => Triple.pure fun _ h => h

theorem deriveFrom_limits {budget : Budget} {comparisons : List CombinationState → Nat}
    {policy : JobAdmissionPolicy} {crossable : List Crossable} {work : Work}
    {derived : DerivedLadder}
    (h : deriveFrom budget comparisons policy crossable work = .ok derived) :
    derived.limits = budget.limits := by
  unfold deriveFrom at h
  simp only at h
  split at h <;> cases h <;> rfl

/-- **A ladder that publishes was derived to its end**: its limits were accepted, the first poll did
not stop it, and the book was within its cap. -/
theorem deriveLadder_ran {comparisons : List CombinationState → Nat}
    {offers : List LadderSourceOffer} {options : DeriveLadderOptions} {derived : DerivedLadder}
    (h : deriveLadder comparisons offers options = .ok derived) (hpublished : derived.levels ≠ []) :
    resolveLadderResourceLimits options.resourceLimits = .ok derived.limits ∧
      (abortReason options.shouldAbort 0).1 = none ∧
      offers.length ≤ derived.limits.maxSourceOffers := by
  have hempty : ∀ limits diagnostics excluded,
      derived ≠ emptyDerived limits diagnostics excluded := by
    rintro limits diagnostics excluded rfl
    exact hpublished rfl
  unfold deriveLadder at h
  split at h
  · cases h
    exact absurd rfl (hempty _ _ _)
  · rename_i limits hlimits
    simp only at h
    split at h
    · cases h
      exact absurd rfl (hempty _ _ _)
    · rename_i work hpoll
      split at h
      · cases h
        exact absurd rfl (hempty _ _ _)
      · rename_i crossable work' hscan
        obtain rfl : derived.limits = limits := deriveFrom_limits h
        refine ⟨hlimits, congrArg Prod.fst hpoll, ?_⟩
        have hcounts := scanOffers_counts ⟨derived.limits, options.shouldAbort⟩ options
          (options.unavailableOfferHashes.map toLowerCase) offers 0 (Nat.zero_le _) work
          (congrArg (·.diagnostics.sourceOffersScanned) (congrArg Prod.snd hpoll)).symm
        rw [hscan, zero_add] at hcounts
        exact hcounts

end ZswapKernel
