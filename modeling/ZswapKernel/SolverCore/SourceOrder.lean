import ZswapKernel.SolverCore.LadderCancelled
import ZswapKernel.SolverCore.LadderQuotes

/-!
# The derivation does not depend on the order of its sources

The scan pushes an exclusion for each ineligible source in the order it reads them, and everything
after it works on sorted lists and on the set of excluded keys. A derivation that reaches its end
sorts its exclusions too; the one exit that does not is taken for a cancellation only.

* `Keyed`, `eq_of_shuffled` — exclusions with one entry a key have one sorted order.
* `scanOffers_excluded` — what the scan excludes.
* `deriveFrom_shuffled` — the same ladder from the eligible offers in any order.
* `deriveLadder_perm` — the same ladder from the sources in any order.
-/

namespace ZswapKernel

open Program

/-! ## Sorted exclusions -/

section Exclusions

/-- Every reason, once. -/
def LadderExclusionReason.all : List LadderExclusionReason :=
  [.multiLeg, .nonShieldedLeg, .nonPositiveAmount, .sameToken, .malformedToken, .malformedHash,
    .malformedNullifier, .noExpiry, .expiring, .unavailable, .duplicateOffer, .sharedCoin,
    .settlementAmountCap, .sourceOfferCap, .pairSearchCap, .globalSearchCap, .wirePointCap,
    .pairCap, .candidatePairCap, .discoveryWorkCap, .unsafeMergeOrder, .mergeOrderWorkCap,
    .unsupportedPair, .minimumOutput, .aborted, .abortCheckFailed, .invalidPair]

/-- Two reasons are told apart by their texts. -/
theorem LadderExclusionReason.text_injective : Function.Injective LadderExclusionReason.text := by
  have hnodup : (all.map text).Nodup := by decide +kernel
  have hall : ∀ reason, reason ∈ all := by
    intro reason
    cases reason <;> decide
  exact fun left right h => List.inj_on_of_nodup_map hnodup (hall left) (hall right) h

/-- One entry for each hash and reason. -/
def Keyed (excluded : List LadderExclusion) : Prop :=
  ∀ left ∈ excluded, ∀ right ∈ excluded, left.offerHash = right.offerHash →
    left.reason = right.reason → left = right

/-- The same exclusions in another order. -/
def Shuffled (excluded excluded' : List LadderExclusion) : Prop :=
  excluded.Perm excluded' ∧ Keyed excluded

/-- Whether an exclusion is new does not depend on the order of the others. -/
theorem shuffled_addsAlike : AddsAlike Shuffled := by
  rintro work work' entry ⟨hperm, hkeyed⟩
  have hknown : (work.excluded.any fun known =>
        known.offerHash = entry.offerHash ∧ known.reason = entry.reason) =
      work'.excluded.any fun known =>
        known.offerHash = entry.offerHash ∧ known.reason = entry.reason := hperm.any_eq
  unfold Work.addExclusion
  rw [← hknown]
  by_cases hany : (work.excluded.any fun known =>
      known.offerHash = entry.offerHash ∧ known.reason = entry.reason) = true
  · rw [if_pos hany, if_pos hany]
    exact ⟨hperm, hkeyed⟩
  · rw [if_neg hany, if_neg hany]
    have hnew : ∀ known ∈ work.excluded, known.offerHash = entry.offerHash →
        known.reason ≠ entry.reason := by
      intro known hmem hhash hreason
      exact hany (List.any_eq_true.mpr ⟨known, hmem, by simp [hhash, hreason]⟩)
    refine ⟨hperm.append_right _, fun left hleft right hright hhash hreason => ?_⟩
    rcases List.mem_append.mp hleft with hold | hadded <;>
      rcases List.mem_append.mp hright with hold' | hadded'
    · exact hkeyed left hold right hold' hhash hreason
    · rw [List.mem_singleton.mp hadded'] at hhash hreason
      exact absurd hreason (hnew left hold hhash)
    · rw [List.mem_singleton.mp hadded] at hhash hreason
      exact absurd hreason.symm (hnew right hold' hhash.symm)
    · rw [List.mem_singleton.mp hadded, List.mem_singleton.mp hadded']

instance : Std.Total byExclusion := ⟨fun left right => by
  unfold byExclusion
  rcases lt_trichotomy left.offerHash right.offerHash with hlt | heq | hgt
  · exact Or.inl (Or.inl hlt)
  · rcases le_total left.reason.text right.reason.text with hle | hle
    · exact Or.inl (Or.inr ⟨heq, hle⟩)
    · exact Or.inr (Or.inr ⟨heq.symm, hle⟩)
  · exact Or.inr (Or.inl hgt)⟩

instance : IsTrans LadderExclusion byExclusion := ⟨fun left middle right h h' => by
  rcases h with hlt | ⟨heq, hle⟩ <;> rcases h' with hlt' | ⟨heq', hle'⟩
  · exact Or.inl (hlt.trans hlt')
  · exact Or.inl (heq' ▸ hlt)
  · exact Or.inl (heq ▸ hlt')
  · exact Or.inr ⟨heq.trans heq', hle.trans hle'⟩⟩

/-- **One sorted order**: shuffled exclusions are sorted to the same list. -/
theorem eq_of_shuffled {excluded excluded' : List LadderExclusion} (h : Shuffled excluded excluded') :
    excluded.insertionSort byExclusion = excluded'.insertionSort byExclusion := by
  have hleft := List.perm_insertionSort byExclusion excluded
  have hright := List.perm_insertionSort byExclusion excluded'
  refine (hleft.trans (h.1.trans hright.symm)).eq_of_pairwise (fun a b ha hb hab hba => ?_)
    (List.pairwise_insertionSort _ _) (List.pairwise_insertionSort _ _)
  have ha' := hleft.mem_iff.mp ha
  have hb' := h.1.mem_iff.mpr (hright.mem_iff.mp hb)
  rcases hab with hlt | ⟨heq, hle⟩
  · rcases hba with hgt | ⟨heq, -⟩
    · exact absurd hlt hgt.asymm
    · exact absurd hlt (heq ▸ lt_irrefl _)
  · rcases hba with hgt | ⟨-, hge⟩
    · exact absurd hgt (heq ▸ lt_irrefl _)
    · exact h.2 a ha' b hb' heq (LadderExclusionReason.text_injective (le_antisymm hle hge))

end Exclusions

/-! ## What the scan and the duplicates exclude -/

section Scan

variable {budget : Budget} {options : DeriveLadderOptions}

/-- What the scan excludes of one source. -/
def scanExclusion (options : DeriveLadderOptions) (unavailable : List String)
    (offer : LadderSourceOffer) : Option LadderExclusion :=
  match toCrossable offer options.nowMs options.expiryMarginSeconds unavailable with
  | .error reason => some ⟨excludedHash offer, reason, none⟩
  | .ok _ => none

theorem scanOffers_excluded (unavailable : List String) (offers : List LadderSourceOffer)
    (before : List LadderExclusion) :
    Triple (fun work => work.excluded = before) (scanOffers budget options unavailable offers)
      (fun _ work => work.excluded = before ++ offers.filterMap (scanExclusion options unavailable))
      (fun _ _ => True) := by
  induction offers generalizing before with
  | nil => exact Triple.pure fun _ h => by simpa using h
  | cons offer offers ih =>
    unfold scanOffers
    refine Triple.bind (Q := fun _ work => work.excluded = before) (Triple.modify fun _ h => h)
      fun _ => ?_
    refine Triple.bind (Q := fun _ work => work.excluded = before) (Triple.get fun _ h => h)
      fun _ => ?_
    refine Triple.ite (fun _ => stopScan_throws _ _ _) fun _ => ?_
    refine Triple.bind (Q := fun current work => current.excluded = before) (Triple.get fun _ h => h)
      fun current => ?_
    rintro work hcurrent
    refine (?_ : Triple (fun _ => True) _ _ _) work trivial
    dsimp only
    refine Triple.bind (Q := fun _ work => work.excluded = before) (Triple.set hcurrent) fun _ => ?_
    split
    · exact stopScan_throws _ _ _
    · rw [List.filterMap_cons]
      unfold scanExclusion
      cases toCrossable offer options.nowMs options.expiryMarginSeconds unavailable with
      | error reason =>
        refine Triple.bind (Q := fun _ work => work.excluded =
          before ++ [⟨excludedHash offer, reason, none⟩])
          (Triple.modify fun work h => congrArg (· ++ _) h) fun _ => ?_
        refine (ih _).conseq (fun _ h => h) (fun _ _ h => ?_) fun _ _ h => h
        rw [h, List.append_assoc]
        rfl
      | ok found => exact Triple.bind (ih before) fun _ => Triple.pure fun _ h => h

theorem duplicateExclusions_perm {crossable crossable' : List Crossable}
    (h : crossable.Perm crossable') :
    (duplicateExclusions crossable).Perm (duplicateExclusions crossable') := by
  have hcount : ∀ hash, hashCount crossable hash = hashCount crossable' hash :=
    fun hash => (h.map _).count_eq hash
  unfold duplicateExclusions
  simp only [hcount]
  exact ((((List.perm_insertionSort _ _).trans h).trans
    (List.perm_insertionSort _ _).symm).filter _).map _

/-- The exclusions before the search carry no details. -/
theorem claimCoins_detail (claimed : List String) (offers : List Crossable) :
    ∀ entry ∈ (claimCoins claimed offers).2, entry.detail = none := by
  induction offers generalizing claimed with
  | nil => exact fun _ h => absurd h List.not_mem_nil
  | cons offer offers ih =>
    unfold claimCoins
    split
    · intro entry hentry
      rcases List.mem_cons.mp hentry with rfl | hentry
      · rfl
      · exact ih claimed entry hentry
    · exact ih _

/-- Entries without details are told apart by their keys. -/
theorem keyed_of_detail {excluded : List LadderExclusion}
    (h : ∀ entry ∈ excluded, entry.detail = none) : Keyed excluded := by
  rintro ⟨hash, reason, detail⟩ hleft ⟨hash', reason', detail'⟩ hright hhash hreason
  obtain rfl : detail = none := h _ hleft
  obtain rfl : detail' = none := h _ hright
  obtain rfl : hash = hash' := hhash
  obtain rfl : reason = reason' := hreason
  rfl

end Scan

/-! ## The same ladder -/

section Derived

variable {budget : Budget} {comparisons : List CombinationState → Nat} {policy : JobAdmissionPolicy}

/-- Neither the source cap nor the callback stopped the derivation. -/
structure DerivedLadder.Uninterrupted (derived : DerivedLadder) : Prop where
  uncapped : derived.diagnostics.stopReason ≠ some .sourceOfferCap
  uncancelled : ∀ reason : AbortReason,
    derived.diagnostics.stopReason ≠ some (GlobalStop.abort reason).stopReason

theorem cancel_respects {X : List LadderExclusion → List LadderExclusion → Prop} (hX : AddsAlike X)
    {retained : List Crossable} {s s' : Derivation} (h : s.Same X s') :
    (cancel budget retained s).Same X (cancel budget retained s') := by
  unfold cancel
  rw [← h.work.globalStop]
  split
  · rename_i reason hstop
    let withdrawn := fun work : Work => { work with diagnostics := { work.diagnostics with
      pairs := work.diagnostics.pairs.map (LadderPairDiagnostic.withdraw reason.exclusion) } }
    obtain ⟨-, hend⟩ := addPairExclusions_respects hX budget .retained retained reason.exclusion none
      { s with work := withdrawn s.work } { s' with work := withdrawn s'.work }
      ⟨h.work.of_excluding withdrawn fun _ _ => rfl, h.published, h.universes⟩
    exact ⟨hend.work, rfl, hend.universes⟩
  · exact h

theorem assemble_shuffled {limits : LadderResourceLimits} {s s' : Derivation}
    (h : s.Same Shuffled s') : assemble limits s = assemble limits s' := by
  unfold assemble
  rw [h.published, h.work.diagnostics, eq_of_shuffled h.work.excluded]

/-- The same ladder from the eligible offers, and the exclusions so far, in any order. -/
theorem deriveFrom_shuffled {crossable crossable' : List Crossable} {work work' : Work}
    (hperm : crossable.Perm crossable') (hbare : work.bare = work'.bare)
    (hexcluded : work.excluded.Perm work'.excluded)
    (hdetail : ∀ entry ∈ work.excluded, entry.detail = none) (hcalm : budget.Calm work)
    (hframe : work.excludedUniverses = [] ∧ work.diagnostics.pairs = [])
    (hran : ∀ derived, deriveFrom budget comparisons policy crossable work = .ok derived →
      derived.Uninterrupted) :
    deriveFrom budget comparisons policy crossable work =
      deriveFrom budget comparisons policy crossable' work' := by
  unfold deriveFrom at hran ⊢
  rw [← uniqueOffers_perm hperm]
  simp only at hran ⊢
  have hdetails : ∀ entry ∈ work.excluded ++ duplicateExclusions crossable ++
      (claimCoins [] (uniqueOffers crossable)).2, entry.detail = none := by
    intro entry hentry
    rcases List.mem_append.mp hentry with hentry | hentry
    · rcases List.mem_append.mp hentry with hentry | hentry
      · exact hdetail entry hentry
      · obtain ⟨offer, -, rfl⟩ := List.mem_map.mp hentry
        rfl
    · exact claimCoins_detail _ _ entry hentry
  have hshuffled : Shuffled (work.excluded ++ duplicateExclusions crossable ++
        (claimCoins [] (uniqueOffers crossable)).2)
      (work'.excluded ++ duplicateExclusions crossable' ++
        (claimCoins [] (uniqueOffers crossable)).2) :=
    ⟨(hexcluded.append (duplicateExclusions_perm hperm)).append_right _, keyed_of_detail hdetails⟩
  generalize (claimCoins [] (uniqueOffers crossable)).1 = retained at hran ⊢
  generalize work.excluded ++ duplicateExclusions crossable ++
    (claimCoins [] (uniqueOffers crossable)).2 = excluded at hran hshuffled ⊢
  generalize work'.excluded ++ duplicateExclusions crossable' ++
    (claimCoins [] (uniqueOffers crossable)).2 = excluded' at hshuffled ⊢
  obtain ⟨hresult, hend⟩ := discoverPairs_respects shuffled_addsAlike budget comparisons policy
    retained { work := { work with excluded } } { work := { work' with excluded := excluded' } }
    ⟨⟨hbare, hshuffled⟩, rfl, rfl⟩
  have hheeds := @discoverPairs_heeds budget retained comparisons policy
    { work := { work with excluded } } ⟨hcalm, hframe.1, hframe.2⟩
  cases hrun : (discoverPairs budget comparisons policy retained).outcome
    { work := { work with excluded } } with
  | mk result t =>
    cases hrun' : (discoverPairs budget comparisons policy retained).outcome
      { work := { work' with excluded := excluded' } } with
    | mk result' t' =>
      rw [hrun, hrun'] at hresult hend
      rw [hrun] at hran hheeds
      cases hresult
      cases result with
      | ok _ =>
        exact congrArg Except.ok (assemble_shuffled (cancel_respects shuffled_addsAlike hend))
      | error exit =>
        cases exit with
        | exclusionScanStop =>
          have hwork := hend.work.of_excluding Work.noteScanStop fun _ _ => rfl
          exact congrArg Except.ok (assemble_shuffled (cancel_respects shuffled_addsAlike
            ⟨hwork, hend.published, hend.universes⟩))
        | returned =>
          obtain ⟨-, reason, hreason⟩ := hheeds.returned rfl
          exact absurd hreason ((hran _ rfl).uncancelled reason)
        | thrown message => rfl

/-- **Order independence**: a derivation that neither the source cap nor the callback stops is the
same for its sources in any order. -/
theorem deriveLadder_perm {offers offers' : List LadderSourceOffer} {options : DeriveLadderOptions}
    (hperm : offers.Perm offers')
    (hran : ∀ derived, deriveLadder comparisons offers options = .ok derived →
      derived.Uninterrupted) :
    deriveLadder comparisons offers options = deriveLadder comparisons offers' options := by
  unfold deriveLadder at hran ⊢
  split at hran
  · rfl
  · rename_i limits hlimits
    simp only at hran ⊢
    split at hran
    · rfl
    · rename_i work hpoll
      have hcalm : Budget.Calm ⟨limits, options.shouldAbort⟩ work :=
        (Budget.poll_heeds _ hpoll).2.2 rfl (calm_zero _)
      have hframe := (Budget.poll_heeds _ hpoll).1
      have hheeds := scanOffers_heeds ⟨limits, options.shouldAbort⟩ options
        (options.unavailableOfferHashes.map toLowerCase) offers work.frame work ⟨hcalm, rfl⟩
      split at hran
      · rename_i stopped after hscan
        rw [hscan] at hheeds
        rcases hheeds.2 with hcap | ⟨reason, habort⟩
        · exact absurd hcap (hran _ rfl).uncapped
        · exact absurd habort ((hran _ rfl).uncancelled reason)
      · rename_i crossable after hscan
        obtain ⟨crossable', after', hscan', hafter⟩ := scanOffers_again options
          (options.unavailableOfferHashes.map toLowerCase) hperm.length_eq rfl hscan
        have hfound := scanOffers_returns _ _ _ _ _ _ _ hscan
        have hfound' := scanOffers_returns _ _ _ _ _ _ _ hscan'
        have hkept : after.frame = work.frame := by
          rw [hscan] at hheeds
          exact hheeds.2
        have hbefore : work.excluded = [] :=
          congrArg (·.excluded) (congrArg Prod.snd hpoll).symm
        have hexcluded := @scanOffers_excluded ⟨limits, options.shouldAbort⟩ options
          (options.unavailableOfferHashes.map toLowerCase) offers [] work hbefore
        have hexcluded' := @scanOffers_excluded ⟨limits, options.shouldAbort⟩ options
          (options.unavailableOfferHashes.map toLowerCase) offers' [] work hbefore
        rw [hscan] at hexcluded hheeds
        rw [hscan'] at hexcluded' ⊢
        rw [List.nil_append] at hexcluded hexcluded'
        refine deriveFrom_shuffled ?_ hafter ?_ ?_ hheeds.1 ?_ hran
        · rw [hfound, hfound']
          exact hperm.filterMap _
        · rw [hexcluded, hexcluded']
          exact hperm.filterMap _
        · rw [hexcluded]
          intro entry hentry
          obtain ⟨offer, -, hoffer⟩ := List.mem_filterMap.mp hentry
          unfold scanExclusion at hoffer
          split at hoffer <;> cases hoffer
          rfl
        · rw [show after.excludedUniverses = work.excludedUniverses from
              congrArg (·.excludedUniverses) hkept,
            show after.diagnostics.pairs = work.diagnostics.pairs from
              congrArg (·.pairs) hkept]
          exact ⟨congrArg (·.excludedUniverses) hframe, congrArg (·.pairs) hframe⟩

end Derived

open TwoOffers in
/-- Two makers and two malformed sources, from either end. -/
theorem deriveLadder_perm_reversed :
    deriveLadder (fun _ => 0) (maker "beef" "cafe" 1 :: maker "0abc" "cafe" 2 :: book) options =
      deriveLadder (fun _ => 0)
        (maker "beef" "cafe" 1 :: maker "0abc" "cafe" 2 :: book).reverse options := by
  refine deriveLadder_perm (List.reverse_perm _).symm fun derived hderived => ?_
  have hran : ((deriveLadder (fun _ => 0) (maker "beef" "cafe" 1 :: maker "0abc" "cafe" 2 :: book)
      options).toOption.map fun derived => derived.diagnostics.stopReason) = some none := by
    decide +kernel
  rw [hderived] at hran
  have hnone : derived.diagnostics.stopReason = none := Option.some.inj hran
  exact ⟨by rw [hnone]; exact nofun, fun reason => by rw [hnone]; exact nofun⟩

end ZswapKernel
