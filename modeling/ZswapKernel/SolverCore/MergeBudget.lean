import ZswapKernel.SolverCore.EnumerateCorrect

/-!
# The merge order does not depend on the budget that found it

A search that ends within its budget ends the same way with a larger one and without the
cancellation callback, so the order `deriveLadder` plans a combination with is the one a later
search with other limits finds (`findSafeWholeOfferMergeOrder_more`).

* `searchMask_more` — the search, by induction on the sources left.
* `PlannedWithin.found` — a planned set of makers is planned again under any sufficient limit.
-/

namespace ZswapKernel

open SafeOrder

/-- The search with a count of calls. -/
def MergeSearch.recall (search : MergeSearch) (calls : Nat) : MergeSearch := { search with calls }

/-- The same sources under the budget `maxWork`, without a callback. -/
def MergeSearchEnv.unhurried (env : MergeSearchEnv) (maxWork : Nat) : MergeSearchEnv :=
  { env with maxWork, shouldAbort := none }

section More

variable {env : MergeSearchEnv} {limit : Nat}

theorem chargeTransition_false {search search' : MergeSearch}
    (h : chargeTransition env search = (false, search')) : search'.exhausted = true ∧
      (search'.interruptReason = none → env.maxWork ≤ search.work ∧
        search' = { search with exhausted := true }) := by
  unfold chargeTransition at h
  simp only at h
  split at h
  · rename_i hcap
    cases h
    exact ⟨rfl, fun _ => ⟨hcap, rfl⟩⟩
  · split at h
    · split at h
      · cases h
        exact ⟨rfl, nofun⟩
      · cases h
    · cases h

theorem chargeTransition_unhurried {search : MergeSearch} (h : search.work < limit) (calls : Nat) :
    chargeTransition (env.unhurried limit) (search.recall calls) =
      (true, ({ search with work := search.work + 1 } : MergeSearch).recall calls) := by
  have hcharge : chargeTransition (env.unhurried limit) (search.recall calls) =
      if limit ≤ search.work then
        (false, { search.recall calls with exhausted := true })
      else if (search.work + 1) % 256 = 0 then
        (true, { search.recall calls with work := search.work + 1 })
      else (true, { search.recall calls with work := search.work + 1 }) := rfl
  rw [hcharge, if_neg (not_le.mpr h), ite_self]
  rfl

theorem chargeTransition_true (hlimit : env.maxWork ≤ limit) {search search' : MergeSearch}
    (h : chargeTransition env search = (true, search')) (calls : Nat) :
    chargeTransition (env.unhurried limit) (search.recall calls) =
      (true, search'.recall calls) := by
  unfold chargeTransition at h
  simp only at h
  split at h
  · cases h
  · rw [chargeTransition_unhurried (by omega)]
    split at h
    · split at h
      · cases h
      · cases h
        rfl
    · cases h
      rfl

/-- A search succeeds, ends within its budget, or ends at the limit with no call that stops it. -/
def EndsBy (env : MergeSearchEnv) (limit : Nat) (found : Bool) (search : MergeSearch) : Prop :=
  found = true ∨ search.exhausted = false ∨
    (env.maxWork = limit ∧ search.interruptReason = none)

/-- The searches agree wherever the first one ends of itself. -/
def SearchAgrees (env : MergeSearchEnv) (limit : Nat)
    (descend descend' : Nat → Deltas → MergeSearch → Bool × MergeSearch) (calls : Nat) : Prop :=
  ∀ mask balances search found search', descend mask balances search = (found, search') →
    EndsBy env limit found search' →
      descend' mask balances (search.recall calls) = (found, search'.recall calls)

theorem trySources_more (hlimit : env.maxWork ≤ limit) {calls : Nat}
    {descend descend' : Nat → Deltas → MergeSearch → Bool × MergeSearch}
    (hdescend : SearchAgrees env limit descend descend' calls) {mask : Nat} {balances : Deltas}
    {sources : List (OrderedSource × Nat)} {search search' : MergeSearch} {found : Bool}
    (h : trySources env descend mask balances sources search = (found, search'))
    (hdone : EndsBy env limit found search') :
    trySources (env.unhurried limit) descend' mask balances sources (search.recall calls) =
      (found, search'.recall calls) := by
  induction sources generalizing search with
  | nil =>
    cases h
    rfl
  | cons entry rest ih =>
    obtain ⟨source, index⟩ := entry
    unfold trySources at h ⊢
    by_cases hused : mask.testBit index = true
    · rw [if_pos hused] at h ⊢
      exact ih h
    · rw [if_neg hused] at h ⊢
      cases hcharge : chargeTransition env search with
      | mk charged search1 =>
        rw [hcharge] at h
        cases charged with
        | false =>
          cases h
          obtain ⟨hexhausted, hstopped⟩ := chargeTransition_false hcharge
          rcases hdone with hdone | hdone | ⟨hsame, hnone⟩
          · cases hdone
          · exact absurd (hexhausted.symm.trans hdone) (by decide)
          · obtain ⟨hcap, rfl⟩ := hstopped hnone
            have hcap' : chargeTransition (env.unhurried limit) (search.recall calls) =
                (false, ({ search with exhausted := true } : MergeSearch).recall calls) :=
              if_pos (hsame ▸ hcap)
            rw [hcap']
        | true =>
          rw [chargeTransition_true hlimit hcharge calls]
          simp only at h ⊢
          rw [show (env.unhurried limit).maximumDelta = env.maximumDelta from rfl]
          cases hnext : addNetRows balances source.rows env.maximumDelta with
          | none =>
            rw [hnext] at h
            exact ih h
          | some nextBalances =>
            rw [hnext] at h
            simp only at h ⊢
            cases hrun : descend (mask ||| 2 ^ index) nextBalances
              { search1 with path := search1.path ++ [index] } with
            | mk below search2 =>
              rw [hrun] at h
              cases below with
              | true =>
                cases h
                have := hdescend _ _ _ _ _ hrun (Or.inl rfl)
                simp only [MergeSearch.recall] at this ⊢
                rw [this]
              | false =>
                simp only at h
                cases hstop : search2.exhausted with
                | true =>
                  rw [if_pos hstop] at h
                  cases h
                  rcases hdone with hdone | hdone | hended
                  · cases hdone
                  · exact absurd (hstop.symm.trans hdone) (by decide)
                  · have := hdescend _ _ _ _ _ hrun (Or.inr (Or.inr hended))
                    simp only [MergeSearch.recall] at this ⊢
                    rw [this]
                    exact if_pos hstop
                | false =>
                  rw [if_neg (by rw [hstop]; decide)] at h
                  have := hdescend _ _ _ _ _ hrun (Or.inr (Or.inl hstop))
                  simp only [MergeSearch.recall] at this ⊢
                  rw [this]
                  exact (if_neg (by rw [hstop]; decide)).trans (ih h)

/-- **A search that ends within its budget** ends the same way with more. -/
theorem searchMask_more (hlimit : env.maxWork ≤ limit) (calls depth : Nat) :
    SearchAgrees env limit (searchMask env depth) (searchMask (env.unhurried limit) depth)
      calls := by
  have hfull : (env.unhurried limit).fullMask = env.fullMask := rfl
  induction depth with
  | zero =>
    intro mask balances search found search' h _
    unfold searchMask at h ⊢
    rw [hfull]
    by_cases hdone : mask = env.fullMask
    · rw [if_pos hdone] at h ⊢
      cases h
      rfl
    · rw [if_neg hdone, ite_self] at h ⊢
      cases h
      rfl
  | succ depth ih =>
    intro mask balances search found search' h hdone
    unfold searchMask at h ⊢
    rw [hfull]
    by_cases hmask : mask = env.fullMask
    · rw [if_pos hmask] at h ⊢
      cases h
      rfl
    · rw [if_neg hmask] at h ⊢
      by_cases hfailed : mask ∈ search.failedMasks
      · rw [if_pos hfailed] at h
        cases h
        exact if_pos hfailed
      · rw [if_neg hfailed] at h
        exact (if_neg hfailed).trans (trySources_more hlimit ih h hdone)

end More

/-! ## The planner -/

/-- A fallback that found an order finds it with more budget. -/
theorem fallbackOrder_more {env : MergeSearchEnv} {limit : Nat} (hlimit : env.maxWork ≤ limit)
    {calls calls' work : Nat} {hashes : List String} {usedFallback : Bool}
    (h : fallbackOrder env calls = (.found hashes usedFallback work, calls')) (later : Nat) :
    fallbackOrder (env.unhurried limit) later = (.found hashes usedFallback work, later) := by
  unfold fallbackOrder at h
  cases hrun : searchMask env env.ordered.length 0 (fun _ => 0) ⟨[], [], 0, false, none, calls⟩ with
  | mk found search =>
    rw [hrun] at h
    cases found with
    | false => cases h
    | true =>
      cases h
      have hmore : searchMask (env.unhurried limit) (env.unhurried limit).ordered.length 0
          (fun _ => 0) ⟨[], [], 0, false, none, later⟩ = (true, search.recall later) :=
        searchMask_more hlimit later _ _ _ _ _ _ hrun (Or.inl rfl)
      unfold fallbackOrder
      rw [hmore]
      rfl

/-- A fallback is interrupted, or out of a budget below the limit, or ends as it does with the limit
and no callback. -/
theorem fallbackOrder_verdict {env : MergeSearchEnv} {limit : Nat} (hlimit : env.maxWork ≤ limit)
    (calls : Nat) : (∃ reason work, (fallbackOrder env calls).1 = .failed (.interrupted reason) work) ∨
      (env.maxWork < limit ∧ ∃ work, (fallbackOrder env calls).1 = .failed .mergeOrderWorkCap work) ∨
      fallbackOrder (env.unhurried limit) 0 = ((fallbackOrder env calls).1, 0) := by
  unfold fallbackOrder
  cases hrun : searchMask env env.ordered.length 0 (fun _ => 0) ⟨[], [], 0, false, none, calls⟩ with
  | mk found search =>
    have hmore := fun hends => searchMask_more hlimit 0 _ _ _ _ _ _ hrun hends
    have hsame : ∀ {found : Bool}, searchMask (env.unhurried limit)
        (env.unhurried limit).ordered.length 0 (fun _ => 0) ⟨[], [], 0, false, none, 0⟩ =
          (found, search.recall 0) → _ := fun h => h
    cases found with
    | true =>
      have hagrees := hsame (hmore (Or.inl rfl))
      refine Or.inr (Or.inr ?_)
      rw [hagrees]
      rfl
    | false =>
      cases hreason : search.interruptReason with
      | some reason => exact Or.inl ⟨reason, search.work, by simp only [hreason]⟩
      | none =>
        by_cases hends : EndsBy env limit false search
        · have hagrees := hsame (hmore hends)
          refine Or.inr (Or.inr ?_)
          rw [hagrees]
          simp only [MergeSearch.recall, hreason]
        · unfold EndsBy at hends
          push Not at hends
          obtain ⟨-, hexhausted, hbelow⟩ := hends
          have hlt : env.maxWork < limit := by
            rcases hlimit.lt_or_eq with hlt | heq
            · exact hlt
            · exact absurd hreason (hbelow heq)
          refine Or.inr (Or.inl ⟨hlt, search.work, ?_⟩)
          simp only [hreason]
          rw [if_pos (by simpa using hexhausted)]

/-- **The planner's verdict does not depend on its budget**, unless a call interrupts it or a budget
below the default one runs out. -/
theorem findSafeWholeOfferMergeOrder_verdict {sources : List WholeOfferMergeSource} {limit : Nat}
    (hlimit : limit ≤ maxSafeMergeOrderWork) (shouldAbort : Option AbortCheck) (calls : Nat) :
    match findSafeWholeOfferMergeOrder sources { maxWork := some (limit : Int), shouldAbort } calls
      with
    | .error message => findSafeWholeOfferMergeOrder sources {} 0 = .error message
    | .ok (result, _) => (∃ reason work, result = .failed (.interrupted reason) work) ∨
        (limit < maxSafeMergeOrderWork ∧ ∃ work, result = .failed .mergeOrderWorkCap work) ∨
        findSafeWholeOfferMergeOrder sources {} 0 = .ok (result, 0) := by
  have hcheck : checkMergeOrderOptions maxSettlementAmount maxPhysicalMakersPerMerge (limit : Int) =
      .ok () := by
    unfold checkMergeOrderOptions
    rw [if_neg (by decide), if_neg (by decide), if_neg (by omega)]
    rfl
  have hcheck' : checkMergeOrderOptions maxSettlementAmount maxPhysicalMakersPerMerge
      (maxSafeMergeOrderWork : Int) = .ok () := by decide
  unfold findSafeWholeOfferMergeOrder
  simp only [Option.getD_none, Option.getD_some, hcheck, hcheck', bind, Except.bind]
  by_cases hmany : (sources.length : Int) > maxPhysicalMakersPerMerge
  · rw [if_pos hmany]
    exact Or.inr (Or.inr (if_pos hmany))
  rw [if_neg hmany, if_neg hmany]
  cases sources.mapM orderedSource with
  | error message => rfl
  | ok ordered =>
    simp only
    by_cases hnodup : ¬ ((ordered.insertionSort byOrderedHash).map (·.offerHash)).Nodup
    · rw [if_pos hnodup, if_pos hnodup]
      rfl
    rw [if_neg hnodup, if_neg hnodup]
    cases fastPath maxSettlementAmount (ordered.insertionSort byOrderedHash) with
    | some _ => exact Or.inr (Or.inr rfl)
    | none =>
      rcases @fallbackOrder_verdict ⟨ordered.insertionSort byOrderedHash, maxSettlementAmount, limit,
        shouldAbort⟩ maxSafeMergeOrderWork hlimit calls with h | h | h
      · exact Or.inl h
      · exact Or.inr (Or.inl h)
      · exact Or.inr (Or.inr (congrArg Except.ok h))

/-- What the planner does with accepted options on accepted sources. -/
theorem findSafeWholeOfferMergeOrder_of_ordered {sources : List WholeOfferMergeSource}
    {ordered : List OrderedSource} (hordered : sources.mapM orderedSource = .ok ordered)
    (hnodup : ((ordered.insertionSort byOrderedHash).map (·.offerHash)).Nodup)
    {maxSources maxWork : Option Int} {limit : Nat}
    (hmany : (sources.length : Int) ≤ maxSources.getD maxPhysicalMakersPerMerge)
    (hsources : 1 ≤ maxSources.getD maxPhysicalMakersPerMerge ∧
      maxSources.getD maxPhysicalMakersPerMerge ≤ maxPhysicalMakersPerMerge)
    (hwork : maxWork.getD maxSafeMergeOrderWork = limit) (hlimit : limit ≤ maxSafeMergeOrderWork)
    (calls : Nat) :
    findSafeWholeOfferMergeOrder sources { maxSources, maxWork } calls = .ok (
      match fastPath maxSettlementAmount (ordered.insertionSort byOrderedHash) with
      | some _ => (.found ((ordered.insertionSort byOrderedHash).map (·.offerHash)) false 0, calls)
      | none => fallbackOrder
          ⟨ordered.insertionSort byOrderedHash, maxSettlementAmount, limit, none⟩ calls) := by
  have hcheck : checkMergeOrderOptions maxSettlementAmount
      (maxSources.getD maxPhysicalMakersPerMerge) (limit : Int) = .ok () := by
    unfold checkMergeOrderOptions
    rw [if_neg (by decide), if_neg (by omega), if_neg (by omega)]
    rfl
  unfold findSafeWholeOfferMergeOrder
  simp only [Option.getD_none]
  rw [hwork, hcheck]
  simp only [bind, Except.bind]
  rw [if_neg (by omega), hordered]
  simp only
  rw [if_neg (not_not.mpr hnodup)]
  cases fastPath maxSettlementAmount (ordered.insertionSort byOrderedHash) <;> rfl

/-- The limits of a planner call on `count` sources that may spend `limit`. -/
structure AcceptedLimits (count : Nat) (maxSources maxWork : Option Int) (limit : Nat) : Prop where
  many : (count : Int) ≤ maxSources.getD maxPhysicalMakersPerMerge
  sources_pos : 1 ≤ maxSources.getD maxPhysicalMakersPerMerge
  sources_le : maxSources.getD maxPhysicalMakersPerMerge ≤ maxPhysicalMakersPerMerge
  work : maxWork.getD maxSafeMergeOrderWork = limit
  work_le : limit ≤ maxSafeMergeOrderWork

/-- The sources of sorted makers, ordered. -/
theorem mapM_orderedSource_makers {makers : List Crossable} (hvalid : ∀ offer ∈ makers, offer.Valid)
    (hsorted : makers.Pairwise (·.offerHash < ·.offerHash)) :
    ∃ ordered, (makers.map (·.mergeSource)).mapM orderedSource = .ok ordered ∧
      DistinctRows ordered ∧ ordered.map (·.net) = makers.map (·.net) ∧
      ordered.map (·.offerHash) = makers.map (·.offerHash) ∧
      ordered.insertionSort byOrderedHash = ordered := by
  obtain ⟨ordered, hmap, hall⟩ := mapM_orderedSource (map_mergeSource_valid hvalid)
  have hhashes : ordered.map (·.offerHash) = makers.map (·.offerHash) := by
    have hlower : (makers.map (·.mergeSource)).map (fun source => toLowerCase source.offerHash) =
        makers.map (·.offerHash) := by
      rw [List.map_map]
      exact List.map_congr_left fun offer hoffer => (hvalid offer hoffer).hash.lower
    rw [← hlower, ← List.forall₂_eq_eq_eq, List.forall₂_map_left_iff, List.forall₂_map_right_iff]
    exact hall.flip.imp fun _ _ h => h.hash
  have hordered : ordered.Pairwise byOrderedHash := by
    have hlt : (ordered.map (·.offerHash)).Pairwise (· < ·) := by
      rw [hhashes]
      exact List.pairwise_map.mpr hsorted
    exact (List.pairwise_map.mp hlt).imp le_of_lt
  refine ⟨ordered, hmap, Forall2_orderedFrom_rows hall, ?_, hhashes, hordered.insertionSort_eq⟩
  rw [Forall2_orderedFrom_net hall, map_mergeSource_net hvalid]

/-- **Planned makers are planned again.** One order is found by every later call on the same
sources whose budget is at least what the derivation could have spent. -/
theorem PlannedWithin.found {maxDiscoveryWork : Nat} {makers : List Crossable}
    (h : PlannedWithin maxDiscoveryWork makers) (hvalid : ∀ offer ∈ makers, offer.Valid)
    (hsorted : makers.Pairwise (·.offerHash < ·.offerHash)) :
    ∃ hashes : List String, ∀ (sources : List WholeOfferMergeSource)
      (maxSources maxWork : Option Int) (limit calls : Nat),
      sources.mapM orderedSource = (makers.map (·.mergeSource)).mapM orderedSource →
      AcceptedLimits sources.length maxSources maxWork limit →
      min maxSafeMergeOrderWork maxDiscoveryWork ≤ limit →
      ∃ usedFallback work, findSafeWholeOfferMergeOrder sources { maxSources, maxWork } calls =
        .ok (.found hashes usedFallback work, calls) := by
  obtain ⟨ordered, hmap, hrows, hnet, hhashes, hsort⟩ := mapM_orderedSource_makers hvalid hsorted
  have hnodup : ((ordered.insertionSort byOrderedHash).map (·.offerHash)).Nodup := by
    rw [hsort, hhashes]
    exact (List.pairwise_map.mpr hsorted).imp ne_of_lt
  have hM : 0 ≤ maxSettlementAmount := by decide
  cases hfast : fastPath maxSettlementAmount ordered with
  | some next =>
    refine ⟨ordered.map (·.offerHash), fun sources maxSources maxWork limit calls hsame hlimits _ =>
      ⟨false, 0, ?_⟩⟩
    rw [findSafeWholeOfferMergeOrder_of_ordered (hsame.trans hmap) hnodup hlimits.many
      ⟨hlimits.sources_pos, hlimits.sources_le⟩ hlimits.work hlimits.work_le, hsort, hfast]
  | none =>
    rcases h with hsafe | ⟨spent, shouldAbort, before, after, units, hashes, usedFallback, hspent,
      hspent', hplan⟩
    · rw [← hnet] at hsafe
      obtain ⟨next, hnext⟩ := (fastPath_isSome hM hrows).mpr hsafe
      rw [hfast] at hnext
      cases hnext
    · refine ⟨hashes, fun sources maxSources maxWork limit calls hsame hlimits hle =>
        ⟨usedFallback, units, ?_⟩⟩
      rw [findSafeWholeOfferMergeOrder_of_ordered (hsame.trans hmap) hnodup hlimits.many
        ⟨hlimits.sources_pos, hlimits.sources_le⟩ hlimits.work hlimits.work_le, hsort, hfast]
      have hfallback : fallbackOrder ⟨ordered, maxSettlementAmount, spent, shouldAbort⟩ before =
          (.found hashes usedFallback units, after) := by
        obtain ⟨-, ⟨habs, -⟩ | ⟨found, hfound, -, hresult⟩⟩ :=
          findSafeWholeOfferMergeOrder_eq hplan (map_mergeSource_valid hvalid)
        · cases habs
        · obtain rfl : ordered = found := Except.ok.inj (hmap.symm.trans hfound)
          have hmaximum : WholeOfferMergeOrderOptions.maximum
              { maxWork := some (spent : Int), shouldAbort := shouldAbort } =
                maxSettlementAmount := rfl
          rw [hsort, hmaximum, hfast] at hresult
          exact hresult.symm
      exact congrArg Except.ok
        (fallbackOrder_more ((le_min hspent hspent').trans hle) hfallback calls)

end ZswapKernel
