import ZswapKernel.Lib.SubsetMasks
import ZswapKernel.SolverCore.MergeOrderCorrect

/-!
# The planner decides every list of up to eight makers

A mask is expanded once: it is on the way down, it is remembered as failed, or the search has ended.
So the transitions charged are pairs of a mask and an index it leaves free, at most
`n * 2 ^ (n - 1)` of them, which is the default work limit for `n = 8`.

* `searchMask_unspent` — the search does not run out of budget.
* `findSafeWholeOfferMergeOrder_decides` — with the default limit the planner finds an order exactly
  when there is one.
-/

namespace ZswapKernel

open SafeOrder SubsetMasks MergeSearchEnv

variable {env : MergeSearchEnv}

/-! ## The budget -/

theorem length_unused (mask : Nat) : (env.unused mask).length = free env.ordered.length mask := rfl

/-- The transitions charged so far: those of the masks that failed, and `pending` ones of the masks
on the way down, which are `opened`. -/
structure MergeSearch.Charged (env : MergeSearchEnv) (opened : Finset Nat) (pending : Nat)
    (search : MergeSearch) : Prop where
  unspent : search.exhausted = false
  uninterrupted : search.interruptReason = none
  nodup : search.failedMasks.Nodup
  failed_lt : ∀ mask ∈ search.failedMasks, mask < 2 ^ env.ordered.length
  apart : ∀ mask ∈ search.failedMasks, mask ∉ opened
  work_le : search.work ≤
    ∑ mask ∈ search.failedMasks.toFinset, free env.ordered.length mask + pending

theorem MergeSearch.Charged.with_path {opened : Finset Nat} {pending : Nat}
    {search : MergeSearch} (h : search.Charged env opened pending) (path : List Nat) :
    { search with path := path }.Charged env opened pending :=
  ⟨h.unspent, h.uninterrupted, h.nodup, h.failed_lt, h.apart, h.work_le⟩

/-- A limit that the extensions of all masks meet. -/
def MergeSearchEnv.Affords (env : MergeSearchEnv) : Prop :=
  env.ordered.length * 2 ^ env.ordered.length ≤ 2 * env.maxWork

/-- While a mask on the way down has an index left, the budget is not spent. -/
theorem MergeSearch.Charged.work_lt {opened : Finset Nat} {pending : Nat} {search : MergeSearch}
    (h : search.Charged env opened pending) (hafford : env.Affords)
    (hopened : ∀ mask ∈ opened, mask < 2 ^ env.ordered.length)
    (hpending : pending < ∑ mask ∈ opened, free env.ordered.length mask) :
    search.work < env.maxWork := by
  have hapart : Disjoint search.failedMasks.toFinset opened := by
    rw [Finset.disjoint_left]
    intro mask hmask
    exact h.apart mask (List.mem_toFinset.mp hmask)
  have hsubset : search.failedMasks.toFinset ∪ opened ⊆
      Finset.range (2 ^ env.ordered.length) := by
    intro mask hmask
    rw [Finset.mem_range]
    rcases Finset.mem_union.mp hmask with hmask | hmask
    · exact h.failed_lt mask (List.mem_toFinset.mp hmask)
    · exact hopened mask hmask
  have htotal := sum_free_le hsubset
  rw [Finset.sum_union hapart] at htotal
  have hwork := h.work_le
  unfold Affords at hafford
  omega

/-- No call of the callback stops the search. -/
def MergeSearchEnv.Quiet (env : MergeSearchEnv) : Prop :=
  ∀ calls, (abortReason env.shouldAbort calls).1 = none

theorem chargeTransition_charged {opened : Finset Nat} {pending : Nat} {search : MergeSearch}
    (hquiet : env.Quiet) (hwork : search.work < env.maxWork)
    (h : search.Charged env opened pending) :
    ∃ search', chargeTransition env search = (true, search') ∧
      search'.Charged env opened (pending + 1) := by
  have hmore : search.work + 1 ≤
      ∑ mask ∈ search.failedMasks.toFinset, free env.ordered.length mask + (pending + 1) := by
    have := h.work_le
    omega
  unfold chargeTransition
  rw [if_neg (by omega)]
  dsimp only
  split
  · split
    · rename_i reason calls hcall
      have hnone := hquiet search.calls
      rw [hcall] at hnone
      cases hnone
    · exact ⟨_, rfl, h.unspent, h.uninterrupted, h.nodup, h.failed_lt, h.apart, hmore⟩
  · exact ⟨_, rfl, h.unspent, h.uninterrupted, h.nodup, h.failed_lt, h.apart, hmore⟩

/-- What a search leaves: its budget, and on failure what it had charged before. -/
def LeavesCharged (env : MergeSearchEnv) (opened : Finset Nat) (pending : Nat)
    (result : Bool × MergeSearch) : Prop :=
  result.2.exhausted = false ∧ (result.1 = false → result.2.Charged env opened pending)

/-- The loop over the sources, at a mask that is being expanded; `done` transitions of it are
charged, and `rest` is what is left of it. -/
theorem trySources_unspent (hquiet : env.Quiet) (hafford : env.Affords) {opened : Finset Nat}
    {pending mask : Nat} {descend : Nat → Deltas → MergeSearch → Bool × MergeSearch}
    {balances : Deltas} (hlt : mask < 2 ^ env.ordered.length)
    (hopened : ∀ m ∈ opened, m < mask)
    (hpending : pending ≤ ∑ m ∈ opened, free env.ordered.length m)
    (hdescend : ∀ index ∈ env.unused mask, ∀ charged deltas search,
      search.Charged env (insert mask opened) charged →
      charged ≤ ∑ m ∈ insert mask opened, free env.ordered.length m →
      LeavesCharged env (insert mask opened) charged
        (descend (mask ||| 2 ^ index) deltas search))
    {rest : List (OrderedSource × Nat)} (hrest : ∀ entry ∈ rest, entry.2 < env.ordered.length)
    {done : Nat} {search : MergeSearch}
    (hdone : done + (rest.filter (!mask.testBit ·.2)).length ≤ free env.ordered.length mask)
    (hsearch : search.Charged env (insert mask opened) (pending + done)) :
    LeavesCharged env opened pending (trySources env descend mask balances rest search) := by
  have hnew : mask ∉ opened := fun hmem => lt_irrefl mask (hopened mask hmem)
  induction rest generalizing search done with
  | nil =>
    have hfresh : mask ∉ search.failedMasks := fun hmem =>
      hsearch.apart mask hmem (Finset.mem_insert_self mask opened)
    have hwork := hsearch.work_le
    refine ⟨hsearch.unspent, fun _ => ⟨hsearch.unspent, hsearch.uninterrupted, ?_, ?_, ?_, ?_⟩⟩
    · exact List.nodup_cons.mpr ⟨hfresh, hsearch.nodup⟩
    · intro m hm
      rcases List.mem_cons.mp hm with rfl | hm
      · exact hlt
      · exact hsearch.failed_lt m hm
    · intro m hm
      rcases List.mem_cons.mp hm with rfl | hm
      · exact hnew
      · exact fun hmem => hsearch.apart m hm (Finset.mem_insert_of_mem hmem)
    · have hsum : ∑ m ∈ (mask :: search.failedMasks).toFinset, free env.ordered.length m =
          free env.ordered.length mask +
            ∑ m ∈ search.failedMasks.toFinset, free env.ordered.length m := by
        rw [List.toFinset_cons, Finset.sum_insert (by rwa [List.mem_toFinset])]
      rw [List.filter_nil, List.length_nil] at hdone
      calc search.work
          ≤ ∑ m ∈ search.failedMasks.toFinset, free env.ordered.length m + (pending + done) := hwork
        _ ≤ ∑ m ∈ (mask :: search.failedMasks).toFinset, free env.ordered.length m + pending := by
          rw [hsum]
          omega
  | cons entry rest ih =>
    obtain ⟨source, index⟩ := entry
    have hindex : index < env.ordered.length := hrest _ List.mem_cons_self
    have hrest' : ∀ entry ∈ rest, entry.2 < env.ordered.length :=
      fun e he => hrest e (List.mem_cons_of_mem _ he)
    unfold trySources
    by_cases hbit : mask.testBit index = true
    · rw [if_pos hbit]
      rw [List.filter_cons_of_neg (by simp [hbit])] at hdone
      exact ih hrest' hdone hsearch
    · rw [if_neg hbit]
      have hunused : index ∈ env.unused mask := mem_unused.mpr ⟨hindex, by simpa using hbit⟩
      rw [List.filter_cons_of_pos (by simpa using hbit), List.length_cons] at hdone
      have hcharges : pending + done < ∑ m ∈ insert mask opened, free env.ordered.length m := by
        rw [Finset.sum_insert hnew]
        omega
      have hinserted : ∀ m ∈ insert mask opened, m < 2 ^ env.ordered.length := by
        intro m hm
        rcases Finset.mem_insert.mp hm with rfl | hm
        · exact hlt
        · exact (hopened m hm).trans hlt
      obtain ⟨charged, hcharge, hafter⟩ := chargeTransition_charged hquiet
        (hsearch.work_lt hafford hinserted hcharges) hsearch
      rw [hcharge]
      dsimp only
      have hdone' : done + 1 + (rest.filter (!mask.testBit ·.2)).length ≤
          free env.ordered.length mask := by omega
      cases hadd : addNetRows balances source.rows env.maximumDelta with
      | none => exact ih hrest' hdone' hafter
      | some next =>
        dsimp only
        have hleaves := hdescend index hunused (pending + done + 1) next
          { charged with path := charged.path ++ [index] }
          (hafter.with_path _) hcharges
        cases hrun : descend (mask ||| 2 ^ index) next
            { charged with path := charged.path ++ [index] } with
        | mk found search2 =>
          rw [hrun] at hleaves
          obtain ⟨hunspent, hfailed⟩ := hleaves
          cases found with
          | true => exact ⟨hunspent, by simp⟩
          | false =>
            have hagain := hfailed rfl
            dsimp only at hunspent hagain ⊢
            rw [if_neg (by simp [hunspent])]
            exact ih hrest' hdone' (hagain.with_path _)

theorem length_filter_zipIdx {α : Type} (l : List α) (p : Nat → Bool) :
    (l.zipIdx.filter (p ·.2)).length = ((List.range l.length).filter p).length := by
  have hfilter : (l.zipIdx.map (·.2)).filter p = (l.zipIdx.filter (p ·.2)).map (·.2) :=
    List.filter_map
  have hindices : l.zipIdx.map (·.2) = List.range l.length := by
    rw [List.zipIdx_map_snd, List.range_eq_range']
  rw [← hindices, hfilter, List.length_map]

theorem lt_extend {mask index : Nat} (h : index ∈ env.unused mask) : mask < mask ||| 2 ^ index := by
  refine lt_of_le_of_ne Nat.left_le_or fun heq => ?_
  have hbit := testBit_extend mask index index
  rw [← heq, (mem_unused.mp h).2, decide_eq_true rfl] at hbit
  cases hbit

/-- **The search does not run out of budget**, below masks on the way down. -/
theorem searchMask_unspent (hquiet : env.Quiet) (hafford : env.Affords) (depth : Nat) :
    ∀ {opened : Finset Nat} {pending mask : Nat} {balances : Deltas} {search : MergeSearch},
      mask < 2 ^ env.ordered.length → (∀ m ∈ opened, m < mask) →
      pending ≤ ∑ m ∈ opened, free env.ordered.length m → search.Charged env opened pending →
      LeavesCharged env opened pending (searchMask env depth mask balances search) := by
  induction depth with
  | zero =>
    intro opened pending mask balances search hlt hopened hpending hsearch
    unfold searchMask
    split
    · exact ⟨hsearch.unspent, by simp⟩
    · split <;> exact ⟨hsearch.unspent, fun _ => hsearch⟩
  | succ depth ih =>
    intro opened pending mask balances search hlt hopened hpending hsearch
    unfold searchMask
    split
    · exact ⟨hsearch.unspent, by simp⟩
    · split
      · exact ⟨hsearch.unspent, fun _ => hsearch⟩
      · rename_i hfresh
        have hexpanding : search.Charged env (insert mask opened) (pending + 0) := by
          refine ⟨hsearch.unspent, hsearch.uninterrupted, hsearch.nodup, hsearch.failed_lt,
            fun m hm hmem => ?_, hsearch.work_le⟩
          rcases Finset.mem_insert.mp hmem with rfl | hmem
          · exact hfresh hm
          · exact hsearch.apart m hm hmem
        refine trySources_unspent hquiet hafford hlt hopened hpending ?_ ?_ ?_ hexpanding
        · intro index hindex charged deltas search' hsearch' hcharged
          refine ih (extend_lt hlt hindex) (fun m hm => ?_) hcharged hsearch'
          rcases Finset.mem_insert.mp hm with rfl | hm
          · exact lt_extend hindex
          · exact (hopened m hm).trans (lt_extend hindex)
        · intro entry hentry
          exact (List.getElem?_eq_some_iff.mp (zipIdx_getElem? hentry)).1
        · rw [length_filter_zipIdx env.ordered (!mask.testBit ·), Nat.zero_add]
          exact le_rfl

/-- The fallback finds an order, or there is none. -/
theorem fallbackOrder_decides (hquiet : env.Quiet) (hafford : env.Affords) (calls : Nat) :
    (∃ hashes work calls', fallbackOrder env calls = (.found hashes true work, calls')) ∨
      ∃ work calls', fallbackOrder env calls = (.failed .unsafeMergeOrder work, calls') := by
  have hstart : MergeSearch.Charged env ∅ 0 ⟨[], [], 0, false, none, calls⟩ :=
    ⟨rfl, rfl, List.nodup_nil, nofun, nofun, Nat.zero_le _⟩
  have hleaves : LeavesCharged env ∅ 0
      (searchMask env env.ordered.length 0 (fun _ => 0) ⟨[], [], 0, false, none, calls⟩) :=
    searchMask_unspent hquiet hafford env.ordered.length (Nat.two_pow_pos _)
      (fun m hm => absurd hm (Finset.notMem_empty m)) (Nat.zero_le _) hstart
  unfold fallbackOrder
  cases hrun : searchMask env env.ordered.length 0 (fun _ => 0) ⟨[], [], 0, false, none, calls⟩ with
  | mk found search =>
    rw [hrun] at hleaves
    cases found with
    | true => exact .inl ⟨_, _, _, rfl⟩
    | false =>
      have hfailed : search.Charged env ∅ 0 := hleaves.2 rfl
      refine .inr ⟨search.work, search.calls, ?_⟩
      dsimp only
      rw [hfailed.uninterrupted, hfailed.unspent]
      rfl

/-! ## The planner -/

/-- The hash of a source, as the planner compares it. -/
def WholeOfferMergeSource.sortKey (source : WholeOfferMergeSource) : String :=
  toLowerCase source.offerHash

theorem Forall2_orderedFrom_hash {sources : List WholeOfferMergeSource}
    {ordered : List OrderedSource} (h : List.Forall₂ OrderedFrom sources ordered) :
    ordered.map (·.offerHash) = sources.map (·.sortKey) := by
  induction h with
  | nil => rfl
  | cons hfrom _ ih =>
    rw [List.map_cons, List.map_cons, hfrom.hash, ih]
    rfl

/-- The options that leave the limits at their defaults and do not stop the search. -/
structure WholeOfferMergeOrderOptions.Unhurried (options : WholeOfferMergeOrderOptions) : Prop where
  sources_default : options.maxSources = none
  work_default : options.maxWork = none
  maximum_pos : 0 < options.maximum
  maximum_le : options.maximum ≤ maxSettlementAmount
  quiet : ∀ calls, (abortReason options.shouldAbort calls).1 = none

/-- What the planner computes on up to eight sources with different hashes. -/
theorem findSafeWholeOfferMergeOrder_of_distinct {sources : List WholeOfferMergeSource}
    {options : WholeOfferMergeOrderOptions} (hcount : sources.length ≤ maxPhysicalMakersPerMerge)
    (hsources : ∀ source ∈ sources, ValidMergeSource source)
    (hdistinct : (sources.map (·.sortKey)).Nodup) (hoptions : options.Unhurried) (calls : Nat) :
    ∃ ordered, List.Forall₂ OrderedFrom sources ordered ∧
      findSafeWholeOfferMergeOrder sources options calls = .ok (
        match fastPath options.maximum (ordered.insertionSort byOrderedHash) with
        | some _ =>
          (.found ((ordered.insertionSort byOrderedHash).map (·.offerHash)) false 0, calls)
        | none => fallbackOrder ⟨ordered.insertionSort byOrderedHash, options.maximum,
            maxSafeMergeOrderWork, options.shouldAbort⟩ calls) := by
  obtain ⟨ordered, hmap, hall⟩ := mapM_orderedSource hsources
  have hnodup : ((ordered.insertionSort byOrderedHash).map (·.offerHash)).Nodup := by
    rw [((List.perm_insertionSort byOrderedHash ordered).map _).nodup_iff,
      Forall2_orderedFrom_hash hall]
    exact hdistinct
  have hcheck : checkMergeOrderOptions options.maximum maxPhysicalMakersPerMerge
      maxSafeMergeOrderWork = .ok () := by
    have hpos := hoptions.maximum_pos
    have hle := hoptions.maximum_le
    unfold checkMergeOrderOptions
    rw [if_neg (by omega), if_neg (by decide), if_neg (by decide)]
    rfl
  refine ⟨ordered, hall, ?_⟩
  unfold findSafeWholeOfferMergeOrder
  rw [hoptions.sources_default, hoptions.work_default]
  unfold WholeOfferMergeOrderOptions.maximum at hcheck ⊢
  simp only [Option.getD_none, hcheck, bind, Except.bind]
  rw [if_neg (by omega), hmap]
  simp only
  rw [if_neg (not_not.mpr hnodup)]
  cases fastPath (options.maximumDelta.getD maxSettlementAmount)
    (ordered.insertionSort byOrderedHash) <;> rfl

instance : Std.Total byOrderedHash := ⟨fun left right => le_total left.offerHash right.offerHash⟩

instance : IsTrans OrderedSource byOrderedHash := ⟨fun _ _ _ => le_trans⟩

/-- An order of the sources in which every running delta stays in range. -/
structure SafeMergeOrder (M : Int) (sources order : List WholeOfferMergeSource) : Prop where
  perm : order.Perm sources
  safe : SafeFrom (InRange M) 0 (order.map (·.net))

/-- The sources behind a safe order of what the planner makes of them. -/
theorem SafeSourceOrder.sources {M : Int} {sources : List WholeOfferMergeSource}
    {ordered order : List OrderedSource} (h : SafeSourceOrder M ordered order)
    (hall : List.Forall₂ OrderedFrom sources ordered) :
    ∃ order', SafeMergeOrder M sources order' ∧
      order.map (·.offerHash) = order'.map (·.sortKey) := by
  obtain ⟨order', hfrom, hperm⟩ := List.perm_comp_forall₂ h.perm hall.flip
  have hfrom : List.Forall₂ OrderedFrom order' order := hfrom.flip
  refine ⟨order', ⟨hperm, ?_⟩, Forall2_orderedFrom_hash hfrom⟩
  have hsafe := h.safe
  rw [Forall2_orderedFrom_net hfrom] at hsafe
  exact hsafe

theorem SafeMergeOrder.orderable {M : Int} {sources order : List WholeOfferMergeSource}
    (h : SafeMergeOrder M sources order) : Orderable (InRange M) 0 (sources.map (·.net)) :=
  ⟨order.map (·.net), h.perm.map _, h.safe⟩

/-- Sources listed by hash are listed as the planner sorts them. -/
theorem insertionSort_eq_of_sorted {sources order : List WholeOfferMergeSource}
    {ordered : List OrderedSource} (hall : List.Forall₂ OrderedFrom sources ordered)
    (hdistinct : (sources.map (·.sortKey)).Nodup) (hperm : order.Perm sources)
    (hsorted : order.Pairwise (·.sortKey ≤ ·.sortKey)) :
    List.Forall₂ OrderedFrom order (ordered.insertionSort byOrderedHash) := by
  obtain ⟨listed, hfrom, hlisted⟩ := List.perm_comp_forall₂ hperm hall
  have hkeys : (ordered.map (·.offerHash)).Nodup := by
    rw [Forall2_orderedFrom_hash hall]
    exact hdistinct
  have hbyHash : listed.Pairwise byOrderedHash := by
    have hhashes : (order.map (·.sortKey)).Pairwise (· ≤ ·) := List.pairwise_map.mpr hsorted
    rw [← Forall2_orderedFrom_hash hfrom] at hhashes
    unfold byOrderedHash
    exact List.pairwise_map.mp hhashes
  have hsort := List.perm_insertionSort byOrderedHash ordered
  have heq : listed = ordered.insertionSort byOrderedHash := by
    refine (hlisted.trans hsort.symm).eq_of_pairwise (fun a b ha hb hab hba => ?_) hbyHash
      (List.pairwise_insertionSort _ _)
    exact List.inj_on_of_nodup_map hkeys (hlisted.mem_iff.mp ha) (hsort.mem_iff.mp hb)
      (le_antisymm hab hba)
  rw [← heq]
  exact hfrom

/-- **The planner decides up to eight makers** within its default budget: it finds an order exactly
when some order of the sources is safe, the order found is one, the order by hash is found first,
and the budget is never reported spent. -/
theorem findSafeWholeOfferMergeOrder_decides {sources : List WholeOfferMergeSource}
    {options : WholeOfferMergeOrderOptions} (hcount : sources.length ≤ maxPhysicalMakersPerMerge)
    (hsources : ∀ source ∈ sources, ValidMergeSource source)
    (hdistinct : (sources.map (·.sortKey)).Nodup) (hoptions : options.Unhurried) (calls : Nat) :
    ∃ result calls',
      findSafeWholeOfferMergeOrder sources options calls = .ok (result, calls') ∧
      ((∃ hashes usedFallback work, result = .found hashes usedFallback work) ↔
        ∃ order, SafeMergeOrder options.maximum sources order) ∧
      (∀ hashes usedFallback work, result = .found hashes usedFallback work →
        ∃ order, SafeMergeOrder options.maximum sources order ∧ hashes = order.map (·.sortKey)) ∧
      (∀ order, SafeMergeOrder options.maximum sources order →
        order.Pairwise (·.sortKey ≤ ·.sortKey) →
        result = .found (order.map (·.sortKey)) false 0) ∧
      ∀ work, result ≠ .failed .mergeOrderWorkCap work := by
  obtain ⟨ordered, hall, hrun⟩ :=
    findSafeWholeOfferMergeOrder_of_distinct hcount hsources hdistinct hoptions calls
  have hperm := List.perm_insertionSort byOrderedHash ordered
  have hrows := (Forall2_orderedFrom_rows hall).perm hperm
  have hM := hoptions.maximum_pos.le
  cases hfast : fastPath options.maximum (ordered.insertionSort byOrderedHash) with
  | some next =>
    rw [hfast] at hrun
    have hsafe : SafeSourceOrder options.maximum ordered (ordered.insertionSort byOrderedHash) :=
      ⟨hperm, (fastPath_isSome hM hrows).mp ⟨next, hfast⟩⟩
    obtain ⟨order, horder, hhashes⟩ := hsafe.sources hall
    refine ⟨_, _, hrun, ⟨fun _ => ⟨order, horder⟩, fun _ => ⟨_, _, _, rfl⟩⟩, ?_, ?_, nofun⟩
    · intro hashes usedFallback work hfound
      cases hfound
      exact ⟨order, horder, hhashes⟩
    · intro sorted hsorted hbyHash
      rw [Forall2_orderedFrom_hash (insertionSort_eq_of_sorted hall hdistinct hsorted.perm hbyHash)]
  | none =>
    rw [hfast] at hrun
    have hnotSorted : ∀ order, SafeMergeOrder options.maximum sources order →
        ¬ order.Pairwise (·.sortKey ≤ ·.sortKey) := by
      intro order horder hbyHash
      have hfrom := insertionSort_eq_of_sorted hall hdistinct horder.perm hbyHash
      have hsafe := horder.safe
      rw [← Forall2_orderedFrom_net hfrom] at hsafe
      obtain ⟨next, hnext⟩ := (fastPath_isSome hM hrows).mpr hsafe
      rw [hfast] at hnext
      cases hnext
    have hlength : (ordered.insertionSort byOrderedHash).length ≤ maxPhysicalMakersPerMerge := by
      rw [hperm.length_eq, ← hall.length_eq]
      exact hcount
    let env : MergeSearchEnv := ⟨ordered.insertionSort byOrderedHash, options.maximum,
      maxSafeMergeOrderWork, options.shouldAbort⟩
    have hafford : env.Affords := by
      have hall : ∀ n ≤ maxPhysicalMakersPerMerge, n * 2 ^ n ≤ 2 * maxSafeMergeOrderWork := by
        decide
      exact hall _ hlength
    have hquiet : env.Quiet := hoptions.quiet
    rcases fallbackOrder_decides hquiet hafford calls with
      ⟨hashes, work, calls', hfallback⟩ | ⟨work, calls', hfallback⟩
    · obtain ⟨order, horder, hhashes⟩ := fallbackOrder_found hM hrows hfallback
      obtain ⟨order', horder', hkeys⟩ :=
        SafeSourceOrder.sources ⟨horder.perm.trans hperm, horder.safe⟩ hall
      refine ⟨_, _, hrun.trans (congrArg Except.ok hfallback),
        ⟨fun _ => ⟨order', horder'⟩, fun _ => ⟨_, _, _, rfl⟩⟩, ?_, ?_, nofun⟩
      · intro found usedFallback work hfound
        cases hfound
        exact ⟨order', horder', hhashes.trans hkeys⟩
      · exact fun order horder hbyHash => absurd hbyHash (hnotSorted order horder)
    · have hnone : ¬ ∃ order, SafeMergeOrder options.maximum sources order := by
        rintro ⟨order, horder⟩
        refine fallbackOrder_unsafe hM hrows hfallback ?_
        rw [orderable_sorted hall]
        exact horder.orderable
      refine ⟨_, _, hrun.trans (congrArg Except.ok hfallback), ⟨nofun, fun h => absurd h hnone⟩,
        nofun, ?_, nofun⟩
      exact fun order horder => absurd ⟨order, horder⟩ hnone

namespace FullDelta

def token : String := "0000000000000000000000000000000000000000000000000000000000000001"

def hash (digit : Char) : String := String.ofList (List.replicate 63 '0' ++ [digit])

/-- Two makers give the largest delta and one more; the third takes one back. -/
def sources : List WholeOfferMergeSource := [
  ⟨⟨[⟨token, maxSettlementAmount⟩], []⟩, hash '1'⟩,
  ⟨⟨[⟨token, 1⟩], []⟩, hash '2'⟩,
  ⟨⟨[], [⟨token, 1⟩]⟩, hash '3'⟩]

theorem sources_valid : ∀ source ∈ sources, ValidMergeSource source := by
  have hleg : ∀ source ∈ sources, (∀ leg ∈ source.gives ++ source.wants,
      hex64 leg.token = true ∧ 0 < leg.amount) ∧ hex64 source.offerHash = true := by
    decide +kernel
  intro source hsource
  obtain ⟨hlegs, hhash⟩ := hleg source hsource
  exact ⟨⟨fun leg h => ⟨(hlegs leg (List.mem_append_left _ h)).1,
      (hlegs leg (List.mem_append_left _ h)).2⟩,
    fun leg h => ⟨(hlegs leg (List.mem_append_right _ h)).1,
      (hlegs leg (List.mem_append_right _ h)).2⟩⟩, hhash⟩

end FullDelta

open FullDelta in
theorem findSafeWholeOfferMergeOrder_decides_fullDelta :
    (findSafeWholeOfferMergeOrder sources {} 0).toOption.map (·.1) =
        some (.found [hash '1', hash '3', hash '2'] true 4) ∧
      ∃ result calls', findSafeWholeOfferMergeOrder sources {} 0 = .ok (result, calls') ∧
        ∀ work, result ≠ .failed .mergeOrderWorkCap work := by
  obtain ⟨result, calls', hrun, -, -, -, hcap⟩ :=
    @findSafeWholeOfferMergeOrder_decides sources {} (by decide) sources_valid
      (by decide +kernel) ⟨rfl, rfl, by decide, by decide, fun _ => rfl⟩ 0
  exact ⟨by decide +kernel, result, calls', hrun, hcap⟩

end ZswapKernel
