import ZswapKernel.Lib.SafeOrder
import ZswapKernel.SolverCore.Accounts
import ZswapKernel.SolverCore.MergeOrder

/-!
# The merge-order search finds an order iff there is one

The planner adds the net rows of one source after another and asks that every running delta stays
in `[-M, M]`: an order of the sources with safe partial sums. The sorted-hash order is tried first;
the fallback is a depth-first search over subset masks that remembers the masks it gave up on.

* `addNetRows_eq_some` — one source fits iff the extended deltas are in range.
* `searchMask_spec` — the memoized search: a path found is a safe order of the unused sources, and
  a failure within the budget means there is none.
* `findSafeWholeOfferMergeOrder_found`, `findSafeWholeOfferMergeOrder_unsafe` — both for the
  planner.
-/

namespace ZswapKernel

open SafeOrder

/-! ## Net rows -/

/-- Every delta lies in `[-M, M]`. -/
def InRange (M : Int) (deltas : Deltas) : Prop := ∀ token, -M ≤ deltas token ∧ deltas token ≤ M

/-- The signed deltas of a list of rows. -/
def rowsNet (rows : List WholeOfferTokenBalance) : Deltas :=
  (rows.map fun row => (Pi.single row.token row.net : Deltas)).sum

@[simp] theorem rowsNet_nil : rowsNet [] = 0 := rfl

@[simp] theorem rowsNet_cons (row : WholeOfferTokenBalance) (rows : List WholeOfferTokenBalance) :
    rowsNet (row :: rows) = Pi.single row.token row.net + rowsNet rows := by
  simp [rowsNet]

theorem rowsNet_of_not_mem {rows : List WholeOfferTokenBalance} {token : String}
    (h : token ∉ rows.map (·.token)) : rowsNet rows token = 0 := by
  induction rows with
  | nil => rfl
  | cons row rows ih =>
    rw [List.map_cons, List.mem_cons, not_or] at h
    rw [rowsNet_cons, Pi.add_apply, Pi.single_eq_of_ne h.1, ih h.2, add_zero]

theorem rowsNet_of_mem {rows : List WholeOfferTokenBalance}
    (hnodup : (rows.map (·.token)).Nodup) {row : WholeOfferTokenBalance} (hrow : row ∈ rows) :
    rowsNet rows row.token = row.net := by
  induction rows with
  | nil => cases hrow
  | cons head rows ih =>
    have hhead := (List.nodup_cons.mp hnodup).1
    rw [rowsNet_cons, Pi.add_apply]
    rcases List.mem_cons.mp hrow with rfl | hmem
    · rw [Pi.single_eq_same, rowsNet_of_not_mem hhead, add_zero]
    · have hne : row.token ≠ head.token := by
        intro heq
        exact hhead (List.mem_map.mpr ⟨row, hmem, heq⟩)
      rw [Pi.single_eq_of_ne hne, ih (List.nodup_cons.mp hnodup).2 hmem, zero_add]

/-- The net rows of an accounting. -/
theorem Accounts.rowsNet_eq {rows : List WholeOfferTokenBalance} {gives wants : Amounts}
    (h : Accounts rows gives wants) : rowsNet rows = gives - wants := by
  funext token
  by_cases hmem : token ∈ rows.map (·.token)
  · obtain ⟨row, hrow, rfl⟩ := List.mem_map.mp hmem
    rw [rowsNet_of_mem h.nodup_tokens hrow, h.eq_rowAt hrow]
    rfl
  · rw [rowsNet_of_not_mem hmem]
    have hzero := (not_congr (h.mem_token_iff token)).mp hmem
    push Not at hzero
    simp [hzero.1, hzero.2]

theorem update_eq_add_single (deltas : Deltas) (token : String) (amount : Int) :
    Function.update deltas token (deltas token + amount) = deltas + Pi.single token amount := by
  funext t
  by_cases heq : t = token
  · subst heq
    simp
  · simp [Function.update_of_ne heq, Pi.single_eq_of_ne heq]

theorem addNetRows_cons (current : Deltas) (row : WholeOfferTokenBalance)
    (rows : List WholeOfferTokenBalance) (M : Int) :
    addNetRows current (row :: rows) M =
      if current row.token + row.net < -M ∨ current row.token + row.net > M then none
      else addNetRows (current + Pi.single row.token row.net) rows M := by
  simp only [addNetRows, update_eq_add_single]

/-- **One source.** Rows on distinct tokens fit iff the extended deltas are in range. -/
theorem addNetRows_eq_some {rows : List WholeOfferTokenBalance}
    (hnodup : (rows.map (·.token)).Nodup) {M : Int} {current next : Deltas}
    (hcurrent : InRange M current) :
    addNetRows current rows M = some next ↔
      next = current + rowsNet rows ∧ InRange M (current + rowsNet rows) := by
  induction rows generalizing current with
  | nil =>
    simp only [addNetRows, rowsNet_nil, add_zero, Option.some.injEq]
    exact ⟨fun h => ⟨h.symm, hcurrent⟩, fun h => h.1.symm⟩
  | cons row rows ih =>
    have hhead : row.token ∉ rows.map (·.token) := (List.nodup_cons.mp hnodup).1
    rw [addNetRows_cons, rowsNet_cons]
    split
    · rename_i hout
      have hnot : ¬ InRange M (current + (Pi.single row.token row.net + rowsNet rows)) := by
        intro hin
        have := hin row.token
        simp only [Pi.add_apply, Pi.single_eq_same, rowsNet_of_not_mem hhead] at this
        omega
      exact iff_of_false (by simp) fun h => hnot h.2
    · rename_i hin
      have hstep : InRange M (current + Pi.single row.token row.net) := by
        intro token
        by_cases heq : token = row.token
        · subst heq
          simp only [Pi.add_apply, Pi.single_eq_same]
          omega
        · simpa [Pi.single_eq_of_ne heq] using hcurrent token
      rw [ih (List.nodup_cons.mp hnodup).2 hstep, add_assoc]

/-! ## The sorted-hash order -/

/-- The net deltas of a source. -/
def OrderedSource.net (source : OrderedSource) : Deltas := rowsNet source.rows

/-- A list of sources, each with rows on distinct tokens. -/
def DistinctRows (ordered : List OrderedSource) : Prop :=
  ∀ source ∈ ordered, (source.rows.map (·.token)).Nodup

theorem foldlM_addNetRows {M : Int} {ordered : List OrderedSource} (hrows : DistinctRows ordered)
    {current next : Deltas} (hcurrent : InRange M current) :
    ordered.foldlM (fun balances entry => addNetRows balances entry.rows M) current = some next ↔
      next = current + (ordered.map (·.net)).sum ∧
        SafeFrom (InRange M) current (ordered.map (·.net)) := by
  induction ordered generalizing current with
  | nil =>
    simp only [List.foldlM_nil, List.map_nil, List.sum_nil, add_zero, safeFrom_nil, and_true]
    exact ⟨fun h => (Option.some.inj h).symm, fun h => congrArg some h.symm⟩
  | cons source ordered ih =>
    have hsource := hrows source List.mem_cons_self
    have hrest : DistinctRows ordered := fun s hs => hrows s (List.mem_cons_of_mem _ hs)
    rw [List.foldlM_cons, List.map_cons, List.sum_cons, safeFrom_cons, ← add_assoc]
    cases hadd : addNetRows current source.rows M with
    | none =>
      have hnot : ¬ InRange M (current + source.net) := by
        intro hin
        rw [(addNetRows_eq_some hsource hcurrent).mpr ⟨rfl, hin⟩] at hadd
        cases hadd
      exact iff_of_false (by simp) fun h => hnot h.2.1
    | some middle =>
      obtain ⟨rfl, hin⟩ := (addNetRows_eq_some hsource hcurrent).mp hadd
      show ordered.foldlM _ (current + rowsNet source.rows) = some next ↔ _
      rw [ih hrest hin]
      exact ⟨fun h => ⟨h.1, hin, h.2⟩, fun h => ⟨h.1, h.2.2⟩⟩

theorem inRange_zero {M : Int} (hM : 0 ≤ M) : InRange M 0 := fun _ =>
  ⟨Int.neg_nonpos_of_nonneg hM, hM⟩

/-- The fast path accepts exactly the safe sorted orders. -/
theorem fastPath_isSome {M : Int} (hM : 0 ≤ M) {ordered : List OrderedSource}
    (hrows : DistinctRows ordered) :
    (∃ next, fastPath M ordered = some next) ↔
      SafeFrom (InRange M) 0 (ordered.map (·.net)) := by
  unfold fastPath
  constructor
  · rintro ⟨next, h⟩
    exact ((foldlM_addNetRows hrows (inRange_zero hM)).mp h).2
  · intro h
    exact ⟨_, (foldlM_addNetRows hrows (inRange_zero hM)).mpr ⟨rfl, h⟩⟩

/-! ## The memoized search -/

namespace MergeSearchEnv

variable (env : MergeSearchEnv)

/-- The net deltas of the source at an index. -/
def netAt (index : Nat) : Deltas := (env.ordered[index]?.map (·.net)).getD 0

/-- The indices a mask has used. -/
def used (mask : Nat) : List Nat := (List.range env.ordered.length).filter (mask.testBit ·)

/-- The indices a mask has left. -/
def unused (mask : Nat) : List Nat := (List.range env.ordered.length).filter (!mask.testBit ·)

/-- The running deltas at a mask. -/
def usedNet (mask : Nat) : Deltas := ((env.used mask).map env.netAt).sum

/-- The sources a mask has left can be ordered. -/
def Completable (mask : Nat) : Prop :=
  Orderable (InRange env.maximumDelta) (env.usedNet mask) ((env.unused mask).map env.netAt)

variable {env}

theorem mem_unused {mask index : Nat} :
    index ∈ env.unused mask ↔ index < env.ordered.length ∧ mask.testBit index = false := by
  simp [unused]

theorem testBit_extend (mask index i : Nat) :
    (mask ||| 2 ^ index).testBit i = (mask.testBit i || decide (index = i)) := by
  rw [Nat.testBit_or, Nat.testBit_two_pow]

theorem used_perm {mask index : Nat} (h : index ∈ env.unused mask) :
    (env.used (mask ||| 2 ^ index)).Perm (index :: env.used mask) := by
  obtain ⟨hlt, hbit⟩ := mem_unused.mp h
  have hnodup : (env.used mask).Nodup := List.nodup_range.filter _
  have hnot : index ∉ env.used mask := by simp [used, hbit]
  refine (List.perm_ext_iff_of_nodup (List.nodup_range.filter _)
    (List.nodup_cons.mpr ⟨hnot, hnodup⟩)).mpr fun i => ?_
  simp only [used, List.mem_filter, List.mem_range, testBit_extend, Bool.or_eq_true,
    decide_eq_true_eq, List.mem_cons]
  constructor
  · rintro ⟨hi, hused | rfl⟩
    · exact Or.inr ⟨hi, hused⟩
    · exact Or.inl rfl
  · rintro (rfl | ⟨hi, hused⟩)
    · exact ⟨hlt, Or.inr rfl⟩
    · exact ⟨hi, Or.inl hused⟩

theorem unused_perm {mask index : Nat} (h : index ∈ env.unused mask) :
    (env.unused mask).Perm (index :: env.unused (mask ||| 2 ^ index)) := by
  obtain ⟨hlt, hbit⟩ := mem_unused.mp h
  have hnot : index ∉ env.unused (mask ||| 2 ^ index) := by
    simp [mem_unused]
  have hnodup : ∀ m, (env.unused m).Nodup := fun m => List.nodup_range.filter _
  refine (List.perm_ext_iff_of_nodup (hnodup mask)
    (List.nodup_cons.mpr ⟨hnot, hnodup _⟩)).mpr fun i => ?_
  rw [List.mem_cons, mem_unused, mem_unused, testBit_extend, Bool.or_eq_false_iff,
    decide_eq_false_iff_not]
  constructor
  · rintro ⟨hi, hfree⟩
    by_cases heq : i = index
    · exact Or.inl heq
    · exact Or.inr ⟨hi, hfree, fun h => heq h.symm⟩
  · rintro (rfl | ⟨hi, hfree, -⟩)
    · exact ⟨hlt, hbit⟩
    · exact ⟨hi, hfree⟩

theorem usedNet_extend {mask index : Nat} (h : index ∈ env.unused mask) :
    env.usedNet (mask ||| 2 ^ index) = env.usedNet mask + env.netAt index := by
  unfold usedNet
  rw [((used_perm h).map env.netAt).sum_eq, List.map_cons, List.sum_cons, add_comm]

theorem unused_length_extend {mask index : Nat} (h : index ∈ env.unused mask) :
    (env.unused mask).length = (env.unused (mask ||| 2 ^ index)).length + 1 :=
  (unused_perm h).length_eq

/-- A mask below `2 ^ n` with nothing left is the full one. -/
theorem eq_fullMask_of_unused_eq_nil {mask : Nat} (hlt : mask < 2 ^ env.ordered.length)
    (h : env.unused mask = []) : mask = env.fullMask := by
  apply Nat.eq_of_testBit_eq
  intro i
  unfold fullMask
  rw [Nat.testBit_two_pow_sub_one]
  by_cases hi : i < env.ordered.length
  · have hnot : i ∉ env.unused mask := by simp [h]
    rw [mem_unused, not_and, Bool.not_eq_false] at hnot
    rw [hnot hi, decide_eq_true hi]
  · rw [decide_eq_false hi]
    exact Nat.testBit_lt_two_pow (hlt.trans_le (Nat.pow_le_pow_right (by omega) (by omega)))

theorem unused_fullMask : env.unused env.fullMask = [] := by
  rw [List.eq_nil_iff_forall_not_mem]
  intro i hi
  obtain ⟨hlt, hbit⟩ := mem_unused.mp hi
  rw [fullMask, Nat.testBit_two_pow_sub_one, decide_eq_true hlt] at hbit
  cases hbit

theorem extend_lt {mask index : Nat} (hlt : mask < 2 ^ env.ordered.length)
    (h : index ∈ env.unused mask) : mask ||| 2 ^ index < 2 ^ env.ordered.length :=
  Nat.or_lt_two_pow hlt (Nat.pow_lt_pow_right (by omega) (mem_unused.mp h).1)

/-- A mask with sources left is completable iff one of them fits and leaves a completable mask. -/
theorem completable_iff {mask : Nat} (hne : env.unused mask ≠ []) :
    env.Completable mask ↔ ∃ index ∈ env.unused mask,
      InRange env.maximumDelta (env.usedNet mask + env.netAt index) ∧
        env.Completable (mask ||| 2 ^ index) := by
  unfold Completable
  rw [orderable_iff_exists_first env.netAt _ hne]
  refine exists_congr fun index => and_congr_right fun hmem => and_congr_right fun _ => ?_
  have hperm : ((env.unused mask).erase index).Perm (env.unused (mask ||| 2 ^ index)) :=
    ((List.perm_cons_erase hmem).symm.trans (unused_perm hmem)).cons_inv
  rw [usedNet_extend hmem]
  exact ⟨fun h => h.perm (hperm.map _), fun h => h.perm (hperm.map _).symm⟩

end MergeSearchEnv

open MergeSearchEnv

/-- Every mask given up on cannot be completed. -/
def MergeSearch.Honest (search : MergeSearch) (env : MergeSearchEnv) : Prop :=
  ∀ mask ∈ search.failedMasks, ¬ env.Completable mask

/-- What a search from `mask` reports: a path found extends `path` by a safe order of the unused
sources; a failure within the budget leaves `path` and means there is no such order. -/
def SearchReport (env : MergeSearchEnv) (mask : Nat) (path : List Nat) :
    Bool × MergeSearch → Prop
  | (true, search) => ∃ order, search.path = path ++ order ∧ order.Perm (env.unused mask) ∧
      SafeFrom (InRange env.maximumDelta) (env.usedNet mask) (order.map env.netAt)
  | (false, search) => search.exhausted = true ∨
      (search.path = path ∧ ¬ env.Completable mask ∧ search.Honest env)

theorem chargeTransition_ok {env : MergeSearchEnv} {search search' : MergeSearch}
    (h : chargeTransition env search = (true, search')) :
    search'.path = search.path ∧ search'.failedMasks = search.failedMasks ∧
      search'.exhausted = search.exhausted := by
  unfold chargeTransition at h
  split at h
  · cases h
  · simp only at h
    split at h
    · split at h
      · cases h
      · cases h
        exact ⟨rfl, rfl, rfl⟩
    · cases h
      exact ⟨rfl, rfl, rfl⟩

theorem chargeTransition_stop {env : MergeSearchEnv} {search search' : MergeSearch}
    (h : chargeTransition env search = (false, search')) : search'.exhausted = true := by
  unfold chargeTransition at h
  split at h
  · cases h
    rfl
  · simp only at h
    split at h
    · split at h
      · cases h
        rfl
      · cases h
    · cases h

/-- The loop over the sources. `rest` is what is left of it; the sources before it have failed. -/
theorem trySources_spec {env : MergeSearchEnv} (hrows : DistinctRows env.ordered) {mask : Nat}
    {descend : Nat → Deltas → MergeSearch → Bool × MergeSearch}
    (hin : InRange env.maximumDelta (env.usedNet mask)) (hne : env.unused mask ≠ [])
    (hdescend : ∀ index ∈ env.unused mask, ∀ search, search.exhausted = false →
      search.Honest env → InRange env.maximumDelta (env.usedNet (mask ||| 2 ^ index)) →
      SearchReport env (mask ||| 2 ^ index) search.path
        (descend (mask ||| 2 ^ index) (env.usedNet (mask ||| 2 ^ index)) search))
    {rest : List (OrderedSource × Nat)} (hrest : ∀ entry ∈ rest, env.ordered[entry.2]? = some entry.1)
    {search : MergeSearch} (hex : search.exhausted = false) (hhonest : search.Honest env)
    (hfailed : ∀ index ∈ env.unused mask, index ∉ rest.map (·.2) →
      ¬ (InRange env.maximumDelta (env.usedNet mask + env.netAt index) ∧
        env.Completable (mask ||| 2 ^ index))) :
    SearchReport env mask search.path
      (trySources env descend mask (env.usedNet mask) rest search) := by
  induction rest generalizing search with
  | nil =>
    have hdead : ¬ env.Completable mask := by
      rw [completable_iff hne]
      rintro ⟨index, hindex, hok⟩
      exact hfailed index hindex (by simp) hok
    refine Or.inr ⟨rfl, hdead, fun m hm => ?_⟩
    rcases List.mem_cons.mp hm with rfl | hm
    · exact hdead
    · exact hhonest m hm
  | cons entry rest ih =>
    obtain ⟨source, index⟩ := entry
    have hsource : env.ordered[index]? = some source := hrest _ List.mem_cons_self
    have hrest' : ∀ entry ∈ rest, env.ordered[entry.2]? = some entry.1 :=
      fun e he => hrest e (List.mem_cons_of_mem _ he)
    have hnet : env.netAt index = source.net := by simp [netAt, hsource]
    have hlt : index < env.ordered.length := (List.getElem?_eq_some_iff.mp hsource).1
    have hmem : source ∈ env.ordered := List.mem_of_getElem? hsource
    -- once `index` has failed, the rest of the loop decides
    have hskip : ∀ search : MergeSearch, search.exhausted = false → search.Honest env →
        (index ∈ env.unused mask →
          ¬ (InRange env.maximumDelta (env.usedNet mask + env.netAt index) ∧
            env.Completable (mask ||| 2 ^ index))) →
        SearchReport env mask search.path
          (trySources env descend mask (env.usedNet mask) rest search) := by
      intro search hex hhonest hindex
      refine ih hrest' hex hhonest fun i hi hnot => ?_
      by_cases heq : i = index
      · subst heq
        exact hindex hi
      · exact hfailed i hi (by simp [heq, hnot])
    unfold trySources
    by_cases hbit : mask.testBit index = true
    · rw [if_pos hbit]
      exact hskip search hex hhonest fun h => absurd (mem_unused.mp h).2 (by simp [hbit])
    · have hunused : index ∈ env.unused mask := mem_unused.mpr ⟨hlt, by simpa using hbit⟩
      rw [if_neg hbit]
      cases hcharge : chargeTransition env search with
      | mk charged search1 =>
        cases charged with
        | false => exact Or.inl (chargeTransition_stop hcharge)
        | true =>
          obtain ⟨hpath, hmasks, hexh⟩ := chargeTransition_ok hcharge
          have hhonest1 : search1.Honest env := by
            unfold MergeSearch.Honest
            rw [hmasks]
            exact hhonest
          have hex1 : search1.exhausted = false := hexh.trans hex
          rw [← hpath]
          cases hadd : addNetRows (env.usedNet mask) source.rows env.maximumDelta with
          | none =>
            refine hskip search1 hex1 hhonest1 fun _ hok => ?_
            rw [hnet] at hok
            rw [(addNetRows_eq_some (hrows source hmem) hin).mpr ⟨rfl, hok.1⟩] at hadd
            cases hadd
          | some next =>
            obtain ⟨rfl, hfits⟩ := (addNetRows_eq_some (hrows source hmem) hin).mp hadd
            have hnext : env.usedNet mask + rowsNet source.rows =
                env.usedNet (mask ||| 2 ^ index) := by
              rw [usedNet_extend hunused, hnet]
              rfl
            have hreport := hdescend index hunused { search1 with path := search1.path ++ [index] }
              hex1 hhonest1 (hnext ▸ hfits)
            simp only
            rw [hnext]
            cases hrun : descend (mask ||| 2 ^ index) (env.usedNet (mask ||| 2 ^ index))
                { search1 with path := search1.path ++ [index] } with
            | mk found search2 =>
              rw [hrun] at hreport
              cases found with
              | true =>
                obtain ⟨order, horder, hperm, hsafe⟩ := hreport
                refine ⟨index :: order, ?_, (hperm.cons index).trans (unused_perm hunused).symm, ?_⟩
                · rw [horder, List.append_assoc, List.singleton_append]
                · rw [List.map_cons, safeFrom_cons, ← usedNet_extend hunused, ← hnext]
                  exact ⟨hfits, hnext ▸ hsafe⟩
              | false =>
                simp only
                by_cases hex2 : search2.exhausted = true
                · rw [if_pos hex2]
                  exact Or.inl hex2
                · rw [Bool.not_eq_true] at hex2
                  rcases hreport with habs | ⟨hpath2, hdead, hhonest2⟩
                  · rw [hex2] at habs
                    cases habs
                  · have hdrop : search2.path.dropLast = search1.path := by
                      rw [hpath2, List.dropLast_concat]
                    rw [if_neg (by simp [hex2]), ← hdrop]
                    exact hskip { search2 with path := search2.path.dropLast } hex2 hhonest2
                      fun _ hok => hdead hok.2

theorem zipIdx_getElem? {α : Type} {l : List α} {entry : α × Nat} (h : entry ∈ l.zipIdx) :
    l[entry.2]? = some entry.1 := by
  obtain ⟨a, i⟩ := entry
  exact List.mk_mem_zipIdx_iff_getElem?.mp h

/-- **The memoized search is exact** within its budget. -/
theorem searchMask_spec {env : MergeSearchEnv} (hrows : DistinctRows env.ordered) {depth : Nat} :
    ∀ {mask : Nat} {search : MergeSearch}, mask < 2 ^ env.ordered.length →
      (env.unused mask).length = depth → InRange env.maximumDelta (env.usedNet mask) →
      search.exhausted = false → search.Honest env →
      SearchReport env mask search.path
        (searchMask env depth mask (env.usedNet mask) search) := by
  induction depth with
  | zero =>
    intro mask search hlt hdepth _ _ _
    have hnil := List.eq_nil_of_length_eq_zero hdepth
    unfold searchMask
    rw [if_pos (eq_fullMask_of_unused_eq_nil hlt hnil)]
    exact ⟨[], by simp, by simp [hnil], trivial⟩
  | succ depth ih =>
    intro mask search hlt hdepth hin hex hhonest
    have hne : env.unused mask ≠ [] := by
      intro hnil
      rw [hnil] at hdepth
      cases hdepth
    unfold searchMask
    have hfull : mask ≠ env.fullMask := fun h => hne (h ▸ unused_fullMask)
    rw [if_neg hfull]
    by_cases hmemo : mask ∈ search.failedMasks
    · rw [if_pos hmemo]
      exact Or.inr ⟨rfl, hhonest mask hmemo, hhonest⟩
    · rw [if_neg hmemo]
      refine trySources_spec hrows hin hne ?_ (fun _ => zipIdx_getElem?) hex hhonest ?_
      · intro index hindex search' hex' hhonest' hin'
        have hlen := unused_length_extend hindex
        exact ih (extend_lt hlt hindex) (by omega) hin' hex' hhonest'
      · intro index hindex hnot
        refine absurd ?_ hnot
        have hi := (mem_unused.mp hindex).1
        exact List.mem_map.mpr ⟨(env.ordered[index], index),
          List.mk_mem_zipIdx_iff_getElem?.mpr (List.getElem?_eq_getElem hi), rfl⟩

/-! ## The planner -/

theorem unused_zero (env : MergeSearchEnv) : env.unused 0 = List.range env.ordered.length := by
  simp [MergeSearchEnv.unused]

theorem usedNet_zero (env : MergeSearchEnv) : env.usedNet 0 = 0 := by
  simp [MergeSearchEnv.usedNet, MergeSearchEnv.used]

theorem filterMap_range_getElem? {α : Type} (l : List α) :
    (List.range l.length).filterMap (l[·]?) = l := by
  have hmap : (List.range l.length).map (l[·]?) = l.map some := by
    refine List.ext_getElem (by simp) fun i hi _ => ?_
    have hlt : i < l.length := by simpa using hi
    simp [List.getElem?_eq_getElem hlt]
  calc (List.range l.length).filterMap (l[·]?)
      = ((List.range l.length).map (l[·]?)).filterMap id := by rw [List.filterMap_map]; rfl
    _ = l := by rw [hmap, List.filterMap_map]; exact List.filterMap_some

/-- The sources at the indices of a path. -/
def MergeSearchEnv.sourcesAt (env : MergeSearchEnv) (path : List Nat) : List OrderedSource :=
  path.filterMap (env.ordered[·]?)

theorem map_sourcesAt {β : Type} {env : MergeSearchEnv} {path : List Nat}
    (hpath : ∀ index ∈ path, index < env.ordered.length) (f : OrderedSource → β) (default : β) :
    (env.sourcesAt path).map f =
      path.map fun index => (env.ordered[index]?.map f).getD default := by
  induction path with
  | nil => rfl
  | cons index path ih =>
    have hlt := hpath index List.mem_cons_self
    have ih := ih fun i hi => hpath i (List.mem_cons_of_mem _ hi)
    unfold MergeSearchEnv.sourcesAt at *
    rw [List.filterMap_cons, List.getElem?_eq_getElem hlt, List.map_cons, List.map_cons, ih,
      List.getElem?_eq_getElem hlt]
    rfl

/-- `order` lists the sources of `ordered` so that every running delta stays in range. -/
structure SafeSourceOrder (M : Int) (ordered order : List OrderedSource) : Prop where
  perm : order.Perm ordered
  safe : SafeFrom (InRange M) 0 (order.map (·.net))

/-- The report of the search from the empty mask. -/
theorem searchMask_zero {env : MergeSearchEnv} (hM : 0 ≤ env.maximumDelta)
    (hrows : DistinctRows env.ordered) (calls : Nat) :
    SearchReport env 0 []
      (searchMask env env.ordered.length 0 (fun _ => 0) ⟨[], [], 0, false, none, calls⟩) := by
  have hspec : SearchReport env 0 [] (searchMask env env.ordered.length 0 (env.usedNet 0)
      ⟨[], [], 0, false, none, calls⟩) :=
    searchMask_spec hrows (Nat.two_pow_pos _) (by rw [unused_zero, List.length_range])
      (by rw [usedNet_zero]; exact inRange_zero hM) rfl (fun m hm => by cases hm)
  rw [usedNet_zero] at hspec
  exact hspec

theorem fallbackOrder_found {env : MergeSearchEnv} (hM : 0 ≤ env.maximumDelta)
    (hrows : DistinctRows env.ordered) {calls calls' work : Nat} {hashes : List String}
    {usedFallback : Bool} (h : fallbackOrder env calls = (.found hashes usedFallback work, calls')) :
    ∃ order, SafeSourceOrder env.maximumDelta env.ordered order ∧
      hashes = order.map (·.offerHash) := by
  have hspec := searchMask_zero hM hrows calls
  unfold fallbackOrder at h
  cases hrun : searchMask env env.ordered.length 0 (fun _ => 0) ⟨[], [], 0, false, none, calls⟩ with
  | mk found search =>
    rw [hrun] at h hspec
    cases found with
    | false => cases h
    | true =>
      cases h
      obtain ⟨order, hpath, hperm, hsafe⟩ := hspec
      rw [List.nil_append] at hpath
      rw [unused_zero] at hperm
      have hlt : ∀ index ∈ order, index < env.ordered.length := fun index hindex =>
        List.mem_range.mp (hperm.mem_iff.mp hindex)
      refine ⟨env.sourcesAt order, ⟨?_, ?_⟩, ?_⟩
      · have hsources := hperm.filterMap (env.ordered[·]?)
        rwa [filterMap_range_getElem?] at hsources
      · rw [usedNet_zero] at hsafe
        rw [map_sourcesAt hlt _ 0]
        exact hsafe
      · rw [map_sourcesAt hlt _ "", hpath]

theorem fallbackOrder_unsafe {env : MergeSearchEnv} (hM : 0 ≤ env.maximumDelta)
    (hrows : DistinctRows env.ordered) {calls calls' work : Nat}
    (h : fallbackOrder env calls = (.failed .unsafeMergeOrder work, calls')) :
    ¬ Orderable (InRange env.maximumDelta) 0 (env.ordered.map (·.net)) := by
  have hspec := searchMask_zero hM hrows calls
  unfold fallbackOrder at h
  cases hrun : searchMask env env.ordered.length 0 (fun _ => 0) ⟨[], [], 0, false, none, calls⟩ with
  | mk found search =>
    rw [hrun] at h hspec
    cases found with
    | true => cases h
    | false =>
      have hex : search.exhausted = false := by
        by_contra hex
        rw [Bool.not_eq_false] at hex
        simp only [hex, if_true] at h
        cases hreason : search.interruptReason <;> rw [hreason] at h <;> cases h
      rcases hspec with habs | ⟨-, hdead, -⟩
      · rw [hex] at habs
        cases habs
      · have hnets : (List.range env.ordered.length).map env.netAt = env.ordered.map (·.net) := by
          have hrange : ∀ index ∈ List.range env.ordered.length, index < env.ordered.length :=
            fun _ hi => List.mem_range.mp hi
          refine (map_sourcesAt hrange OrderedSource.net 0).symm.trans ?_
          rw [MergeSearchEnv.sourcesAt, filterMap_range_getElem?]
        unfold MergeSearchEnv.Completable at hdead
        rw [usedNet_zero, unused_zero, hnets] at hdead
        exact hdead

/-! ### From the sources -/

/-- A source the planner accepts. -/
structure ValidMergeSource (source : WholeOfferMergeSource) : Prop
    extends ValidSource source.toWholeOfferBalanceSource where
  hash : hex64 source.offerHash = true

/-- The net deltas of a source. -/
def WholeOfferBalanceSource.net (source : WholeOfferBalanceSource) : Deltas :=
  legAmounts source.gives - legAmounts source.wants

/-- `ordered` is what the planner makes of `source`. -/
structure OrderedFrom (source : WholeOfferMergeSource) (ordered : OrderedSource) : Prop where
  hash : ordered.offerHash = toLowerCase source.offerHash
  accounts : Accounts ordered.rows (legAmounts source.gives) (legAmounts source.wants)

theorem OrderedFrom.net {source : WholeOfferMergeSource} {ordered : OrderedSource}
    (h : OrderedFrom source ordered) : ordered.net = source.net := h.accounts.rowsNet_eq

theorem orderedSource_ok {source : WholeOfferMergeSource} (h : ValidMergeSource source) :
    ∃ ordered, orderedSource source = .ok ordered ∧ OrderedFrom source ordered := by
  have hsource : ∀ s ∈ [source.toWholeOfferBalanceSource], ValidSource s := by
    simpa using h.toValidSource
  obtain ⟨rows, hrows, haccounts⟩ := accountWholeOfferBalances_ok hsource
  refine ⟨⟨toLowerCase source.offerHash, rows⟩, ?_, rfl, ?_⟩
  · unfold orderedSource
    rw [canonicalToken_of_hex64 h.hash, hrows]
    rfl
  · simpa [sourceGives, sourceWants] using haccounts

theorem mapM_orderedSource {sources : List WholeOfferMergeSource}
    (hsources : ∀ source ∈ sources, ValidMergeSource source) :
    ∃ ordered, sources.mapM orderedSource = .ok ordered ∧
      List.Forall₂ OrderedFrom sources ordered := by
  induction sources with
  | nil => exact ⟨[], rfl, .nil⟩
  | cons source sources ih =>
    obtain ⟨first, hfirst, hfrom⟩ := orderedSource_ok (hsources source List.mem_cons_self)
    obtain ⟨rest, hrest, hall⟩ := ih fun s hs => hsources s (List.mem_cons_of_mem _ hs)
    refine ⟨first :: rest, ?_, .cons hfrom hall⟩
    rw [List.mapM_cons, hfirst, hrest]
    rfl

theorem Forall2_orderedFrom_net {sources : List WholeOfferMergeSource}
    {ordered : List OrderedSource} (h : List.Forall₂ OrderedFrom sources ordered) :
    ordered.map (·.net) = sources.map (·.net) := by
  induction h with
  | nil => rfl
  | cons hfrom _ ih => rw [List.map_cons, List.map_cons, hfrom.net, ih]

theorem Forall2_orderedFrom_rows {sources : List WholeOfferMergeSource}
    {ordered : List OrderedSource} (h : List.Forall₂ OrderedFrom sources ordered) :
    DistinctRows ordered := by
  induction h with
  | nil => exact fun _ h => by cases h
  | cons hfrom _ ih =>
    intro source hsource
    rcases List.mem_cons.mp hsource with rfl | hmem
    · exact hfrom.accounts.nodup_tokens
    · exact ih source hmem

theorem DistinctRows.perm {ordered ordered' : List OrderedSource} (h : DistinctRows ordered)
    (hp : ordered'.Perm ordered) : DistinctRows ordered' :=
  fun source hsource => h source (hp.mem_iff.mp hsource)

/-- The largest running delta the options allow. -/
def WholeOfferMergeOrderOptions.maximum (options : WholeOfferMergeOrderOptions) : Int :=
  options.maximumDelta.getD maxSettlementAmount

theorem checkMergeOrderOptions_ok {maximumDelta maxSources maxWork : Int}
    (h : checkMergeOrderOptions maximumDelta maxSources maxWork = .ok ()) :
    0 < maximumDelta ∧ maxSources ≤ maxPhysicalMakersPerMerge := by
  unfold checkMergeOrderOptions at h
  by_cases h1 : maximumDelta ≤ 0 ∨ maximumDelta > maxSettlementAmount
  · rw [if_pos h1] at h
    cases h
  · by_cases h2 : maxSources < 1 ∨ maxSources > maxPhysicalMakersPerMerge
    · rw [if_neg h1, if_pos h2] at h
      cases h
    · omega

/-- What the planner computes once its options and sources are accepted. -/
theorem findSafeWholeOfferMergeOrder_eq {sources : List WholeOfferMergeSource}
    {options : WholeOfferMergeOrderOptions} {calls : Nat}
    {result : WholeOfferMergeOrderResult × Nat}
    (h : findSafeWholeOfferMergeOrder sources options calls = .ok result)
    (hsources : ∀ source ∈ sources, ValidMergeSource source) :
    0 < options.maximum ∧ (result = (.failed .tooManySources 0, calls) ∧
        ((sources.length : Int) > options.maxSources.getD maxPhysicalMakersPerMerge) ∨
      ∃ ordered, sources.mapM orderedSource = .ok ordered ∧
        List.Forall₂ OrderedFrom sources ordered ∧
        result = match fastPath options.maximum (ordered.insertionSort byOrderedHash) with
          | some _ => (.found ((ordered.insertionSort byOrderedHash).map (·.offerHash)) false 0, calls)
          | none => fallbackOrder ⟨ordered.insertionSort byOrderedHash, options.maximum,
              (options.maxWork.getD maxSafeMergeOrderWork).toNat, options.shouldAbort⟩ calls) := by
  obtain ⟨ordered, hmap, hall⟩ := mapM_orderedSource hsources
  unfold findSafeWholeOfferMergeOrder at h
  simp only [bind, Except.bind] at h
  split at h
  · cases h
  · rename_i _ hcheck
    obtain ⟨hpos, -⟩ := checkMergeOrderOptions_ok hcheck
    refine ⟨hpos, ?_⟩
    split at h
    · rename_i hmany
      cases h
      exact Or.inl ⟨rfl, hmany⟩
    · rw [hmap] at h
      simp only at h
      split at h
      · cases h
      · refine Or.inr ⟨ordered, hmap, hall, ?_⟩
        unfold WholeOfferMergeOrderOptions.maximum
        cases hfast : fastPath (options.maximumDelta.getD maxSettlementAmount)
            (ordered.insertionSort byOrderedHash) with
        | some deltas =>
          rw [hfast] at h
          cases h
          rfl
        | none =>
          rw [hfast] at h
          cases h
          rfl

theorem orderable_sorted {sources : List WholeOfferMergeSource} {ordered : List OrderedSource}
    (hall : List.Forall₂ OrderedFrom sources ordered) (M : Int) :
    Orderable (InRange M) 0 ((ordered.insertionSort byOrderedHash).map (·.net)) ↔
      Orderable (InRange M) 0 (sources.map (·.net)) := by
  have hperm : ((ordered.insertionSort byOrderedHash).map (·.net)).Perm (sources.map (·.net)) := by
    rw [← Forall2_orderedFrom_net hall]
    exact (List.perm_insertionSort byOrderedHash ordered).map _
  exact ⟨fun h => h.perm hperm, fun h => h.perm hperm.symm⟩

/-- **Soundness.** The hashes found list the sources in an order whose running deltas all stay in
range. -/
theorem findSafeWholeOfferMergeOrder_found {sources : List WholeOfferMergeSource}
    {options : WholeOfferMergeOrderOptions} {calls calls' work : Nat} {hashes : List String}
    {usedFallback : Bool}
    (h : findSafeWholeOfferMergeOrder sources options calls =
      .ok (.found hashes usedFallback work, calls'))
    (hsources : ∀ source ∈ sources, ValidMergeSource source) :
    ∃ ordered order, List.Forall₂ OrderedFrom sources ordered ∧
      SafeSourceOrder options.maximum ordered order ∧ hashes = order.map (·.offerHash) := by
  obtain ⟨hpos, ⟨habs, -⟩ | ⟨ordered, -, hall, hresult⟩⟩ := findSafeWholeOfferMergeOrder_eq h hsources
  · cases habs
  have hperm := List.perm_insertionSort byOrderedHash ordered
  have hrows := (Forall2_orderedFrom_rows hall).perm hperm
  cases hfast : fastPath options.maximum (ordered.insertionSort byOrderedHash) with
  | some next =>
    rw [hfast] at hresult
    cases hresult
    exact ⟨ordered, _, hall, ⟨hperm, (fastPath_isSome hpos.le hrows).mp ⟨next, hfast⟩⟩, rfl⟩
  | none =>
    rw [hfast] at hresult
    obtain ⟨order, horder, hhashes⟩ := fallbackOrder_found hpos.le hrows hresult.symm
    exact ⟨ordered, order, hall, ⟨horder.perm.trans hperm, horder.safe⟩, hhashes⟩

theorem SafeSourceOrder.orderable {M : Int} {sources : List WholeOfferMergeSource}
    {ordered order : List OrderedSource} (h : SafeSourceOrder M ordered order)
    (hall : List.Forall₂ OrderedFrom sources ordered) :
    Orderable (InRange M) 0 (sources.map (·.net)) :=
  ⟨order.map (·.net), Forall2_orderedFrom_net hall ▸ h.perm.map _, h.safe⟩

/-- **Completeness.** When the planner gives up with its budget unspent, no order is safe. -/
theorem findSafeWholeOfferMergeOrder_unsafe {sources : List WholeOfferMergeSource}
    {options : WholeOfferMergeOrderOptions} {calls calls' work : Nat}
    (h : findSafeWholeOfferMergeOrder sources options calls =
      .ok (.failed .unsafeMergeOrder work, calls'))
    (hsources : ∀ source ∈ sources, ValidMergeSource source) :
    ¬ Orderable (InRange options.maximum) 0 (sources.map (·.net)) := by
  obtain ⟨hpos, ⟨habs, -⟩ | ⟨ordered, -, hall, hresult⟩⟩ := findSafeWholeOfferMergeOrder_eq h hsources
  · cases habs
  have hperm := List.perm_insertionSort byOrderedHash ordered
  have hrows := (Forall2_orderedFrom_rows hall).perm hperm
  cases hfast : fastPath options.maximum (ordered.insertionSort byOrderedHash) with
  | some next =>
    rw [hfast] at hresult
    cases hresult
  | none =>
    rw [hfast] at hresult
    rw [← orderable_sorted hall]
    exact fallbackOrder_unsafe hpos.le hrows hresult.symm

theorem fallbackOrder_ne_tooManySources (env : MergeSearchEnv) (calls work calls' : Nat) :
    fallbackOrder env calls ≠ (.failed .tooManySources work, calls') := by
  unfold fallbackOrder
  intro h
  cases hrun : searchMask env env.ordered.length 0 (fun _ => 0) ⟨[], [], 0, false, none, calls⟩ with
  | mk found search =>
    rw [hrun] at h
    cases found with
    | true => cases h
    | false =>
      simp only at h
      cases hreason : search.interruptReason <;> rw [hreason] at h
      · cases hex : search.exhausted <;> simp [hex] at h
      · cases h

/-- The planner refuses a list of sources for its length only. -/
theorem findSafeWholeOfferMergeOrder_tooManySources {sources : List WholeOfferMergeSource}
    {options : WholeOfferMergeOrderOptions} {calls calls' work : Nat}
    (h : findSafeWholeOfferMergeOrder sources options calls =
      .ok (.failed .tooManySources work, calls'))
    (hsources : ∀ source ∈ sources, ValidMergeSource source) :
    (sources.length : Int) > options.maxSources.getD maxPhysicalMakersPerMerge := by
  obtain ⟨-, ⟨-, hmany⟩ | ⟨ordered, -, -, hresult⟩⟩ := findSafeWholeOfferMergeOrder_eq h hsources
  · exact hmany
  · cases hfast : fastPath options.maximum (ordered.insertionSort byOrderedHash) with
    | some next =>
      rw [hfast] at hresult
      cases hresult
    | none =>
      rw [hfast] at hresult
      exact absurd hresult.symm (fallbackOrder_ne_tooManySources _ _ _ _)

end ZswapKernel
