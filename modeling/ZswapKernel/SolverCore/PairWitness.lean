import Mathlib.Algebra.Order.BigOperators.Group.List
import Mathlib.Algebra.Order.Group.Int
import Mathlib.Tactic.Abel
import Mathlib.Tactic.Ring
import ZswapKernel.Lib.BestByKey
import ZswapKernel.SolverCore.EnumeratePair
import ZswapKernel.SolverCore.MakerSets

/-!
# Witnesses of maker sets

What the pair search records for a set of makers, apart from how it walks over the sets.

* `Witnesses` — `exact` holds the best witness at each input, in the order of
  `betterSelectedWitness` (`betterSelectedWitness_iff`).
* `PairBalances.Holds` — the balance vectors of a selection, and `PairBalances.Holds.accounts` for
  the rows they materialize.
* `candidate_direct_iff`, `witness_direct` — sets of makers that are all on the pair itself.
-/

namespace ZswapKernel

open SafeOrder BestByKey

/-! ## The order on witnesses -/

/-- `betterSelectedWitness` as an order: larger output, then fewer files, then lower hashes. -/
def CombinationState.rank (state : CombinationState) : Int ×ₗ Nat ×ₗ List String :=
  toLex (-state.output, toLex (state.offerHashes.length, state.offerHashes))

theorem firstDifferenceBelow_iff {left right : List String} (h : left.length = right.length) :
    firstDifferenceBelow left right = true ↔ left < right := by
  induction left generalizing right with
  | nil =>
    rw [List.eq_nil_of_length_eq_zero h.symm]
    simp [firstDifferenceBelow]
  | cons a left ih =>
    cases right with
    | nil => cases h
    | cons b right =>
      rw [List.cons_lt_cons_iff, ← ih (Nat.succ.inj h)]
      rcases lt_trichotomy a b with hlt | rfl | hgt
      · simp [firstDifferenceBelow, hlt]
      · simp [firstDifferenceBelow]
      · simp [firstDifferenceBelow, hgt, hgt.not_gt, hgt.ne']

theorem betterSelectedWitness_iff (entry incumbent : CombinationState) :
    betterSelectedWitness entry.output entry.offerHashes incumbent = true ↔
      entry.rank < incumbent.rank := by
  unfold betterSelectedWitness CombinationState.rank
  rw [Prod.Lex.toLex_lt_toLex, Prod.Lex.toLex_lt_toLex]
  simp only [Int.neg_lt_neg_iff, neg_inj]
  by_cases houtput : entry.output = incumbent.output
  · by_cases hlength : entry.offerHashes.length = incumbent.offerHashes.length
    · rw [if_neg (not_not.mpr houtput), if_neg (not_not.mpr hlength),
        firstDifferenceBelow_iff hlength]
      simp [houtput, hlength]
    · rw [if_neg (not_not.mpr houtput), if_pos hlength]
      simp [houtput, hlength]
  · rw [if_pos houtput]
    simp [houtput]

theorem setExact_eq_replace (entry : CombinationState) (exact : List CombinationState) :
    setExact entry exact = replace (·.input) entry exact := by
  induction exact with
  | nil => rfl
  | cons incumbent exact ih =>
    unfold setExact replace
    rw [ih]

/-- Recording a witness is recording the best by input. -/
theorem recordWitness_eq_record (exact : List CombinationState) (entry : CombinationState) :
    recordWitness exact entry = record (·.input) CombinationState.rank exact entry := by
  unfold recordWitness record
  simp only [setExact_eq_replace]
  cases exact.find? fun state => state.input = entry.input with
  | none => rfl
  | some incumbent =>
    have hbetter := betterSelectedWitness_iff entry incumbent
    by_cases hlt : entry.rank < incumbent.rank
    · simp [hlt, hbetter.mpr hlt]
    · simp [hlt, mt hbetter.mp hlt]

/-- `exact` holds the best witness at each input among the `seen` ones. -/
abbrev Witnesses (seen : CombinationState → Prop) (exact : List CombinationState) : Prop :=
  Keeps (·.input) CombinationState.rank seen exact

theorem Witnesses.record {seen : CombinationState → Prop} {exact : List CombinationState}
    (h : Witnesses seen exact) (entry : CombinationState) :
    Witnesses (fun state => seen state ∨ state = entry) (recordWitness exact entry) := by
  rw [recordWitness_eq_record]
  exact Keeps.record h entry

/-! ## The balance vectors -/

/-- The gross amounts the makers give. -/
def makerGives (makers : List Crossable) : Amounts :=
  (makers.map fun offer => (Pi.single offer.tokenOut offer.amountOut : Amounts)).sum

/-- The gross amounts the makers want. -/
def makerWants (makers : List Crossable) : Amounts :=
  (makers.map fun offer => (Pi.single offer.tokenIn offer.amountIn : Amounts)).sum

theorem netSupply_eq (makers : List Crossable) :
    netSupply makers = makerGives makers - makerWants makers := by
  induction makers with
  | nil => simp [makerGives, makerWants]
  | cons offer makers ih =>
    rw [netSupply_cons, ih]
    simp only [makerGives, makerWants, List.map_cons, List.sum_cons, Crossable.net]
    abel

theorem makerGives_concat (makers : List Crossable) (offer : Crossable) :
    makerGives (makers ++ [offer]) =
      makerGives makers + Pi.single offer.tokenOut offer.amountOut := by
  simp [makerGives]

theorem makerWants_concat (makers : List Crossable) (offer : Crossable) :
    makerWants (makers ++ [offer]) = makerWants makers + Pi.single offer.tokenIn offer.amountIn := by
  simp [makerWants]

theorem makerGives_nonneg {makers : List Crossable} (h : ∀ offer ∈ makers, offer.Valid)
    (token : String) : 0 ≤ makerGives makers token := by
  induction makers with
  | nil => simp [makerGives]
  | cons offer makers ih =>
    have ih := ih fun o ho => h o (List.mem_cons_of_mem _ ho)
    have hpos := (h offer List.mem_cons_self).amountOut_pos
    simp only [makerGives, List.map_cons, List.sum_cons, Pi.add_apply] at *
    by_cases heq : token = offer.tokenOut
    · subst heq
      rw [Pi.single_eq_same]
      omega
    · rw [Pi.single_eq_of_ne heq, zero_add]
      exact ih

theorem makerWants_nonneg {makers : List Crossable} (h : ∀ offer ∈ makers, offer.Valid)
    (token : String) : 0 ≤ makerWants makers token := by
  induction makers with
  | nil => simp [makerWants]
  | cons offer makers ih =>
    have ih := ih fun o ho => h o (List.mem_cons_of_mem _ ho)
    have hpos := (h offer List.mem_cons_self).amountIn_pos
    simp only [makerWants, List.map_cons, List.sum_cons, Pi.add_apply] at *
    by_cases heq : token = offer.tokenIn
    · subst heq
      rw [Pi.single_eq_same]
      omega
    · rw [Pi.single_eq_of_ne heq, zero_add]
      exact ih

theorem indexIn_inj {tokenAt : List String} {token token' : String} (h : token ∈ tokenAt) :
    indexIn tokenAt token = indexIn tokenAt token' ↔ token = token' :=
  List.idxOf_inj h

/-- The vectors hold the gross and net amounts of `makers` by token index, and the active indices
are those of the tokens with an amount. -/
structure PairBalances.Holds (balances : PairBalances) (tokenAt : List String)
    (makers : List Crossable) : Prop where
  gives : ∀ token ∈ tokenAt, balances.gives (indexIn tokenAt token) = makerGives makers token
  wants : ∀ token ∈ tokenAt, balances.wants (indexIn tokenAt token) = makerWants makers token
  nets : ∀ token ∈ tokenAt, balances.nets (indexIn tokenAt token) = netSupply makers token
  active_nodup : balances.activeTokenIndices.Nodup
  active : ∀ index, index ∈ balances.activeTokenIndices ↔
    ∃ token ∈ tokenAt, index = indexIn tokenAt token ∧
      (makerGives makers token ≠ 0 ∨ makerWants makers token ≠ 0)

theorem PairBalances.holds_nil (tokenAt : List String) :
    PairBalances.Holds {} tokenAt [] where
  gives := by simp [makerGives]
  wants := by simp [makerWants]
  nets := by simp
  active_nodup := List.nodup_nil
  active := by simp [makerGives, makerWants]

theorem update_indexIn {tokenAt : List String} {token token' : String} (h : token ∈ tokenAt)
    (f : Nat → Int) (value : Int) :
    Function.update f (indexIn tokenAt token') value (indexIn tokenAt token) =
      if token = token' then value else f (indexIn tokenAt token) := by
  by_cases heq : token = token'
  · subst heq
    simp
  · rw [if_neg heq, Function.update_of_ne (mt (indexIn_inj h).mp heq)]

/-- A token is active iff it was not absent. -/
theorem PairBalances.Holds.active_iff {balances : PairBalances} {tokenAt : List String}
    {makers : List Crossable} (h : balances.Holds tokenAt makers) {token : String}
    (htoken : token ∈ tokenAt) : indexIn tokenAt token ∈ balances.activeTokenIndices ↔
      ¬ (balances.gives (indexIn tokenAt token) = 0 ∧ balances.wants (indexIn tokenAt token) = 0) := by
  rw [h.active, h.gives token htoken, h.wants token htoken, not_and_or]
  constructor
  · rintro ⟨token', -, heq, hne⟩
    rwa [(indexIn_inj htoken).mp heq]
  · exact fun hne => ⟨token, htoken, rfl, hne⟩

/-- The active indices after an extension: the old ones and both of the offer's tokens. -/
theorem mem_active_add {balances : PairBalances} {input output : Nat} {amountIn amountOut : Int}
    (hin : input ∈ balances.activeTokenIndices ↔
      ¬ (balances.gives input = 0 ∧ balances.wants input = 0))
    (hout : output ∈ balances.activeTokenIndices ↔
      ¬ (balances.gives output = 0 ∧ balances.wants output = 0)) (index : Nat) :
    index ∈ (balances.add input output amountIn amountOut).activeTokenIndices ↔
      index ∈ balances.activeTokenIndices ∨ index = input ∨ index = output := by
  simp only [PairBalances.add, List.mem_append]
  by_cases hi : balances.gives input = 0 ∧ balances.wants input = 0
  · by_cases ho : balances.gives output = 0 ∧ balances.wants output = 0
    · simp [hi, ho, or_assoc]
    · have := hout.mpr ho
      rw [if_pos hi, if_neg ho, List.mem_singleton]
      simp only [List.not_mem_nil, or_false]
      constructor
      · rintro (h | h)
        · exact Or.inl h
        · exact Or.inr (Or.inl h)
      · rintro (h | h | rfl)
        · exact Or.inl h
        · exact Or.inr h
        · exact Or.inl this
  · have hmem := hin.mpr hi
    rw [if_neg hi]
    by_cases ho : balances.gives output = 0 ∧ balances.wants output = 0
    · rw [if_pos ho, List.mem_singleton]
      simp only [List.not_mem_nil, or_false]
      constructor
      · rintro (h | h)
        · exact Or.inl h
        · exact Or.inr (Or.inr h)
      · rintro (h | rfl | h)
        · exact Or.inl h
        · exact Or.inl hmem
        · exact Or.inr h
    · have hmem' := hout.mpr ho
      rw [if_neg ho]
      simp only [List.not_mem_nil, or_false]
      constructor
      · exact Or.inl
      · rintro (h | rfl | rfl)
        · exact h
        · exact hmem
        · exact hmem'

theorem nodup_active_add {balances : PairBalances} {input output : Nat} {amountIn amountOut : Int}
    (hnodup : balances.activeTokenIndices.Nodup) (hne : input ≠ output)
    (hin : input ∈ balances.activeTokenIndices ↔
      ¬ (balances.gives input = 0 ∧ balances.wants input = 0))
    (hout : output ∈ balances.activeTokenIndices ↔
      ¬ (balances.gives output = 0 ∧ balances.wants output = 0)) :
    (balances.add input output amountIn amountOut).activeTokenIndices.Nodup := by
  simp only [PairBalances.add]
  by_cases hi : balances.gives input = 0 ∧ balances.wants input = 0
  · have hi' : input ∉ balances.activeTokenIndices := fun h => hin.mp h hi
    by_cases ho : balances.gives output = 0 ∧ balances.wants output = 0
    · have ho' : output ∉ balances.activeTokenIndices := fun h => hout.mp h ho
      rw [if_pos hi, if_pos ho]
      simp only [List.append_assoc, List.singleton_append, List.nodup_append, hnodup, true_and]
      refine ⟨by simp [hne], fun a ha b hb => ?_⟩
      rcases List.mem_pair.mp hb with rfl | rfl
      · exact ne_of_mem_of_not_mem ha hi'
      · exact ne_of_mem_of_not_mem ha ho'
    · rw [if_pos hi, if_neg ho, List.append_nil]
      exact List.nodup_append.mpr ⟨hnodup, List.nodup_singleton input, fun a ha b hb =>
        List.mem_singleton.mp hb ▸ ne_of_mem_of_not_mem ha hi'⟩
  · rw [if_neg hi]
    by_cases ho : balances.gives output = 0 ∧ balances.wants output = 0
    · have ho' : output ∉ balances.activeTokenIndices := fun h => hout.mp h ho
      rw [if_pos ho, List.append_nil]
      exact List.nodup_append.mpr ⟨hnodup, List.nodup_singleton output, fun a ha b hb =>
        List.mem_singleton.mp hb ▸ ne_of_mem_of_not_mem ha ho'⟩
    · rw [if_neg ho]
      simpa using hnodup

theorem single_apply (token token' : String) (amount : Int) :
    (Pi.single token' amount : Amounts) token = if token = token' then amount else 0 := by
  simp [Pi.single_apply]

/-- A token has an amount after an extension iff it had one or is one of the offer's. -/
theorem hasAmount_concat {makers : List Crossable} {offer : Crossable}
    (hmakers : ∀ maker ∈ makers, maker.Valid) (hvalid : offer.Valid) (token : String) :
    (makerGives (makers ++ [offer]) token ≠ 0 ∨ makerWants (makers ++ [offer]) token ≠ 0) ↔
      (makerGives makers token ≠ 0 ∨ makerWants makers token ≠ 0) ∨
        token = offer.tokenIn ∨ token = offer.tokenOut := by
  have hg := makerGives_nonneg hmakers token
  have hw := makerWants_nonneg hmakers token
  have hin := hvalid.amountIn_pos
  have hout := hvalid.amountOut_pos
  rw [makerGives_concat, makerWants_concat, Pi.add_apply, Pi.add_apply, single_apply, single_apply]
  by_cases hti : token = offer.tokenIn
  · rw [if_pos hti]
    exact iff_of_true (Or.inr (by omega)) (Or.inr (Or.inl hti))
  · by_cases hto : token = offer.tokenOut
    · rw [if_pos hto]
      exact iff_of_true (Or.inl (by omega)) (Or.inr (Or.inr hto))
    · simp [hti, hto]

/-- **Extending the selection** by one maker keeps the vectors exact. -/
theorem PairBalances.Holds.add {balances : PairBalances} {tokenAt : List String}
    {makers : List Crossable} (h : balances.Holds tokenAt makers) {offer : Crossable}
    (hvalid : offer.Valid) (hmakers : ∀ maker ∈ makers, maker.Valid)
    (hin : offer.tokenIn ∈ tokenAt) (hout : offer.tokenOut ∈ tokenAt) :
    (balances.add (indexIn tokenAt offer.tokenIn) (indexIn tokenAt offer.tokenOut) offer.amountIn
      offer.amountOut).Holds tokenAt (makers ++ [offer]) := by
  have hdistinct : indexIn tokenAt offer.tokenIn ≠ indexIn tokenAt offer.tokenOut :=
    mt (indexIn_inj hin).mp hvalid.distinct
  refine ⟨?_, ?_, ?_, ?_, ?_⟩
  · intro token htoken
    rw [makerGives_concat, Pi.add_apply, single_apply]
    simp only [PairBalances.add, update_indexIn htoken, h.gives _ htoken, h.gives _ hout]
    split
    · subst_vars
      rfl
    · rw [add_zero]
  · intro token htoken
    rw [makerWants_concat, Pi.add_apply, single_apply]
    simp only [PairBalances.add, update_indexIn htoken, h.wants _ htoken, h.wants _ hin]
    split
    · subst_vars
      rfl
    · rw [add_zero]
  · intro token htoken
    simp only [PairBalances.add, update_indexIn htoken, update_indexIn hout, h.nets _ htoken,
      h.nets _ hin, h.nets _ hout, netSupply_append, netSupply_cons, netSupply_nil, add_zero,
      Pi.add_apply, Crossable.net, Pi.sub_apply, single_apply, if_neg hvalid.distinct.symm]
    by_cases hto : token = offer.tokenOut
    · rw [if_pos hto, if_pos hto, if_neg (fun hti => hvalid.distinct (hti.symm.trans hto)), hto]
      ring
    · by_cases hti : token = offer.tokenIn
      · rw [if_neg hto, if_neg hto, if_pos hti, if_pos hti, hti]
        ring
      · rw [if_neg hto, if_neg hto, if_neg hti, if_neg hti]
        ring
  · exact nodup_active_add h.active_nodup hdistinct (h.active_iff hin) (h.active_iff hout)
  · intro index
    rw [mem_active_add (h.active_iff hin) (h.active_iff hout), h.active]
    constructor
    · rintro (⟨token, htoken, rfl, hne⟩ | rfl | rfl)
      · exact ⟨token, htoken, rfl, (hasAmount_concat hmakers hvalid token).mpr (Or.inl hne)⟩
      · exact ⟨_, hin, rfl, (hasAmount_concat hmakers hvalid _).mpr (Or.inr (Or.inl rfl))⟩
      · exact ⟨_, hout, rfl, (hasAmount_concat hmakers hvalid _).mpr (Or.inr (Or.inr rfl))⟩
    · rintro ⟨token, htoken, rfl, hne⟩
      rcases (hasAmount_concat hmakers hvalid token).mp hne with hne | rfl | rfl
      · exact Or.inl ⟨token, htoken, rfl, hne⟩
      · exact Or.inr (Or.inl rfl)
      · exact Or.inr (Or.inr rfl)

/-- A token with an amount is one of some maker's two. -/
theorem hasAmount_exists {makers : List Crossable} {token : String}
    (hne : makerGives makers token ≠ 0 ∨ makerWants makers token ≠ 0) :
    ∃ offer ∈ makers, token = offer.tokenIn ∨ token = offer.tokenOut := by
  induction makers with
  | nil => simp [makerGives, makerWants] at hne
  | cons offer makers ih =>
    by_cases hti : token = offer.tokenIn
    · exact ⟨offer, List.mem_cons_self, Or.inl hti⟩
    · by_cases hto : token = offer.tokenOut
      · exact ⟨offer, List.mem_cons_self, Or.inr hto⟩
      · have hrest : makerGives makers token ≠ 0 ∨ makerWants makers token ≠ 0 := by
          simpa [makerGives, makerWants, Pi.single_eq_of_ne hti, Pi.single_eq_of_ne hto] using hne
        obtain ⟨maker, hmaker, htoken⟩ := ih hrest
        exact ⟨maker, List.mem_cons_of_mem _ hmaker, htoken⟩

/-- A token without an index has no amount. -/
theorem hasAmount_mem {tokenAt : List String} {makers : List Crossable}
    (h : Indexed tokenAt makers) {token : String}
    (hne : makerGives makers token ≠ 0 ∨ makerWants makers token ≠ 0) : token ∈ tokenAt := by
  obtain ⟨offer, hoffer, rfl | rfl⟩ := hasAmount_exists hne
  · exact (h offer hoffer).1
  · exact (h offer hoffer).2

/-- A token with an amount is canonical. -/
theorem hasAmount_canonical {makers : List Crossable} (h : ∀ offer ∈ makers, offer.Valid)
    {token : String} (hne : makerGives makers token ≠ 0 ∨ makerWants makers token ≠ 0) :
    CanonicalToken token := by
  obtain ⟨offer, hoffer, rfl | rfl⟩ := hasAmount_exists hne
  · exact (h offer hoffer).tokenIn
  · exact (h offer hoffer).tokenOut

theorem getD_indexIn {tokenAt : List String} {token : String} (h : token ∈ tokenAt) :
    tokenAt.getD (indexIn tokenAt token) "" = token := by
  unfold indexIn
  rw [List.getD_eq_getElem?_getD, List.getElem?_eq_getElem (List.idxOf_lt_length_of_mem h),
    List.getElem_idxOf, Option.getD_some]

/-- **The materialized rows** account for the selected makers. -/
theorem PairBalances.Holds.accounts {balances : PairBalances} {tokenAt : List String}
    {makers : List Crossable} (h : balances.Holds tokenAt makers)
    (hindexed : Indexed tokenAt makers) :
    Accounts (balances.rows tokenAt) (makerGives makers) (makerWants makers) := by
  have hrow : ∀ token ∈ tokenAt, (⟨tokenAt.getD (indexIn tokenAt token) "",
      balances.gives (indexIn tokenAt token), balances.wants (indexIn tokenAt token),
      balances.nets (indexIn tokenAt token)⟩ : WholeOfferTokenBalance) =
        rowAt (makerGives makers) (makerWants makers) token := by
    intro token htoken
    rw [getD_indexIn htoken, h.gives _ htoken, h.wants _ htoken, h.nets _ htoken, netSupply_eq]
    rfl
  have hperm := List.perm_insertionSort
    (fun left right : WholeOfferTokenBalance => left.token ≤ right.token)
    (balances.activeTokenIndices.map fun index =>
      (⟨tokenAt.getD index "", balances.gives index, balances.wants index, balances.nets index⟩ :
        WholeOfferTokenBalance))
  constructor
  · have : Std.Total fun left right : WholeOfferTokenBalance => left.token ≤ right.token :=
      ⟨fun left right => le_total left.token right.token⟩
    have : IsTrans WholeOfferTokenBalance fun left right => left.token ≤ right.token :=
      ⟨fun _ _ _ hab hbc => le_trans hab hbc⟩
    have hle := List.pairwise_insertionSort
      (fun left right : WholeOfferTokenBalance => left.token ≤ right.token)
      (balances.activeTokenIndices.map fun index =>
        (⟨tokenAt.getD index "", balances.gives index, balances.wants index,
          balances.nets index⟩ : WholeOfferTokenBalance))
    have hne : (balances.rows tokenAt).Pairwise fun a b => a.token ≠ b.token := by
      refine List.pairwise_map.mp ((hperm.map WholeOfferTokenBalance.token).nodup_iff.mpr ?_)
      rw [List.map_map, List.nodup_map_iff_inj_on h.active_nodup]
      intro i hi j hj heq
      obtain ⟨t, ht, rfl, -⟩ := (h.active i).mp hi
      obtain ⟨t', ht', rfl, -⟩ := (h.active j).mp hj
      have heq : tokenAt.getD (indexIn tokenAt t) "" = tokenAt.getD (indexIn tokenAt t') "" := heq
      rw [getD_indexIn ht, getD_indexIn ht'] at heq
      rw [heq]
    exact (hle.and hne).imp fun hab => lt_of_le_of_ne hab.1 hab.2
  · intro row
    unfold PairBalances.rows
    rw [hperm.mem_iff, List.mem_map]
    constructor
    · rintro ⟨index, hindex, rfl⟩
      obtain ⟨token, htoken, rfl, hne⟩ := (h.active index).mp hindex
      exact ⟨token, hne, hrow token htoken⟩
    · rintro ⟨token, hne, rfl⟩
      have htoken := hasAmount_mem hindexed hne
      exact ⟨_, (h.active _).mpr ⟨token, htoken, rfl, hne⟩, hrow token htoken⟩

/-! ## Witnesses -/

theorem legAmounts_singleton {token : String} (h : CanonicalToken token) (amount : Int) :
    legAmounts [⟨token, amount⟩] = Pi.single token amount := by
  simp [legAmounts, h.lower]

theorem Crossable.Valid.mergeSource {offer : Crossable} (h : offer.Valid) :
    ValidMergeSource offer.mergeSource where
  gives := by
    intro leg hleg
    rw [List.mem_singleton.mp hleg]
    exact ⟨h.tokenOut.hex, h.amountOut_pos⟩
  wants := by
    intro leg hleg
    rw [List.mem_singleton.mp hleg]
    exact ⟨h.tokenIn.hex, h.amountIn_pos⟩
  hash := h.hash.hex

theorem Crossable.Valid.mergeSource_net {offer : Crossable} (h : offer.Valid) :
    offer.mergeSource.net = offer.net := by
  unfold WholeOfferBalanceSource.net Crossable.net Crossable.mergeSource
  rw [legAmounts_singleton h.tokenOut, legAmounts_singleton h.tokenIn]

theorem map_mergeSource_net {makers : List Crossable} (h : ∀ offer ∈ makers, offer.Valid) :
    (makers.map (·.mergeSource)).map (·.net) = makers.map (·.net) := by
  rw [List.map_map]
  exact List.map_congr_left fun offer hoffer => (h offer hoffer).mergeSource_net

theorem map_mergeSource_valid {makers : List Crossable} (h : ∀ offer ∈ makers, offer.Valid) :
    ∀ source ∈ makers.map (·.mergeSource), ValidMergeSource source := by
  intro source hsource
  obtain ⟨offer, hoffer, rfl⟩ := List.mem_map.mp hsource
  exact (h offer hoffer).mergeSource

/-- The rows of a witness: its own, or those its two amounts stand for. -/
def CombinationState.rows (state : CombinationState) (tokenIn tokenOut : String) :
    List WholeOfferTokenBalance :=
  state.tokenBalances.getD
    [⟨tokenIn, 0, state.input, -state.input⟩, ⟨tokenOut, state.output, 0, state.output⟩]

/-- `state` is a witness of the selection `makers`. -/
structure Witness (tokenIn tokenOut : String) (makers : List Crossable)
    (state : CombinationState) : Prop where
  input : state.input = -netSupply makers tokenIn
  output : state.output = netSupply makers tokenOut
  offerHashes : state.offerHashes = makers.map (·.offerHash)
  rows : ∃ rows, canonicalBalances (state.rows tokenIn tokenOut) = .ok rows ∧
    Accounts rows (makerGives makers) (makerWants makers)

theorem Witness.rank_eq {tokenIn tokenOut : String} {makers : List Crossable}
    {state state' : CombinationState} (h : Witness tokenIn tokenOut makers state)
    (h' : Witness tokenIn tokenOut makers state') :
    state.input = state'.input ∧ state.rank = state'.rank := by
  unfold CombinationState.rank
  rw [h.input, h'.input, h.output, h'.output, h.offerHashes, h'.offerHashes]
  exact ⟨rfl, rfl⟩

/-- Recording a witness of `makers` extends what is kept by all its witnesses. -/
theorem Witnesses.record_witness {seen : CombinationState → Prop} {exact : List CombinationState}
    (h : Witnesses seen exact) {tokenIn tokenOut : String} {makers : List Crossable}
    {entry : CombinationState} (hentry : Witness tokenIn tokenOut makers entry) :
    Witnesses (fun state => seen state ∨ Witness tokenIn tokenOut makers state)
      (recordWitness exact entry) := by
  have hrecord := h.record entry
  refine ⟨hrecord.distinct, fun state hstate => ?_, fun state hstate => ?_⟩
  · rcases hrecord.sound state hstate with hseen | rfl
    · exact Or.inl hseen
    · exact Or.inr hentry
  · rcases hstate with hseen | hwitness
    · exact hrecord.best state (Or.inl hseen)
    · obtain ⟨hinput, hrank⟩ := hwitness.rank_eq hentry
      rw [hinput, hrank]
      exact hrecord.best entry (Or.inr rfl)

/-! ### The direct arm -/

section Direct

variable {tokenIn tokenOut : String} {makers : List Crossable}

theorem makerGives_direct (h : ∀ offer ∈ makers, offer.tokenOut = tokenOut) :
    makerGives makers = Pi.single tokenOut (makers.map (·.amountOut)).sum := by
  induction makers with
  | nil => simp [makerGives]
  | cons offer makers ih =>
    have ih := ih fun o ho => h o (List.mem_cons_of_mem _ ho)
    unfold makerGives at *
    rw [List.map_cons, List.sum_cons, ih, h offer List.mem_cons_self, List.map_cons,
      List.sum_cons, Pi.single_add]

theorem makerWants_direct (h : ∀ offer ∈ makers, offer.tokenIn = tokenIn) :
    makerWants makers = Pi.single tokenIn (makers.map (·.amountIn)).sum := by
  induction makers with
  | nil => simp [makerWants]
  | cons offer makers ih =>
    have ih := ih fun o ho => h o (List.mem_cons_of_mem _ ho)
    unfold makerWants at *
    rw [List.map_cons, List.sum_cons, ih, h offer List.mem_cons_self, List.map_cons,
      List.sum_cons, Pi.single_add]

theorem sum_amounts_nonneg (h : ∀ offer ∈ makers, offer.Valid) :
    0 ≤ (makers.map (·.amountIn)).sum ∧ 0 ≤ (makers.map (·.amountOut)).sum := by
  induction makers with
  | nil => simp
  | cons offer makers ih =>
    have ih := ih fun o ho => h o (List.mem_cons_of_mem _ ho)
    have hin := (h offer List.mem_cons_self).amountIn_pos
    have hout := (h offer List.mem_cons_self).amountOut_pos
    simp only [List.map_cons, List.sum_cons]
    omega

theorem sum_amounts_pos (h : ∀ offer ∈ makers, offer.Valid) (hne : makers ≠ []) :
    0 < (makers.map (·.amountIn)).sum ∧ 0 < (makers.map (·.amountOut)).sum := by
  cases makers with
  | nil => exact absurd rfl hne
  | cons offer makers =>
    have hrest := sum_amounts_nonneg fun o ho => h o (List.mem_cons_of_mem offer ho)
    have hin := (h offer List.mem_cons_self).amountIn_pos
    have hout := (h offer List.mem_cons_self).amountOut_pos
    simp only [List.map_cons, List.sum_cons]
    omega

/-- The net supply of makers that are all on the pair. -/
theorem netSupply_direct (hdistinct : tokenIn ≠ tokenOut)
    (h : ∀ offer ∈ makers, offer.tokenIn = tokenIn ∧ offer.tokenOut = tokenOut) (token : String) :
    netSupply makers token = if token = tokenIn then -(makers.map (·.amountIn)).sum
      else if token = tokenOut then (makers.map (·.amountOut)).sum else 0 := by
  rw [netSupply_eq, makerGives_direct fun o ho => (h o ho).2,
    makerWants_direct fun o ho => (h o ho).1, Pi.sub_apply, single_apply, single_apply]
  by_cases hti : token = tokenIn
  · rw [if_pos hti, if_pos hti, if_neg fun hto => hdistinct (hti.symm.trans hto), zero_sub]
  · rw [if_neg hti, if_neg hti, sub_zero]

theorem inRange_netSupply_direct (hdistinct : tokenIn ≠ tokenOut)
    (h : ∀ offer ∈ makers, offer.tokenIn = tokenIn ∧ offer.tokenOut = tokenOut)
    (hvalid : ∀ offer ∈ makers, offer.Valid) :
    InRange maxSettlementAmount (netSupply makers) ↔
      (makers.map (·.amountIn)).sum ≤ maxSettlementAmount ∧
        (makers.map (·.amountOut)).sum ≤ maxSettlementAmount := by
  have hnonneg := sum_amounts_nonneg hvalid
  have hM : (0 : Int) ≤ maxSettlementAmount := by decide
  constructor
  · intro hin
    have h1 := hin tokenIn
    have h2 := hin tokenOut
    rw [netSupply_direct hdistinct h, if_pos rfl] at h1
    rw [netSupply_direct hdistinct h, if_neg hdistinct.symm, if_pos rfl] at h2
    omega
  · intro hle token
    rw [netSupply_direct hdistinct h]
    split_ifs <;> omega

/-- Prefixes of makers on one pair are in range when the whole list is. -/
theorem safeFrom_direct (hdistinct : tokenIn ≠ tokenOut)
    (h : ∀ offer ∈ makers, offer.tokenIn = tokenIn ∧ offer.tokenOut = tokenOut)
    (hvalid : ∀ offer ∈ makers, offer.Valid)
    (hin : (makers.map (·.amountIn)).sum ≤ maxSettlementAmount)
    (hout : (makers.map (·.amountOut)).sum ≤ maxSettlementAmount) :
    SafeFrom (InRange maxSettlementAmount) 0 (makers.map (·.net)) := by
  refine (safeFrom_iff_take 0 _).mpr fun n _ => ?_
  rw [zero_add, ← List.map_take]
  have hsub : ∀ offer ∈ makers.take (n + 1), offer ∈ makers := fun _ ho => List.mem_of_mem_take ho
  have hsplit : makers = makers.take (n + 1) ++ makers.drop (n + 1) :=
    (List.take_append_drop _ _).symm
  have hdrop : ∀ offer ∈ makers.drop (n + 1), offer.Valid :=
    fun o ho => hvalid o (List.mem_of_mem_drop ho)
  have hrest := sum_amounts_nonneg hdrop
  have hsumIn : (makers.map (·.amountIn)).sum = ((makers.take (n + 1)).map (·.amountIn)).sum +
      ((makers.drop (n + 1)).map (·.amountIn)).sum := by
    rw [← List.sum_append, ← List.map_append, List.take_append_drop]
  have hsumOut : (makers.map (·.amountOut)).sum = ((makers.take (n + 1)).map (·.amountOut)).sum +
      ((makers.drop (n + 1)).map (·.amountOut)).sum := by
    rw [← List.sum_append, ← List.map_append, List.take_append_drop]
  exact (inRange_netSupply_direct hdistinct (fun o ho => h o (hsub o ho))
    (fun o ho => hvalid o (hsub o ho))).mpr ⟨by omega, by omega⟩

/-- **Direct sets.** Makers on the pair itself are feasible iff both sums settle. -/
theorem candidate_direct_iff {maxMakers : Nat} (hdistinct : tokenIn ≠ tokenOut)
    (h : ∀ offer ∈ makers, offer.tokenIn = tokenIn ∧ offer.tokenOut = tokenOut)
    (hvalid : ∀ offer ∈ makers, offer.Valid) (hne : makers ≠ [])
    (hlength : makers.length ≤ maxMakers) :
    Candidate maxMakers tokenIn tokenOut makers ↔
      (makers.map (·.amountIn)).sum ≤ maxSettlementAmount ∧
        (makers.map (·.amountOut)).sum ≤ maxSettlementAmount := by
  have hpos := sum_amounts_pos hvalid hne
  constructor
  · exact fun hc => (inRange_netSupply_direct hdistinct h hvalid).mp hc.in_range
  · intro hle
    refine ⟨hne, hlength, ?_, ?_, ?_, (inRange_netSupply_direct hdistinct h hvalid).mpr hle,
      (safeFrom_direct hdistinct h hvalid hle.1 hle.2).orderable⟩
    · rw [netSupply_direct hdistinct h, if_pos rfl]
      omega
    · intro token
      rw [netSupply_direct hdistinct h]
      split_ifs with hti hto
      · exact fun _ => hti
      · omega
      · omega
    · rw [netSupply_direct hdistinct h, if_neg hdistinct.symm, if_pos rfl]
      exact hpos.2

/-- The state a direct set records is its witness. -/
theorem witness_direct (hdistinct : tokenIn ≠ tokenOut) (hin : CanonicalToken tokenIn)
    (hout : CanonicalToken tokenOut)
    (h : ∀ offer ∈ makers, offer.tokenIn = tokenIn ∧ offer.tokenOut = tokenOut)
    (hvalid : ∀ offer ∈ makers, offer.Valid) (hne : makers ≠ []) :
    Witness tokenIn tokenOut makers ⟨(makers.map (·.amountIn)).sum, (makers.map (·.amountOut)).sum,
      makers.map (·.offerHash), none⟩ := by
  have hpos := sum_amounts_pos hvalid hne
  refine ⟨?_, ?_, rfl, ?_⟩
  · rw [netSupply_direct hdistinct h, if_pos rfl, neg_neg]
  · rw [netSupply_direct hdistinct h, if_neg hdistinct.symm, if_pos rfl]
  · have htallies := (tallies_nil.add tokenIn le_rfl hpos.1.le (Or.inr hpos.1.ne')).add tokenOut
      hpos.2.le le_rfl (Or.inl hpos.2.ne')
    simp only [addTotal, if_neg hdistinct, Pi.single_zero, add_zero, zero_add] at htallies
    rw [← makerGives_direct fun o ho => (h o ho).2,
      ← makerWants_direct fun o ho => (h o ho).1] at htallies
    refine ⟨_, canonicalBalances_ok ?_ ?_, htallies.accounts⟩
    · intro row hrow
      rcases List.mem_pair.mp hrow with rfl | rfl
      · exact ⟨hin, le_rfl, hpos.1.le, by simp⟩
      · exact ⟨hout, hpos.2.le, le_rfl, by simp⟩
    · simp [CombinationState.rows, hdistinct]

end Direct

end ZswapKernel
