import Mathlib.Algebra.BigOperators.Pi
import Mathlib.Data.Finset.Sort
import Mathlib.Data.List.Lex
import Mathlib.Data.Prod.Lex
import ZswapKernel.SolverCore.Crossable
import ZswapKernel.SolverCore.MergeOrderCorrect

/-!
# Maker sets: what a quote stands for

The staircase of a pair is meant to price sets of whole maker offers. This file says which sets,
with no reference to how `deriveLadder` searches for them: `Admissible` is the economic and
physical feasibility of a set of retained offers for a directed pair, and `Preferred` the order in
which two sets for one budget are compared.

The retained offers are valid and sorted by hash (`retainedOffers_valid`, `retainedOffers_sorted`),
so a set of them is a sublist (`Candidate`, `admissible_iff_candidate`).
-/

namespace ZswapKernel

open SafeOrder

/-! ## Retained offers -/

/-- What eligibility establishes of an offer. -/
structure Crossable.Valid (offer : Crossable) : Prop where
  hash : CanonicalToken offer.offerHash
  tokenIn : CanonicalToken offer.tokenIn
  tokenOut : CanonicalToken offer.tokenOut
  distinct : offer.tokenIn ≠ offer.tokenOut
  amountIn_pos : 0 < offer.amountIn
  amountOut_pos : 0 < offer.amountOut
  amountIn_le : offer.amountIn ≤ maxSettlementAmount
  amountOut_le : offer.amountOut ≤ maxSettlementAmount

/-- What `toCrossable` reads off an offer it accepts. -/
structure ReducedTo (offer : LadderSourceOffer) (nowMs expiryMarginSeconds : Int)
    (unavailable : List String) (crossable : Crossable) : Prop where
  valid : crossable.Valid
  hash : crossable.offerHash = toLowerCase offer.offerHash
  available : toLowerCase offer.offerHash ∉ unavailable
  legs : ∃ give want, offer.gives = [give] ∧ offer.wants = [want] ∧
    give.kind = .shielded ∧ want.kind = .shielded ∧
    crossable.tokenOut = toLowerCase give.token ∧ crossable.amountOut = give.amount ∧
    crossable.tokenIn = toLowerCase want.token ∧ crossable.amountIn = want.amount
  nullifiers : crossable.nullifiers = sortedSet (offer.inputNullifiers.map toLowerCase)
  nullifiers_hex : ∀ nullifier ∈ offer.inputNullifiers, hex64 nullifier = true
  unexpired : ∃ expiresAt, offer.expiresAt = some expiresAt ∧
    nowMs < expiresAt - expiryMarginSeconds * 1000

theorem toCrossable_ok {offer : LadderSourceOffer} {nowMs expiryMarginSeconds : Int}
    {unavailable : List String} {crossable : Crossable}
    (h : toCrossable offer nowMs expiryMarginSeconds unavailable = .ok crossable) :
    ReducedTo offer nowMs expiryMarginSeconds unavailable crossable := by
  unfold toCrossable at h
  simp only [Except.ite_error_eq_ok] at h
  obtain ⟨hhash, havailable, h⟩ := h
  split at h
  case h_2 => cases h
  rename_i give want hgives hwants
  simp only [Except.ite_error_eq_ok] at h
  obtain ⟨hkind, htokenOut, htokenIn, hpos, hmax, hdistinct, hnullifiers, h⟩ := h
  split at h
  · cases h
  rename_i expiresAt hexpires
  rw [Except.ite_error_eq_ok] at h
  obtain ⟨hexpiring, h⟩ := h
  cases h
  simp only [Bool.not_eq_true', Bool.not_eq_false] at hhash htokenOut htokenIn
  rw [not_or, not_not, not_not] at hkind
  rw [not_or, not_le, not_le] at hpos
  rw [not_or, not_lt, not_lt] at hmax
  exact {
    valid := {
      hash := canonicalToken_toLowerCase hhash
      tokenIn := canonicalToken_toLowerCase htokenIn
      tokenOut := canonicalToken_toLowerCase htokenOut
      distinct := hdistinct
      amountIn_pos := hpos.2
      amountOut_pos := hpos.1
      amountIn_le := hmax.2
      amountOut_le := hmax.1 }
    hash := rfl
    available := by simpa using havailable
    legs := ⟨give, want, hgives, hwants, hkind.1, hkind.2, rfl, rfl, rfl, rfl⟩
    nullifiers := rfl
    nullifiers_hex := by simpa using hnullifiers
    unexpired := ⟨expiresAt, hexpires, not_le.mp hexpiring⟩ }

instance : Std.Total byOfferHash := ⟨fun left right => le_total left.offerHash right.offerHash⟩

instance : IsTrans Crossable byOfferHash := ⟨fun _ _ _ hab hbc => le_trans hab hbc⟩

theorem claimCoins_sublist (claimed : List String) (offers : List Crossable) :
    (claimCoins claimed offers).1.Sublist offers := by
  induction offers generalizing claimed with
  | nil => exact List.Sublist.refl []
  | cons offer offers ih =>
    unfold claimCoins
    by_cases hshared : offer.nullifiers.any claimed.contains = true
    · rw [if_pos hshared]
      exact (ih claimed).cons offer
    · rw [if_neg hshared]
      exact (ih (offer.nullifiers ++ claimed)).cons_cons offer

theorem uniqueOffers_sublist (crossable : List Crossable) :
    (uniqueOffers crossable).Sublist (crossable.insertionSort byOfferHash) :=
  List.filter_sublist

theorem uniqueOffers_nodup (crossable : List Crossable) :
    ((uniqueOffers crossable).map (·.offerHash)).Nodup := by
  rw [List.nodup_iff_count_le_one]
  intro hash
  by_cases hmem : hash ∈ (uniqueOffers crossable).map (·.offerHash)
  · obtain ⟨offer, hoffer, rfl⟩ := List.mem_map.mp hmem
    have honce : hashCount crossable offer.offerHash ≤ 1 := by
      simpa using (List.mem_filter.mp hoffer).2
    have hcount : (((crossable.insertionSort byOfferHash).map (·.offerHash)).count
        offer.offerHash) = hashCount crossable offer.offerHash :=
      ((List.perm_insertionSort byOfferHash crossable).map _).count_eq _
    exact (((uniqueOffers_sublist crossable).map _).count_le _).trans (hcount.trans_le honce)
  · rw [List.count_eq_zero_of_not_mem hmem]
    exact Nat.zero_le 1

theorem uniqueOffers_sorted (crossable : List Crossable) :
    (uniqueOffers crossable).Pairwise (·.offerHash < ·.offerHash) := by
  have hle : (uniqueOffers crossable).Pairwise byOfferHash :=
    (List.pairwise_insertionSort byOfferHash crossable).sublist (uniqueOffers_sublist crossable)
  have hne : (uniqueOffers crossable).Pairwise fun left right => left.offerHash ≠ right.offerHash :=
    List.pairwise_map.mp (uniqueOffers_nodup crossable)
  exact (hle.and hne).imp fun hab => lt_of_le_of_ne hab.1 hab.2

/-- The retained offers are sorted by hash, without repetition. -/
theorem retainedOffers_sorted (offers : List LadderSourceOffer) (options : DeriveLadderOptions) :
    (retainedOffers offers options).Pairwise (·.offerHash < ·.offerHash) :=
  (uniqueOffers_sorted _).sublist (claimCoins_sublist _ _)

theorem mem_crossableOffers {offers : List LadderSourceOffer} {options : DeriveLadderOptions}
    {crossable : Crossable} : crossable ∈ crossableOffers offers options ↔
      ∃ offer ∈ offers, toCrossable offer options.nowMs options.expiryMarginSeconds
        (options.unavailableOfferHashes.map toLowerCase) = .ok crossable := by
  unfold crossableOffers
  rw [List.mem_filterMap]
  refine exists_congr fun offer => and_congr_right fun _ => ?_
  cases toCrossable offer options.nowMs options.expiryMarginSeconds
    (options.unavailableOfferHashes.map toLowerCase) <;> simp [Except.toOption]

theorem mem_crossableOffers_of_retained {offers : List LadderSourceOffer}
    {options : DeriveLadderOptions} {crossable : Crossable}
    (h : crossable ∈ retainedOffers offers options) : crossable ∈ crossableOffers offers options :=
  (List.perm_insertionSort byOfferHash _).mem_iff.mp
    ((uniqueOffers_sublist _).subset ((claimCoins_sublist _ _).subset h))

/-- The retained offers are valid. -/
theorem retainedOffers_valid {offers : List LadderSourceOffer} {options : DeriveLadderOptions}
    {crossable : Crossable} (h : crossable ∈ retainedOffers offers options) : crossable.Valid := by
  obtain ⟨offer, -, hoffer⟩ := mem_crossableOffers.mp (mem_crossableOffers_of_retained h)
  exact (toCrossable_ok hoffer).valid

/-- Every token of the makers is indexed. -/
def Indexed (tokenAt : List String) (makers : List Crossable) : Prop :=
  ∀ offer ∈ makers, offer.tokenIn ∈ tokenAt ∧ offer.tokenOut ∈ tokenAt

/-! ## Net supply -/

/-- The signed supply of one maker: it gives `tokenOut` and wants `tokenIn`. -/
def Crossable.net (offer : Crossable) : Deltas :=
  Pi.single offer.tokenOut offer.amountOut - Pi.single offer.tokenIn offer.amountIn

/-- The summed net of a list of makers. -/
def netSupply (makers : List Crossable) : Deltas := (makers.map (·.net)).sum

@[simp] theorem netSupply_nil : netSupply [] = 0 := rfl

@[simp] theorem netSupply_cons (offer : Crossable) (makers : List Crossable) :
    netSupply (offer :: makers) = offer.net + netSupply makers := by
  simp [netSupply]

@[simp] theorem netSupply_append (makers makers' : List Crossable) :
    netSupply (makers ++ makers') = netSupply makers + netSupply makers' := by
  simp [netSupply]

/-- Makers are merged in some order that keeps every prefix in range. -/
def SafelyMergeable (makers : List Crossable) : Prop :=
  Orderable (InRange maxSettlementAmount) 0 (makers.map (·.net))

/-- A feasible set, as a sublist of the sorted book: `tokenIn` is the only deficit, `tokenOut` a
surplus, every net amount settles, and a safe merge order exists. -/
structure Candidate (maxMakers : Nat) (tokenIn tokenOut : String) (makers : List Crossable) :
    Prop where
  nonempty : makers ≠ []
  length_le : makers.length ≤ maxMakers
  input_neg : netSupply makers tokenIn < 0
  only_deficit : ∀ token, netSupply makers token < 0 → token = tokenIn
  output_pos : 0 < netSupply makers tokenOut
  in_range : InRange maxSettlementAmount (netSupply makers)
  mergeable : SafelyMergeable makers

/-! ## Maker sets -/

/-- The summed net of a set of makers. -/
def setNet (makers : Finset Crossable) : Deltas := ∑ offer ∈ makers, offer.net

/-- The input a set of makers requires. -/
def requiredInput (tokenIn : String) (makers : Finset Crossable) : Int := -setNet makers tokenIn

/-- **Feasibility.** A nonempty set of at most `maxMakers` retained offers whose summed net has
`tokenIn` as its only negative token and a positive `tokenOut`, every net inside `[-M, M]`, and an
order in which every prefix stays inside `[-M, M]`. -/
structure Admissible (retained : List Crossable) (maxMakers : Nat) (tokenIn tokenOut : String)
    (makers : Finset Crossable) : Prop where
  retained : ∀ offer ∈ makers, offer ∈ retained
  nonempty : makers.Nonempty
  card_le : makers.card ≤ maxMakers
  input_neg : setNet makers tokenIn < 0
  only_negative : ∀ token, setNet makers token < 0 → token = tokenIn
  output_pos : 0 < setNet makers tokenOut
  in_range : InRange maxSettlementAmount (setNet makers)
  order : ∃ order : List Crossable, order.Nodup ∧ order.toFinset = makers ∧
    ∀ length, InRange maxSettlementAmount (netSupply (order.take length))

/-- The hashes of a set of makers, sorted. -/
def setHashes (makers : Finset Crossable) : List String :=
  (makers.image (·.offerHash)).sort (· ≤ ·)

/-- The tie order between two sets of makers that fit one budget: more output, then less input,
then fewer files, then the lower hashes. -/
def Preferred (tokenIn tokenOut : String) (makers other : Finset Crossable) : Prop :=
  setNet other tokenOut < setNet makers tokenOut ∨
    (setNet other tokenOut = setNet makers tokenOut ∧
      (requiredInput tokenIn makers < requiredInput tokenIn other ∨
        (requiredInput tokenIn makers = requiredInput tokenIn other ∧
          (makers.card < other.card ∨
            (makers.card = other.card ∧ setHashes makers ≤ setHashes other)))))

theorem setNet_toFinset {makers : List Crossable} (h : makers.Nodup) :
    setNet makers.toFinset = netSupply makers := List.sum_toFinset _ h

theorem nodup_of_sorted {makers : List Crossable}
    (h : makers.Pairwise (·.offerHash < ·.offerHash)) : makers.Nodup :=
  h.imp fun hlt heq => absurd (heq ▸ hlt) (lt_irrefl _)

/-- The hashes of a sorted list of makers are already in order. -/
theorem setHashes_toFinset {makers : List Crossable}
    (h : makers.Pairwise (·.offerHash < ·.offerHash)) :
    setHashes makers.toFinset = makers.map (·.offerHash) := by
  have hsorted : (makers.map (·.offerHash)).Pairwise (· < ·) := List.pairwise_map.mpr h
  have himage : makers.toFinset.image (·.offerHash) = (makers.map (·.offerHash)).toFinset := by
    ext hash
    simp
  unfold setHashes
  rw [himage]
  exact (List.toFinset_sort (· ≤ ·) (hsorted.imp ne_of_lt)).mpr (hsorted.imp le_of_lt)

/-- A set of makers of a list, as the sublist it selects. -/
def selectMakers (retained : List Crossable) (makers : Finset Crossable) : List Crossable :=
  retained.filter (· ∈ makers)

theorem toFinset_selectMakers {retained : List Crossable} {makers : Finset Crossable}
    (h : ∀ offer ∈ makers, offer ∈ retained) : (selectMakers retained makers).toFinset = makers := by
  ext offer
  simp only [selectMakers, List.mem_toFinset, List.mem_filter, decide_eq_true_eq]
  exact ⟨And.right, fun hmem => ⟨h offer hmem, hmem⟩⟩

/-- Safe orders of a list are the orders whose every prefix is in range. -/
theorem safelyMergeable_iff {makers : List Crossable} (h : makers.Nodup) :
    SafelyMergeable makers ↔ ∃ order : List Crossable, order.Nodup ∧
      order.toFinset = makers.toFinset ∧
      ∀ length, InRange maxSettlementAmount (netSupply (order.take length)) := by
  have hpre : ∀ order : List Crossable,
      SafeFrom (InRange maxSettlementAmount) 0 (order.map (·.net)) ↔
        ∀ length, InRange maxSettlementAmount (netSupply (order.take length)) := by
    intro order
    rw [safeFrom_iff_take, List.length_map]
    constructor
    · intro hsafe length
      rcases Nat.eq_zero_or_pos length with rfl | hpos
      · exact inRange_zero (by decide)
      · rcases Nat.lt_or_ge (length - 1) order.length with hlt | hge
        · have := hsafe (length - 1) hlt
          rwa [zero_add, ← List.map_take, Nat.sub_add_cancel hpos] at this
        · rw [List.take_of_length_le (by omega)]
          rcases Nat.eq_zero_or_pos order.length with hnil | hlen
          · rw [List.eq_nil_of_length_eq_zero hnil]
            exact inRange_zero (by decide)
          · have := hsafe (order.length - 1) (by omega)
            rwa [zero_add, ← List.map_take, Nat.sub_add_cancel hlen, List.take_length] at this
    · intro hall n _
      have := hall (n + 1)
      rwa [zero_add, ← List.map_take]
  constructor
  · intro hsafe
    obtain ⟨order, hperm, horder⟩ := Orderable.exists_index_order hsafe
    exact ⟨order, hperm.nodup_iff.mpr h, List.toFinset_eq_of_perm _ _ hperm,
      (hpre order).mp horder⟩
  · rintro ⟨order, hnodup, hset, hall⟩
    have hperm : order.Perm makers := (List.perm_ext_iff_of_nodup hnodup h).mpr fun offer => by
      rw [← List.mem_toFinset, hset, List.mem_toFinset]
    exact ⟨order.map (·.net), hperm.map _, (hpre order).mpr hall⟩

/-- A feasible sublist is a feasible set. -/
theorem Candidate.admissible {retained makers : List Crossable} {maxMakers : Nat}
    {tokenIn tokenOut : String} (h : Candidate maxMakers tokenIn tokenOut makers)
    (hsub : makers.Sublist retained) (hnodup : makers.Nodup) :
    Admissible retained maxMakers tokenIn tokenOut makers.toFinset := by
  have hnet := setNet_toFinset hnodup
  exact {
    retained := fun offer hoffer => hsub.subset (List.mem_toFinset.mp hoffer)
    nonempty := List.toFinset_nonempty_iff makers |>.mpr h.nonempty
    card_le := (List.toFinset_card_le makers).trans h.length_le
    input_neg := hnet ▸ h.input_neg
    only_negative := hnet ▸ h.only_deficit
    output_pos := hnet ▸ h.output_pos
    in_range := hnet ▸ h.in_range
    order := (safelyMergeable_iff hnodup).mp h.mergeable }

/-- A feasible set of a sorted book is the feasible sublist it selects. -/
theorem Admissible.candidate {retained : List Crossable}
    (hsorted : retained.Pairwise (·.offerHash < ·.offerHash)) {maxMakers : Nat}
    {tokenIn tokenOut : String} {makers : Finset Crossable}
    (h : Admissible retained maxMakers tokenIn tokenOut makers) :
    Candidate maxMakers tokenIn tokenOut (selectMakers retained makers) := by
  have hset := toFinset_selectMakers h.retained
  have hnodup : (selectMakers retained makers).Nodup := (nodup_of_sorted hsorted).filter _
  have hnet : netSupply (selectMakers retained makers) = setNet makers := by
    rw [← setNet_toFinset hnodup, hset]
  exact {
    nonempty := by
      intro hnil
      rw [hnil] at hset
      exact h.nonempty.ne_empty hset.symm
    length_le := by
      rw [← List.toFinset_card_of_nodup hnodup, hset]
      exact h.card_le
    input_neg := hnet ▸ h.input_neg
    only_deficit := hnet ▸ h.only_negative
    output_pos := hnet ▸ h.output_pos
    in_range := hnet ▸ h.in_range
    mergeable := by
      rw [safelyMergeable_iff hnodup, hset]
      exact h.order }

end ZswapKernel
