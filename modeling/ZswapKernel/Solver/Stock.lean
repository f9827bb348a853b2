import Mathlib.Data.Finset.Image
import ZswapKernel.Lib.Joined
import ZswapKernel.Solver.Book

/-!
# What the solver can still commit

`packages/solver/src/stock.ts`: the claims of the fills in progress. A claim is reserved and released
as a unit, and is identified by its content (`claimKey`). Balances and reservations are association
lists; the claimed hashes and nullifiers are sets.
-/

namespace ZswapKernel

/-- Everything one fill commits. -/
structure Claim where
  offerHashes : List String
  nullifiers : List String
  payouts : List (String × Int) := []
  deriving DecidableEq, Repr

def claimFor (offers : List BookOffer) (payouts : List (String × Int)) : Claim where
  offerHashes := offers.map (·.offerHash)
  nullifiers := offers.flatMap (·.inputNullifiers)
  payouts := payouts

/-- `[...values].sort().join(",")`. -/
def sortedJoin (values : List String) : String :=
  String.intercalate "," (values.insertionSort (· ≤ ·))

/-- Content-derived identity. -/
def claimKey (claim : Claim) : String :=
  let payouts := claim.payouts.map fun (token, amount) => token ++ ":" ++ decimal amount
  sortedJoin claim.offerHashes ++ "|" ++ sortedJoin claim.nullifiers ++ "|" ++ sortedJoin payouts

structure Stock where
  balances : List (String × Int) := []
  reserved : List (String × Int) := []
  claimedHashes : Finset String := ∅
  claimedNullifiers : Finset String := ∅
  /-- Claims currently holding budget, by content. -/
  live : List (String × Claim) := []

namespace Stock

/-- `map.get(token) ?? 0n`. -/
def amountOf (map : List (String × Int)) (token : String) : Int :=
  ((map.find? (·.1 = token)).map (·.2)).getD 0

/-- Never negative. -/
def available (stock : Stock) (token : String) : Int :=
  max 0 (amountOf stock.balances token - amountOf stock.reserved token)

/-- True when any part of the claim is already committed. -/
def isClaimed (stock : Stock) (claim : Claim) : Bool :=
  claim.offerHashes.any (· ∈ stock.claimedHashes) ||
    claim.nullifiers.any (· ∈ stock.claimedNullifiers)

/-- The payout loop of `reserve`. -/
def affords (stock : Stock) (claim : Claim) : Bool :=
  claim.payouts.all fun (token, amount) => 0 < amount ∧ amount ≤ stock.available token

def addReserved (reserved : List (String × Int)) (payout : String × Int) : List (String × Int) :=
  BestByKey.replace (·.1) (payout.1, amountOf reserved payout.1 + payout.2) reserved

def dropReserved (reserved : List (String × Int)) (payout : String × Int) : List (String × Int) :=
  let next := amountOf reserved payout.1 - payout.2
  if next > 0 then BestByKey.replace (·.1) (payout.1, next) reserved
  else reserved.filter (·.1 ≠ payout.1)

/-- Commit a claim, all or nothing. -/
def reserve (stock : Stock) (claim : Claim) : Bool × Stock :=
  if stock.isClaimed claim then (false, stock)
  else if !stock.affords claim then (false, stock)
  else if stock.live.any (·.1 = claimKey claim) then (false, stock)
  else (true, { stock with
    live := stock.live ++ [(claimKey claim, claim)]
    claimedHashes := stock.claimedHashes ∪ claim.offerHashes.toFinset
    claimedNullifiers := stock.claimedNullifiers ∪ claim.nullifiers.toFinset
    reserved := claim.payouts.foldl addReserved stock.reserved })

/-- Release a claim; releasing one that is not live does nothing. -/
def release (stock : Stock) (claim : Claim) : Stock :=
  if stock.live.any (·.1 = claimKey claim) then
    { stock with
      live := stock.live.filter (·.1 ≠ claimKey claim)
      claimedHashes := stock.claimedHashes \ claim.offerHashes.toFinset
      claimedNullifiers := stock.claimedNullifiers \ claim.nullifiers.toFinset
      reserved := claim.payouts.foldl dropReserved stock.reserved }
  else stock

/-- No claim is live. -/
structure Unclaimed (stock : Stock) : Prop where
  hashes : stock.claimedHashes = ∅
  nullifiers : stock.claimedNullifiers = ∅
  live : stock.live = []

/-- A claim without payouts is admitted when nothing is claimed. -/
theorem reserve_of_unclaimed {stock : Stock} (h : stock.Unclaimed) (claim : Claim)
    (hpayouts : claim.payouts = []) : (stock.reserve claim).1 = true := by
  have hclaimed : stock.isClaimed claim = false := by simp [isClaimed, h.hashes, h.nullifiers]
  have haffords : stock.affords claim = true := by simp [affords, hpayouts]
  simp [reserve, hclaimed, haffords, h.live]

end Stock

/-! ## Claims with one key -/

/-- The claims of the solver: canonical hashes and nullifiers. -/
structure Claim.Canonical (claim : Claim) : Prop where
  hashes : ∀ hash ∈ claim.offerHashes, hex64 hash = true
  nullifiers : ∀ nullifier ∈ claim.nullifiers, hex64 nullifier = true

/-- An identity has no punctuation. -/
theorem notMem_of_hex64 {value : String} (h : hex64 value = true) {c : Char}
    (hc : isHexDigit c = false) : c ∉ value.toList := by
  intro hmem
  unfold hex64 at h
  rw [Bool.and_eq_true, List.all_eq_true] at h
  rw [h.2 c hmem] at hc
  cases hc

theorem part_of_hex64 {value : String} (h : hex64 value = true) : Joined.Part ',' value := by
  refine ⟨?_, notMem_of_hex64 h (by decide)⟩
  rintro rfl
  cases h

theorem bar_notMem_sortedJoin {values : List String} (h : ∀ value ∈ values, '|' ∉ value.toList) :
    '|' ∉ (sortedJoin values).toList :=
  Joined.notMem_intercalate (show (",": String).toList = [','] from rfl) (by decide)
    fun value hvalue => h value ((List.mem_insertionSort _).mp hvalue)

theorem sortedJoin_perm {values others : List String}
    (hvalues : ∀ value ∈ values, Joined.Part ',' value)
    (hothers : ∀ value ∈ others, Joined.Part ',' value)
    (h : sortedJoin values = sortedJoin others) : values.Perm others :=
  Joined.perm_of_sorted rfl hvalues hothers h

/-- **Claims with one key** have the same hashes and nullifiers. -/
theorem claimKey_perm {claim other : Claim} (hclaim : claim.Canonical) (hother : other.Canonical)
    (h : claimKey claim = claimKey other) :
    claim.offerHashes.Perm other.offerHashes ∧ claim.nullifiers.Perm other.nullifiers := by
  have hbar : ("|" : String).toList = ['|'] := rfl
  have hfree : ∀ {values : List String}, (∀ value ∈ values, hex64 value = true) →
      '|' ∉ (sortedJoin values).toList := fun hvalues =>
    bar_notMem_sortedJoin fun value hvalue => notMem_of_hex64 (hvalues value hvalue) (by decide)
  have hlist := congrArg String.toList h
  unfold claimKey at hlist
  simp only [String.toList_append, hbar, List.append_assoc, List.singleton_append] at hlist
  obtain ⟨hhashes, hrest⟩ := Joined.append_cons_inj_of_notMem_left (hfree hclaim.hashes)
    (hfree hother.hashes) hlist
  obtain ⟨hnullifiers, -⟩ := Joined.append_cons_inj_of_notMem_left (hfree hclaim.nullifiers)
    (hfree hother.nullifiers) hrest
  exact ⟨sortedJoin_perm (fun v hv => part_of_hex64 (hclaim.hashes v hv))
      (fun v hv => part_of_hex64 (hother.hashes v hv)) (String.toList_inj.mp hhashes),
    sortedJoin_perm (fun v hv => part_of_hex64 (hclaim.nullifiers v hv))
      (fun v hv => part_of_hex64 (hother.nullifiers v hv)) (String.toList_inj.mp hnullifiers)⟩

namespace Stock

/-! ## Reachable stocks -/

/-- `claim` is live. -/
def Live (stock : Stock) (claim : Claim) : Prop := ∃ entry ∈ stock.live, entry.2 = claim

/-- The stocks the solver can reach: claims are reserved and released, in any order. -/
inductive Reachable : Stock → Prop
  | start (balances : List (String × Int)) : Reachable { balances }
  | reserve {stock : Stock} (claim : Claim) (h : Reachable stock) (hclaim : claim.Canonical) :
    Reachable (stock.reserve claim).2
  | release {stock : Stock} (claim : Claim) (h : Reachable stock) (hclaim : claim.Canonical) :
    Reachable (stock.release claim)

/-- The claimed sets are those of the live claims, which are disjoint. -/
structure Sound (stock : Stock) : Prop where
  canonical : ∀ claim, stock.Live claim → claim.Canonical
  keys : ∀ entry ∈ stock.live, entry.1 = claimKey entry.2
  hashes : ∀ hash, hash ∈ stock.claimedHashes ↔
    ∃ entry ∈ stock.live, hash ∈ entry.2.offerHashes
  nullifiers : ∀ nullifier, nullifier ∈ stock.claimedNullifiers ↔
    ∃ entry ∈ stock.live, nullifier ∈ entry.2.nullifiers
  disjoint : stock.live.Pairwise fun left right =>
    left.2.offerHashes.Disjoint right.2.offerHashes ∧
      left.2.nullifiers.Disjoint right.2.nullifiers

theorem isClaimed_iff (stock : Stock) (claim : Claim) : stock.isClaimed claim = true ↔
    (∃ hash ∈ claim.offerHashes, hash ∈ stock.claimedHashes) ∨
      ∃ nullifier ∈ claim.nullifiers, nullifier ∈ stock.claimedNullifiers := by
  unfold isClaimed
  rw [Bool.or_eq_true, List.any_eq_true, List.any_eq_true]
  simp only [decide_eq_true_eq]

theorem Sound.reserve {stock : Stock} (h : stock.Sound) {claim : Claim} (hclaim : claim.Canonical) :
    (stock.reserve claim).2.Sound := by
  unfold Stock.reserve
  split
  · exact h
  · rename_i hfree
    rw [isClaimed_iff, not_or] at hfree
    split
    · exact h
    · split
      · exact h
      · refine ⟨?_, ?_, ?_, ?_, ?_⟩
        · rintro other ⟨entry, hentry, rfl⟩
          rcases List.mem_append.mp hentry with hentry | hentry
          · exact h.canonical _ ⟨entry, hentry, rfl⟩
          · obtain rfl := List.mem_singleton.mp hentry
            exact hclaim
        · intro entry hentry
          rcases List.mem_append.mp hentry with hentry | hentry
          · exact h.keys entry hentry
          · obtain rfl := List.mem_singleton.mp hentry
            rfl
        · intro hash
          simp only [Finset.mem_union, List.mem_toFinset, h.hashes, List.mem_append,
            List.mem_singleton, or_and_right, exists_or, exists_eq_left]
        · intro nullifier
          simp only [Finset.mem_union, List.mem_toFinset, h.nullifiers, List.mem_append,
            List.mem_singleton, or_and_right, exists_or, exists_eq_left]
        · refine List.pairwise_append.mpr ⟨h.disjoint, List.pairwise_singleton _ _, ?_⟩
          intro entry hentry new hnew
          obtain rfl := List.mem_singleton.mp hnew
          exact ⟨fun hash hold hnew => hfree.1 ⟨hash, hnew, (h.hashes hash).mpr ⟨entry, hentry, hold⟩⟩,
            fun nullifier hold hnew =>
              hfree.2 ⟨nullifier, hnew, (h.nullifiers nullifier).mpr ⟨entry, hentry, hold⟩⟩⟩

theorem Sound.release {stock : Stock} (h : stock.Sound) {claim : Claim} (hclaim : claim.Canonical) :
    (stock.release claim).Sound := by
  unfold Stock.release
  split
  · rename_i hlive
    obtain ⟨found, hfound, hkey⟩ := List.any_eq_true.mp hlive
    rw [decide_eq_true_eq] at hkey
    obtain ⟨hhashes, hnullifiers⟩ := claimKey_perm (h.canonical _ ⟨found, hfound, rfl⟩) hclaim
      ((h.keys found hfound).symm.trans hkey)
    -- an entry with another key is disjoint from the one that is released
    have hother : ∀ entry ∈ stock.live, entry.1 ≠ claimKey claim →
        entry.2.offerHashes.Disjoint claim.offerHashes ∧
          entry.2.nullifiers.Disjoint claim.nullifiers := by
      intro entry hentry hne
      have : Std.Symm fun left right : String × Claim =>
          left.2.offerHashes.Disjoint right.2.offerHashes ∧
            left.2.nullifiers.Disjoint right.2.nullifiers :=
        ⟨fun _ _ h => ⟨h.1.symm, h.2.symm⟩⟩
      obtain ⟨hh, hn⟩ := h.disjoint.forall hentry hfound fun heq => hne (heq ▸ hkey)
      exact ⟨fun hash hl hr => hh hl (hhashes.mem_iff.mpr hr),
        fun nullifier hl hr => hn hl (hnullifiers.mem_iff.mpr hr)⟩
    -- the entries with the released key claim what is released
    have hsame : ∀ entry ∈ stock.live, entry.1 = claimKey claim →
        entry.2.offerHashes.Perm claim.offerHashes ∧
          entry.2.nullifiers.Perm claim.nullifiers := fun entry hentry hkey =>
      claimKey_perm (h.canonical _ ⟨entry, hentry, rfl⟩) hclaim
        ((h.keys entry hentry).symm.trans hkey)
    have hkept : ∀ {entry : String × Claim},
        entry ∈ stock.live.filter (·.1 ≠ claimKey claim) ↔
          entry ∈ stock.live ∧ entry.1 ≠ claimKey claim := by
      intro entry
      rw [List.mem_filter, decide_eq_true_eq]
    refine ⟨?_, ?_, ?_, ?_, h.disjoint.filter _⟩
    · rintro other ⟨entry, hentry, rfl⟩
      exact h.canonical _ ⟨entry, (hkept.mp hentry).1, rfl⟩
    · exact fun entry hentry => h.keys entry (hkept.mp hentry).1
    · intro hash
      simp only [Finset.mem_sdiff, List.mem_toFinset, h.hashes]
      constructor
      · rintro ⟨⟨entry, hentry, hmem⟩, hkeep⟩
        refine ⟨entry, hkept.mpr ⟨hentry, fun hkey => hkeep ?_⟩, hmem⟩
        exact (hsame entry hentry hkey).1.mem_iff.mp hmem
      · rintro ⟨entry, hentry, hmem⟩
        obtain ⟨hentry, hne⟩ := hkept.mp hentry
        exact ⟨⟨entry, hentry, hmem⟩, fun hreleased => (hother entry hentry hne).1 hmem hreleased⟩
    · intro nullifier
      simp only [Finset.mem_sdiff, List.mem_toFinset, h.nullifiers]
      constructor
      · rintro ⟨⟨entry, hentry, hmem⟩, hkeep⟩
        refine ⟨entry, hkept.mpr ⟨hentry, fun hkey => hkeep ?_⟩, hmem⟩
        exact (hsame entry hentry hkey).2.mem_iff.mp hmem
      · rintro ⟨entry, hentry, hmem⟩
        obtain ⟨hentry, hne⟩ := hkept.mp hentry
        exact ⟨⟨entry, hentry, hmem⟩, fun hreleased => (hother entry hentry hne).2 hmem hreleased⟩
  · exact h

/-- A claim without payouts is refused exactly when a part of it is claimed. -/
theorem Sound.reserve_fst {stock : Stock} (h : stock.Sound) {claim : Claim}
    (hclaim : claim.Canonical) (hpayouts : claim.payouts = []) (hnonempty : claim.offerHashes ≠ []) :
    (stock.reserve claim).1 = !stock.isClaimed claim := by
  have haffords : stock.affords claim = true := by simp [affords, hpayouts]
  unfold Stock.reserve
  cases hclaimed : stock.isClaimed claim with
  | true => rfl
  | false =>
    rw [haffords]
    simp only [Bool.false_eq_true, if_false, Bool.not_true, Bool.not_false]
    rw [if_neg]
    intro hlive
    -- a live claim with this key has claimed its hashes
    obtain ⟨entry, hentry, hkey⟩ := List.any_eq_true.mp hlive
    rw [decide_eq_true_eq] at hkey
    obtain ⟨hhashes, -⟩ := claimKey_perm (h.canonical _ ⟨entry, hentry, rfl⟩) hclaim
      ((h.keys entry hentry).symm.trans hkey)
    obtain ⟨hash, hhash⟩ := List.exists_mem_of_ne_nil _ hnonempty
    have hmem : hash ∈ stock.claimedHashes :=
      (h.hashes hash).mpr ⟨entry, hentry, hhashes.mem_iff.mpr hhash⟩
    have := (isClaimed_iff stock claim).mpr (.inl ⟨hash, hhash, hmem⟩)
    rw [hclaimed] at this
    cases this

/-- **Reachable stocks** claim what their live claims list, which are disjoint. -/
theorem Reachable.sound {stock : Stock} (h : Reachable stock) : stock.Sound := by
  induction h with
  | start balances =>
    refine ⟨?_, by simp, by simp, by simp, .nil⟩
    rintro _ ⟨_, hmem, -⟩
    cases hmem
  | reserve claim _ hclaim ih => exact ih.reserve hclaim
  | release claim _ hclaim ih => exact ih.release hclaim

end Stock

end ZswapKernel
