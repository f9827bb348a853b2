import Mathlib.Algebra.BigOperators.Group.List.Basic
import Mathlib.Algebra.Order.BigOperators.Group.List
import ZswapKernel.Solver.Stock

/-!
# What a stock holds after any run

The stock after any sequence of reservations, releases and balance updates: its reserved amounts and
its claimed sets are those of the live claims. Identities and tokens are texts that `claimKey` can
tell apart (`Claim.Readable`); the 32-byte ids of the solver are.

* `claimKey_content` — a key determines the content of a claim.
* `Stock.Held` — the representation invariant, kept by every operation (`held_step`).
* `stock_holds_live_claims` — every run.
-/

namespace ZswapKernel

open Joined

/-! ## Keys -/

/-- A claim whose key can be read back. Its payouts are a map. -/
structure Claim.Readable (claim : Claim) : Prop where
  hashes : ∀ hash ∈ claim.offerHashes, Joined.Part ',' hash ∧ '|' ∉ hash.toList
  nullifiers : ∀ nullifier ∈ claim.nullifiers, Joined.Part ',' nullifier ∧ '|' ∉ nullifier.toList
  tokens : ∀ payout ∈ claim.payouts, ',' ∉ payout.1.toList ∧ ':' ∉ payout.1.toList
  distinct : (claim.payouts.map (·.1)).Nodup

/-- Two claims have the same content. -/
structure SameContent (claim other : Claim) : Prop where
  hashes : claim.offerHashes.Perm other.offerHashes
  nullifiers : claim.nullifiers.Perm other.nullifiers
  payouts : claim.payouts.Perm other.payouts

theorem SameContent.symm {claim other : Claim} (h : SameContent claim other) :
    SameContent other claim :=
  ⟨h.hashes.symm, h.nullifiers.symm, h.payouts.symm⟩

/-- The text of a payout in a key. -/
def payoutText (payout : String × Int) : String := payout.1 ++ ":" ++ decimal payout.2

theorem notMem_decimal {c : Char} (hdigit : c.isDigit = false) (hminus : c ≠ '-') (amount : Int) :
    c ∉ (decimal amount).toList := by
  have hdigits : ∀ n : Nat, c ∉ (Nat.repr n).toList := by
    intro n hmem
    rw [Nat.toList_repr] at hmem
    rw [Nat.isDigit_of_mem_toDigits (by decide) (by decide) hmem] at hdigit
    cases hdigit
  unfold decimal
  cases amount with
  | ofNat n => exact hdigits n
  | negSucc n =>
    have htext : (Int.repr (Int.negSucc n)).toList = '-' :: (Nat.repr (n + 1)).toList := by
      have hsign : ("-" : String).toList = ['-'] := rfl
      rw [Int.repr, String.toList_append, hsign, List.singleton_append]
    rw [htext, List.mem_cons, not_or]
    exact ⟨hminus, hdigits (n + 1)⟩

theorem payoutText_part {payout : String × Int} (h : ',' ∉ payout.1.toList) :
    Joined.Part ',' (payoutText payout) := by
  have hcolon : (":" : String).toList = [':'] := rfl
  have htext : (payoutText payout).toList =
      payout.1.toList ++ ':' :: (decimal payout.2).toList := by
    unfold payoutText
    rw [String.toList_append, String.toList_append, hcolon, List.append_assoc,
      List.singleton_append]
  refine ⟨fun hempty => ?_, ?_⟩
  · rw [hempty] at htext
    exact absurd htext.symm (by simp)
  · rw [htext, List.mem_append, List.mem_cons, not_or, not_or]
    exact ⟨h, by decide, notMem_decimal (by decide) (by decide) payout.2⟩

theorem payoutText_inj {payout other : String × Int} (h : ':' ∉ payout.1.toList)
    (h' : ':' ∉ other.1.toList) (heq : payoutText payout = payoutText other) : payout = other := by
  have hcolon : (":" : String).toList = [':'] := rfl
  have hlist := congrArg String.toList heq
  unfold payoutText at hlist
  simp only [String.toList_append, hcolon, List.append_assoc, List.singleton_append] at hlist
  obtain ⟨htoken, hamount⟩ := append_cons_inj_of_notMem_left h h' hlist
  exact Prod.ext (String.toList_inj.mp htoken)
    (decimal_injective (String.toList_inj.mp hamount))

/-- Lists with the same image are the same up to order, where the map tells their members apart. -/
theorem perm_of_map_perm {α β : Type} [Nonempty α] {f : α → β} {l l' : List α} {good : α → Prop}
    (hinj : ∀ a b, good a → good b → f a = f b → a = b) (hl : ∀ a ∈ l, good a)
    (hl' : ∀ a ∈ l', good a) (h : (l.map f).Perm (l'.map f)) : l.Perm l' := by
  have hinv : ∀ a, good a → Function.invFunOn f {a | good a} (f a) = a := fun a ha =>
    Set.InjOn.leftInvOn_invFunOn (fun a ha b hb => hinj a b ha hb) ha
  have hback : ∀ {l : List α}, (∀ a ∈ l, good a) →
      (l.map f).map (Function.invFunOn f {a | good a}) = l := by
    intro l hl
    rw [List.map_map]
    exact (List.map_congr_left fun a ha => hinv a (hl a ha)).trans (List.map_id l)
  rw [← hback hl, ← hback hl']
  exact h.map _

/-- **A key determines the content** of a readable claim. -/
theorem claimKey_content {claim other : Claim} (hclaim : claim.Readable) (hother : other.Readable)
    (h : claimKey claim = claimKey other) : SameContent claim other := by
  have hbar : ("|" : String).toList = ['|'] := rfl
  have hlist := congrArg String.toList h
  unfold claimKey at hlist
  simp only [String.toList_append, hbar, List.append_assoc, List.singleton_append] at hlist
  obtain ⟨hhashes, hrest⟩ := append_cons_inj_of_notMem_left
    (bar_notMem_sortedJoin fun v hv => (hclaim.hashes v hv).2)
    (bar_notMem_sortedJoin fun v hv => (hother.hashes v hv).2) hlist
  obtain ⟨hnullifiers, hpayouts⟩ := append_cons_inj_of_notMem_left
    (bar_notMem_sortedJoin fun v hv => (hclaim.nullifiers v hv).2)
    (bar_notMem_sortedJoin fun v hv => (hother.nullifiers v hv).2) hrest
  refine ⟨sortedJoin_perm (fun v hv => (hclaim.hashes v hv).1)
      (fun v hv => (hother.hashes v hv).1) (String.toList_inj.mp hhashes),
    sortedJoin_perm (fun v hv => (hclaim.nullifiers v hv).1)
      (fun v hv => (hother.nullifiers v hv).1) (String.toList_inj.mp hnullifiers), ?_⟩
  have hparts : ∀ {claim : Claim}, claim.Readable →
      ∀ text ∈ claim.payouts.map payoutText, Joined.Part ',' text := by
    intro claim hclaim text htext
    obtain ⟨payout, hpayout, rfl⟩ := List.mem_map.mp htext
    exact payoutText_part (hclaim.tokens payout hpayout).1
  refine perm_of_map_perm (f := payoutText) (fun a b => payoutText_inj)
    (fun p hp => (hclaim.tokens p hp).2) (fun p hp => (hother.tokens p hp).2) ?_
  exact sortedJoin_perm (hparts hclaim) (hparts hother) (String.toList_inj.mp hpayouts)

/-- The key does not depend on order. -/
theorem claimKey_of_content {claim other : Claim} (h : SameContent claim other) :
    claimKey claim = claimKey other := by
  have hsorted : ∀ {values others : List String}, values.Perm others →
      sortedJoin values = sortedJoin others := by
    intro values others hperm
    unfold sortedJoin
    congr 1
    exact ((List.perm_insertionSort _ values).trans
      (hperm.trans (List.perm_insertionSort _ others).symm)).eq_of_pairwise
        (fun _ _ _ _ => le_antisymm) (List.pairwise_insertionSort _ _)
        (List.pairwise_insertionSort _ _)
  unfold claimKey
  simp only
  rw [hsorted h.hashes, hsorted h.nullifiers, hsorted (h.payouts.map _)]

namespace Stock

/-! ## Amounts -/

/-- The amount of a token among payouts. -/
def payoutOf (payouts : List (String × Int)) (token : String) : Int :=
  (payouts.map fun payout => if payout.1 = token then payout.2 else 0).sum

/-- What the live claims pay out of a token. -/
def livePayouts (stock : Stock) (token : String) : Int :=
  (stock.live.map fun entry => payoutOf entry.2.payouts token).sum

@[simp] theorem payoutOf_nil (token : String) : payoutOf [] token = 0 := rfl

theorem payoutOf_cons (payout : String × Int) (payouts : List (String × Int)) (token : String) :
    payoutOf (payout :: payouts) token =
      (if payout.1 = token then payout.2 else 0) + payoutOf payouts token := by
  unfold payoutOf
  rw [List.map_cons, List.sum_cons]

theorem payoutOf_nonneg {payouts : List (String × Int)} (h : ∀ payout ∈ payouts, 0 < payout.2)
    (token : String) : 0 ≤ payoutOf payouts token := by
  refine List.sum_nonneg fun amount hamount => ?_
  obtain ⟨payout, hpayout, rfl⟩ := List.mem_map.mp hamount
  have := h payout hpayout
  split <;> omega

theorem payoutOf_perm {payouts others : List (String × Int)} (h : payouts.Perm others)
    (token : String) : payoutOf payouts token = payoutOf others token :=
  (h.map _).sum_eq

theorem payoutOf_of_notMem {payouts : List (String × Int)} {token : String}
    (h : token ∉ payouts.map (·.1)) : payoutOf payouts token = 0 := by
  induction payouts with
  | nil => rfl
  | cons payout payouts ih =>
    rw [List.map_cons, List.mem_cons, not_or] at h
    rw [payoutOf_cons, if_neg (Ne.symm h.1), ih h.2, add_zero]

/-- A map pays each token once. -/
theorem payoutOf_mem {payouts : List (String × Int)} (hdistinct : (payouts.map (·.1)).Nodup)
    {payout : String × Int} (h : payout ∈ payouts) : payoutOf payouts payout.1 = payout.2 := by
  induction payouts with
  | nil => cases h
  | cons first payouts ih =>
    rw [List.map_cons, List.nodup_cons] at hdistinct
    rw [payoutOf_cons]
    rcases List.mem_cons.mp h with rfl | hrest
    · rw [if_pos rfl, payoutOf_of_notMem hdistinct.1, add_zero]
    · have hne : first.1 ≠ payout.1 := fun heq =>
        hdistinct.1 (heq ▸ List.mem_map_of_mem hrest)
      rw [if_neg hne, ih hdistinct.2 hrest, zero_add]

@[simp] theorem amountOf_nil (token : String) : amountOf [] token = 0 := rfl

theorem amountOf_cons (entry : String × Int) (map : List (String × Int)) (token : String) :
    amountOf (entry :: map) token = if entry.1 = token then entry.2 else amountOf map token := by
  unfold amountOf
  by_cases h : entry.1 = token
  · simp [h]
  · simp [h]

theorem amountOf_replace (map : List (String × Int)) (entry : String × Int) (token : String) :
    amountOf (BestByKey.replace (·.1) entry map) token =
      if entry.1 = token then entry.2 else amountOf map token := by
  induction map with
  | nil => exact amountOf_cons entry [] token
  | cons first map ih =>
    unfold BestByKey.replace
    by_cases hfirst : first.1 = entry.1
    · rw [if_pos hfirst, amountOf_cons, amountOf_cons, hfirst]
      split <;> rfl
    · rw [if_neg hfirst, amountOf_cons, amountOf_cons, ih]
      by_cases h : first.1 = token
      · rw [if_pos h, if_pos h, if_neg fun heq => hfirst (h.trans heq.symm)]
      · rw [if_neg h, if_neg h]

theorem amountOf_filter (map : List (String × Int)) (dropped token : String) :
    amountOf (map.filter (·.1 ≠ dropped)) token =
      if dropped = token then 0 else amountOf map token := by
  induction map with
  | nil => simp
  | cons first map ih =>
    by_cases hfirst : first.1 = dropped
    · rw [List.filter_cons_of_neg (by simp [hfirst]), ih, amountOf_cons, hfirst]
      split <;> rfl
    · rw [List.filter_cons_of_pos (by simp [hfirst]), amountOf_cons, amountOf_cons, ih]
      by_cases h : first.1 = token
      · rw [if_pos h, if_pos h, if_neg fun heq => hfirst (h.trans heq.symm)]
      · rw [if_neg h, if_neg h]

theorem amountOf_addReserved (reserved : List (String × Int)) (payout : String × Int)
    (token : String) : amountOf (addReserved reserved payout) token =
      amountOf reserved token + if payout.1 = token then payout.2 else 0 := by
  unfold addReserved
  rw [amountOf_replace]
  by_cases h : payout.1 = token
  · rw [if_pos h, if_pos h, ← h]
  · rw [if_neg h, if_neg h, add_zero]

/-- The loop of `reserve` adds the payouts. -/
theorem amountOf_reserveAll (payouts reserved : List (String × Int)) (token : String) :
    amountOf (payouts.foldl addReserved reserved) token =
      amountOf reserved token + payoutOf payouts token := by
  induction payouts generalizing reserved with
  | nil => simp
  | cons payout payouts ih =>
    rw [List.foldl_cons, ih, amountOf_addReserved, payoutOf_cons, add_assoc]

theorem amountOf_dropReserved {reserved : List (String × Int)} {payout : String × Int}
    (h : payout.2 ≤ amountOf reserved payout.1) (token : String) :
    amountOf (dropReserved reserved payout) token =
      amountOf reserved token - if payout.1 = token then payout.2 else 0 := by
  unfold dropReserved
  simp only
  split
  · rw [amountOf_replace]
    by_cases heq : payout.1 = token
    · rw [if_pos heq, if_pos heq, ← heq]
    · rw [if_neg heq, if_neg heq, sub_zero]
  · rw [amountOf_filter]
    by_cases heq : payout.1 = token
    · rw [if_pos heq, if_pos heq, ← heq]
      omega
    · rw [if_neg heq, if_neg heq, sub_zero]

/-- The loop of `release` takes the payouts away, where they are covered. -/
theorem amountOf_releaseAll {payouts reserved : List (String × Int)}
    (hpositive : ∀ payout ∈ payouts, 0 < payout.2)
    (hcovered : ∀ token, payoutOf payouts token ≤ amountOf reserved token) (token : String) :
    amountOf (payouts.foldl dropReserved reserved) token =
      amountOf reserved token - payoutOf payouts token := by
  induction payouts generalizing reserved with
  | nil => simp
  | cons payout payouts ih =>
    have hrest : ∀ p ∈ payouts, 0 < p.2 := fun p hp => hpositive p (List.mem_cons_of_mem _ hp)
    have hfirst : payout.2 ≤ amountOf reserved payout.1 := by
      have hle := hcovered payout.1
      rw [payoutOf_cons, if_pos rfl] at hle
      have := payoutOf_nonneg hrest payout.1
      omega
    rw [List.foldl_cons, ih hrest, amountOf_dropReserved hfirst, payoutOf_cons, sub_sub]
    intro other
    have hle := hcovered other
    rw [payoutOf_cons] at hle
    rw [amountOf_dropReserved hfirst]
    omega

/-! ## Runs -/

/-- Replace the on-chain view; reservations survive. -/
def setBalances (stock : Stock) (balances : List (String × Int)) : Stock := { stock with balances }

/-- A call on the stock. -/
inductive Op
  | setBalances (balances : List (String × Int))
  | reserve (claim : Claim)
  | release (claim : Claim)

def Op.Readable : Op → Prop
  | .setBalances _ => True
  | .reserve claim => claim.Readable
  | .release claim => claim.Readable

def step (stock : Stock) : Op → Stock
  | .setBalances balances => stock.setBalances balances
  | .reserve claim => (stock.reserve claim).2
  | .release claim => stock.release claim

/-- The stock after the calls, from a new one. -/
def run (ops : List Op) : Stock := ops.foldl step {}

/-- The reserved amounts and the claimed sets are those of the live claims, which are disjoint and
told apart by their keys. -/
structure Held (stock : Stock) : Prop where
  readable : ∀ entry ∈ stock.live, entry.2.Readable
  keys : ∀ entry ∈ stock.live, entry.1 = claimKey entry.2
  distinct : (stock.live.map (·.1)).Nodup
  positive : ∀ entry ∈ stock.live, ∀ payout ∈ entry.2.payouts, 0 < payout.2
  reserved : ∀ token, amountOf stock.reserved token = stock.livePayouts token
  hashes : ∀ hash, hash ∈ stock.claimedHashes ↔
    ∃ entry ∈ stock.live, hash ∈ entry.2.offerHashes
  nullifiers : ∀ nullifier, nullifier ∈ stock.claimedNullifiers ↔
    ∃ entry ∈ stock.live, nullifier ∈ entry.2.nullifiers
  disjoint : stock.live.Pairwise fun left right =>
    left.2.offerHashes.Disjoint right.2.offerHashes ∧
      left.2.nullifiers.Disjoint right.2.nullifiers

theorem held_start : Held {} where
  readable := by simp
  keys := by simp
  distinct := List.nodup_nil
  positive := by simp
  reserved := fun _ => rfl
  hashes := by simp
  nullifiers := by simp
  disjoint := .nil

theorem affords_iff (stock : Stock) (claim : Claim) : stock.affords claim = true ↔
    ∀ payout ∈ claim.payouts, 0 < payout.2 ∧ payout.2 ≤ stock.available payout.1 := by
  unfold affords
  simp only [List.all_eq_true, decide_eq_true_eq]

/-- What a successful `reserve` has found and done. -/
structure Taken (stock : Stock) (claim : Claim) (stock' : Stock) : Prop where
  unclaimed : stock.isClaimed claim = false
  affordable : stock.affords claim = true
  fresh : ∀ entry ∈ stock.live, entry.1 ≠ claimKey claim
  result : stock' = { stock with
    live := stock.live ++ [(claimKey claim, claim)]
    claimedHashes := stock.claimedHashes ∪ claim.offerHashes.toFinset
    claimedNullifiers := stock.claimedNullifiers ∪ claim.nullifiers.toFinset
    reserved := claim.payouts.foldl addReserved stock.reserved }

/-- **`reserve`** takes everything or changes nothing. -/
theorem reserve_cases (stock : Stock) (claim : Claim) :
    stock.reserve claim = (false, stock) ∨
      ((stock.reserve claim).1 = true ∧ Taken stock claim (stock.reserve claim).2) := by
  unfold reserve
  cases hclaimed : stock.isClaimed claim with
  | true => exact .inl rfl
  | false =>
    cases haffords : stock.affords claim with
    | false => exact .inl rfl
    | true =>
      simp only [Bool.false_eq_true, if_false, Bool.not_true]
      split
      · exact .inl rfl
      · rename_i hfresh
        refine .inr ⟨rfl, hclaimed, haffords, fun entry hentry hkey => hfresh ?_, rfl⟩
        exact List.any_eq_true.mpr ⟨entry, hentry, decide_eq_true hkey⟩

theorem Taken.livePayouts {stock stock' : Stock} {claim : Claim} (h : Taken stock claim stock')
    (token : String) :
    stock'.livePayouts token = stock.livePayouts token + payoutOf claim.payouts token := by
  rw [h.result]
  unfold Stock.livePayouts
  rw [List.map_append, List.sum_append, List.map_singleton, List.sum_singleton]

theorem Taken.positive {stock stock' : Stock} {claim : Claim} (h : Taken stock claim stock') :
    ∀ payout ∈ claim.payouts, 0 < payout.2 := fun payout hpayout =>
  ((affords_iff stock claim).mp h.affordable payout hpayout).1

/-- After a successful `reserve` the live payouts of what the claim pays fit the balance. -/
theorem Taken.fits {stock stock' : Stock} {claim : Claim} (h : Taken stock claim stock')
    (hheld : stock.Held) (hclaim : claim.Readable) {payout : String × Int}
    (hpayout : payout ∈ claim.payouts) :
    stock'.livePayouts payout.1 ≤ amountOf stock'.balances payout.1 := by
  have hbalances : stock'.balances = stock.balances := by rw [h.result]
  have haffordable := (affords_iff stock claim).mp h.affordable payout hpayout
  unfold available at haffordable
  rw [hheld.reserved] at haffordable
  rw [h.livePayouts, payoutOf_mem hclaim.distinct hpayout, hbalances]
  omega

theorem Taken.held {stock stock' : Stock} {claim : Claim} (h : Taken stock claim stock')
    (hheld : stock.Held) (hclaim : claim.Readable) : stock'.Held := by
  have hmem : ∀ {entry : String × Claim}, entry ∈ stock'.live →
      entry ∈ stock.live ∨ entry = (claimKey claim, claim) := by
    intro entry hentry
    rw [h.result] at hentry
    exact (List.mem_append.mp hentry).imp_right List.mem_singleton.mp
  have hfree := h.unclaimed
  rw [← Bool.not_eq_true, isClaimed_iff, not_or] at hfree
  refine ⟨fun entry hentry => ?_, fun entry hentry => ?_, ?_, fun entry hentry => ?_,
    fun token => ?_, fun hash => ?_, fun nullifier => ?_, ?_⟩
  · rcases hmem hentry with hold | rfl
    · exact hheld.readable entry hold
    · exact hclaim
  · rcases hmem hentry with hold | rfl
    · exact hheld.keys entry hold
    · rfl
  · rw [h.result]
    simp only [List.map_append, List.map_singleton]
    refine List.nodup_append.mpr ⟨hheld.distinct, List.nodup_singleton _, fun key hkey other hother => ?_⟩
    obtain ⟨entry, hentry, rfl⟩ := List.mem_map.mp hkey
    rw [List.mem_singleton.mp hother]
    exact h.fresh entry hentry
  · rcases hmem hentry with hold | rfl
    · exact hheld.positive entry hold
    · exact h.positive
  · rw [h.livePayouts, h.result, amountOf_reserveAll, hheld.reserved]
  · rw [h.result]
    simp only [Finset.mem_union, List.mem_toFinset, hheld.hashes, List.mem_append,
      List.mem_singleton, or_and_right, exists_or, exists_eq_left]
  · rw [h.result]
    simp only [Finset.mem_union, List.mem_toFinset, hheld.nullifiers, List.mem_append,
      List.mem_singleton, or_and_right, exists_or, exists_eq_left]
  · rw [h.result]
    refine List.pairwise_append.mpr ⟨hheld.disjoint, List.pairwise_singleton _ _, ?_⟩
    intro entry hentry new hnew
    obtain rfl := List.mem_singleton.mp hnew
    exact ⟨fun hash hold hnew =>
        hfree.1 ⟨hash, hnew, (hheld.hashes hash).mpr ⟨entry, hentry, hold⟩⟩,
      fun nullifier hold hnew =>
        hfree.2 ⟨nullifier, hnew, (hheld.nullifiers nullifier).mpr ⟨entry, hentry, hold⟩⟩⟩

/-- A sum over the entries without one of them. -/
theorem sum_filter_key {live : List (String × Claim)} (hdistinct : (live.map (·.1)).Nodup)
    {found : String × Claim} (hfound : found ∈ live) (f : String × Claim → Int) :
    ((live.filter (·.1 ≠ found.1)).map f).sum = (live.map f).sum - f found := by
  induction live with
  | nil => cases hfound
  | cons entry live ih =>
    rw [List.map_cons, List.nodup_cons] at hdistinct
    rcases List.mem_cons.mp hfound with rfl | hrest
    · have hkeep : live.filter (·.1 ≠ found.1) = live :=
        List.filter_eq_self.mpr fun other hother => decide_eq_true fun heq =>
          hdistinct.1 (heq ▸ List.mem_map_of_mem hother)
      rw [List.filter_cons_of_neg (by simp), hkeep, List.map_cons, List.sum_cons]
      omega
    · have hne : entry.1 ≠ found.1 := fun heq => hdistinct.1 (heq ▸ List.mem_map_of_mem hrest)
      rw [List.filter_cons_of_pos (by simp [hne]), List.map_cons, List.sum_cons, List.map_cons,
        List.sum_cons, ih hdistinct.2 hrest]
      omega

/-- What a `release` of a live claim has found and done. -/
structure Freed (stock : Stock) (claim : Claim) (found : String × Claim) (stock' : Stock) :
    Prop where
  mem : found ∈ stock.live
  content : SameContent found.2 claim
  live : stock'.live = stock.live.filter (·.1 ≠ found.1)
  hashes : stock'.claimedHashes = stock.claimedHashes \ found.2.offerHashes.toFinset
  nullifiers : stock'.claimedNullifiers = stock.claimedNullifiers \ found.2.nullifiers.toFinset
  reserved : ∀ token, amountOf stock'.reserved token =
    amountOf stock.reserved token - payoutOf found.2.payouts token
  balances : stock'.balances = stock.balances

theorem le_livePayouts {stock : Stock} (hheld : stock.Held) {found : String × Claim}
    (hfound : found ∈ stock.live) (token : String) :
    payoutOf found.2.payouts token ≤ stock.livePayouts token := by
  have hrest : 0 ≤ ((stock.live.filter (·.1 ≠ found.1)).map fun entry =>
      payoutOf entry.2.payouts token).sum := by
    refine List.sum_nonneg fun amount hamount => ?_
    obtain ⟨entry, hentry, rfl⟩ := List.mem_map.mp hamount
    exact payoutOf_nonneg (hheld.positive entry (List.mem_filter.mp hentry).1) token
  rw [sum_filter_key hheld.distinct hfound] at hrest
  unfold livePayouts
  omega

/-- **`release`** frees the live claim with this content, or changes nothing. -/
theorem release_cases {stock : Stock} (hheld : stock.Held) {claim : Claim}
    (hclaim : claim.Readable) :
    ((∀ entry ∈ stock.live, ¬ SameContent entry.2 claim) ∧ stock.release claim = stock) ∨
      ∃ found, Freed stock claim found (stock.release claim) := by
  unfold release
  by_cases hlive : stock.live.any (·.1 = claimKey claim) = true
  · rw [if_pos hlive]
    obtain ⟨found, hfound, hkey⟩ := List.any_eq_true.mp hlive
    rw [decide_eq_true_eq] at hkey
    have hcontent : SameContent found.2 claim := claimKey_content (hheld.readable found hfound)
      hclaim ((hheld.keys found hfound).symm.trans hkey)
    have hhashes : claim.offerHashes.toFinset = found.2.offerHashes.toFinset :=
      List.toFinset_eq_of_perm _ _ hcontent.hashes.symm
    have hnullifiers : claim.nullifiers.toFinset = found.2.nullifiers.toFinset :=
      List.toFinset_eq_of_perm _ _ hcontent.nullifiers.symm
    refine .inr ⟨found, hfound, hcontent, by rw [hkey], by rw [← hhashes], by rw [← hnullifiers],
      fun token => ?_, rfl⟩
    have hpositive : ∀ payout ∈ claim.payouts, 0 < payout.2 := fun payout hpayout =>
      hheld.positive found hfound payout (hcontent.payouts.mem_iff.mpr hpayout)
    rw [amountOf_releaseAll hpositive, payoutOf_perm hcontent.payouts]
    intro other
    rw [hheld.reserved, ← payoutOf_perm hcontent.payouts]
    exact le_livePayouts hheld hfound other
  · rw [if_neg hlive]
    refine .inl ⟨fun entry hentry hcontent => hlive ?_, rfl⟩
    refine List.any_eq_true.mpr ⟨entry, hentry, decide_eq_true ?_⟩
    exact (hheld.keys entry hentry).trans (claimKey_of_content hcontent)

theorem Freed.held {stock stock' : Stock} {claim : Claim} {found : String × Claim}
    (h : Freed stock claim found stock') (hheld : stock.Held) : stock'.Held := by
  have hkept : ∀ {entry : String × Claim}, entry ∈ stock'.live ↔
      entry ∈ stock.live ∧ entry.1 ≠ found.1 := by
    intro entry
    rw [h.live, List.mem_filter, decide_eq_true_eq]
  -- an entry with another key is disjoint from the one that is released
  have hother : ∀ entry ∈ stock.live, entry.1 ≠ found.1 →
      entry.2.offerHashes.Disjoint found.2.offerHashes ∧
        entry.2.nullifiers.Disjoint found.2.nullifiers := by
    intro entry hentry hne
    have : Std.Symm fun left right : String × Claim =>
        left.2.offerHashes.Disjoint right.2.offerHashes ∧
          left.2.nullifiers.Disjoint right.2.nullifiers :=
      ⟨fun _ _ h => ⟨h.1.symm, h.2.symm⟩⟩
    exact hheld.disjoint.forall hentry h.mem fun heq => hne (heq ▸ rfl)
  have hsame : ∀ entry ∈ stock.live, entry.1 = found.1 → entry = found := fun entry hentry heq =>
    List.inj_on_of_nodup_map hheld.distinct hentry h.mem heq
  refine ⟨fun entry hentry => hheld.readable entry (hkept.mp hentry).1,
    fun entry hentry => hheld.keys entry (hkept.mp hentry).1, ?_,
    fun entry hentry => hheld.positive entry (hkept.mp hentry).1, fun token => ?_, fun hash => ?_,
    fun nullifier => ?_, ?_⟩
  · rw [h.live]
    exact hheld.distinct.sublist (List.filter_sublist.map _)
  · unfold livePayouts
    rw [h.reserved, h.live, sum_filter_key hheld.distinct h.mem, hheld.reserved]
    rfl
  · rw [h.hashes, Finset.mem_sdiff, List.mem_toFinset, hheld.hashes]
    constructor
    · rintro ⟨⟨entry, hentry, hmem⟩, hkeep⟩
      refine ⟨entry, hkept.mpr ⟨hentry, fun heq => hkeep ?_⟩, hmem⟩
      exact hsame entry hentry heq ▸ hmem
    · rintro ⟨entry, hentry, hmem⟩
      obtain ⟨hentry, hne⟩ := hkept.mp hentry
      exact ⟨⟨entry, hentry, hmem⟩, (hother entry hentry hne).1 hmem⟩
  · rw [h.nullifiers, Finset.mem_sdiff, List.mem_toFinset, hheld.nullifiers]
    constructor
    · rintro ⟨⟨entry, hentry, hmem⟩, hkeep⟩
      refine ⟨entry, hkept.mpr ⟨hentry, fun heq => hkeep ?_⟩, hmem⟩
      exact hsame entry hentry heq ▸ hmem
    · rintro ⟨entry, hentry, hmem⟩
      obtain ⟨hentry, hne⟩ := hkept.mp hentry
      exact ⟨⟨entry, hentry, hmem⟩, (hother entry hentry hne).2 hmem⟩
  · rw [h.live]
    exact hheld.disjoint.filter _

/-- **One call** keeps the invariant. -/
theorem held_step {stock : Stock} (hheld : stock.Held) {op : Op} (hop : op.Readable) :
    (stock.step op).Held := by
  cases op with
  | setBalances balances =>
    exact ⟨hheld.readable, hheld.keys, hheld.distinct, hheld.positive, hheld.reserved,
      hheld.hashes, hheld.nullifiers, hheld.disjoint⟩
  | reserve claim =>
    have hcases := stock.reserve_cases claim
    unfold step
    rcases hcases with hrefused | ⟨-, htaken⟩
    · simp only [hrefused]
      exact hheld
    · exact htaken.held hheld hop
  | release claim =>
    unfold step
    rcases release_cases hheld hop with ⟨-, hsame⟩ | ⟨found, hfreed⟩
    · simp only [hsame]
      exact hheld
    · exact hfreed.held hheld

/-- **Every run** holds what its live claims list. -/
theorem held_run {ops : List Op} (hops : ∀ op ∈ ops, op.Readable) : (run ops).Held := by
  unfold run
  induction ops using List.reverseRecOn with
  | nil => exact held_start
  | append_singleton ops op ih =>
    rw [List.foldl_append]
    exact held_step (ih fun o ho => hops o (List.mem_append_left _ ho))
      (hops op (List.mem_append_right _ List.mem_cons_self))

/-- A released claim is no longer live, so a second release does nothing. -/
theorem release_release {stock : Stock} (hheld : stock.Held) {claim : Claim}
    (hclaim : claim.Readable) : (stock.release claim).release claim = stock.release claim := by
  rcases release_cases hheld hclaim with ⟨-, hsame⟩ | ⟨found, hfreed⟩
  · rw [hsame, hsame]
  · rcases release_cases (hfreed.held hheld) hclaim with ⟨-, hsame⟩ | ⟨again, hagain⟩
    · exact hsame
    · have hmem := hagain.mem
      rw [hfreed.live, List.mem_filter, decide_eq_true_eq] at hmem
      refine absurd ?_ hmem.2
      rw [hheld.keys again hmem.1, hheld.keys found hfreed.mem, claimKey_of_content hagain.content,
        claimKey_of_content hfreed.content]

end Stock

open Stock in
/-- **The stock of a run.** The reserved amounts are the sums of the live payouts, and the claimed sets
are the disjoint unions of the live claims. `reserve` takes everything or changes nothing, and when it
succeeds the live payouts of what the claim pays fit the balance. `release` frees the live claim with
this content and no other, and a second one does nothing. -/
theorem stock_holds_live_claims {ops : List Op} (hops : ∀ op ∈ ops, op.Readable) :
    (∀ token, amountOf (run ops).reserved token = (run ops).livePayouts token) ∧
    (∀ hash, hash ∈ (run ops).claimedHashes ↔
      ∃ entry ∈ (run ops).live, hash ∈ entry.2.offerHashes) ∧
    (∀ nullifier, nullifier ∈ (run ops).claimedNullifiers ↔
      ∃ entry ∈ (run ops).live, nullifier ∈ entry.2.nullifiers) ∧
    ((run ops).live.Pairwise fun left right =>
      left.2.offerHashes.Disjoint right.2.offerHashes ∧
        left.2.nullifiers.Disjoint right.2.nullifiers) ∧
    ∀ claim : Claim, claim.Readable →
      (((run ops).reserve claim).1 = false → ((run ops).reserve claim).2 = run ops) ∧
      (((run ops).reserve claim).1 = true → Taken (run ops) claim ((run ops).reserve claim).2 ∧
        ∀ payout ∈ claim.payouts, ((run ops).reserve claim).2.livePayouts payout.1 ≤
          amountOf ((run ops).reserve claim).2.balances payout.1) ∧
      ((run ops).release claim).release claim = (run ops).release claim ∧
      ((∀ entry ∈ (run ops).live, ¬ SameContent entry.2 claim) →
        (run ops).release claim = run ops) ∧
      ∀ entry ∈ (run ops).live, SameContent entry.2 claim →
        Freed (run ops) claim entry ((run ops).release claim) := by
  have hheld := held_run hops
  refine ⟨hheld.reserved, hheld.hashes, hheld.nullifiers, hheld.disjoint, fun claim hclaim => ?_⟩
  refine ⟨fun hfalse => ?_, fun htrue => ?_, release_release hheld hclaim, fun hnone => ?_,
    fun entry hentry hcontent => ?_⟩
  · rcases (run ops).reserve_cases claim with hrefused | ⟨htrue, -⟩
    · rw [hrefused]
    · rw [htrue] at hfalse
      cases hfalse
  · rcases (run ops).reserve_cases claim with hrefused | ⟨-, htaken⟩
    · rw [hrefused] at htrue
      cases htrue
    · exact ⟨htaken, fun payout hpayout => htaken.fits hheld hclaim hpayout⟩
  · rcases release_cases hheld hclaim with ⟨-, hsame⟩ | ⟨found, hfreed⟩
    · exact hsame
    · exact absurd hfreed.content (hnone found hfreed.mem)
  · rcases release_cases hheld hclaim with ⟨hnone, -⟩ | ⟨found, hfreed⟩
    · exact absurd hcontent (hnone entry hentry)
    · have heq : entry = found := by
        refine List.inj_on_of_nodup_map hheld.distinct hentry hfreed.mem ?_
        rw [hheld.keys entry hentry, hheld.keys found hfreed.mem, claimKey_of_content hcontent,
          claimKey_of_content hfreed.content]
      exact heq ▸ hfreed

namespace RefreshedBalance

/-- A payout of ten, under a balance that a refresh then lowers to five. -/
def paying : Claim := ⟨["h1"], ["n1"], [("t", 10)]⟩

def ops : List Stock.Op := [.setBalances [("t", 10)], .reserve paying, .setBalances [("t", 5)]]

/-- A new job, which pays nothing. -/
def payless : Claim := ⟨["h2"], ["n2"], []⟩

theorem part_of_text {value : String} (h : value ≠ "" ∧ ',' ∉ value.toList ∧ '|' ∉ value.toList) :
    Joined.Part ',' value ∧ '|' ∉ value.toList :=
  ⟨⟨h.1, h.2.1⟩, h.2.2⟩

theorem paying_readable : paying.Readable where
  hashes := fun hash h => part_of_text (by rw [List.mem_singleton.mp h]; decide)
  nullifiers := fun nullifier h => part_of_text (by rw [List.mem_singleton.mp h]; decide)
  tokens := by decide
  distinct := by decide

theorem payless_readable : payless.Readable where
  hashes := fun hash h => part_of_text (by rw [List.mem_singleton.mp h]; decide)
  nullifiers := fun nullifier h => part_of_text (by rw [List.mem_singleton.mp h]; decide)
  tokens := nofun
  distinct := List.nodup_nil

theorem ops_readable : ∀ op ∈ ops, op.Readable := by
  intro op hop
  simp only [ops, List.mem_cons, List.not_mem_nil, or_false] at hop
  rcases hop with rfl | rfl | rfl
  · trivial
  · exact paying_readable
  · trivial

end RefreshedBalance

open Stock RefreshedBalance in
/-- A reservation may succeed while the live payouts of a token it does not pay exceed the balance. -/
theorem reserve_with_uncovered_payout : ¬ ∀ (ops : List Op) (claim : Claim),
    (∀ op ∈ ops, op.Readable) → claim.Readable → ((run ops).reserve claim).1 = true →
      ∀ token, ((run ops).reserve claim).2.livePayouts token ≤
        amountOf ((run ops).reserve claim).2.balances token := by
  intro hall
  have hrun : ((run ops).reserve payless).1 = true ∧
      amountOf ((run ops).reserve payless).2.balances "t" <
        ((run ops).reserve payless).2.livePayouts "t" := by decide +kernel
  exact absurd (hall ops payless ops_readable payless_readable hrun.1 "t") (not_le.mpr hrun.2)

open Stock RefreshedBalance in
/-- The payout of ten stays reserved under the lower balance, and a release of it frees it. -/
theorem stock_holds_live_claims_refreshed :
    amountOf (run ops).reserved "t" = 10 ∧
      amountOf (run ops).reserved "t" = (run ops).livePayouts "t" ∧
      ((run ops).release paying).release paying = (run ops).release paying :=
  ⟨by decide +kernel, (stock_holds_live_claims ops_readable).1 "t",
    ((stock_holds_live_claims ops_readable).2.2.2.2 paying paying_readable).2.2.1⟩

end ZswapKernel
