import ZswapKernel.SolverCore.LadderWork

/-!
# Eligible offers

`toCrossable` and the exclusions `deriveLadder` makes before it searches: malformed, expiring or
unavailable offers, duplicate hashes, and offers that share a source coin with a lower hash. What
is left is the retained book, sorted by hash.
-/

namespace ZswapKernel

inductive LegKind
  | shielded
  | unshielded
  deriving DecidableEq, Repr

structure LadderSourceLeg where
  token : String
  amount : Int
  kind : LegKind
  deriving DecidableEq, Repr

structure LadderSourceOffer where
  offerHash : String
  gives : List LadderSourceLeg
  wants : List LadderSourceLeg
  expiresAt : Option Int
  inputNullifiers : List String
  deriving DecidableEq, Repr

/-- An eligible offer: it takes `amountIn` of `tokenIn` and pays `amountOut` of `tokenOut`. -/
structure Crossable where
  offerHash : String
  tokenIn : String
  tokenOut : String
  amountIn : Int
  amountOut : Int
  nullifiers : List String
  deriving DecidableEq, Repr

/-- `[...new Set(values)].sort()`. -/
def sortedSet (values : List String) : List String :=
  values.dedup.insertionSort (· ≤ ·)

/-- `toCrossable`: the reductions in their order; `error` is the exclusion reason. -/
def toCrossable (offer : LadderSourceOffer) (nowMs expiryMarginSeconds : Int)
    (unavailable : List String) : Except LadderExclusionReason Crossable :=
  let offerHash := toLowerCase offer.offerHash
  if !hex64 offer.offerHash then .error .malformedHash
  else if unavailable.contains offerHash then .error .unavailable
  else
    match offer.gives, offer.wants with
    | [give], [want] =>
      let tokenOut := toLowerCase give.token
      let tokenIn := toLowerCase want.token
      if give.kind ≠ .shielded ∨ want.kind ≠ .shielded then .error .nonShieldedLeg
      else if !hex64 give.token then .error .malformedToken
      else if !hex64 want.token then .error .malformedToken
      else if give.amount ≤ 0 ∨ want.amount ≤ 0 then .error .nonPositiveAmount
      else if give.amount > maxSettlementAmount ∨ want.amount > maxSettlementAmount then
        .error .settlementAmountCap
      else if tokenIn = tokenOut then .error .sameToken
      else if offer.inputNullifiers.any (!hex64 ·) then .error .malformedNullifier
      else
        match offer.expiresAt with
        | none => .error .noExpiry
        | some expiresAt =>
          if nowMs ≥ expiresAt - expiryMarginSeconds * 1000 then .error .expiring
          else .ok ⟨offerHash, tokenIn, tokenOut, want.amount, give.amount,
            sortedSet (offer.inputNullifiers.map toLowerCase)⟩
    | _, _ => .error .multiLeg

/-- `excludedHash`. -/
def excludedHash (offer : LadderSourceOffer) : String := toLowerCase offer.offerHash

def byOfferHash (left right : Crossable) : Prop := left.offerHash ≤ right.offerHash

instance : DecidableRel byOfferHash := fun left right =>
  inferInstanceAs (Decidable (left.offerHash ≤ right.offerHash))

/-- `hashCounts.get(offer.offerHash)`. -/
def hashCount (crossable : List Crossable) (offerHash : String) : Nat :=
  (crossable.map (·.offerHash)).count offerHash

/-- The offers whose hash occurs once, in hash order. -/
def uniqueOffers (crossable : List Crossable) : List Crossable :=
  (crossable.insertionSort byOfferHash).filter fun offer =>
    hashCount crossable offer.offerHash ≤ 1

/-- The exclusions of repeated hashes, in hash order. -/
def duplicateExclusions (crossable : List Crossable) : List LadderExclusion :=
  ((crossable.insertionSort byOfferHash).filter fun offer =>
    hashCount crossable offer.offerHash > 1).map fun offer =>
      ⟨offer.offerHash, .duplicateOffer, none⟩

/-- The shared-coin scan: the lowest hash owns each source nullifier. -/
def claimCoins : List String → List Crossable → List Crossable × List LadderExclusion
  | _, [] => ([], [])
  | claimed, offer :: offers =>
    if offer.nullifiers.any claimed.contains then
      let (retained, excluded) := claimCoins claimed offers
      (retained, ⟨offer.offerHash, .sharedCoin, none⟩ :: excluded)
    else
      let (retained, excluded) := claimCoins (offer.nullifiers ++ claimed) offers
      (offer :: retained, excluded)

/-- The eligible offers of a book, before duplicates and shared coins are removed. -/
def crossableOffers (offers : List LadderSourceOffer) (options : DeriveLadderOptions) :
    List Crossable :=
  let unavailable := options.unavailableOfferHashes.map toLowerCase
  offers.filterMap fun offer =>
    (toCrossable offer options.nowMs options.expiryMarginSeconds unavailable).toOption

/-- The retained offers: those surviving `toCrossable`, duplicate and shared-coin exclusion. -/
def retainedOffers (offers : List LadderSourceOffer) (options : DeriveLadderOptions) :
    List Crossable :=
  (claimCoins [] (uniqueOffers (crossableOffers offers options))).1

end ZswapKernel
