import ZswapKernel.Solver.RouteAdmits

/-!
# Published quotes and the claims of the fills in progress

The derivation leaves out offers whose hash is unavailable; the reservation also looks at the coins
they spend. A job inside a published ladder reaches the reservation (`QuotedJob.resolves`), which
then refuses it exactly when one of the offers behind the quote shares a coin with a live claim.

* `Book.source_of_retained` — the book offer a retained offer was reduced from.
* `BestFill.unique` — the tie order leaves one set of makers.
* `quoted_claim_refused_iff` — when the reservation refuses.
-/

namespace ZswapKernel

/-! ## The offers behind a quote -/

section Makers

variable {book : Book} {options : DeriveLadderOptions} {retained : List Crossable}
  {maxMakers : Nat} {minimum : Option Int} {tokenIn tokenOut : String} {x : Int}
  {makers other : Finset Crossable}

/-- A retained offer was reduced from the book offer with its hash. -/
theorem Book.source_of_retained {maker : Crossable} {offer : BookOffer}
    (h : maker ∈ retainedOffers book.sources options) (hoffer : offer ∈ book.offers)
    (hhash : offer.offerHash = maker.offerHash) :
    ReducedTo offer.toLadderSourceOffer options.nowMs options.expiryMarginSeconds
      (options.unavailableOfferHashes.map toLowerCase) maker := by
  obtain ⟨source, hsource, hreduced⟩ := mem_crossableOffers.mp (mem_crossableOffers_of_retained h)
  obtain ⟨found, hfound, rfl⟩ := List.mem_map.mp hsource
  have hreduced := toCrossable_ok hreduced
  have hfoundHash : found.offerHash = maker.offerHash :=
    (book.lower found hfound).symm.trans hreduced.hash.symm
  have hget := book.get_of_mem hfound
  rw [hfoundHash, ← hhash, book.get_of_mem hoffer] at hget
  cases hget
  exact hreduced

theorem Preferred.eq_hashes (h : Preferred tokenIn tokenOut makers other)
    (h' : Preferred tokenIn tokenOut other makers) : setHashes makers = setHashes other := by
  obtain hlt | ⟨hnet, hlt | ⟨hinput, hlt | ⟨hcard, hle⟩⟩⟩ := h <;>
    obtain hlt' | ⟨hnet', hlt' | ⟨hinput', hlt' | ⟨hcard', hle'⟩⟩⟩ := h'
  case inr.inr.inr.inr.inr.inr => exact le_antisymm hle hle'
  all_goals omega

/-- Sets of retained offers are told apart by their hashes. -/
theorem eq_of_setHashes (hsorted : retained.Pairwise (·.offerHash < ·.offerHash))
    (hmakers : ∀ offer ∈ makers, offer ∈ retained) (hother : ∀ offer ∈ other, offer ∈ retained)
    (h : setHashes makers = setHashes other) : makers = other := by
  have hinj : ∀ left ∈ retained, ∀ right ∈ retained, left.offerHash = right.offerHash →
      left = right := by
    intro left hleft right hright heq
    by_contra hne
    have : Std.Symm fun left right : Crossable => left.offerHash ≠ right.offerHash :=
      ⟨fun _ _ h => h.symm⟩
    exact (hsorted.imp ne_of_lt).forall hleft hright hne heq
  have himage : makers.image (·.offerHash) = other.image (·.offerHash) := by
    unfold setHashes at h
    have := congrArg List.toFinset h
    rwa [Finset.sort_toFinset, Finset.sort_toFinset] at this
  have hsub : ∀ {left right : Finset Crossable}, (∀ offer ∈ left, offer ∈ retained) →
      (∀ offer ∈ right, offer ∈ retained) →
      left.image (·.offerHash) = right.image (·.offerHash) → left ⊆ right := by
    intro left right hleft hright heq offer hoffer
    have hhash : offer.offerHash ∈ right.image (·.offerHash) :=
      heq ▸ Finset.mem_image_of_mem _ hoffer
    obtain ⟨found, hfound, hsame⟩ := Finset.mem_image.mp hhash
    exact hinj found (hright found hfound) offer (hleft offer hoffer) hsame ▸ hfound
  exact (hsub hmakers hother himage).antisymm (hsub hother hmakers himage.symm)

/-- **One set of makers** is behind a quote. -/
theorem BestFill.unique (hsorted : retained.Pairwise (·.offerHash < ·.offerHash))
    (h : BestFill retained maxMakers minimum tokenIn tokenOut x makers)
    (hother : BestFill retained maxMakers minimum tokenIn tokenOut x other) : makers = other :=
  eq_of_setHashes hsorted h.fills.retained hother.fills.retained
    ((h.preferred other hother.fills).eq_hashes (hother.preferred makers h.fills))

end Makers

/-! ## The reservation -/

/-- One of the makers spends a coin that a live claim lists. -/
def SpendsClaimed (stock : Stock) (book : Book) (makers : Finset Crossable) : Prop :=
  ∃ maker ∈ makers, ∃ offer ∈ book.offers, offer.offerHash = maker.offerHash ∧
    ∃ nullifier ∈ offer.inputNullifiers, ∃ claim, stock.Live claim ∧ nullifier ∈ claim.nullifiers

/-- The unavailable hashes are those of the live claims. -/
def Stock.Withholds (stock : Stock) (unavailable : List String) : Prop :=
  ∀ hash, hash ∈ unavailable ↔ ∃ claim, stock.Live claim ∧ hash ∈ claim.offerHashes

section Reservation

variable {book : Book} {options : DeriveLadderOptions} {makers : Finset Crossable}
  {offers : List BookOffer} {stock : Stock}

theorem RouteOf.claim_canonical (h : RouteOf book makers offers)
    (hretained : ∀ maker ∈ makers, maker ∈ retainedOffers book.sources options) :
    (claimFor offers []).Canonical := by
  constructor
  · intro hash hhash
    obtain ⟨offer, hoffer, rfl⟩ := List.mem_map.mp hhash
    obtain ⟨maker, hmaker, heq, -⟩ := h.made offer hoffer
    exact heq ▸ (retainedOffers_valid (hretained maker hmaker)).hash.hex
  · intro nullifier hnullifier
    obtain ⟨offer, hoffer, hmem⟩ := List.mem_flatMap.mp hnullifier
    obtain ⟨maker, hmaker, heq, source, hsource, rfl⟩ := h.made offer hoffer
    exact (Book.source_of_retained (hretained maker hmaker) hsource heq).nullifiers_hex _ hmem

/-- **What is claimed** of a route is a coin: its hashes are available. -/
theorem RouteOf.isClaimed_iff (h : RouteOf book makers offers) (hsound : stock.Sound)
    (hwithholds : stock.Withholds options.unavailableOfferHashes)
    (hretained : ∀ maker ∈ makers, maker ∈ retainedOffers book.sources options) :
    stock.isClaimed (claimFor offers []) = true ↔ SpendsClaimed stock book makers := by
  rw [Stock.isClaimed_iff]
  constructor
  · rintro (⟨hash, hhash, hclaimed⟩ | ⟨nullifier, hnullifier, hclaimed⟩)
    · obtain ⟨offer, hoffer, rfl⟩ := List.mem_map.mp hhash
      obtain ⟨maker, hmaker, heq, source, hsource, rfl⟩ := h.made offer hoffer
      obtain ⟨entry, hentry, hmem⟩ := (hsound.hashes _).mp hclaimed
      have hwithheld := (hwithholds _).mpr ⟨entry.2, ⟨entry, hentry, rfl⟩, hmem⟩
      have havailable :=
        (Book.source_of_retained (hretained maker hmaker) hsource heq).available
      exact absurd (List.mem_map_of_mem hwithheld) havailable
    · obtain ⟨offer, hoffer, hmem⟩ := List.mem_flatMap.mp hnullifier
      obtain ⟨maker, hmaker, heq, source, hsource, rfl⟩ := h.made offer hoffer
      obtain ⟨entry, hentry, hlive⟩ := (hsound.nullifiers _).mp hclaimed
      exact ⟨maker, hmaker, source, hsource, heq, nullifier, hmem, entry.2, ⟨entry, hentry, rfl⟩,
        hlive⟩
  · rintro ⟨maker, hmaker, source, hsource, heq, nullifier, hmem, claim, ⟨entry, hentry, rfl⟩, hlive⟩
    obtain ⟨offer, hoffer, hhash⟩ := h.all maker hmaker
    obtain ⟨-, -, -, found, hfound, rfl⟩ := h.made offer hoffer
    -- the book has one offer with this hash
    have hget := book.get_of_mem hfound
    rw [show found.offerHash = source.offerHash from hhash.trans heq.symm,
      book.get_of_mem hsource] at hget
    cases hget
    exact .inr ⟨nullifier, List.mem_flatMap.mpr ⟨_, hoffer, hmem⟩,
      (hsound.nullifiers _).mpr ⟨entry, hentry, hlive⟩⟩

end Reservation

/-- **Claimed coins** behind a quote. From a reachable stock whose hashes are withheld from the
derivation, a job inside a published ladder passes the reservation exactly when no maker of its best
fill spends a coin of a live claim. -/
theorem quoted_claim_refused_iff {comparisons : List CombinationState → Nat} {cache : SwapJobCache}
    {stock : Stock} {options : RouteOptions} {derived : DerivedLadder}
    {entry : PriceLevelsPair × LadderPairProvenance} {job : SwapMessage} {quote : Int}
    (hreachable : stock.Reachable) (hwithholds : stock.Withholds options.unavailableOfferHashes)
    (hclock : options.freshNowMs.getD options.nowMs = options.nowMs)
    (hderived : deriveLadder comparisons cache.book.sources
      (options.derivation cache options.resourceLimits) = .ok derived)
    (hjob : QuotedJob derived options.toJobAdmissionPolicy entry job quote) :
    resolveSwapJobRoute comparisons job cache stock options ≠
        refuse .routeUnavailable "route is already claimed" ↔
      ∀ makers, BestFill (retainedOffers cache.book.sources
          (options.derivation cache options.resourceLimits))
        derived.limits.maxMakersPerCombination (options.minimum entry.1.tokenOut) entry.1.tokenIn
        entry.1.tokenOut (bigInt job.amountIn) makers → ¬ SpendsClaimed stock cache.book makers := by
  obtain ⟨route, witness, makers, hroute, -, hbest, hclaim, hof⟩ := hjob.resolves hclock hderived
  have hsound := hreachable.sound
  have hretained := hbest.fills.retained
  have hspends := hof.isClaimed_iff hsound hwithholds hretained
  have hnonempty : (claimFor route.offers []).offerHashes ≠ [] := by
    obtain ⟨maker, hmaker⟩ := hbest.fills.nonempty
    obtain ⟨offer, hoffer, -⟩ := hof.all maker hmaker
    exact List.ne_nil_of_mem (List.mem_map_of_mem hoffer)
  have hreserve := hsound.reserve_fst (hof.claim_canonical hretained) rfl hnonempty
  have hrefused : resolveSwapJobRoute comparisons job cache stock options =
      refuse .routeUnavailable "route is already claimed" ↔
        SpendsClaimed stock cache.book makers := by
    rw [hroute, ← hspends, hclaim]
    rcases hresult : stock.reserve (claimFor route.offers []) with ⟨reserved, stock'⟩
    rw [hresult] at hreserve
    obtain rfl : reserved = !stock.isClaimed (claimFor route.offers []) := hreserve
    cases stock.isClaimed (claimFor route.offers []) <;> simp [refuse]
  rw [ne_eq, hrefused]
  constructor
  · intro hfree other hother
    rwa [hother.unique (retainedOffers_sorted _ _) hbest]
  · exact fun hall => hall makers hbest

/-! ## Two offers of one coin -/

namespace SharedCoin

open TwoOffers

def coin : String := "00000000000000000000000000000000000000000000000000000000000f4255"

/-- The offer of the fill in progress. -/
def claimed : BookOffer :=
  ⟨maker "0000000000000000000000000000000000000000000000000000000000002725" coin 1, none, none⟩

/-- The other offer of its coin. -/
def rival : BookOffer :=
  ⟨maker "0000000000000000000000000000000000000000000000000000000000002726" coin 2, none, none⟩

def cache : SwapJobCache where
  book := {
    offers := [claimed, rival]
    lower := by decide +kernel
    distinct := by decide +kernel }
  isCurrent := true

def claim : Claim := claimFor [claimed] []

def stock : Stock := (({} : Stock).reserve claim).2

def routeOptions : RouteOptions :=
  { TwoOffers.routeOptions with unavailableOfferHashes := [claimed.offerHash] }

def pair : PriceLevelsPair := ⟨tokenA, tokenB, [⟨"1", "2"⟩, ⟨"10", "2"⟩]⟩

def job : SwapMessage := ⟨"job", tokenA, tokenB, "7", "2"⟩

theorem claim_canonical : claim.Canonical := ⟨by decide +kernel, by decide +kernel⟩

theorem reachable : stock.Reachable := .reserve claim (.start []) claim_canonical

theorem live_iff (other : Claim) : stock.Live other ↔ other = claim := by
  have hlive : stock.live = [(claimKey claim, claim)] := rfl
  unfold Stock.Live
  rw [hlive]
  simp [eq_comm]

theorem withholds : stock.Withholds routeOptions.unavailableOfferHashes := by
  intro hash
  simp only [live_iff, exists_eq_left]
  exact Iff.rfl

/-- The derivation publishes the other offer, and `job` is inside its ladder. -/
theorem quoted : ∃ derived provenance,
    deriveLadder (fun _ => 0) cache.book.sources
      (routeOptions.derivation cache routeOptions.resourceLimits) = .ok derived ∧
    QuotedJob derived routeOptions.toJobAdmissionPolicy (pair, provenance) job 2 := by
  have hpairs : ((deriveLadder (fun _ => 0) cache.book.sources
      (routeOptions.derivation cache routeOptions.resourceLimits)).toOption.map fun derived =>
        (derived.levels.zip derived.provenance).map fun entry =>
          (entry.1, entry.2.terminalInput)) = some [(pair, "10")] := by
    decide +kernel
  have htokenIn : toLowerCase job.tokenIn = pair.tokenIn := by decide +kernel
  have htokenOut : toLowerCase job.tokenOut = pair.tokenOut := by decide +kernel
  have hquoted : RelayWsContract.interpolateQuote pair.levels (bigInt job.amountIn) = some 2 := by
    decide
  obtain ⟨derived, provenance, hderived, hmem, hterminal⟩ := published_of_pairs hpairs
  refine ⟨derived, provenance, hderived, {
    published := hmem
    tokenIn := htokenIn
    tokenOut := htokenOut
    low := ?_
    high := ?_
    quoted := hquoted
    positive := by decide
    minimum := ?_
    within := by decide }⟩
  · rintro first hfirst
    cases hfirst
    decide
  · rw [hterminal]
    decide
  · rintro least hleast
    cases hleast

theorem spendsClaimed_of_retained {makers : Finset Crossable} (hnonempty : makers.Nonempty)
    (hretained : ∀ maker ∈ makers, maker ∈ retainedOffers cache.book.sources
      (routeOptions.derivation cache routeOptions.resourceLimits)) :
    SpendsClaimed stock cache.book makers := by
  obtain ⟨maker, hmaker⟩ := hnonempty
  obtain ⟨offer, hget, hoffer⟩ := Book.offers_of_retained (hretained maker hmaker)
  have hmem := (Book.mem_of_get hget).1
  have hcoins : ∀ offer ∈ cache.book.offers, coin ∈ offer.inputNullifiers := by decide
  exact ⟨maker, hmaker, offer, hmem, hoffer.hash, coin, hcoins offer hmem, claim,
    (live_iff claim).mpr rfl, List.mem_singleton.mpr rfl⟩

end SharedCoin

open SharedCoin in
/-- A quoted job that the reservation refuses: the only offer behind the quote spends the coin of the
fill in progress. -/
theorem quoted_job_refused : ∃ derived provenance,
    stock.Reachable ∧ stock.Withholds routeOptions.unavailableOfferHashes ∧
    deriveLadder (fun _ => 0) cache.book.sources
      (routeOptions.derivation cache routeOptions.resourceLimits) = .ok derived ∧
    QuotedJob derived routeOptions.toJobAdmissionPolicy (pair, provenance) job 2 ∧
    resolveSwapJobRoute (fun _ => 0) job cache stock routeOptions =
      refuse .routeUnavailable "route is already claimed" := by
  obtain ⟨derived, provenance, hderived, hjob⟩ := quoted
  refine ⟨derived, provenance, reachable, withholds, hderived, hjob, ?_⟩
  obtain ⟨route, witness, makers, hroute, -, hbest, hclaim, hof⟩ := hjob.resolves rfl hderived
  have hspends := spendsClaimed_of_retained hbest.fills.nonempty hbest.fills.retained
  have hclaimed : stock.isClaimed route.claim = true := by
    rw [hclaim]
    exact (hof.isClaimed_iff reachable.sound withholds hbest.fills.retained).mpr hspends
  rw [hroute]
  unfold Stock.reserve
  rw [if_pos hclaimed]

open SharedCoin in
/-- So its best fill spends a claimed coin. -/
theorem quoted_claim_refused_iff_shared_coin : ∃ derived provenance,
    QuotedJob derived routeOptions.toJobAdmissionPolicy (pair, provenance) job 2 ∧
    (resolveSwapJobRoute (fun _ => 0) job cache stock routeOptions ≠
        refuse .routeUnavailable "route is already claimed" ↔
      ∀ makers, BestFill (retainedOffers cache.book.sources
          (routeOptions.derivation cache routeOptions.resourceLimits))
        derived.limits.maxMakersPerCombination (routeOptions.minimum pair.tokenOut) pair.tokenIn
        pair.tokenOut (bigInt job.amountIn) makers → ¬ SpendsClaimed stock cache.book makers) := by
  obtain ⟨derived, provenance, hderived, hjob⟩ := quoted
  exact ⟨derived, provenance, hjob,
    quoted_claim_refused_iff reachable withholds rfl hderived hjob⟩

end ZswapKernel
