import Mathlib.Data.List.Sort
import ZswapKernel.Solver.Book
import ZswapKernel.SolverCore.BookOrder

/-!
# The book as a ladder source

`packages/solver/src/ladder-source.ts`, the frame builders of `ladder-derivation.ts` and the snapshot
with which `relay-client.ts` notices that its derivation is stale.

A snapshot keeps the rows themselves, where the source keeps their JSON. `localeCompare` is the
engine's, so the comparison is a parameter.

* `sourceSnapshotFailure_none` — what holds when a snapshot is not stale.
* `deriveLadderPush_again` — a derivation made again on such a source.
-/

namespace ZswapKernel

/-! ## Frames -/

structure SolverCapabilitiesMessage where
  tokenIds : List String
  maxParallelSwaps : Option Int
  deriving DecidableEq, Repr

structure PriceLevelsMessage where
  levels : List PriceLevelsPair
  deriving DecidableEq, Repr

/-- `parsePriceLevels(frame) !== null`. -/
def RelayWsContract.acceptsPriceLevels (message : PriceLevelsMessage) : Bool :=
  message.levels.all isPriceLevelsPair

/-- `buildPriceLevelsFrame`. -/
def buildPriceLevelsFrame (pairs : List PriceLevelsPair) : Except String PriceLevelsMessage :=
  match pairs.find? fun pair => (LadderSchema.rejectPair pair).isSome with
  | some pair =>
    .error s!"refusing to build price-levels: {pair.tokenIn}→{pair.tokenOut} is rejected"
  | none =>
    let frame : PriceLevelsMessage := ⟨pairs⟩
    if RelayWsContract.acceptsPriceLevels frame then .ok frame
    else .error "refusing to build price-levels: the relay would discard this frame"

/-- `buildSolverCapabilitiesFrame`. -/
def buildSolverCapabilitiesFrame (tokenIds : List String) (maxParallelSwaps : Option Int) :
    Except String SolverCapabilitiesMessage :=
  match tokenIds.find? fun tokenId => !hex64 tokenId with
  | some tokenId => .error s!"refusing to build solver-capabilities: {tokenId} is not a token id"
  | none => .ok ⟨tokenIds.map toLowerCase, maxParallelSwaps.filter (0 < ·)⟩

/-- The empty pair of frames. -/
def emptyCapabilities (maxParallelSwaps : Option Int) : SolverCapabilitiesMessage :=
  ⟨[], maxParallelSwaps.filter (0 < ·)⟩

/-! ## The push -/

/-- What a publication reads at one instant: the cache, the claims of jobs in flight and the clock. -/
structure LadderInput where
  book : Book
  isCurrent : Bool
  unavailableOfferHashes : List String
  nowMs : Int

/-- `RelayLadderOptions`, and the engine's comparisons. -/
structure RelayLadderOptions extends JobAdmissionPolicy where
  expiryMarginSeconds : Int
  maxParallelSwaps : Option Int := none
  resourceLimits : Option LadderResourceLimitControls := none
  comparisons : List CombinationState → Nat
  /-- `left.localeCompare(right) <= 0`. -/
  localeLE : String → String → Bool

inductive LadderWithheld
  | cacheNotCurrent
  | derivationFailed
  | snapshotStale
  | withdrawn
  deriving DecidableEq, Repr

structure LadderPush where
  capabilities : SolverCapabilitiesMessage
  priceLevels : PriceLevelsMessage
  derived : DerivedLadder
  withheld : Option LadderWithheld
  deriving DecidableEq, Repr

/-- `buildWithheldLadderPush`. -/
def buildWithheldLadderPush (withheld : LadderWithheld) (maxParallelSwaps : Option Int)
    (limits : LadderResourceLimits := hardLadderResourceLimits)
    (diagnostics : LadderDerivationDiagnostics := {}) : LadderPush where
  capabilities := emptyCapabilities maxParallelSwaps
  priceLevels := ⟨[]⟩
  derived := emptyDerived limits diagnostics
  withheld := some withheld

/-- The options of the derivation; `answers` are those of its cancellation check. -/
def RelayLadderOptions.derivation (options : RelayLadderOptions) (input : LadderInput)
    (answers : AbortCheck) : DeriveLadderOptions where
  toJobAdmissionPolicy := options.toJobAdmissionPolicy
  nowMs := input.nowMs
  expiryMarginSeconds := options.expiryMarginSeconds
  unavailableOfferHashes := input.unavailableOfferHashes
  resourceLimits := options.resourceLimits
  shouldAbort := some answers

/-- The offers of the book, as a derivation reads them. -/
def LadderInput.offers (input : LadderInput) : List LadderSourceOffer :=
  input.book.all.map (·.toLadderSourceOffer)

/-- The end of `deriveLadderPush`. -/
def RelayLadderOptions.frames (options : RelayLadderOptions) (derived : DerivedLadder) :
    Except String LadderPush := do
  let capabilities ← buildSolverCapabilitiesFrame derived.tokenIds options.maxParallelSwaps
  let priceLevels ← buildPriceLevelsFrame derived.levels
  let failed := derived.levels.isEmpty && derived.diagnostics.stopReason.isSome
  return ⟨capabilities, priceLevels, derived, if failed then some .derivationFailed else none⟩

/-- `deriveLadderPush`. -/
def deriveLadderPush (options : RelayLadderOptions) (input : LadderInput) (answers : AbortCheck) :
    Except String LadderPush :=
  if !input.isCurrent then .ok (buildWithheldLadderPush .cacheNotCurrent options.maxParallelSwaps)
  else
    match resolveLadderResourceLimits options.resourceLimits with
    | .ok limits =>
      if input.book.size > limits.maxSourceOffers then
        .ok (buildWithheldLadderPush .derivationFailed options.maxParallelSwaps limits
          { stopReason := some .sourceOfferCap })
      else do
        options.frames
          (← deriveLadder options.comparisons input.offers (options.derivation input answers))
    | .error _ => do
      options.frames (← deriveLadder options.comparisons [] (options.derivation input answers))

/-! ## The snapshot -/

/-- `LadderSourceSnapshot`. -/
structure LadderSourceSnapshot where
  signature : List LadderSourceOffer
  unavailable : List String
  validUntilMs : Option Int
  deriving DecidableEq, Repr

/-- When an offer enters the settlement expiry margin. -/
def LadderSourceOffer.deadline (offer : LadderSourceOffer) (expiryMarginSeconds : Int) :
    Option Int :=
  offer.expiresAt.map (· - expiryMarginSeconds * 1000)

/-- `captureLadderSourceSnapshot`; it throws on a book beyond `maxSourceOffers`. -/
def captureLadderSourceSnapshot (options : RelayLadderOptions) (input : LadderInput)
    (maxSourceOffers : Nat) : Except String LadderSourceSnapshot :=
  if input.book.size > maxSourceOffers then .error "source-offer-cap"
  else
    let rows := input.offers.map (·.row)
    let deadlines := input.offers.filterMap (·.deadline options.expiryMarginSeconds)
    .ok ⟨rows.mergeSort fun left right => options.localeLE left.offerHash right.offerHash,
      sortedSet (input.unavailableOfferHashes.map toLowerCase),
      (deadlines.filter (input.nowMs < ·)).min?⟩

/-- `sourceSnapshotFailure` and the exception of its capture. -/
def sourceSnapshotFailure (options : RelayLadderOptions) (input : LadderInput)
    (expected : LadderSourceSnapshot) (maxSourceOffers : Nat) : Option String :=
  if !input.isCurrent then some "book cache is no longer current"
  else
    match captureLadderSourceSnapshot options input maxSourceOffers with
    | .error message => some message
    | .ok current =>
      if current.signature ≠ expected.signature then
        some "book snapshot changed during publication"
      else if current.unavailable ≠ expected.unavailable then
        some "offer reservations changed during publication"
      else if expected.validUntilMs.any (· ≤ input.nowMs) then
        some "an offer entered the settlement expiry margin during publication"
      else none

section Snapshot

variable {options : RelayLadderOptions} {input input' : LadderInput}
variable {snapshot : LadderSourceSnapshot} {maxSourceOffers : Nat} {answers : AbortCheck}

/-- A captured deadline is the first one to come. -/
theorem captureLadderSourceSnapshot_ok
    (h : captureLadderSourceSnapshot options input maxSourceOffers = .ok snapshot) :
    input.book.size ≤ maxSourceOffers ∧
      snapshot.signature.Perm (input.offers.map (·.row)) ∧
      snapshot.unavailable = sortedSet (input.unavailableOfferHashes.map toLowerCase) ∧
      ∀ offer ∈ input.offers, ∀ deadline,
        offer.deadline options.expiryMarginSeconds = some deadline → input.nowMs < deadline →
          ∃ validUntil, snapshot.validUntilMs = some validUntil ∧ validUntil ≤ deadline := by
  unfold captureLadderSourceSnapshot at h
  split at h
  · cases h
  rename_i hsize
  cases h
  refine ⟨Nat.le_of_not_lt hsize, List.mergeSort_perm _ _, rfl, ?_⟩
  intro offer hoffer deadline hdeadline hlater
  have hmem : deadline ∈ (input.offers.filterMap (·.deadline options.expiryMarginSeconds)).filter
      (input.nowMs < ·) :=
    List.mem_filter.mpr ⟨List.mem_filterMap.mpr ⟨offer, hoffer, hdeadline⟩, decide_eq_true hlater⟩
  cases hmin : ((input.offers.filterMap (·.deadline options.expiryMarginSeconds)).filter
      (input.nowMs < ·)).min? with
  | none =>
    rw [List.min?_eq_none_iff] at hmin
    rw [hmin] at hmem
    cases hmem
  | some validUntil => exact ⟨validUntil, rfl, (List.min?_eq_some_iff.mp hmin).2 deadline hmem⟩

/-- **What a fresh snapshot says**: the same offers and claims, and no offer entered the margin. -/
theorem sourceSnapshotFailure_none
    (hsnapshot : captureLadderSourceSnapshot options input maxSourceOffers = .ok snapshot)
    (hclock : input.nowMs ≤ input'.nowMs)
    (h : sourceSnapshotFailure options input' snapshot maxSourceOffers = none) :
    input'.isCurrent = true ∧ input'.book.size ≤ maxSourceOffers ∧
      (input.offers.map (·.row)).Perm (input'.offers.map (·.row)) ∧
      (∀ hash, hash ∈ input.unavailableOfferHashes.map toLowerCase ↔
        hash ∈ input'.unavailableOfferHashes.map toLowerCase) ∧
      ∀ offer ∈ input.offers, ∀ expiresAt, offer.expiresAt = some expiresAt →
        (input.nowMs ≥ expiresAt - options.expiryMarginSeconds * 1000 ↔
          input'.nowMs ≥ expiresAt - options.expiryMarginSeconds * 1000) := by
  obtain ⟨-, hrows, hunavailable, hdeadlines⟩ := captureLadderSourceSnapshot_ok hsnapshot
  unfold sourceSnapshotFailure at h
  split at h
  · cases h
  rename_i hcurrent
  split at h
  · cases h
  rename_i current hcapture
  obtain ⟨hsize', hrows', hunavailable', -⟩ := captureLadderSourceSnapshot_ok hcapture
  split at h
  · cases h
  rename_i hsignature
  split at h
  · cases h
  rename_i hclaims
  split at h
  · cases h
  rename_i hvalid
  refine ⟨by simpa using hcurrent, hsize', ?_, fun hash => ?_, ?_⟩
  · rw [Decidable.not_not.mp hsignature] at hrows'
    exact hrows.symm.trans hrows'
  · rw [← mem_sortedSet, ← hunavailable, ← Decidable.not_not.mp hclaims, hunavailable',
      mem_sortedSet]
  · intro offer hoffer expiresAt hexpires
    refine ⟨fun hpast => le_trans hpast hclock, fun hpast => ?_⟩
    by_contra hearly
    obtain ⟨validUntil, hvalidUntil, hle⟩ := hdeadlines offer hoffer _
      (by rw [LadderSourceOffer.deadline, hexpires]; rfl) (not_le.mp hearly)
    rw [hvalidUntil] at hvalid
    exact hvalid (decide_eq_true (le_trans hle hpast))

/-- The frame carries the levels it was built from. -/
theorem buildPriceLevelsFrame_ok {pairs : List PriceLevelsPair} {message : PriceLevelsMessage}
    (h : buildPriceLevelsFrame pairs = .ok message) : message = ⟨pairs⟩ := by
  unfold buildPriceLevelsFrame at h
  split at h
  · cases h
  · simp only at h
    split at h <;> cases h
    rfl

/-- The frames are built from the levels and the tokens alone. -/
theorem frames_again {derived derived' : DerivedLadder} {push : LadderPush}
    (hsame : derived.SameLevels derived') (h : options.frames derived = .ok push) :
    push.priceLevels.levels = derived.levels ∧
      ∃ push', options.frames derived' = .ok push' ∧ push'.priceLevels = push.priceLevels := by
  unfold RelayLadderOptions.frames at h ⊢
  rw [← hsame.1, ← hsame.2]
  rw [Except.bind_eq_ok] at h
  obtain ⟨capabilities, hcapabilities, h⟩ := h
  rw [Except.bind_eq_ok] at h
  obtain ⟨priceLevels, hpriceLevels, h⟩ := h
  cases h
  rw [hcapabilities, hpriceLevels]
  exact ⟨congrArg (·.levels) (buildPriceLevelsFrame_ok hpriceLevels), _, rfl, rfl⟩

/-- **A push that publishes** was derived from a current cache within its cap. -/
theorem deriveLadderPush_published {push : LadderPush}
    (h : deriveLadderPush options input answers = .ok push) (hlevels : push.priceLevels.levels ≠ []) :
    input.isCurrent = true ∧ resolveLadderResourceLimits options.resourceLimits = .ok push.derived.limits ∧
      input.book.size ≤ push.derived.limits.maxSourceOffers ∧ push.withheld = none ∧
      deriveLadder options.comparisons input.offers (options.derivation input answers) =
        .ok push.derived ∧
      push.derived.levels ≠ [] ∧ options.frames push.derived = .ok push := by
  unfold deriveLadderPush at h
  split at h
  · cases h
    exact absurd rfl hlevels
  rename_i hcurrent
  have hframes : ∀ {offers : List LadderSourceOffer},
      (do options.frames (← deriveLadder options.comparisons offers
        (options.derivation input answers))) = Except.ok push →
      deriveLadder options.comparisons offers (options.derivation input answers) =
          .ok push.derived ∧ push.derived.levels ≠ [] ∧ push.withheld = none ∧
        options.frames push.derived = .ok push := by
    intro offers h
    rw [Except.bind_eq_ok] at h
    obtain ⟨derived, hderived, h⟩ := h
    have hpush := h
    have hsame := (frames_again ⟨rfl, rfl⟩ h).1
    rw [hsame] at hlevels
    unfold RelayLadderOptions.frames at h
    rw [Except.bind_eq_ok] at h
    obtain ⟨capabilities, -, h⟩ := h
    rw [Except.bind_eq_ok] at h
    obtain ⟨priceLevels, -, h⟩ := h
    cases h
    refine ⟨hderived, hlevels, ?_, hpush⟩
    simp [List.isEmpty_eq_false_iff.mpr hlevels]
  split at h
  · rename_i limits hlimits
    split at h
    · cases h
      exact absurd rfl hlevels
    rename_i hsize
    obtain ⟨hderived, hpublished, hwithheld, hpush⟩ := hframes h
    obtain ⟨hran, -, -⟩ := deriveLadder_ran hderived hpublished
    have hlimits' : limits = push.derived.limits :=
      Except.ok.inj (hlimits.symm.trans hran)
    rw [hlimits'] at hsize
    exact ⟨by simpa using hcurrent, hran, Nat.le_of_not_lt hsize, hwithheld, hderived, hpublished,
      hpush⟩
  · rename_i reason hlimits
    obtain ⟨hderived, hpublished, -, -⟩ := hframes h
    have hran := (deriveLadder_ran hderived hpublished).1
    rw [show (options.derivation input answers).resourceLimits = options.resourceLimits from rfl,
      hlimits] at hran
    cases hran

/-- **The push a fresh snapshot vouches for** is derived again from the source as it is now. -/
theorem deriveLadderPush_again {push : LadderPush}
    (h : deriveLadderPush options input answers = .ok push) (hlevels : push.priceLevels.levels ≠ [])
    (hsnapshot : captureLadderSourceSnapshot options input push.derived.limits.maxSourceOffers =
      .ok snapshot)
    (hclock : input.nowMs ≤ input'.nowMs)
    (hfresh : sourceSnapshotFailure options input' snapshot push.derived.limits.maxSourceOffers =
      none) :
    ∃ push', deriveLadderPush options input' answers = .ok push' ∧
      push'.priceLevels = push.priceLevels := by
  obtain ⟨-, hlimits, -, -, hderived, hpublished, hpush⟩ := deriveLadderPush_published h hlevels
  obtain ⟨hcurrent, hsize, hrows, hunavailable, htime⟩ :=
    sourceSnapshotFailure_none hsnapshot hclock hfresh
  obtain ⟨derived', hderived', hsame⟩ :=
    deriveLadder_sameBook hrows hunavailable htime hderived hpublished
  obtain ⟨-, push', hpush', heq⟩ := frames_again hsame hpush
  refine ⟨push', ?_, heq⟩
  unfold deriveLadderPush
  rw [if_neg (by simp [hcurrent])]
  simp only [hlimits]
  rw [if_neg (Nat.not_lt.mpr hsize), Except.bind_eq_ok]
  exact ⟨derived', hderived', hpush'⟩

end Snapshot

end ZswapKernel
