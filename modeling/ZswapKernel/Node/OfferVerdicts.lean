import Mathlib.Order.WithBot
import ZswapKernel.Node.OfferValidation

/-!
# Verdicts on committed states

A call of `validateOfferForUse` spans many queries and two proofs of currentness, and blocks are
committed meanwhile. Here is what its verdict says all the same.

* `NodeState.verdictAt` — the verdict on one committed state, with no interleaving to think of.
* `readBoundOfferState_ok` — a bound read has seen one committed state, whatever was tried before.
* `validateOfferForUse_ok` — so a verdict is the one on a committed state that the call has seen, and
  that the sync status has confirmed.
* `validateOfferForUse_quiet` — where nothing is committed, the call is that verdict.
* `verdictAt_valid_iff` — when the verdict on a committed state is positive.
-/

namespace ZswapKernel

open Awaiting

/-! ## The verdict on one committed state -/

/-- The height of the newest block. -/
def NodeState.version (s : NodeState) : WithBot Nat := s.latestBlock.map Prod.fst

/-- The state of an offer in one committed state. -/
def NodeState.offerState (env : NodeEnv) (ledger : Ledger)
    (decode : String → Except String (List UInt8)) (s : NodeState) (offerId : String)
    (validation : OfferValidation) (nowMs : Int) : Except ValidationFailure OfferState :=
  match s.db.getOfferByHash offerId with
  | none => .ok notIndexedState
  | some stored => do
    match ← stored.check ledger decode offerId nowMs with
    | .inl state => return state
    | .inr expiresAt => do
      let liveness ← (s.db.probeLiveness validation (nowMs - env.rootWindowMs)).mapError
        ValidationFailure.query
      return .ofLiveness expiresAt liveness

/-- The verdict on one committed state, with the proof checked as of a time. -/
def NodeState.verdictAt (env : NodeEnv) (ledger : Ledger)
    (decode : String → Except String (List UInt8)) (s : NodeState) (proofMs : Int)
    (request : OfferValidationRequest) : Except ValidationFailure ValidationVerdict := do
  let anchor ← validationStateAnchorFromRow s.latestBlock
  if request.profile ≠ offerValidationProfile then
    unsupportedProfileVerdict request.profile request.offerId anchor
  else do
    match ← structuralVerdict env ledger decode request anchor with
    | .inl verdict => return verdict
    | .inr (offerId, validation) => do
      let state ← s.offerState env ledger decode offerId validation anchor.atMs
      match ← initialVerdict request offerId validation anchor state with
      | some verdict => return verdict
      | none =>
        finalVerdict request offerId validation (verifyOfferCrypto ledger validation.tx proofMs)
          anchor state

variable {env : NodeEnv} {ledger : Ledger} {decode : String → Except String (List UInt8)}
  {world : Nat → Moment} {s : NodeState} {i j : Nat}

/-- Blocks are committed whole: the tables change only with the newest block, whose height never
decreases. -/
abbrev CommittedWorld (world : Nat → Moment) : Prop :=
  Versioned (·.state.toOption) NodeState.version world

/-- Nothing is committed, and the request is not cancelled. -/
def Quiet (s : NodeState) (world : Nat → Moment) : Prop :=
  ∀ k, (world k).state = .ok s ∧ (world k).aborted = none

/-- A moment of a world where nothing happens. -/
def NodeState.still (s : NodeState) : Moment := ⟨.ok s, fun _ => .error "", none⟩

theorem quiet_still (s : NodeState) : Quiet s fun _ => s.still := fun _ => ⟨rfl, rfl⟩

/-- A moment that shows `s` if it shows anything, next to a quiet one. -/
def Shows (s : NodeState) (now now' : Moment) : Prop :=
  (∀ t, now.state = .ok t → t = s) ∧ now'.state = .ok s ∧ now'.aborted = none

/-- A moment from `i` to `j` showed `s`, whose newest block is `anchor`. -/
structure SeenAt (world : Nat → Moment) (i j : Nat) (s : NodeState)
    (anchor : ValidationStateAnchor) : Prop where
  seen : ∃ k, i ≤ k ∧ k ≤ j ∧ (world k).state = .ok s
  anchor : validationStateAnchorFromRow s.latestBlock = .ok anchor

/-- A moment from `i` to `j` reported the backend in sync at `anchor`. -/
def SyncedAt (world : Nat → Moment) (i j : Nat) (anchor : ValidationStateAnchor) : Prop :=
  ∃ k fresh, i ≤ k ∧ k ≤ j ∧ (world k).sync fresh = .ok ⟨.ok, some anchor.version⟩

theorem SeenAt.widen {i' j' : Nat} {anchor : ValidationStateAnchor} (h : SeenAt world i j s anchor)
    (hi : i' ≤ i) (hj : j ≤ j') : SeenAt world i' j' s anchor := by
  obtain ⟨⟨k, hik, hkj, hk⟩, hanchor⟩ := h
  exact ⟨⟨k, hi.trans hik, hkj.trans hj, hk⟩, hanchor⟩

theorem SyncedAt.widen {i' j' : Nat} {anchor : ValidationStateAnchor}
    (h : SyncedAt world i j anchor) (hi : i' ≤ i) (hj : j ≤ j') : SyncedAt world i' j' anchor := by
  obtain ⟨k, fresh, hik, hkj, hk⟩ := h
  exact ⟨k, fresh, hi.trans hik, hkj.trans hj, hk⟩

/-- The anchor of a state is its newest block. -/
theorem validationStateAnchorFromRow_eq_ok {row : Option (Nat × Int)}
    {anchor : ValidationStateAnchor} (h : validationStateAnchorFromRow row = .ok anchor) :
    row = some (anchor.version, anchor.atMs) := by
  cases row with
  | none => simp [validationStateAnchorFromRow] at h
  | some block =>
    obtain ⟨blockHeight, msTimestamp⟩ := block
    simp only [validationStateAnchorFromRow] at h
    split_ifs at h
    cases h
    rfl

theorem SeenAt.version {anchor : ValidationStateAnchor} (h : SeenAt world i j s anchor) :
    s.version = (anchor.version : WithBot Nat) := by
  unfold NodeState.version
  rw [validationStateAnchorFromRow_eq_ok h.anchor]
  rfl

/-! ## The steps -/

theorem run_checkSignal_eq_ok {u : Unit} :
    checkSignal.run world i = (.ok u, j) ↔ (world i).aborted = none ∧ j = i := by
  unfold checkSignal
  rw [run_bind, run_moment]
  cases haborted : (world i).aborted with
  | none =>
    simp only [haborted, run_pure]
    simp [eq_comm]
  | some reason =>
    simp only [haborted, run_fail]
    simp

theorem Moment.answer_eq_ok {α : Type} {statement : NodeState → Except String α} {now : Moment}
    {a : α} : now.answer statement = .ok a ↔ ∃ t, now.state = .ok t ∧ statement t = .ok a := by
  unfold Moment.answer
  cases now.state with
  | error e => simp
  | ok t => cases hstatement : statement t <;> simp [Except.mapError, hstatement]

theorem simulated_checkSignal : Simulated (Shows s) checkSignal checkSignal := by
  intro world i u j h
  obtain ⟨-, rfl⟩ := run_checkSignal_eq_ok.mp h
  exact ⟨le_refl j, fun world' hworld =>
    run_checkSignal_eq_ok.mpr ⟨(hworld j (le_refl j) (le_refl j)).2.2, rfl⟩⟩

theorem simulated_runQuery {α : Type} (statement : NodeState → Except String α) :
    Simulated (Shows s) (runQuery statement) (runQuery statement) := by
  refine Simulated.await fun now now' a hshows h => ?_
  obtain ⟨t, ht, ha⟩ := Moment.answer_eq_ok.mp h
  exact Moment.answer_eq_ok.mpr ⟨s, hshows.2.1, hshows.1 t ht ▸ ha⟩

theorem simulated_probeDescriptors (rootCutoffMs : Int)
    (descriptors : List OfferLivenessDescriptor) :
    Simulated (Shows s) (probeDescriptors rootCutoffMs descriptors)
      (probeDescriptors rootCutoffMs descriptors) := by
  induction descriptors with
  | nil => exact Simulated.pure _
  | cons descriptor rest ih =>
    unfold probeDescriptors
    refine Simulated.bind (simulated_runQuery _) fun live => ?_
    exact Simulated.ite (fun _ => ih) fun _ => Simulated.pure _

theorem simulated_readOfferState (offerId : String) (validation : OfferValidation) (nowMs : Int) :
    Simulated (Shows s) (readOfferState env ledger decode offerId validation nowMs)
      (readOfferState env ledger decode offerId validation nowMs) := by
  unfold readOfferState
  refine Simulated.bind (simulated_runQuery _) fun row => ?_
  refine Simulated.bind simulated_checkSignal fun _ => ?_
  cases row with
  | none => exact Simulated.pure _
  | some stored =>
    refine Simulated.bind (Simulated.settle _) fun checked => ?_
    cases checked with
    | inl state => exact Simulated.pure _
    | inr expiresAt =>
      refine Simulated.bind (simulated_probeDescriptors _ _) fun liveness => ?_
      exact Simulated.bind simulated_checkSignal fun _ => Simulated.pure _

/-- An anchor is that of the state that its query saw. -/
theorem run_readStateAnchor_ok {anchor : ValidationStateAnchor}
    (h : readStateAnchor.run world i = (.ok anchor, j)) : j = i + 1 ∧ ∃ s,
      (world i).state = .ok s ∧ validationStateAnchorFromRow s.latestBlock = .ok anchor := by
  unfold readStateAnchor at h
  obtain ⟨_, i₁, hfirst, hreads⟩ := run_bind_eq_ok.mp h
  obtain ⟨-, rfl⟩ := run_checkSignal_eq_ok.mp hfirst
  obtain ⟨row, i₂, hquery, hchecks⟩ := run_bind_eq_ok.mp hreads
  obtain ⟨hanswer, rfl⟩ := Prod.mk.inj hquery
  obtain ⟨_, i₃, hsecond, hreturns⟩ := run_bind_eq_ok.mp hchecks
  obtain ⟨-, rfl⟩ := run_checkSignal_eq_ok.mp hsecond
  obtain ⟨hanchor, rfl⟩ := Prod.mk.inj hreturns
  obtain ⟨s, hs, hrow⟩ := Moment.answer_eq_ok.mp hanswer
  cases hrow
  exact ⟨rfl, s, hs, hanchor⟩

/-! ## A quiet world -/

theorem run_checkSignal_quiet (h : Quiet s world) : checkSignal.run world i = (.ok (), i) :=
  run_checkSignal_eq_ok.mpr ⟨(h i).2, rfl⟩

theorem run_runQuery_quiet {α : Type} (h : Quiet s world) (statement : NodeState → Except String α) :
    (runQuery statement).run world i = ((statement s).mapError .query, i + 1) := by
  unfold runQuery
  rw [run_await, Moment.answer, (h i).1]

/-- The probes of a quiet world are one probe. -/
theorem run_probeDescriptors_quiet (h : Quiet s world) (rootCutoffMs : Int)
    (descriptors : List OfferLivenessDescriptor) : ∃ j,
    (probeDescriptors rootCutoffMs descriptors).run world i = (Except.mapError .query (do
      let dead ← descriptors.findM? fun descriptor => do
        descriptor.parameters
        return !s.db.isLive rootCutoffMs descriptor
      return match dead with
        | none => .ok ()
        | some descriptor => .error (offerLivenessFailure descriptor)), j) := by
  induction descriptors generalizing i with
  | nil => exact ⟨i, rfl⟩
  | cons descriptor rest ih =>
    unfold probeDescriptors List.findM?
    rw [run_bind, run_runQuery_quiet h]
    cases descriptor.parameters with
    | error e => exact ⟨i + 1, rfl⟩
    | ok u =>
      cases hlive : s.db.isLive rootCutoffMs descriptor with
      | false =>
        refine ⟨i + 1, ?_⟩
        simp only [Except.mapError, bind, Except.bind, pure, Except.pure, Bool.not_false]
        rfl
      | true =>
        obtain ⟨j, hrun⟩ := ih (i := i + 1)
        refine ⟨j, ?_⟩
        simp only [Except.mapError, bind, Except.bind, pure, Except.pure, Bool.not_true]
        exact hrun

theorem run_readOfferState_quiet (h : Quiet s world) (offerId : String)
    (validation : OfferValidation) (nowMs : Int) : ∃ j,
    (readOfferState env ledger decode offerId validation nowMs).run world i =
      (s.offerState env ledger decode offerId validation nowMs, j) := by
  unfold readOfferState NodeState.offerState
  rw [run_bind, run_runQuery_quiet h]
  simp only [Except.mapError]
  rw [run_bind, run_checkSignal_quiet h]
  cases s.db.getOfferByHash offerId with
  | none => exact ⟨_, rfl⟩
  | some stored =>
    simp only [run_bind, run_settle]
    cases stored.check ledger decode offerId nowMs with
    | error failure => exact ⟨_, rfl⟩
    | ok checked =>
      cases checked with
      | inl state => exact ⟨_, rfl⟩
      | inr expiresAt =>
        obtain ⟨j, hprobe⟩ := run_probeDescriptors_quiet (i := i + 1) h (nowMs - env.rootWindowMs)
          (orderedOfferLivenessDescriptors validation)
        refine ⟨j, ?_⟩
        simp only [run_bind]
        rw [hprobe]
        unfold Db.probeLiveness
        cases (orderedOfferLivenessDescriptors validation).findM? (m := Except String) _ with
        | error e => rfl
        | ok dead =>
          simp only [Except.mapError, bind, Except.bind, pure, Except.pure]
          rw [run_checkSignal_quiet h]
          rfl

/-! ## Bound reads -/

/-- **A bound read has seen one committed state.** Whatever is committed during the attempts, the
state that is returned is that of one committed state, whose newest block is the anchor. -/
theorem readBoundOfferState_ok (hworld : CommittedWorld world) {offerId : String}
    {validation : OfferValidation} {attempts : Nat} {anchor : ValidationStateAnchor}
    {state : OfferState}
    (h : (readBoundOfferState env ledger decode offerId validation attempts).run world i =
      (.ok (anchor, state), j)) :
    i ≤ j ∧ ∃ s, SeenAt world i j s anchor ∧
      s.offerState env ledger decode offerId validation anchor.atMs = .ok state := by
  induction attempts generalizing i with
  | zero => cases (Prod.mk.inj h).1
  | succ attempts ih =>
    unfold readBoundOfferState at h
    obtain ⟨before, i₁, hbefore, hreads⟩ := run_bind_eq_ok.mp h
    obtain ⟨rfl, s, hs, hanchor⟩ := run_readStateAnchor_ok hbefore
    obtain ⟨read, i₂, hread, hcloses⟩ := run_bind_eq_ok.mp hreads
    obtain ⟨after, i₃, hafter, hends⟩ := run_bind_eq_ok.mp hcloses
    obtain ⟨rfl, t, ht, hanchor'⟩ := run_readStateAnchor_ok hafter
    obtain ⟨hi₂, hreplay⟩ := simulated_readOfferState (s := s) _ _ _ world _ read i₂ hread
    by_cases hsame : before = after
    · rw [if_pos hsame, run_pure] at hends
      obtain ⟨hresult, rfl⟩ := Prod.mk.inj hends
      obtain ⟨rfl, rfl⟩ := Prod.mk.inj (Except.ok.inj hresult)
      -- Both anchors are of one version, so every query between them saw `s`.
      have hversion : s.version = t.version := by
        rw [SeenAt.version ⟨⟨i, le_refl i, le_refl i, hs⟩, hsame ▸ hanchor⟩,
          SeenAt.version ⟨⟨i₂, le_refl i₂, le_refl i₂, ht⟩, hanchor'⟩]
      have hshown : ∀ k, i + 1 ≤ k → k ≤ i₂ → Shows s (world k) s.still := by
        refine fun k hik hki => ⟨fun u hu => ?_, rfl, rfl⟩
        exact hworld.between (by omega : i ≤ k) hki (by rw [hs]; rfl) (by rw [hu]; rfl)
          (by rw [ht]; rfl) hversion
      have hquiet := hreplay (fun _ => s.still) hshown
      obtain ⟨k, hspec⟩ := run_readOfferState_quiet (i := i + 1) (quiet_still s) offerId validation
        before.atMs
      rw [hspec] at hquiet
      refine ⟨by omega, s, ⟨⟨i, le_refl i, by omega, hs⟩, hsame ▸ hanchor⟩, ?_⟩
      rw [← hsame]
      exact (Prod.mk.inj hquiet).1
    · rw [if_neg hsame] at hends
      obtain ⟨hle, u, hu, hstate⟩ := ih hends
      exact ⟨by omega, u, hu.widen (by omega) (le_refl j), hstate⟩

/-- A current anchor is the newest block of a state that was seen, and the sync status is about it. -/
theorem run_currentAnchor_ok {fresh : Bool} {found : Option ValidationStateAnchor}
    (h : (currentAnchor fresh).run world i = (.ok found, j)) :
    i ≤ j ∧ ∀ anchor, found = some anchor →
      (∃ s, SeenAt world i j s anchor) ∧ SyncedAt world i j anchor := by
  unfold currentAnchor at h
  obtain ⟨_, i₁, hfirst, hasks⟩ := run_bind_eq_ok.mp h
  obtain ⟨-, rfl⟩ := run_checkSignal_eq_ok.mp hfirst
  obtain ⟨sync, i₂, hsync, hanswers⟩ := run_bind_eq_ok.mp hasks
  obtain ⟨hstatus, rfl⟩ := Prod.mk.inj hsync
  obtain ⟨_, i₃, hsecond, hreads⟩ := run_bind_eq_ok.mp hanswers
  obtain ⟨-, rfl⟩ := run_checkSignal_eq_ok.mp hsecond
  obtain ⟨status, blockL2⟩ := sync
  cases status with
  | syncing => cases (Prod.mk.inj hreads).1
  | error => cases (Prod.mk.inj hreads).1
  | ok =>
    cases blockL2 with
    | none => cases (Prod.mk.inj hreads).1
    | some height =>
      obtain ⟨anchor, i₄, hanchor, hends⟩ := run_bind_eq_ok.mp hreads
      obtain ⟨rfl, s, hs, hrow⟩ := run_readStateAnchor_ok hanchor
      obtain ⟨hfound, rfl⟩ := Prod.mk.inj hends
      refine ⟨by omega, fun kept hkept => ?_⟩
      rw [hkept] at hfound
      split_ifs at hfound with hheight
      · obtain rfl := Option.some.inj (Except.ok.inj hfound)
        refine ⟨⟨s, ⟨_, by omega, by omega, hs⟩, hrow⟩, i₁, fresh, le_refl i₁, by omega, ?_⟩
        cases hasked : (world i₁).sync fresh with
        | error e =>
          simp only [hasked] at hstatus
          cases hstatus
        | ok answered =>
          simp only [hasked] at hstatus
          rw [Except.ok.inj hstatus, hheight.2]
      · cases Except.ok.inj hfound

theorem run_requireCurrentBackend_ok {freshFirst : Bool} {anchor : ValidationStateAnchor}
    (h : (requireCurrentBackend freshFirst).run world i = (.ok anchor, j)) :
    i ≤ j ∧ (∃ s, SeenAt world i j s anchor) ∧ SyncedAt world i j anchor := by
  unfold requireCurrentBackend at h
  obtain ⟨first, i₁, hfirst, hrest⟩ := run_bind_eq_ok.mp h
  obtain ⟨hi₁, hseen⟩ := run_currentAnchor_ok hfirst
  cases first with
  | some found =>
    obtain ⟨hfound, rfl⟩ := Prod.mk.inj hrest
    rw [← Except.ok.inj hfound]
    exact ⟨hi₁, hseen found rfl⟩
  | none =>
    obtain ⟨second, i₂, hsecond, hends⟩ := run_bind_eq_ok.mp hrest
    obtain ⟨hi₂, hseen'⟩ := run_currentAnchor_ok hsecond
    cases second with
    | none => cases (Prod.mk.inj hends).1
    | some found =>
      obtain ⟨hfound, rfl⟩ := Prod.mk.inj hends
      rw [← Except.ok.inj hfound]
      obtain ⟨⟨s, hs⟩, hsync⟩ := hseen' found rfl
      exact ⟨hi₁.trans hi₂, ⟨s, hs.widen hi₁ (le_refl _)⟩, hsync.widen hi₁ (le_refl _)⟩

/-! ## The verdict of a call -/

theorem inl_map_ne_inr {α β : Type} (result : Except ValidationFailure α) (b : β) :
    (Sum.inl <$> result : Except ValidationFailure (α ⊕ β)) ≠ .ok (.inr b) := by
  cases result <;> simp [Functor.map, Except.map]

theorem some_map_ne_none {α : Type} (result : Except ValidationFailure α) :
    (some <$> result : Except ValidationFailure (Option α)) ≠ .ok none := by
  cases result <;> simp [Functor.map, Except.map]

/-- The bytes go on if they validate and have the identity of the request. -/
theorem structuralVerdict_eq_inr {request : OfferValidationRequest} {anchor : ValidationStateAnchor}
    {offerId : String} {validation : OfferValidation} :
    structuralVerdict env ledger decode request anchor = .ok (.inr (offerId, validation)) ↔
      validateZswapOffer ledger decode env.offerMaxBytes request.offer = .ok validation ∧
      offerHashFromBlob ledger decode request.offer = .ok request.offerId ∧
      offerId = request.offerId := by
  simp only [structuralVerdict]
  cases hstructural : validateZswapOffer ledger decode env.offerMaxBytes request.offer with
  | error rejection =>
    simp only [reduceCtorEq, false_and, iff_false]
    by_cases hmismatch : (computedOfferId ledger decode request.offer (.error rejection)).any
        (· ≠ request.offerId) = true
    · rw [if_pos hmismatch]
      exact inl_map_ne_inr _ _
    · rw [if_neg hmismatch]
      cases canonicalValidatorCode rejection.error with
      | error e => simp [bind, Except.bind]
      | ok code => exact inl_map_ne_inr _ _
  | ok result =>
    cases hhash : offerHashFromBlob ledger decode request.offer with
    | error e => simp [computedOfferId, hhash, Except.toOption]
    | ok hash =>
      by_cases hsame : hash = request.offerId
      · simp [computedOfferId, hhash, Except.toOption, hsame, eq_comm, and_comm]
      · simp [computedOfferId, hhash, Except.toOption, hsame, inl_map_ne_inr]

/-- A row is looked at further if it is the offer's, live, and not expired. -/
theorem check_eq_inr {stored : StoredOffer} {offerId : String} {nowMs expiresAt : Int} :
    stored.check ledger decode offerId nowMs = .ok (.inr expiresAt) ↔
      offerHashFromBlob ledger decode stored.offer.transactionHex = .ok offerId ∧
      stored.offer.offerHash = offerId ∧ stored.status = .live ∧
      stored.offer.metadataExpiresAt = expiresAt ∧ 0 ≤ expiresAt ∧ expiresAt ≤ maxDateMs ∧
      nowMs < expiresAt := by
  constructor
  · intro h
    unfold StoredOffer.check at h
    cases hhash : offerHashFromBlob ledger decode stored.offer.transactionHex with
    | error e => simp [hhash] at h
    | ok storedOfferId =>
      simp only [hhash] at h
      by_cases hbound : stored.offer.offerHash ≠ offerId ∨ storedOfferId ≠ offerId
      · simp [hbound] at h
      · rw [if_neg hbound] at h
        obtain ⟨hrow, hbytes⟩ := not_or.mp hbound
        by_cases hlive : normalizeStoredStatus stored.status ≠ .live
        · rw [if_pos hlive] at h
          cases Except.ok.inj h
        · rw [if_neg hlive] at h
          have hstatus : stored.status = .live := by
            cases hstored : stored.status <;> simp [hstored, normalizeStoredStatus] at hlive
            rfl
          unfold parseExpiry at h
          by_cases hrange : 0 ≤ stored.offer.metadataExpiresAt ∧
              stored.offer.metadataExpiresAt ≤ maxDateMs
          · simp only [if_pos hrange] at h
            split_ifs at h with hexpired
            · cases Except.ok.inj h
            · obtain rfl := Sum.inr.inj (Except.ok.inj h)
              exact ⟨by rw [not_not.mp hbytes], not_not.mp hrow, hstatus, rfl, hrange.1, hrange.2,
                by omega⟩
          · simp [hrange] at h
  · rintro ⟨hhash, hrow, hstatus, rfl, hlow, hhigh, hlater⟩
    simp [StoredOffer.check, hhash, hrow, hstatus, normalizeStoredStatus, parseExpiry, hlow, hhigh,
      hlater]

theorem check_inl_failure {stored : StoredOffer} {offerId : String} {nowMs : Int}
    {state : OfferState} (h : stored.check ledger decode offerId nowMs = .ok (.inl state)) :
    ∃ failure, state.failure = some failure := by
  unfold StoredOffer.check at h
  cases hhash : offerHashFromBlob ledger decode stored.offer.transactionHex with
  | error e => simp [hhash] at h
  | ok storedOfferId =>
    simp only [hhash] at h
    by_cases hbound : stored.offer.offerHash ≠ offerId ∨ storedOfferId ≠ offerId
    · simp [hbound] at h
    · rw [if_neg hbound] at h
      by_cases hlive : normalizeStoredStatus stored.status ≠ .live
      · rw [if_pos hlive] at h
        rw [← Sum.inl.inj (Except.ok.inj h)]
        exact ⟨_, rfl⟩
      · rw [if_neg hlive] at h
        cases hexpiry : parseExpiry stored.offer.metadataExpiresAt with
        | none => simp [hexpiry] at h
        | some expiresAt =>
          simp only [hexpiry] at h
          split_ifs at h with hexpired
          · rw [← Sum.inl.inj (Except.ok.inj h)]
            exact ⟨_, rfl⟩
          · cases Except.ok.inj h

/-- The state of an offer has no failure where its row is live and its inputs are. -/
theorem offerState_live {offerId : String} {validation : OfferValidation} {nowMs : Int}
    {state : OfferState}
    (h : s.offerState env ledger decode offerId validation nowMs = .ok state)
    (hlive : state.failure = none) : ∃ stored expiresAt,
      s.db.getOfferByHash offerId = some stored ∧
      stored.check ledger decode offerId nowMs = .ok (.inr expiresAt) ∧
      s.db.probeLiveness validation (nowMs - env.rootWindowMs) = .ok (.ok ()) ∧
      state = ⟨.live, true, some expiresAt, none⟩ := by
  unfold NodeState.offerState at h
  cases hstored : s.db.getOfferByHash offerId with
  | none =>
    simp only [hstored] at h
    rw [← Except.ok.inj h] at hlive
    cases hlive
  | some stored =>
    simp only [hstored] at h
    obtain ⟨checked, hcheck, hrest⟩ := Except.bind_eq_ok.mp h
    cases checked with
    | inl early =>
      obtain ⟨failure, hfailure⟩ := check_inl_failure hcheck
      rw [← Except.ok.inj hrest, hfailure] at hlive
      cases hlive
    | inr expiresAt =>
      obtain ⟨liveness, hprobe, hends⟩ := Except.bind_eq_ok.mp hrest
      obtain rfl := Except.ok.inj hends
      cases hprobed : s.db.probeLiveness validation (nowMs - env.rootWindowMs) with
      | error e =>
        rw [hprobed] at hprobe
        cases hprobe
      | ok probed =>
        rw [hprobed] at hprobe
        obtain rfl := Except.ok.inj hprobe
        cases probed with
        | error rejection => cases hlive
        | ok u => exact ⟨stored, expiresAt, rfl, hcheck, rfl, rfl⟩

theorem initialVerdict_failure {request : OfferValidationRequest} {offerId : String}
    {validation : OfferValidation} {anchor : ValidationStateAnchor} {state : OfferState}
    {failure : StateFailure} (hfailure : state.failure = some failure) :
    initialVerdict request offerId validation anchor state =
      some <$> stateVerdict request offerId anchor state failure := by
  unfold initialVerdict
  rw [hfailure]

theorem finalVerdict_failure {request : OfferValidationRequest} {offerId : String}
    {validation : OfferValidation} {crypto : Except OfferRejection Unit}
    {anchor : ValidationStateAnchor} {state : OfferState} {failure : StateFailure}
    (hfailure : state.failure = some failure) :
    finalVerdict request offerId validation crypto anchor state =
      stateVerdict request offerId anchor state failure := by
  unfold finalVerdict
  rw [hfailure]

/-- The second read and the proof decide as one look at the state that they saw does. -/
theorem initialVerdict_of_finalVerdict {request : OfferValidationRequest} {offerId : String}
    {validation : OfferValidation} {anchor anchor₀ : ValidationStateAnchor}
    {state state₀ : OfferState} {crypto : Except OfferRejection Unit}
    {verdict : ValidationVerdict}
    (hfirst : initialVerdict request offerId validation anchor₀ state₀ = .ok none)
    (hexpires : state.failure = none → ∃ expiresAt, state.expiresAt = some expiresAt)
    (hfinal : finalVerdict request offerId validation crypto anchor state = .ok verdict) :
    (do
      match ← initialVerdict request offerId validation anchor state with
      | some verdict => return verdict
      | none => finalVerdict request offerId validation crypto anchor state) = .ok verdict := by
  cases hfailure : state.failure with
  | some failure =>
    rw [finalVerdict_failure hfailure] at hfinal
    rw [initialVerdict_failure hfailure, hfinal]
    rfl
  | none =>
    obtain ⟨expiresAt, hexpiry⟩ := hexpires hfailure
    -- The first read has found the shape supported, and the shape is that of the bytes.
    have hsupported : isSupportedOfferValidationSemantics (validation.semantics expiresAt) = true := by
      cases hfailure₀ : state₀.failure with
      | some failure => exact absurd (initialVerdict_failure hfailure₀ ▸ hfirst) (some_map_ne_none _)
      | none =>
        unfold initialVerdict at hfirst
        cases hexpiry₀ : state₀.expiresAt with
        | none => simp [hfailure₀, hexpiry₀] at hfirst
        | some expiresAt₀ =>
          simp only [hfailure₀, hexpiry₀] at hfirst
          by_contra hshape
          have hshape₀ : isSupportedOfferValidationSemantics (validation.semantics expiresAt₀) =
            false := Bool.eq_false_iff.mpr hshape
          rw [hshape₀] at hfirst
          exact some_map_ne_none _ hfirst
    have hinitial : initialVerdict request offerId validation anchor state = .ok none := by
      simp [initialVerdict, hfailure, hexpiry, hsupported]
    rw [hinitial]
    exact hfinal

/-- What the reads after the proof return. -/
structure CurrentRead (env : NodeEnv) (ledger : Ledger) (decode : String → Except String (List UInt8))
    (world : Nat → Moment) (i j : Nat) (offerId : String) (validation : OfferValidation)
    (anchor : ValidationStateAnchor) (state : OfferState) : Prop where
  synced : SyncedAt world i j anchor
  read : ∃ s, SeenAt world i j s anchor ∧
    s.offerState env ledger decode offerId validation anchor.atMs = .ok state

theorem CurrentRead.widen {i' j' : Nat} {offerId : String} {validation : OfferValidation}
    {anchor : ValidationStateAnchor} {state : OfferState}
    (h : CurrentRead env ledger decode world i j offerId validation anchor state) (hi : i' ≤ i)
    (hj : j ≤ j') : CurrentRead env ledger decode world i' j' offerId validation anchor state := by
  obtain ⟨hsynced, s, hs, hstate⟩ := h
  exact ⟨hsynced.widen hi hj, s, hs.widen hi hj, hstate⟩

theorem run_currentOfferState_ok (hworld : CommittedWorld world) {offerId : String}
    {validation : OfferValidation} {found : Option (ValidationStateAnchor × OfferState)}
    (h : (currentOfferState env ledger decode offerId validation).run world i = (.ok found, j)) :
    i ≤ j ∧ ∀ anchor state, found = some (anchor, state) →
      CurrentRead env ledger decode world i j offerId validation anchor state := by
  unfold currentOfferState at h
  obtain ⟨current, i₁, hcurrent, hreads⟩ := run_bind_eq_ok.mp h
  obtain ⟨hi₁, -, hsync⟩ := run_requireCurrentBackend_ok hcurrent
  obtain ⟨candidate, i₂, hcandidate, hends⟩ := run_bind_eq_ok.mp hreads
  obtain ⟨hi₂, s, hs, hstate⟩ := readBoundOfferState_ok hworld hcandidate
  obtain ⟨hfound, rfl⟩ := Prod.mk.inj hends
  refine ⟨hi₁.trans hi₂, fun anchor state hkept => ?_⟩
  rw [hkept] at hfound
  split_ifs at hfound with hbound
  · obtain rfl := Option.some.inj (Except.ok.inj hfound)
    exact ⟨(show anchor = current from hbound) ▸ hsync.widen (le_refl i) hi₂, s,
      hs.widen hi₁ (le_refl _), hstate⟩
  · cases Except.ok.inj hfound

theorem run_readFinalState_ok (hworld : CommittedWorld world) {offerId : String}
    {validation : OfferValidation} {anchor : ValidationStateAnchor} {state : OfferState}
    (h : (readFinalState env ledger decode offerId validation).run world i =
      (.ok (anchor, state), j)) :
    i ≤ j ∧ CurrentRead env ledger decode world i j offerId validation anchor state := by
  unfold readFinalState at h
  obtain ⟨first, i₁, hfirst, hrest⟩ := run_bind_eq_ok.mp h
  obtain ⟨hi₁, hread⟩ := run_currentOfferState_ok hworld hfirst
  cases first with
  | some found =>
    obtain ⟨hfound, rfl⟩ := Prod.mk.inj hrest
    exact ⟨hi₁, hread anchor state (congrArg some (Except.ok.inj hfound))⟩
  | none =>
    obtain ⟨second, i₂, hsecond, hends⟩ := run_bind_eq_ok.mp hrest
    obtain ⟨hi₂, hread'⟩ := run_currentOfferState_ok hworld hsecond
    cases second with
    | none => cases (Prod.mk.inj hends).1
    | some found =>
      obtain ⟨hfound, rfl⟩ := Prod.mk.inj hends
      exact ⟨hi₁.trans hi₂, (hread' anchor state (congrArg some (Except.ok.inj hfound))).widen hi₁
        (le_refl _)⟩

/-- **A verdict is the one on a committed state.** Whatever is committed while a call of
`validateOfferForUse` runs, the verdict that it returns is the verdict on one committed state: one that
the call has seen, and at whose newest block the backend was reported in sync. The proof is checked as
of the newest block of a state seen no later. -/
theorem validateOfferForUse_ok (hworld : CommittedWorld world) {request : OfferValidationRequest}
    {verdict : ValidationVerdict}
    (hrun : (validateOfferForUse env ledger decode request).run world i = (.ok verdict, j)) :
    ∃ s anchor proof proofAnchor, SeenAt world i j s anchor ∧ SyncedAt world i j anchor ∧
      SeenAt world i j proof proofAnchor ∧ proof.version ≤ s.version ∧
      s.verdictAt env ledger decode proofAnchor.atMs request = .ok verdict := by
  unfold validateOfferForUse at hrun
  obtain ⟨initialAnchor, i₁, hinitial, hrest⟩ := run_bind_eq_ok.mp hrun
  obtain ⟨hi₁, ⟨s, hs⟩, hsync⟩ := run_requireCurrentBackend_ok hinitial
  by_cases hprofile : request.profile ≠ offerValidationProfile
  · rw [if_pos hprofile, run_settle] at hrest
    obtain ⟨hverdict, rfl⟩ := Prod.mk.inj hrest
    refine ⟨s, initialAnchor, s, initialAnchor, hs, hsync, hs, le_refl _, ?_⟩
    simp only [NodeState.verdictAt, hs.anchor, bind, Except.bind, if_pos hprofile, hverdict]
  · rw [if_neg hprofile] at hrest
    obtain ⟨_, i₂, hsignal, hstructural⟩ := run_bind_eq_ok.mp hrest
    obtain ⟨-, rfl⟩ := run_checkSignal_eq_ok.mp hsignal
    obtain ⟨structural, i₃, hsettled, hstates⟩ := run_bind_eq_ok.mp hstructural
    obtain ⟨hbytes, rfl⟩ := Prod.mk.inj hsettled
    cases structural with
    | inl early =>
      obtain ⟨hverdict, rfl⟩ := Prod.mk.inj hstates
      refine ⟨s, initialAnchor, s, initialAnchor, hs, hsync, hs, le_refl _, ?_⟩
      simp only [NodeState.verdictAt, hs.anchor, bind, Except.bind, if_neg hprofile, hbytes]
      exact hverdict
    | inr decoded =>
      obtain ⟨offerId, validation⟩ := decoded
      obtain ⟨⟨anchor₀, state₀⟩, i₄, hbound, hchecks⟩ := run_bind_eq_ok.mp hstates
      obtain ⟨hi₄, s₀, hs₀, hstate₀⟩ := readBoundOfferState_ok hworld hbound
      dsimp only at hchecks
      by_cases hanchor : anchor₀ ≠ initialAnchor
      · rw [if_pos hanchor] at hchecks
        cases (Prod.mk.inj hchecks).1
      · rw [if_neg hanchor] at hchecks
        obtain rfl := not_not.mp hanchor
        obtain ⟨early, i₅, hearly, hproof⟩ := run_bind_eq_ok.mp hchecks
        obtain ⟨hfirst, rfl⟩ := Prod.mk.inj hearly
        cases early with
        | some decided =>
          obtain ⟨hverdict, rfl⟩ := Prod.mk.inj hproof
          refine ⟨s₀, anchor₀, s₀, anchor₀, hs₀.widen hi₁ (le_refl _),
            hsync.widen (le_refl i) hi₄, hs₀.widen hi₁ (le_refl _), le_refl _, ?_⟩
          simp only [NodeState.verdictAt, hs₀.anchor, bind, Except.bind, if_neg hprofile, hbytes,
            hstate₀, hfirst]
          exact hverdict
        | none =>
          obtain ⟨_, i₆, hsignal', hverified⟩ := run_bind_eq_ok.mp hproof
          obtain ⟨-, rfl⟩ := run_checkSignal_eq_ok.mp hsignal'
          obtain ⟨_, i₇, hsignal'', hfinals⟩ := run_bind_eq_ok.mp hverified
          obtain ⟨-, rfl⟩ := run_checkSignal_eq_ok.mp hsignal''
          obtain ⟨⟨anchor, state⟩, i₈, hread, hends⟩ := run_bind_eq_ok.mp hfinals
          obtain ⟨hi₈, hsync', t, ht, hstate⟩ := run_readFinalState_ok hworld hread
          obtain ⟨hfinal, rfl⟩ := Prod.mk.inj hends
          have hbefore : s₀.version ≤ t.version := by
            obtain ⟨⟨k, -, hk, hsk⟩, -⟩ := hs₀
            obtain ⟨⟨l, hl, -, htl⟩, -⟩ := ht
            exact hworld.ordered (hk.trans hl) (by rw [hsk]; rfl) (by rw [htl]; rfl)
          refine ⟨t, anchor, s₀, anchor₀, ht.widen (hi₁.trans hi₄) (le_refl _),
            hsync'.widen (hi₁.trans hi₄) (le_refl _), hs₀.widen hi₁ hi₈, hbefore, ?_⟩
          have hbytes' : structuralVerdict env ledger decode request anchor =
              .ok (.inr (offerId, validation)) :=
            structuralVerdict_eq_inr.mpr (structuralVerdict_eq_inr.mp hbytes)
          simp only [NodeState.verdictAt, ht.anchor, bind, Except.bind, if_neg hprofile, hbytes',
            hstate]
          refine initialVerdict_of_finalVerdict hfirst (fun hlive => ?_) hfinal
          obtain ⟨-, expiresAt, -, -, -, rfl⟩ := offerState_live hstate hlive
          exact ⟨expiresAt, rfl⟩

/-! ## A positive verdict -/

/-- The facts of a positive verdict. -/
structure NodeState.Usable (env : NodeEnv) (ledger : Ledger)
    (decode : String → Except String (List UInt8)) (s : NodeState) (proofMs : Int)
    (request : OfferValidationRequest) (anchor : ValidationStateAnchor)
    (validation : OfferValidation) (expiresAt : Int) : Prop where
  profile : request.profile = offerValidationProfile
  anchored : validationStateAnchorFromRow s.latestBlock = .ok anchor
  decodes : validateZswapOffer ledger decode env.offerMaxBytes request.offer = .ok validation
  named : offerHashFromBlob ledger decode request.offer = .ok request.offerId
  indexed : ∃ stored, s.db.getOfferByHash request.offerId = some stored ∧
    stored.status = .live ∧ stored.offer.offerHash = request.offerId ∧
    offerHashFromBlob ledger decode stored.offer.transactionHex = .ok request.offerId ∧
    stored.offer.metadataExpiresAt = expiresAt
  unexpired : anchor.atMs < expiresAt ∧ expiresAt ≤ maxDateMs
  spendable : s.db.probeLiveness validation (anchor.atMs - env.rootWindowMs) = .ok (.ok ())
  proven : verifyOfferCrypto ledger validation.tx proofMs = .ok ()
  supported : isSupportedOfferValidationSemantics (validation.semantics expiresAt) = true

/-- The positive verdict. -/
def validVerdict (request : OfferValidationRequest) (anchor : ValidationStateAnchor)
    (validation : OfferValidation) (expiresAt : Int) : ValidationVerdict where
  profile := request.profile
  valid := true
  live := true
  claimedOfferId := request.offerId
  computedOfferId := some request.offerId
  stateVersion := anchor.version
  validatedAt := anchor.atMs
  status := .live
  code := .valid
  computed := some (validation.semantics expiresAt)

/-- A verdict says what it was asked to say. -/
theorem checkedVerdict_fields {profile offerId : String} {anchor : ValidationStateAnchor}
    {valid live : Bool} {computedOfferId : Option String} {status : OfferValidationStatus}
    {code : OfferValidationCode} {reason : Option String} {computed : Option ValidationSemantics}
    {verdict : ValidationVerdict}
    (h : checkedVerdict profile offerId anchor valid live computedOfferId status code reason
      computed = .ok verdict) :
    verdict.valid = valid ∧ verdict.computedOfferId = computedOfferId ∧ verdict.status = status ∧
      verdict.code = code := by
  simp only [checkedVerdict] at h
  split at h
  · cases h
  · rename_i parsed hparsed
    rw [← Except.ok.inj h, (parseOfferValidationVerdict_eq_some.mp hparsed).1]
    exact ⟨rfl, rfl, rfl, rfl⟩

/-- The positive verdict is emitted if its fields are well formed. -/
theorem checkedVerdict_validVerdict {request : OfferValidationRequest}
    {anchor : ValidationStateAnchor} {validation : OfferValidation} {expiresAt : Int}
    {verdict : ValidationVerdict} (hprofile : request.profile = offerValidationProfile)
    (hsupported : isSupportedOfferValidationSemantics (validation.semantics expiresAt) = true) :
    checkedVerdict request.profile request.offerId anchor true true (some request.offerId) .live
      .valid none (some (validation.semantics expiresAt)) = .ok verdict ↔
      verdict = validVerdict request anchor validation expiresAt ∧ verdict.wellFormed = true := by
  have hconsistent : (validVerdict request anchor validation expiresAt).Consistent := by
    constructor <;> simp [validVerdict, hprofile, hsupported]
  have hchecked : checkedVerdict request.profile request.offerId anchor true true
      (some request.offerId) .live .valid none (some (validation.semantics expiresAt)) = .ok verdict ↔
      parseOfferValidationVerdict (validVerdict request anchor validation expiresAt) =
        some verdict := by
    unfold checkedVerdict
    cases hparsed : parseOfferValidationVerdict
      (validVerdict request anchor validation expiresAt) with
    | none =>
      unfold validVerdict at hparsed
      simp [hparsed]
    | some parsed =>
      unfold validVerdict at hparsed
      simp [hparsed]
  rw [hchecked, parseOfferValidationVerdict_eq_some]
  constructor
  · rintro ⟨rfl, hform, -⟩
    exact ⟨rfl, hform⟩
  · rintro ⟨rfl, hform⟩
    exact ⟨rfl, hform, hconsistent⟩

theorem inl_map_eq_ok {β : Type} {result : Except ValidationFailure ValidationVerdict}
    {verdict : ValidationVerdict}
    (h : (Sum.inl <$> result : Except ValidationFailure (ValidationVerdict ⊕ β)) =
      .ok (.inl verdict)) : result = .ok verdict := by
  cases result with
  | error e => cases h
  | ok a => exact congrArg Except.ok (Sum.inl.inj (Except.ok.inj h))

theorem some_map_eq_ok {result : Except ValidationFailure ValidationVerdict}
    {verdict : ValidationVerdict} (h : some <$> result = .ok (some verdict)) :
    result = .ok verdict := by
  cases result with
  | error e => cases h
  | ok a => exact congrArg Except.ok (Option.some.inj (Except.ok.inj h))

theorem structuralVerdict_invalid {request : OfferValidationRequest}
    {anchor : ValidationStateAnchor} {verdict : ValidationVerdict}
    (h : structuralVerdict env ledger decode request anchor = .ok (.inl verdict)) :
    verdict.valid = false := by
  simp only [structuralVerdict] at h
  split_ifs at h with hmismatch
  · exact (checkedVerdict_fields (inl_map_eq_ok h)).1
  · cases hstructural : validateZswapOffer ledger decode env.offerMaxBytes request.offer with
    | error rejection =>
      simp only [hstructural] at h
      obtain ⟨code, -, hverdict⟩ := Except.bind_eq_ok.mp h
      exact (checkedVerdict_fields (inl_map_eq_ok hverdict)).1
    | ok validation =>
      simp only [hstructural] at h
      cases hcomputed : computedOfferId ledger decode request.offer (.ok validation) with
      | none => simp [hcomputed] at h
      | some offerId => simp [hcomputed] at h

theorem initialVerdict_invalid {request : OfferValidationRequest} {offerId : String}
    {validation : OfferValidation} {anchor : ValidationStateAnchor} {state : OfferState}
    {verdict : ValidationVerdict}
    (h : initialVerdict request offerId validation anchor state = .ok (some verdict)) :
    verdict.valid = false := by
  cases hfailure : state.failure with
  | some failure =>
    rw [initialVerdict_failure hfailure] at h
    exact (checkedVerdict_fields (some_map_eq_ok h)).1
  | none =>
    unfold initialVerdict at h
    cases hexpiry : state.expiresAt with
    | none => simp [hfailure, hexpiry] at h
    | some expiresAt =>
      simp only [hfailure, hexpiry] at h
      split_ifs at h with hshape
      · exact (checkedVerdict_fields (some_map_eq_ok h)).1
      · cases Except.ok.inj h

/-- A positive final verdict has a live state, a proof and a supported shape. -/
theorem finalVerdict_valid {request : OfferValidationRequest} {offerId : String}
    {validation : OfferValidation} {anchor : ValidationStateAnchor} {state : OfferState}
    {crypto : Except OfferRejection Unit} {verdict : ValidationVerdict}
    (h : finalVerdict request offerId validation crypto anchor state = .ok verdict)
    (hvalid : verdict.valid = true) : state.failure = none ∧ crypto = .ok () := by
  cases hfailure : state.failure with
  | some failure =>
    rw [finalVerdict_failure hfailure] at h
    rw [(checkedVerdict_fields h).1] at hvalid
    cases hvalid
  | none =>
    cases crypto with
    | ok u => exact ⟨rfl, rfl⟩
    | error rejection =>
      unfold finalVerdict at h
      simp only [hfailure] at h
      obtain ⟨code, -, hverdict⟩ := Except.bind_eq_ok.mp h
      rw [(checkedVerdict_fields hverdict).1] at hvalid
      cases hvalid

/-- The verdict on a live state. -/
theorem initialVerdict_live {request : OfferValidationRequest} {offerId : String}
    {validation : OfferValidation} {anchor : ValidationStateAnchor} {expiresAt : Int}
    (hsupported : isSupportedOfferValidationSemantics (validation.semantics expiresAt) = true) :
    initialVerdict request offerId validation anchor ⟨.live, true, some expiresAt, none⟩ =
      .ok none := by
  simp [initialVerdict, hsupported]

theorem finalVerdict_live {request : OfferValidationRequest} {offerId : String}
    {validation : OfferValidation} {anchor : ValidationStateAnchor} {expiresAt : Int}
    (hsupported : isSupportedOfferValidationSemantics (validation.semantics expiresAt) = true) :
    finalVerdict request offerId validation (.ok ()) anchor ⟨.live, true, some expiresAt, none⟩ =
      checkedVerdict request.profile request.offerId anchor true true (some offerId) .live .valid
        none (some (validation.semantics expiresAt)) := by
  unfold finalVerdict
  exact if_neg (by rw [hsupported]; decide)

/-- **When a verdict is positive.** The verdict on a committed state is positive exactly where the
offer is usable there, and the verdict can be told. -/
theorem verdictAt_valid_iff {request : OfferValidationRequest} {proofMs : Int}
    {verdict : ValidationVerdict} :
    s.verdictAt env ledger decode proofMs request = .ok verdict ∧ verdict.valid = true ↔
      ∃ anchor validation expiresAt,
        s.Usable env ledger decode proofMs request anchor validation expiresAt ∧
        verdict = validVerdict request anchor validation expiresAt ∧ verdict.wellFormed = true := by
  constructor
  · rintro ⟨hverdict, hvalid⟩
    obtain ⟨anchor, hanchor, hrest⟩ := Except.bind_eq_ok.mp hverdict
    by_cases hprofile : request.profile ≠ offerValidationProfile
    · rw [if_pos hprofile] at hrest
      rw [(checkedVerdict_fields hrest).1] at hvalid
      cases hvalid
    · rw [if_neg hprofile] at hrest
      obtain ⟨structural, hbytes, hstates⟩ := Except.bind_eq_ok.mp hrest
      cases structural with
      | inl early =>
        rw [← Except.ok.inj hstates, structuralVerdict_invalid hbytes] at hvalid
        cases hvalid
      | inr decoded =>
        obtain ⟨offerId, validation⟩ := decoded
        obtain ⟨hdecodes, hnamed, rfl⟩ := structuralVerdict_eq_inr.mp hbytes
        obtain ⟨state, hstate, hdecides⟩ := Except.bind_eq_ok.mp hstates
        obtain ⟨early, hearly, hends⟩ := Except.bind_eq_ok.mp hdecides
        cases early with
        | some decided =>
          rw [← Except.ok.inj hends, initialVerdict_invalid hearly] at hvalid
          cases hvalid
        | none =>
          obtain ⟨hlive, hproven⟩ := finalVerdict_valid hends hvalid
          obtain ⟨stored, expiresAt, hstored, hcheck, hprobe, rfl⟩ := offerState_live hstate hlive
          have hsupported : isSupportedOfferValidationSemantics (validation.semantics expiresAt) =
              true := by
            by_contra hshape
            unfold initialVerdict at hearly
            simp only [Bool.not_eq_true _ ▸ hshape] at hearly
            exact some_map_ne_none _ hearly
          obtain ⟨hhash, hrow, hstatus, hexpiry, -, hrange, hlater⟩ := check_eq_inr.mp hcheck
          rw [hproven, finalVerdict_live hsupported] at hends
          obtain ⟨hsame, hform⟩ :=
            (checkedVerdict_validVerdict (not_not.mp hprofile) hsupported).mp hends
          exact ⟨anchor, validation, expiresAt, ⟨not_not.mp hprofile, hanchor, hdecodes, hnamed,
            ⟨stored, hstored, hstatus, hrow, hhash, hexpiry⟩, ⟨hlater, hrange⟩, hprobe, hproven,
            hsupported⟩, hsame, hform⟩
  · rintro ⟨anchor, validation, expiresAt, husable, rfl, hform⟩
    obtain ⟨hprofile, hanchor, hdecodes, hnamed, ⟨stored, hstored, hstatus, hrow, hhash, hexpiry⟩,
      ⟨hlater, hrange⟩, hprobe, hproven, hsupported⟩ := husable
    refine ⟨?_, rfl⟩
    have hlow : 0 ≤ expiresAt := by
      have hatMs : 0 ≤ anchor.atMs := by
        rw [validationStateAnchorFromRow_eq_ok hanchor] at hanchor
        simp only [validationStateAnchorFromRow] at hanchor
        split_ifs at hanchor with hversion htime
        omega
      omega
    have hbytes : structuralVerdict env ledger decode request anchor =
        .ok (.inr (request.offerId, validation)) :=
      structuralVerdict_eq_inr.mpr ⟨hdecodes, hnamed, rfl⟩
    have hcheck : stored.check ledger decode request.offerId anchor.atMs = .ok (.inr expiresAt) :=
      check_eq_inr.mpr ⟨hhash, hrow, hstatus, hexpiry, hlow, hrange, hlater⟩
    have hstate : s.offerState env ledger decode request.offerId validation anchor.atMs =
        .ok ⟨.live, true, some expiresAt, none⟩ := by
      simp only [NodeState.offerState, hstored, hcheck, hprobe]
      rfl
    have hfinal : checkedVerdict request.profile request.offerId anchor true true
        (some request.offerId) .live .valid none (some (validation.semantics expiresAt)) =
        .ok (validVerdict request anchor validation expiresAt) :=
      (checkedVerdict_validVerdict hprofile hsupported).mpr ⟨rfl, hform⟩
    simp only [NodeState.verdictAt, hanchor, bind, Except.bind, if_neg (not_not.mpr hprofile), hbytes,
      hstate, initialVerdict_live hsupported, hproven, finalVerdict_live hsupported, hfinal]

/-! ## A quiet call -/

section Quiet

variable {anchor : ValidationStateAnchor}

theorem run_readStateAnchor_quiet (h : Quiet s world)
    (hanchor : validationStateAnchorFromRow s.latestBlock = .ok anchor) :
    readStateAnchor.run world i = (.ok anchor, i + 1) := by
  unfold readStateAnchor
  simp only [run_bind, run_checkSignal_quiet h, run_runQuery_quiet h, Except.mapError, run_settle,
    hanchor]

theorem run_requireCurrentBackend_quiet (h : Quiet s world)
    (hanchor : validationStateAnchorFromRow s.latestBlock = .ok anchor)
    (hsync : ∀ k fresh, (world k).sync fresh = .ok ⟨.ok, some anchor.version⟩) (freshFirst : Bool) :
    (requireCurrentBackend freshFirst).run world i = (.ok anchor, i + 2) := by
  have hversion : isCanonicalU64 anchor.version = true := by
    rw [validationStateAnchorFromRow_eq_ok hanchor] at hanchor
    simp only [validationStateAnchorFromRow] at hanchor
    split_ifs at hanchor with hcanonical htime
    simpa using hcanonical
  unfold requireCurrentBackend currentAnchor
  simp only [run_bind, run_checkSignal_quiet h, run_await, hsync, Except.mapError,
    run_readStateAnchor_quiet h hanchor, hversion, true_and, if_true, run_pure]

theorem run_readBoundOfferState_quiet (h : Quiet s world)
    (hanchor : validationStateAnchorFromRow s.latestBlock = .ok anchor) (offerId : String)
    (validation : OfferValidation) (attempts : Nat) : ∃ j,
    (readBoundOfferState env ledger decode offerId validation (attempts + 1)).run world i =
      ((s.offerState env ledger decode offerId validation anchor.atMs).map (anchor, ·), j) := by
  obtain ⟨j, hread⟩ : ∃ j,
      (readOfferState env ledger decode offerId validation anchor.atMs).run world (i + 1) =
        (s.offerState env ledger decode offerId validation anchor.atMs, j) :=
    run_readOfferState_quiet h offerId validation anchor.atMs
  unfold readBoundOfferState
  rw [run_bind, run_readStateAnchor_quiet h hanchor]
  simp only [run_bind, hread]
  cases s.offerState env ledger decode offerId validation anchor.atMs with
  | error e => exact ⟨j, rfl⟩
  | ok state =>
    refine ⟨j + 1, ?_⟩
    simp only [run_readStateAnchor_quiet h hanchor, if_true, run_pure, Except.map]

theorem run_currentOfferState_quiet (h : Quiet s world)
    (hanchor : validationStateAnchorFromRow s.latestBlock = .ok anchor)
    (hsync : ∀ k fresh, (world k).sync fresh = .ok ⟨.ok, some anchor.version⟩) (offerId : String)
    (validation : OfferValidation) : ∃ j,
    (currentOfferState env ledger decode offerId validation).run world i =
      ((s.offerState env ledger decode offerId validation anchor.atMs).map
        fun state => some (anchor, state), j) := by
  obtain ⟨j, hread⟩ : ∃ j, (readBoundOfferState env ledger decode offerId validation
      consistentReadAttempts).run world (i + 2) =
        ((s.offerState env ledger decode offerId validation anchor.atMs).map (anchor, ·), j) :=
    run_readBoundOfferState_quiet h hanchor offerId validation 2
  refine ⟨j, ?_⟩
  unfold currentOfferState
  simp only [run_bind, run_requireCurrentBackend_quiet h hanchor hsync, hread]
  cases s.offerState env ledger decode offerId validation anchor.atMs with
  | error e => rfl
  | ok state => simp only [Except.map, run_pure, if_true]

theorem run_readFinalState_quiet (h : Quiet s world)
    (hanchor : validationStateAnchorFromRow s.latestBlock = .ok anchor)
    (hsync : ∀ k fresh, (world k).sync fresh = .ok ⟨.ok, some anchor.version⟩) (offerId : String)
    (validation : OfferValidation) : ∃ j,
    (readFinalState env ledger decode offerId validation).run world i =
      ((s.offerState env ledger decode offerId validation anchor.atMs).map (anchor, ·), j) := by
  obtain ⟨j, hread⟩ : ∃ j, (currentOfferState env ledger decode offerId validation).run world i =
      ((s.offerState env ledger decode offerId validation anchor.atMs).map
        fun state => some (anchor, state), j) :=
    run_currentOfferState_quiet h hanchor hsync offerId validation
  refine ⟨j, ?_⟩
  unfold readFinalState
  rw [run_bind, hread]
  cases s.offerState env ledger decode offerId validation anchor.atMs with
  | error e => rfl
  | ok state => rfl

/-- **Where nothing is committed, a call is its verdict.** While the backend is in sync and no block is
committed, a call that is not cancelled returns the verdict on the committed state, and fails where it
does: no read is repeated or given up. -/
theorem validateOfferForUse_quiet (h : Quiet s world)
    (hanchor : validationStateAnchorFromRow s.latestBlock = .ok anchor)
    (hsync : ∀ k fresh, (world k).sync fresh = .ok ⟨.ok, some anchor.version⟩)
    (request : OfferValidationRequest) :
    ((validateOfferForUse env ledger decode request).run world i).1 =
      s.verdictAt env ledger decode anchor.atMs request := by
  unfold validateOfferForUse
  rw [run_bind, run_requireCurrentBackend_quiet h hanchor hsync]
  by_cases hprofile : request.profile ≠ offerValidationProfile
  · simp only [NodeState.verdictAt, hanchor, bind, Except.bind, if_pos hprofile, run_settle]
  · simp only [if_neg hprofile, run_bind, run_checkSignal_quiet h, run_settle]
    cases hbytes : structuralVerdict env ledger decode request anchor with
    | error e =>
      simp only [NodeState.verdictAt, hanchor, bind, Except.bind, if_neg hprofile, hbytes]
    | ok structural =>
      cases structural with
      | inl early =>
        simp only [NodeState.verdictAt, hanchor, bind, Except.bind, if_neg hprofile, hbytes,
          run_pure]
        rfl
      | inr decoded =>
        obtain ⟨offerId, validation⟩ := decoded
        obtain ⟨j, hread⟩ : ∃ j, (readBoundOfferState env ledger decode offerId validation
            consistentReadAttempts).run world (i + 2) =
              ((s.offerState env ledger decode offerId validation anchor.atMs).map (anchor, ·), j) :=
          run_readBoundOfferState_quiet h hanchor offerId validation 2
        simp only [run_bind, hread]
        cases hstate : s.offerState env ledger decode offerId validation anchor.atMs with
        | error e =>
          simp only [NodeState.verdictAt, hanchor, bind, Except.bind, if_neg hprofile, hbytes,
            hstate, Except.map]
        | ok state =>
          simp only [Except.map, ne_eq, not_true_eq_false, if_false, run_bind, run_settle]
          cases hearly : initialVerdict request offerId validation anchor state with
          | error e =>
            simp only [NodeState.verdictAt, hanchor, bind, Except.bind, if_neg hprofile, hbytes,
              hstate, hearly]
          | ok early =>
            cases early with
            | some decided =>
              simp only [NodeState.verdictAt, hanchor, bind, Except.bind, if_neg hprofile, hbytes,
                hstate, hearly, run_pure]
              rfl
            | none =>
              obtain ⟨l, hfinal⟩ : ∃ l,
                  (readFinalState env ledger decode offerId validation).run world j =
                  ((s.offerState env ledger decode offerId validation anchor.atMs).map
                    (anchor, ·), l) :=
                run_readFinalState_quiet h hanchor hsync offerId validation
              simp only [run_bind, run_checkSignal_quiet h, hfinal, hstate, Except.map, run_settle]
              simp only [NodeState.verdictAt, hanchor, bind, Except.bind, if_neg hprofile, hbytes,
                hstate, hearly]

end Quiet

end ZswapKernel
