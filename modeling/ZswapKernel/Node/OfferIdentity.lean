import ZswapKernel.Node.OfferLiveness

/-!
# Offer identity

An offer hash names one offer for ever: intake refuses a hash that is live or archived, and an
archived offer stays in the history. The markers of a live offer are its own: intake refuses a blob
that declares a marker of a live offer.

* `processInput_offers` — what one input does to the offer tables.
* `Db.Identity` — the invariant, over `NodeRun`.
* `NodeSteps.history` — the history only grows.
* `offer_identity` — every reachable state and every continuation.
-/

namespace ZswapKernel

/-! ## The offer tables -/

/-- The same offers, with the same declared markers, and the same archive. -/
structure Db.SameOffers (db' db : Db) : Prop where
  nextId : db'.nextId = db.nextId
  offerFile : db'.offerFile = db.offerFile
  offerCommitments : db'.offerCommitments = db.offerCommitments
  offerOutputs : db'.offerOutputs = db.offerOutputs
  history : db'.history = db.history
  offerNullifiersHistory : db'.offerNullifiersHistory = db.offerNullifiersHistory
  offerSpendsHistory : db'.offerSpendsHistory = db.offerSpendsHistory
  offerCommitmentsHistory : db'.offerCommitmentsHistory = db.offerCommitmentsHistory
  offerOutputsHistory : db'.offerOutputsHistory = db.offerOutputsHistory

theorem Db.SameOffers.refl (db : Db) : db.SameOffers db :=
  ⟨rfl, rfl, rfl, rfl, rfl, rfl, rfl, rfl, rfl⟩

section Steps

variable {env : NodeEnv} {ledger : Ledger} {ctx : BlockContext} {db db' : Db}

/-- **What one input does to the offer tables**: nothing, one archival, or one new offer whose
markers nobody claims. -/
theorem processInput_offers {input : NodeInput}
    (hstep : processInput env ledger ctx db input = .ok db') :
    db'.SameOffers db ∨
    (∃ isMatched reason archivedAt,
      db'.SameOffers (db.archiveOffers isMatched reason archivedAt)) ∨
    ∃ rawBytes result expiresAt firstSeenAt saved,
      Accepts env ledger ctx rawBytes db result expiresAt firstSeenAt saved ∧
      (∀ marker ∈ declaredMarkers result.tx, db.claimedBy marker = none) ∧
      db'.SameOffers saved := by
  cases input with
  | celestiaZswap suppliedValue =>
    rcases celestiaZswap_cases hstep with ⟨code, rfl⟩ |
      ⟨result, expiresAt, firstSeenAt, saved, haccepts, -, hfree, rfl⟩
    · exact .inl ⟨rfl, rfl, rfl, rfl, rfl, rfl, rfl, rfl, rfl⟩
    · exact .inr (.inr ⟨suppliedValue, result, expiresAt, firstSeenAt, saved, haccepts, hfree,
        ⟨rfl, rfl, rfl, rfl, rfl, rfl, rfl, rfl, rfl⟩⟩)
  | zswapEvent event =>
    cases hstep
    cases event with
    | commitment commitment txHash mtIndex =>
      exact .inl ⟨rfl, rfl, rfl, rfl, rfl, rfl, rfl, rfl, rfl⟩
    | nullifier nullifier txHash =>
      obtain ⟨marked, hevent⟩ := zswapEvent_nullifier ctx nullifier txHash db
      refine .inr (.inl ⟨db.competesForNullifier nullifier, .consumed, ctx.blockTimestamp, ?_⟩)
      rw [hevent]
      cases marked <;> exact ⟨rfl, rfl, rfl, rfl, rfl, rfl, rfl, rfl, rfl⟩
  | unshieldedSpend payload =>
    cases hstep
    cases hcoin : payload.coin ledger with
    | none =>
      unfold unshieldedSpend
      rw [hcoin]
      exact .inl (.refl db)
    | some coin =>
      rw [unshieldedSpend_coin hcoin]
      exact .inr (.inl ⟨db.competesForCoin coin, .consumed, ctx.blockTimestamp,
        ⟨rfl, rfl, rfl, rfl, rfl, rfl, rfl, rfl, rfl⟩⟩)
  | unshieldedCreate payload =>
    cases hstep
    unfold unshieldedCreate
    split
    · exact .inl (.refl db)
    · exact .inl ⟨rfl, rfl, rfl, rfl, rfl, rfl, rfl, rfl, rfl⟩
  | zswapRoot root =>
    cases hstep
    unfold zswapRoot
    simp only
    split
    · exact .inl (.refl db)
    · exact .inl ⟨rfl, rfl, rfl, rfl, rfl, rfl, rfl, rfl, rfl⟩
  | ttlCleanup offerId =>
    obtain ⟨cutoff, -, hstep⟩ := Except.bind_eq_ok.mp hstep
    cases hstep
    exact .inr (.inl ⟨_, .ttl, cutoff, ⟨rfl, rfl, rfl, rfl, rfl, rfl, rfl, rfl, rfl⟩⟩)

end Steps

/-! ## Hashes -/

namespace Db

/-- The hashes of all offers, live and archived. -/
def offerHashes (db : Db) : List String :=
  db.offerFile.map (·.offerHash) ++ db.history.map (·.offerHash)

theorem hasOfferHash_eq_false {db : Db} {offerHash : String}
    (h : db.hasOfferHash offerHash = false) : offerHash ∉ db.offerHashes := by
  unfold hasOfferHash at h
  rw [Bool.or_eq_false_iff, List.any_eq_false, List.any_eq_false] at h
  obtain ⟨hlive, harchived⟩ := h
  intro hmem
  rcases List.mem_append.mp hmem with hmem | hmem
  · obtain ⟨offer, hoffer, rfl⟩ := List.mem_map.mp hmem
    exact hlive offer hoffer (decide_eq_true rfl)
  · obtain ⟨entry, hentry, rfl⟩ := List.mem_map.mp hmem
    exact harchived entry hentry (decide_eq_true rfl)

/-- Archiving keeps every column of the offers, live and archived together. -/
theorem map_archiveOffers {β : Type} (column : OfferFile → β) (db : Db)
    (isMatched : OfferFile → Bool) (reason : ArchiveReason) (archivedAt : Int) :
    ((db.archiveOffers isMatched reason archivedAt).offerFile.map column ++
      (db.archiveOffers isMatched reason archivedAt).history.map (column ·.toOfferFile)).Perm
      (db.offerFile.map column ++ db.history.map (column ·.toOfferFile)) := by
  have hsplit := List.filter_append_perm (p := isMatched) (l := db.offerFile)
  have hmoved : ((db.offerFile.filter isMatched).map
      (OfferFileHistory.mk · reason archivedAt)).map (column ·.toOfferFile) =
      (db.offerFile.filter isMatched).map column := by
    rw [List.map_map]
    rfl
  unfold archiveOffers
  simp only
  rw [List.map_append, hmoved, ← List.append_assoc]
  refine (List.perm_append_comm).trans ?_
  rw [← List.append_assoc, ← List.map_append]
  exact (hsplit.map _).append_right _

/-! ## Markers -/

/-- The offer has a row for the marker. -/
def Claims (db : Db) (offer : OfferFile) : DeclaredMarker → Prop
  | .commitment commitment => ⟨offer.id, commitment⟩ ∈ db.offerCommitments
  | .unshieldedOutput output => ∃ row ∈ db.offerOutputs,
      row.offerFileId = offer.id ∧ row.value.toUnshieldedSpendRef = output

theorem leastActiveHash_eq_none {db : Db} {claims : OfferFile → Bool}
    (h : db.leastActiveHash claims = none) : ∀ offer ∈ db.offerFile, claims offer = false := by
  intro offer hoffer
  by_contra hclaims
  rw [Bool.not_eq_false] at hclaims
  unfold leastActiveHash at h
  rw [List.min?_eq_none_iff, List.map_eq_nil_iff, List.filter_eq_nil_iff] at h
  exact h offer hoffer hclaims

/-- The probe of a marker finds every live claim. -/
theorem not_claims_of_claimedBy {db : Db} {marker : DeclaredMarker}
    (h : db.claimedBy marker = none) : ∀ offer ∈ db.offerFile, ¬ db.Claims offer marker := by
  intro offer hoffer hclaims
  cases marker with
  | commitment commitment =>
    have hnone := List.any_eq_false.mp (leastActiveHash_eq_none h offer hoffer) _ hclaims
    simp at hnone
  | unshieldedOutput output =>
    obtain ⟨row, hrow, hid, hvalue⟩ := hclaims
    have hnone := List.any_eq_false.mp (leastActiveHash_eq_none h offer hoffer) row hrow
    simp [hid, hvalue] at hnone

end Db

/-- What an output row is about; the count is left out. -/
def outputKey (row : ChildRow DeclaredOutput) : Nat × UnshieldedSpendRef :=
  (row.offerFileId, row.value.toUnshieldedSpendRef)

theorem mem_countOutput_keys {row : ChildRow DeclaredOutput} {rows : List (ChildRow DeclaredOutput)}
    {key : Nat × UnshieldedSpendRef} :
    key ∈ (Db.countOutput row rows).map outputKey ↔
      key ∈ rows.map outputKey ∨ key = outputKey row := by
  induction rows with
  | nil => simp [Db.countOutput]
  | cons other rows ih =>
    unfold Db.countOutput
    split
    · rename_i hsame
      have hkey : outputKey row = outputKey other :=
        Prod.ext hsame.1.symm hsame.2.symm
      have hcounted : outputKey { other with value :=
          { other.value with count := other.value.count + 1 } } = outputKey other := rfl
      rw [List.map_cons, List.map_cons, hcounted, hkey]
      simp only [List.mem_cons]
      tauto
    · rw [List.map_cons, List.map_cons, List.mem_cons, List.mem_cons, ih, or_assoc]

theorem mem_countOutputs_keys {offerFileId : Nat} {outputs : List UnshieldedOutputRef}
    {rows : List (ChildRow DeclaredOutput)} {key : Nat × UnshieldedSpendRef} :
    key ∈ (countOutputs offerFileId outputs rows).map outputKey ↔
      key ∈ rows.map outputKey ∨
        ∃ output ∈ outputs, key = (offerFileId, output.toUnshieldedSpendRef) := by
  unfold countOutputs
  induction outputs generalizing rows with
  | nil => simp
  | cons output outputs ih =>
    rw [List.foldl_cons, ih, mem_countOutput_keys, or_assoc]
    simp [outputKey]

theorem claims_unshieldedOutput {db : Db} {offer : OfferFile} {output : UnshieldedSpendRef} :
    db.Claims offer (.unshieldedOutput output) ↔
      (offer.id, output) ∈ db.offerOutputs.map outputKey := by
  unfold Db.Claims
  rw [List.mem_map]
  constructor
  · rintro ⟨row, hrow, hid, hvalue⟩
    exact ⟨row, hrow, Prod.ext hid hvalue⟩
  · rintro ⟨row, hrow, hkey⟩
    exact ⟨row, hrow, congrArg Prod.fst hkey, congrArg Prod.snd hkey⟩

theorem claims_commitment {db : Db} {offer : OfferFile} {commitment : String} :
    db.Claims offer (.commitment commitment) ↔ ⟨offer.id, commitment⟩ ∈ db.offerCommitments :=
  Iff.rfl

/-- The markers of a saved offer, and those of the offers before it. -/
theorem claims_saved {ledger : Ledger} {ctx : BlockContext} {rawBytes : List UInt8}
    {result : OfferValidation} {expiresAt firstSeenAt : Int} {db saved : Db}
    (h : saveOfferFile ledger ctx rawBytes result expiresAt firstSeenAt db = .ok saved)
    (offer : OfferFile) (marker : DeclaredMarker) :
    saved.Claims offer marker ↔
      db.Claims offer marker ∨ (offer.id = db.nextId ∧ marker ∈ declaredMarkers result.tx) := by
  obtain ⟨tokens, rfl⟩ := saveOfferFile_ok h
  unfold declaredMarkers
  cases marker with
  | commitment commitment =>
    rw [claims_commitment, claims_commitment, mem_insertRows]
    simp [and_comm]
  | unshieldedOutput output =>
    rw [claims_unshieldedOutput, claims_unshieldedOutput, mem_countOutputs_keys]
    simp only [List.mem_append, List.mem_map, Prod.mk.injEq, DeclaredMarker.unshieldedOutput.injEq,
      reduceCtorEq, and_false, exists_false, false_or]
    exact or_congr Iff.rfl ⟨fun ⟨other, hother, hid, hvalue⟩ => ⟨hid, other, hother, hvalue.symm⟩,
      fun ⟨hid, other, hother, hvalue⟩ => ⟨other, hother, hid, hvalue.symm⟩⟩

/-! ## The invariant -/

/-- What identifies the offers. -/
structure Db.Identity (env : NodeEnv) (ledger : Ledger) (db : Db) : Prop where
  hashes : db.offerHashes.Nodup
  ids : ∀ offer ∈ db.offerFile, offer.id < db.nextId
  distinct : db.offerFile.Pairwise (·.id ≠ ·.id)
  claimIds : ∀ (offer : OfferFile) (marker : DeclaredMarker), db.Claims offer marker →
    offer.id < db.nextId
  marked : ∀ offer ∈ db.offerFile, ∃ result, offer.Declares env ledger result ∧
    ∀ marker ∈ declaredMarkers result.tx, db.Claims offer marker
  exclusive : ∀ offer ∈ db.offerFile, ∀ other ∈ db.offerFile, ∀ marker,
    db.Claims offer marker → db.Claims other marker → offer = other

section Invariant

variable {env : NodeEnv} {ledger : Ledger} {ctx : BlockContext} {db db' : Db}

theorem Db.SameOffers.offerHashes (h : db'.SameOffers db) : db'.offerHashes = db.offerHashes := by
  unfold Db.offerHashes
  rw [h.offerFile, h.history]

theorem Db.SameOffers.claims (h : db'.SameOffers db) (offer : OfferFile)
    (marker : DeclaredMarker) : db'.Claims offer marker ↔ db.Claims offer marker := by
  cases marker <;> unfold Db.Claims <;> simp only [h.offerCommitments, h.offerOutputs]

theorem Db.Identity.congr (h : db.Identity env ledger) (hsame : db'.SameOffers db) :
    db'.Identity env ledger where
  hashes := hsame.offerHashes ▸ h.hashes
  ids := by rw [hsame.offerFile, hsame.nextId]; exact h.ids
  distinct := by rw [hsame.offerFile]; exact h.distinct
  claimIds := fun offer marker hclaims =>
    hsame.nextId ▸ h.claimIds offer marker ((hsame.claims offer marker).mp hclaims)
  marked := by
    intro offer hoffer
    obtain ⟨result, hdeclares, hmarkers⟩ := h.marked offer (hsame.offerFile ▸ hoffer)
    exact ⟨result, hdeclares,
      fun marker hmem => (hsame.claims offer marker).mpr (hmarkers marker hmem)⟩
  exclusive := fun offer hoffer other hother marker hclaims hclaims' =>
    h.exclusive offer (hsame.offerFile ▸ hoffer) other (hsame.offerFile ▸ hother) marker
      ((hsame.claims offer marker).mp hclaims) ((hsame.claims other marker).mp hclaims')

/-- Archiving removes claims. -/
theorem claims_of_archived {isMatched : OfferFile → Bool} {reason : ArchiveReason}
    {archivedAt : Int} {offer : OfferFile} {marker : DeclaredMarker}
    (h : (db.archiveOffers isMatched reason archivedAt).Claims offer marker) :
    db.Claims offer marker := by
  cases marker with
  | commitment commitment => exact (List.mem_filter.mp h).1
  | unshieldedOutput output =>
    obtain ⟨row, hrow, hkey⟩ := h
    exact ⟨row, (List.mem_filter.mp hrow).1, hkey⟩

/-- The claims of an offer that is not matched stay. -/
theorem claims_archived {isMatched : OfferFile → Bool} {reason : ArchiveReason} {archivedAt : Int}
    (hdistinct : db.offerFile.Pairwise (·.id ≠ ·.id)) {offer : OfferFile}
    (hoffer : offer ∈ db.offerFile) (hkept : isMatched offer = false) {marker : DeclaredMarker}
    (h : db.Claims offer marker) :
    (db.archiveOffers isMatched reason archivedAt).Claims offer marker := by
  cases marker with
  | commitment commitment => exact mem_archived_rows hdistinct hoffer hkept h
  | unshieldedOutput output =>
    obtain ⟨⟨id, value⟩, hrow, hid, hvalue⟩ := h
    simp only at hid
    subst hid
    exact ⟨_, mem_archived_rows hdistinct hoffer hkept hrow, rfl, hvalue⟩

theorem Db.Identity.archiveOffers (h : db.Identity env ledger) (isMatched : OfferFile → Bool)
    (reason : ArchiveReason) (archivedAt : Int) :
    (db.archiveOffers isMatched reason archivedAt).Identity env ledger where
  hashes :=
    (Db.map_archiveOffers (·.offerHash) db isMatched reason archivedAt).nodup_iff.mpr h.hashes
  ids := fun offer hoffer => h.ids offer (List.mem_filter.mp hoffer).1
  distinct := h.distinct.filter _
  claimIds := fun offer marker hclaims => h.claimIds offer marker (claims_of_archived hclaims)
  marked := by
    intro offer hoffer
    obtain ⟨hmem, hkept⟩ := List.mem_filter.mp hoffer
    rw [Bool.not_eq_true'] at hkept
    obtain ⟨result, hdeclares, hmarkers⟩ := h.marked offer hmem
    exact ⟨result, hdeclares,
      fun marker hmarker => claims_archived h.distinct hmem hkept (hmarkers marker hmarker)⟩
  exclusive := fun offer hoffer other hother marker hclaims hclaims' =>
    h.exclusive offer (List.mem_filter.mp hoffer).1 other (List.mem_filter.mp hother).1 marker
      (claims_of_archived hclaims) (claims_of_archived hclaims')

/-- A new offer brings a new hash, a new id and markers nobody claims. -/
theorem Db.Identity.accept (h : db.Identity env ledger) {rawBytes : List UInt8}
    {result : OfferValidation} {expiresAt firstSeenAt : Int} {saved : Db}
    (haccepts : Accepts env ledger ctx rawBytes db result expiresAt firstSeenAt saved)
    (hfree : ∀ marker ∈ declaredMarkers result.tx, db.claimedBy marker = none) :
    saved.Identity env ledger := by
  have hclaims := claims_saved haccepts.saved
  have hnew : ∀ marker, ¬ db.Claims
      (offerFileRow ledger ctx rawBytes expiresAt firstSeenAt db.nextId) marker :=
    fun marker hclaim => (h.claimIds _ marker hclaim).ne rfl
  have hfresh := Db.hasOfferHash_eq_false haccepts.fresh
  obtain ⟨tokens, hsaved⟩ := saveOfferFile_ok haccepts.saved
  have hoffers : saved.offerFile = db.offerFile ++
      [offerFileRow ledger ctx rawBytes expiresAt firstSeenAt db.nextId] := by rw [hsaved]
  have hnext : saved.nextId = db.nextId + 1 := by rw [hsaved]
  have hhistory : saved.history = db.history := by rw [hsaved]
  refine ⟨?_, ?_, ?_, ?_, ?_, ?_⟩
  · have hperm : saved.offerHashes.Perm (ledger.sha256 rawBytes :: db.offerHashes) := by
      unfold Db.offerHashes
      rw [hoffers, hhistory, List.map_append, List.append_assoc]
      exact List.perm_middle
    exact hperm.nodup_iff.mpr (List.nodup_cons.mpr ⟨hfresh, h.hashes⟩)
  · intro offer hoffer
    rw [hoffers] at hoffer
    rw [hnext]
    rcases List.mem_append.mp hoffer with hoffer | hoffer
    · exact Nat.lt_succ_of_lt (h.ids offer hoffer)
    · rw [List.mem_singleton.mp hoffer]
      exact Nat.lt_succ_self _
  · rw [hoffers]
    refine List.pairwise_append.mpr ⟨h.distinct, List.pairwise_singleton _ _, ?_⟩
    intro offer hoffer new hmem
    rw [List.mem_singleton.mp hmem]
    exact (h.ids offer hoffer).ne
  · intro offer marker hclaim
    rw [hnext]
    rcases (hclaims offer marker).mp hclaim with hold | ⟨hid, -⟩
    · exact Nat.lt_succ_of_lt (h.claimIds offer marker hold)
    · exact hid ▸ Nat.lt_succ_self _
  · intro offer hoffer
    rw [hoffers] at hoffer
    rcases List.mem_append.mp hoffer with hoffer | hoffer
    · obtain ⟨declared, hdeclares, hmarkers⟩ := h.marked offer hoffer
      exact ⟨declared, hdeclares,
        fun marker hmarker => (hclaims offer marker).mpr (.inl (hmarkers marker hmarker))⟩
    · rw [List.mem_singleton.mp hoffer]
      exact ⟨result, ⟨rawBytes, rfl, rfl, haccepts.validated⟩,
        fun marker hmarker => (hclaims _ marker).mpr (.inr ⟨rfl, hmarker⟩)⟩
  · -- a marker of the new offer is claimed by no offer before it
    intro offer hoffer other hother marker hclaim hclaim'
    rw [hoffers] at hoffer hother
    have hold : ∀ offer ∈ db.offerFile, saved.Claims offer marker → db.Claims offer marker := by
      intro offer hoffer hclaim
      rcases (hclaims offer marker).mp hclaim with hclaim | ⟨hid, -⟩
      · exact hclaim
      · exact absurd hid (h.ids offer hoffer).ne
    have hdeclared : saved.Claims (offerFileRow ledger ctx rawBytes expiresAt firstSeenAt db.nextId)
        marker → db.claimedBy marker = none := by
      intro hclaim
      rcases (hclaims _ marker).mp hclaim with hclaim | ⟨-, hmem⟩
      · exact absurd hclaim (hnew marker)
      · exact hfree marker hmem
    rcases List.mem_append.mp hoffer with hoffer | hoffer <;>
      rcases List.mem_append.mp hother with hother | hother
    · exact h.exclusive offer hoffer other hother marker (hold offer hoffer hclaim)
        (hold other hother hclaim')
    · rw [List.mem_singleton.mp hother] at hclaim'
      exact absurd (hold offer hoffer hclaim)
        (Db.not_claims_of_claimedBy (hdeclared hclaim') offer hoffer)
    · rw [List.mem_singleton.mp hoffer] at hclaim
      exact absurd (hold other hother hclaim')
        (Db.not_claims_of_claimedBy (hdeclared hclaim) other hother)
    · rw [List.mem_singleton.mp hoffer, List.mem_singleton.mp hother]

/-- **Every input keeps the identities.** -/
theorem Db.Identity.processInput (h : db.Identity env ledger) {input : NodeInput}
    (hstep : ZswapKernel.processInput env ledger ctx db input = .ok db') :
    db'.Identity env ledger := by
  rcases processInput_offers hstep with hsame | ⟨isMatched, reason, archivedAt, hsame⟩ |
    ⟨rawBytes, result, expiresAt, firstSeenAt, saved, haccepts, hfree, hsame⟩
  · exact h.congr hsame
  · exact (h.archiveOffers isMatched reason archivedAt).congr hsame
  · exact (h.accept haccepts hfree).congr hsame

theorem NodeRun.identity (h : NodeRun env ledger ctx db) : db.Identity env ledger := by
  induction h with
  | start ctx =>
    exact ⟨.nil, by simp, .nil, fun _ marker => by cases marker <;> simp [Db.Claims], by simp,
      by simp⟩
  | block _ _ _ ih => exact ih
  | input _ input hstep ih => exact ih.processInput hstep

end Invariant

/-! ## Every continuation -/

/-- A run goes on from one state to another. -/
inductive NodeSteps (env : NodeEnv) (ledger : Ledger) (ctx : BlockContext) (db : Db) :
    BlockContext → Db → Prop
  | refl : NodeSteps env ledger ctx db ctx db
  | block {ctx' ctx'' : BlockContext} {db' : Db} (h : NodeSteps env ledger ctx db ctx' db')
    (hheight : ctx'.blockHeight < ctx''.blockHeight)
    (htime : ctx'.blockTimestamp ≤ ctx''.blockTimestamp) : NodeSteps env ledger ctx db ctx'' db'
  | input {ctx' : BlockContext} {db' db'' : Db} (h : NodeSteps env ledger ctx db ctx' db')
    (input : NodeInput) (hstep : processInput env ledger ctx' db' input = .ok db'') :
    NodeSteps env ledger ctx db ctx' db''

section Continuation

variable {env : NodeEnv} {ledger : Ledger} {ctx ctx' : BlockContext} {db db' : Db}

theorem NodeSteps.run (hrun : NodeRun env ledger ctx db)
    (h : NodeSteps env ledger ctx db ctx' db') : NodeRun env ledger ctx' db' := by
  induction h with
  | refl => exact hrun
  | block _ hheight htime ih => exact ih.block hheight htime
  | input _ input hstep ih => exact ih.input input hstep

/-- One input keeps the archived offers. -/
theorem processInput_history {input : NodeInput}
    (hstep : processInput env ledger ctx db input = .ok db') : db.history ⊆ db'.history := by
  rcases processInput_offers hstep with hsame | ⟨isMatched, reason, archivedAt, hsame⟩ |
    ⟨rawBytes, result, expiresAt, firstSeenAt, saved, haccepts, -, hsame⟩
  · rw [hsame.history]
    exact fun _ => id
  · rw [hsame.history]
    exact fun _ => List.mem_append_left _
  · obtain ⟨tokens, rfl⟩ := saveOfferFile_ok haccepts.saved
    rw [hsame.history]
    exact fun _ => id

/-- **The history only grows.** -/
theorem NodeSteps.history (h : NodeSteps env ledger ctx db ctx' db') :
    db.history ⊆ db'.history := by
  induction h with
  | refl => exact fun _ => id
  | block _ _ _ ih => exact ih
  | input _ input hstep ih => exact List.Subset.trans ih (processInput_history hstep)

/-- The hash of an archived offer is the hash of no live offer. -/
theorem Db.Identity.archived_not_live (h : db.Identity env ledger) {entry : OfferFileHistory}
    (hentry : entry ∈ db.history) : ∀ offer ∈ db.offerFile, offer.offerHash ≠ entry.offerHash := by
  intro offer hoffer
  exact (List.nodup_append.mp h.hashes).2.2 _ (List.mem_map_of_mem hoffer) _
    (List.mem_map_of_mem hentry)

/-- A blob that declares a marker of a live offer is refused. -/
theorem celestiaZswap_shared_marker {rawBytes : List UInt8} {result : OfferValidation}
    (hvalidated : validateZswapOfferBytes ledger env.offerMaxBytes rawBytes = .ok result)
    {offer : OfferFile} (hoffer : offer ∈ db.offerFile) {marker : DeclaredMarker}
    (hclaims : db.Claims offer marker) (hmem : marker ∈ declaredMarkers result.tx)
    (hstep : celestiaZswap env ledger ctx rawBytes db = .ok db') :
    ∃ code, db' = rejectOffer env ctx rawBytes code db := by
  rcases celestiaZswap_cases hstep with hreject |
    ⟨declared, _, _, _, haccepts, -, hfree, -⟩
  · exact hreject
  · have heq : declared = result := Except.ok.inj (haccepts.validated.symm.trans hvalidated)
    rw [heq] at hfree
    exact absurd hclaims (Db.not_claims_of_claimedBy (hfree marker hmem) offer hoffer)

/-- **Offer identity.** In every reachable state an offer hash occurs at most once among the live
and the archived offers, and distinct live offers declare distinct markers; a later blob that
declares a marker of a live offer is refused. In every continuation an archived offer stays
archived, and its hash is the hash of no live offer. -/
theorem offer_identity (h : NodeRun env ledger ctx db) :
    (db.offerFile.map (·.offerHash) ++ db.history.map (·.offerHash)).Nodup ∧
    (∃ declared : OfferFile → OfferValidation,
      (∀ offer ∈ db.offerFile, offer.Declares env ledger (declared offer)) ∧
      (∀ offer ∈ db.offerFile, ∀ other ∈ db.offerFile, offer ≠ other →
        (declaredMarkers (declared offer).tx).Disjoint (declaredMarkers (declared other).tx)) ∧
      ∀ offer ∈ db.offerFile, ∀ marker ∈ declaredMarkers (declared offer).tx,
        ∀ rawBytes result db',
          validateZswapOfferBytes ledger env.offerMaxBytes rawBytes = .ok result →
          marker ∈ declaredMarkers result.tx →
          celestiaZswap env ledger ctx rawBytes db = .ok db' →
          ∃ code, db' = rejectOffer env ctx rawBytes code db) ∧
    ∀ ctx' db', NodeSteps env ledger ctx db ctx' db' → ∀ entry ∈ db.history,
      entry ∈ db'.history ∧ ∀ offer ∈ db'.offerFile, offer.offerHash ≠ entry.offerHash := by
  have hidentity := h.identity
  refine ⟨hidentity.hashes, ?_, ?_⟩
  · have hmarked : ∀ offer : OfferFile, ∃ result, offer ∈ db.offerFile →
        offer.Declares env ledger result ∧
          ∀ marker ∈ declaredMarkers result.tx, db.Claims offer marker := by
      intro offer
      by_cases hoffer : offer ∈ db.offerFile
      · obtain ⟨result, hresult⟩ := hidentity.marked offer hoffer
        exact ⟨result, fun _ => hresult⟩
      · exact ⟨⟨{}, [], [], [], [], []⟩, fun hmem => absurd hmem hoffer⟩
    choose declared hdeclared using hmarked
    refine ⟨declared, fun offer hoffer => (hdeclared offer hoffer).1, ?_, ?_⟩
    · intro offer hoffer other hother hne marker hmem hmem'
      exact hne (hidentity.exclusive offer hoffer other hother marker
        ((hdeclared offer hoffer).2 marker hmem) ((hdeclared other hother).2 marker hmem'))
    · intro offer hoffer marker hmem rawBytes result db' hvalidated hmarker hstep
      exact celestiaZswap_shared_marker hvalidated hoffer ((hdeclared offer hoffer).2 marker hmem)
        hmarker hstep
  · intro ctx' db' hsteps entry hentry
    have harchived := hsteps.history hentry
    exact ⟨harchived, (hsteps.run h).identity.archived_not_live harchived⟩

end Continuation

/-- The one offer, spent and submitted again. -/
def OneOffer.resubmitted : List NodeInput :=
  inputs ++ [.celestiaZswap [1], .unshieldedSpend coin, .celestiaZswap [1]]

open OneOffer in
/-- A spent offer that was submitted twice is archived once, and never comes back. -/
theorem offer_identity_resubmitted : ∃ db, NodeRun env ledger block.toBlockContext db ∧
    db.history.length = 1 ∧ (db.history.map (·.offerHash)).Nodup ∧
    ∀ ctx' db', NodeSteps env ledger block.toBlockContext db ctx' db' → ∀ entry ∈ db.history,
      entry ∈ db'.history ∧ ∀ offer ∈ db'.offerFile, offer.offerHash ≠ entry.offerHash := by
  have hcount : ((resubmitted.foldlM (processInput env ledger block.toBlockContext) {}).toOption.map
      (·.history.length)) = some 1 := by
    decide +kernel
  cases hrun : resubmitted.foldlM (processInput env ledger block.toBlockContext) {} with
  | error message =>
    rw [hrun] at hcount
    cases hcount
  | ok db =>
    rw [hrun] at hcount
    have hreachable := foldlM_processInput_run (.start block.toBlockContext) hrun
    obtain ⟨hhashes, -, hcontinue⟩ := offer_identity hreachable
    exact ⟨db, hreachable, Option.some.inj hcount, (List.nodup_append.mp hhashes).2.1, hcontinue⟩

end ZswapKernel
