import ZswapKernel.Lib.Program
import ZswapKernel.Node.StateMachine

/-!
# Live offers have unspent inputs

Intake checks the inputs of an offer once; later spends must find every live offer through its child
rows. `Db.Sound` is what the tables keep to: every live offer has a row for each input it declares,
and no row of a live offer names a spent coin.

* `Db.Sound.archiveOffers`, `Db.Sound.spend` — what an archiving event keeps.
* `saveOfferFile_ok` — the rows of a new offer.
* `NodeRun.sound` — every reachable state.
-/

namespace ZswapKernel

/-- States of the node: any inputs in blocks of nondecreasing times. An input that fails rolls its
block back and leads nowhere. -/
inductive NodeRun (env : NodeEnv) (ledger : Ledger) : BlockContext → Db → Prop
  | start (ctx : BlockContext) : NodeRun env ledger ctx {}
  | block {ctx ctx' : BlockContext} {db : Db} (h : NodeRun env ledger ctx db)
    (hheight : ctx.blockHeight < ctx'.blockHeight)
    (htime : ctx.blockTimestamp ≤ ctx'.blockTimestamp) : NodeRun env ledger ctx' db
  | input {ctx : BlockContext} {db db' : Db} (h : NodeRun env ledger ctx db) (input : NodeInput)
    (hstep : processInput env ledger ctx db input = .ok db') : NodeRun env ledger ctx db'

/-- `offer` stores the bytes that declare `result`. -/
def OfferFile.Declares (env : NodeEnv) (ledger : Ledger) (offer : OfferFile)
    (result : OfferValidation) : Prop :=
  ∃ rawBytes, offer.transactionHex = ledger.encode rawBytes ∧
    offer.offerHash = ledger.sha256 rawBytes ∧
    validateZswapOfferBytes ledger env.offerMaxBytes rawBytes = .ok result

/-- The child rows of a live offer list what it declares. -/
structure OfferFile.Listed (env : NodeEnv) (ledger : Ledger) (db : Db) (offer : OfferFile)
    (result : OfferValidation) : Prop where
  declares : offer.Declares env ledger result
  nullifiers : ∀ nullifier ∈ result.nullifiers, ⟨offer.id, nullifier⟩ ∈ db.offerNullifiers
  spends : ∀ coin ∈ result.unshieldedSpends, ⟨offer.id, coin⟩ ∈ db.offerSpends

/-- What the tables keep to. -/
structure Db.Sound (env : NodeEnv) (ledger : Ledger) (db : Db) : Prop where
  ids : ∀ offer ∈ db.offerFile, offer.id < db.nextId
  distinct : db.offerFile.Pairwise (·.id ≠ ·.id)
  nullifierIds : ∀ row ∈ db.offerNullifiers, row.offerFileId < db.nextId
  spendIds : ∀ row ∈ db.offerSpends, row.offerFileId < db.nextId
  listed : ∀ offer ∈ db.offerFile, ∃ result, offer.Listed env ledger db result
  unspent : ∀ offer ∈ db.offerFile, ∀ row ∈ db.offerNullifiers, row.offerFileId = offer.id →
    db.isNullifierSpent row.value = false
  created : ∀ offer ∈ db.offerFile, ∀ row ∈ db.offerSpends, row.offerFileId = offer.id →
    db.isUnshieldedCreated row.value = true

section Archive

variable {env : NodeEnv} {ledger : Ledger} {db : Db} {isMatched : OfferFile → Bool}
  {reason : ArchiveReason} {archivedAt : Int}

/-- The rows of an offer that is not matched stay. -/
theorem mem_archived_rows {α : Type} (hdistinct : db.offerFile.Pairwise (·.id ≠ ·.id))
    {offer : OfferFile} (hoffer : offer ∈ db.offerFile) (hkept : isMatched offer = false)
    {rows : List (ChildRow α)} {value : α} (hrow : ⟨offer.id, value⟩ ∈ rows) :
    ⟨offer.id, value⟩ ∈ rows.filter
      (·.offerFileId ∉ (db.offerFile.filter isMatched).map (·.id)) := by
  rw [List.mem_filter, decide_eq_true_eq]
  refine ⟨hrow, fun hgone => ?_⟩
  obtain ⟨other, hother, hid⟩ := List.mem_map.mp hgone
  obtain ⟨hmem, hmatched⟩ := List.mem_filter.mp hother
  have : Std.Symm fun left right : OfferFile => left.id ≠ right.id := ⟨fun _ _ h => h.symm⟩
  refine hdistinct.forall hmem hoffer (fun heq => ?_) hid
  rw [heq, hkept] at hmatched
  cases hmatched

/-- Archiving any offers keeps the tables sound. -/
theorem Db.Sound.archiveOffers (h : db.Sound env ledger) (isMatched : OfferFile → Bool)
    (reason : ArchiveReason) (archivedAt : Int) :
    (db.archiveOffers isMatched reason archivedAt).Sound env ledger where
  ids := fun offer hoffer => h.ids offer (List.mem_filter.mp hoffer).1
  distinct := h.distinct.filter _
  nullifierIds := fun row hrow => h.nullifierIds row (List.mem_filter.mp hrow).1
  spendIds := fun row hrow => h.spendIds row (List.mem_filter.mp hrow).1
  listed := by
    intro offer hoffer
    obtain ⟨hmem, hkept⟩ := List.mem_filter.mp hoffer
    rw [Bool.not_eq_true'] at hkept
    obtain ⟨result, hlisted⟩ := h.listed offer hmem
    exact ⟨result, hlisted.declares,
      fun n hn => mem_archived_rows h.distinct hmem hkept (hlisted.nullifiers n hn),
      fun coin hcoin => mem_archived_rows h.distinct hmem hkept (hlisted.spends coin hcoin)⟩
  unspent := fun offer hoffer row hrow =>
    h.unspent offer (List.mem_filter.mp hoffer).1 row (List.mem_filter.mp hrow).1
  created := fun offer hoffer row hrow =>
    h.created offer (List.mem_filter.mp hoffer).1 row (List.mem_filter.mp hrow).1

/-- Soundness reads six tables. -/
theorem Db.Sound.congr (h : db.Sound env ledger) {db' : Db} (hnext : db'.nextId = db.nextId)
    (hoffers : db'.offerFile = db.offerFile) (hrows : db'.offerNullifiers = db.offerNullifiers)
    (hspends : db'.offerSpends = db.offerSpends)
    (hspent : ∀ nullifier, db.isNullifierSpent nullifier = false →
      db'.isNullifierSpent nullifier = false)
    (hcreated : ∀ coin, db.isUnshieldedCreated coin = true →
      db'.isUnshieldedCreated coin = true) : db'.Sound env ledger where
  ids := by rw [hoffers, hnext]; exact h.ids
  distinct := by rw [hoffers]; exact h.distinct
  nullifierIds := by rw [hrows, hnext]; exact h.nullifierIds
  spendIds := by rw [hspends, hnext]; exact h.spendIds
  listed := by
    intro offer hoffer
    obtain ⟨result, hdeclares, hn, hs⟩ := h.listed offer (hoffers ▸ hoffer)
    exact ⟨result, hdeclares, fun n hmem => hrows ▸ hn n hmem, fun c hmem => hspends ▸ hs c hmem⟩
  unspent := fun offer hoffer row hrow hid =>
    hspent _ (h.unspent offer (hoffers ▸ hoffer) row (hrows ▸ hrow) hid)
  created := fun offer hoffer row hrow hid =>
    hcreated _ (h.created offer (hoffers ▸ hoffer) row (hspends ▸ hrow) hid)

end Archive

/-! ## Spends -/

section Spends

variable {env : NodeEnv} {ledger : Ledger} {db : Db}

@[simp] theorem isNullifierSpent_insertNullifier (db : Db) (nullifier other : String) (height : Nat)
    (txHash : Option String) :
    (db.insertNullifier nullifier height txHash).isNullifierSpent other =
      (decide (other = nullifier) || db.isNullifierSpent other) := by
  unfold Db.insertNullifier Db.isNullifierSpent insertNew
  split
  · rename_i hany
    by_cases heq : other = nullifier
    · subst heq
      rw [decide_eq_true rfl, Bool.true_or]
      exact hany
    · rw [decide_eq_false heq, Bool.false_or]
  · rw [List.any_append, Bool.or_comm]
    simp [eq_comm]

@[simp] theorem isNullifierSpent_markNullifierMatched (db : Db) (nullifier other : String) :
    (db.markNullifierMatched nullifier).isNullifierSpent other = db.isNullifierSpent other := by
  unfold Db.markNullifierMatched Db.isNullifierSpent
  rw [List.any_map]
  refine congrArg (db.nullifiers.any ·) (funext fun row => ?_)
  simp only [Function.comp_apply]
  split <;> rfl

@[simp] theorem isUnshieldedCreated_insert (db : Db) (coin other : UnshieldedSpendRef)
    (height : Nat) : (db.insertCreatedUnshielded coin height).isUnshieldedCreated other =
      (decide (other = coin) || db.isUnshieldedCreated other) := by
  unfold Db.insertCreatedUnshielded Db.isUnshieldedCreated insertNew
  split
  · rename_i hany
    by_cases heq : other = coin
    · subst heq
      rw [decide_eq_true rfl, Bool.true_or]
      exact hany
    · rw [decide_eq_false heq, Bool.false_or]
  · rw [List.any_append, Bool.or_comm]
    simp [eq_comm]

@[simp] theorem isUnshieldedCreated_delete (db : Db) (coin other : UnshieldedSpendRef) :
    (db.deleteCreatedUnshielded coin).isUnshieldedCreated other =
      (decide (other ≠ coin) && db.isUnshieldedCreated other) := by
  unfold Db.deleteCreatedUnshielded Db.isUnshieldedCreated
  rw [List.any_filter]
  by_cases heq : other = coin
  · subst heq
    simp
  · rw [decide_eq_true heq, Bool.true_and]
    refine congrArg (db.createdUnshielded.any ·) (funext fun row => ?_)
    by_cases hrow : row.1 = other
    · simp [hrow, heq]
    · simp [hrow]

/-- No live offer has a row for the nullifier. -/
def Db.FreeOfNullifier (db : Db) (nullifier : String) : Prop :=
  ∀ offer ∈ db.offerFile, ∀ row ∈ db.offerNullifiers, row.offerFileId = offer.id →
    row.value ≠ nullifier

/-- No live offer has a row for the coin. -/
def Db.FreeOfCoin (db : Db) (coin : UnshieldedSpendRef) : Prop :=
  ∀ offer ∈ db.offerFile, ∀ row ∈ db.offerSpends, row.offerFileId = offer.id → row.value ≠ coin

theorem freeOfNullifier_archived (db : Db) (nullifier : String) (archivedAt : Int) :
    (db.archiveOfferByNullifier nullifier archivedAt).FreeOfNullifier nullifier := by
  rintro offer hoffer row hrow hid rfl
  have hkept := (List.mem_filter.mp hoffer).2
  have hmem := (List.mem_filter.mp hrow).1
  have hcompetes : db.competesForNullifier row.value offer = true :=
    List.any_eq_true.mpr ⟨row, hmem, by simp [hid]⟩
  rw [hcompetes] at hkept
  cases hkept

theorem freeOfCoin_archived (db : Db) (coin : UnshieldedSpendRef) (archivedAt : Int) :
    (db.archiveOfferByUnshieldedSpend coin archivedAt).FreeOfCoin coin := by
  rintro offer hoffer row hrow hid rfl
  have hkept := (List.mem_filter.mp hoffer).2
  have hmem := (List.mem_filter.mp hrow).1
  have hcompetes : db.competesForCoin row.value offer = true :=
    List.any_eq_true.mpr ⟨row, hmem, by simp [hid]⟩
  rw [hcompetes] at hkept
  cases hkept

theorem Db.Sound.insertNullifier (h : db.Sound env ledger) {nullifier : String}
    (hfree : db.FreeOfNullifier nullifier) (height : Nat) (txHash : Option String) :
    (db.insertNullifier nullifier height txHash).Sound env ledger where
  ids := h.ids
  distinct := h.distinct
  nullifierIds := h.nullifierIds
  spendIds := h.spendIds
  listed := fun offer hoffer =>
    let ⟨result, hlisted⟩ := h.listed offer hoffer
    ⟨result, hlisted.declares, hlisted.nullifiers, hlisted.spends⟩
  unspent := by
    intro offer hoffer row hrow hid
    rw [isNullifierSpent_insertNullifier, decide_eq_false (hfree offer hoffer row hrow hid),
      h.unspent offer hoffer row hrow hid]
    rfl
  created := h.created

theorem Db.Sound.deleteCreatedUnshielded (h : db.Sound env ledger) {coin : UnshieldedSpendRef}
    (hfree : db.FreeOfCoin coin) : (db.deleteCreatedUnshielded coin).Sound env ledger where
  ids := h.ids
  distinct := h.distinct
  nullifierIds := h.nullifierIds
  spendIds := h.spendIds
  listed := fun offer hoffer =>
    let ⟨result, hlisted⟩ := h.listed offer hoffer
    ⟨result, hlisted.declares, hlisted.nullifiers, hlisted.spends⟩
  unspent := h.unspent
  created := by
    intro offer hoffer row hrow hid
    rw [isUnshieldedCreated_delete, decide_eq_true (hfree offer hoffer row hrow hid),
      h.created offer hoffer row hrow hid]
    rfl

/-- A nullifier event, as one archival and the record of the spend. -/
theorem zswapEvent_nullifier (ctx : BlockContext) (nullifier : String) (txHash : Option HexValue)
    (db : Db) : ∃ marked : Bool, zswapEvent ctx (.nullifier nullifier txHash) db =
      let spent := (db.archiveOfferByNullifier nullifier ctx.blockTimestamp).insertNullifier nullifier
        ctx.blockHeight (optionalHex txHash)
      if marked then spent.markNullifierMatched nullifier else spent :=
  ⟨_, rfl⟩

/-- A spend event, as one archival and the record of the spend. -/
theorem unshieldedSpend_coin {payload : UnshieldedPayload} {coin : UnshieldedSpendRef}
    (h : payload.coin ledger = some coin) (ctx : BlockContext) (db : Db) :
    unshieldedSpend ledger ctx payload db =
      ((db.archiveOfferByUnshieldedSpend coin ctx.blockTimestamp).insertUnshieldedSpend
        ⟨coin, optionalHex payload.txHash, ctx.blockHeight⟩).deleteCreatedUnshielded coin := by
  unfold unshieldedSpend
  rw [h]
  rfl

theorem Db.Sound.zswapEvent (h : db.Sound env ledger) (ctx : BlockContext) (event : ZswapEvent) :
    (ZswapKernel.zswapEvent ctx event db).Sound env ledger := by
  cases event with
  | commitment commitment txHash mtIndex =>
    exact h.congr rfl rfl rfl rfl (fun _ => id) (fun _ => id)
  | nullifier nullifier txHash =>
    obtain ⟨marked, hevent⟩ := zswapEvent_nullifier ctx nullifier txHash db
    have hspent := (h.archiveOffers (db.competesForNullifier nullifier) .consumed
      ctx.blockTimestamp).insertNullifier
        (freeOfNullifier_archived db nullifier ctx.blockTimestamp) ctx.blockHeight
        (optionalHex txHash)
    rw [hevent]
    cases marked with
    | false => exact hspent
    | true =>
      exact hspent.congr rfl rfl rfl rfl
        (fun other hother => (isNullifierSpent_markNullifierMatched _ _ _).trans hother)
        (fun _ => id)

theorem Db.Sound.unshieldedSpend (h : db.Sound env ledger) (ctx : BlockContext)
    (payload : UnshieldedPayload) :
    (ZswapKernel.unshieldedSpend ledger ctx payload db).Sound env ledger := by
  cases hcoin : payload.coin ledger with
  | none =>
    unfold ZswapKernel.unshieldedSpend
    rw [hcoin]
    exact h
  | some coin =>
    rw [unshieldedSpend_coin hcoin]
    have harchived := h.archiveOffers (db.competesForCoin coin) .consumed ctx.blockTimestamp
    have hrecorded : ((db.archiveOfferByUnshieldedSpend coin ctx.blockTimestamp).insertUnshieldedSpend
        ⟨coin, optionalHex payload.txHash, ctx.blockHeight⟩).Sound env ledger :=
      harchived.congr rfl rfl rfl rfl (fun _ => id) (fun _ => id)
    exact hrecorded.deleteCreatedUnshielded (freeOfCoin_archived db coin ctx.blockTimestamp)

end Spends

/-! ## Intake -/

section Intake

variable {env : NodeEnv} {ledger : Ledger} {ctx : BlockContext} {db db' : Db}
  {rawBytes : List UInt8} {result : OfferValidation} {expiresAt firstSeenAt : Int}

/-- The child rows of one offer. -/
def insertRows {α : Type} [DecidableEq α] (offerFileId : Nat) (values : List α)
    (rows : List (ChildRow α)) : List (ChildRow α) :=
  values.foldl (fun rows value => insertNew id (ChildRow.mk offerFileId value) rows) rows

theorem mem_insertRows {α : Type} [DecidableEq α] {offerFileId : Nat} {values : List α}
    {rows : List (ChildRow α)} {row : ChildRow α} : row ∈ insertRows offerFileId values rows ↔
      row ∈ rows ∨ ∃ value ∈ values, row = ⟨offerFileId, value⟩ := by
  unfold insertRows
  induction values generalizing rows with
  | nil => simp
  | cons value values ih =>
    rw [List.foldl_cons, ih]
    have hhead : row ∈ insertNew id (ChildRow.mk offerFileId value) rows ↔
        row ∈ rows ∨ row = ⟨offerFileId, value⟩ := by
      constructor
      · exact mem_insertNew
      · rintro (hrow | rfl)
        · exact mem_insertNew_of_mem hrow
        · obtain ⟨other, hother, hkey⟩ :=
            exists_mem_insertNew id (ChildRow.mk offerFileId value) rows
          exact (show other = ⟨offerFileId, value⟩ from hkey) ▸ hother
    rw [hhead, or_assoc]
    simp [List.exists_mem_cons_iff]

theorem foldl_insertOfferFileNullifier (offerFileId : Nat) (nullifiers : List String) (db : Db) :
    nullifiers.foldl (Db.insertOfferFileNullifier offerFileId) db =
      { db with offerNullifiers := insertRows offerFileId nullifiers db.offerNullifiers } := by
  induction nullifiers generalizing db with
  | nil => rfl
  | cons nullifier nullifiers ih => exact ih _

theorem foldl_insertOfferFileUnshieldedSpend (offerFileId : Nat) (coins : List UnshieldedSpendRef)
    (db : Db) : coins.foldl (Db.insertOfferFileUnshieldedSpend offerFileId) db =
      { db with offerSpends := insertRows offerFileId coins db.offerSpends } := by
  induction coins generalizing db with
  | nil => rfl
  | cons coin coins ih => exact ih _

theorem foldl_insertOfferFileCommitment (offerFileId : Nat) (commitments : List String) (db : Db) :
    commitments.foldl (Db.insertOfferFileCommitment offerFileId) db =
      { db with offerCommitments := insertRows offerFileId commitments db.offerCommitments } := by
  induction commitments generalizing db with
  | nil => rfl
  | cons commitment commitments ih => exact ih _

/-- The output rows of one offer. -/
def countOutputs (offerFileId : Nat) (outputs : List UnshieldedOutputRef)
    (rows : List (ChildRow DeclaredOutput)) : List (ChildRow DeclaredOutput) :=
  outputs.foldl (fun rows output => Db.countOutput ⟨offerFileId, ⟨output, 1⟩⟩ rows) rows

theorem foldl_insertOfferFileUnshieldedOutput (offerFileId : Nat)
    (outputs : List UnshieldedOutputRef) (db : Db) :
    outputs.foldl (Db.insertOfferFileUnshieldedOutput offerFileId) db =
      { db with offerOutputs := countOutputs offerFileId outputs db.offerOutputs } := by
  induction outputs generalizing db with
  | nil => rfl
  | cons output outputs ih => exact ih _

/-- Inserting legs changes one table. -/
theorem foldlM_insertOfferFileToken {offerFileId : Nat} {legs : List TokenLeg}
    (h : legs.foldlM (Db.insertOfferFileToken offerFileId) db = .ok db') :
    ∃ rows, db' = { db with tokens := rows } := by
  induction legs generalizing db with
  | nil =>
    cases h
    exact ⟨_, rfl⟩
  | cons leg legs ih =>
    rw [List.foldlM_cons, Except.bind_eq_ok] at h
    obtain ⟨middle, hleg, hrest⟩ := h
    unfold Db.insertOfferFileToken at hleg
    split at hleg
    · cases hleg
    · cases hleg
      obtain ⟨rows, rfl⟩ := ih hrest
      exact ⟨rows, rfl⟩

/-- **The rows of a new offer.** -/
theorem saveOfferFile_ok
    (h : saveOfferFile ledger ctx rawBytes result expiresAt firstSeenAt db = .ok db') :
    ∃ tokens, db' = { db with
      nextId := db.nextId + 1
      offerFile := db.offerFile ++
        [offerFileRow ledger ctx rawBytes expiresAt firstSeenAt db.nextId]
      offerNullifiers := insertRows db.nextId result.nullifiers db.offerNullifiers
      offerSpends := insertRows db.nextId result.unshieldedSpends db.offerSpends
      offerCommitments :=
        insertRows db.nextId (collectOutputCommitments result.tx) db.offerCommitments
      offerOutputs := countOutputs db.nextId (collectUnshieldedOutputs result.tx) db.offerOutputs
      tokens := tokens } := by
  unfold saveOfferFile at h
  simp only [foldl_insertOfferFileNullifier, foldl_insertOfferFileUnshieldedSpend,
    foldl_insertOfferFileCommitment, foldl_insertOfferFileUnshieldedOutput] at h
  rw [Except.bind_eq_ok] at h
  obtain ⟨middle, hgives, hwants⟩ := h
  obtain ⟨given, rfl⟩ := foldlM_insertOfferFileToken hgives
  obtain ⟨wanted, rfl⟩ := foldlM_insertOfferFileToken hwants
  exact ⟨wanted, rfl⟩

/-- Reconciliation finds nothing for an offer that passed the nullifier probe. -/
theorem foldl_reconcileNullifier {nullifiers : List String}
    (h : ∀ nullifier ∈ nullifiers, db.isNullifierSpent nullifier = false) (archivedEarly : Bool) :
    nullifiers.foldl (reconcileNullifier ctx) (db, archivedEarly) = (db, archivedEarly) := by
  induction nullifiers with
  | nil => rfl
  | cons nullifier nullifiers ih =>
    have hnone : db.findUnmatchedNullifier nullifier = false := by
      have hunspent := h nullifier List.mem_cons_self
      unfold Db.isNullifierSpent at hunspent
      unfold Db.findUnmatchedNullifier
      rw [List.any_eq_false] at hunspent ⊢
      intro row hrow
      have := hunspent row hrow
      rw [Bool.and_eq_true]
      exact fun hboth => this hboth.1
    have hstep : reconcileNullifier ctx (db, archivedEarly) nullifier = (db, archivedEarly) := by
      unfold reconcileNullifier
      simp only [hnone, Bool.false_eq_true, if_false]
    rw [List.foldl_cons, hstep]
    exact ih fun other hother => h other (List.mem_cons_of_mem _ hother)

/-- What an accepted blob leaves behind. -/
structure Accepts (env : NodeEnv) (ledger : Ledger) (ctx : BlockContext) (rawBytes : List UInt8)
    (db : Db) (result : OfferValidation) (expiresAt firstSeenAt : Int) (saved : Db) : Prop where
  validated : validateZswapOfferBytes ledger env.offerMaxBytes rawBytes = .ok result
  fresh : db.hasOfferHash (ledger.sha256 rawBytes) = false
  live : db.offerLiveness result (ctx.blockTimestamp - env.rootWindowMs) = .ok ()
  times : offerTimes env ledger ctx db.knownRoots result = .ok (expiresAt, firstSeenAt)
  saved : saveOfferFile ledger ctx rawBytes result expiresAt firstSeenAt db = .ok saved

/-- The verdict of the probes. -/
theorem probeLiveness_ok {rootCutoffMs : Int} {verdict : Except OfferRejection Unit}
    (h : db.probeLiveness result rootCutoffMs = .ok verdict) :
    db.offerLiveness result rootCutoffMs = verdict := by
  obtain ⟨dead, hdead, h⟩ := Except.bind_eq_ok.mp h
  rw [← Except.ok.inj h, Except.findM?_ok hdead]
  rfl

/-- No active offer claims a marker of the list. -/
theorem probeMarkers_none {markers : List DeclaredMarker} (h : db.probeMarkers markers = .ok none) :
    ∀ marker ∈ markers, db.claimedBy marker = none := by
  intro marker hmarker
  have hnone := List.find?_eq_none.mp (Except.findM?_ok h).symm marker hmarker
  simpa using hnone

/-- What intake can do: reject the blob, or save an offer whose proofs hold and whose markers nobody
claims. -/
theorem celestiaZswap_cases (h : celestiaZswap env ledger ctx rawBytes db = .ok db') :
    (∃ code, db' = rejectOffer env ctx rawBytes code db) ∨
    ∃ result expiresAt firstSeenAt saved,
      Accepts env ledger ctx rawBytes db result expiresAt firstSeenAt saved ∧
      verifyOfferCrypto ledger result.tx ctx.blockTimestamp = .ok () ∧
      (∀ marker ∈ declaredMarkers result.tx, db.claimedBy marker = none) ∧
      db' = { saved with scheduled := saved.scheduled ++ [(expiresAt, db.nextId)] } := by
  unfold celestiaZswap at h
  split at h
  · cases h
    exact .inl ⟨_, rfl⟩
  rename_i result hvalidated
  split at h
  · cases h
    exact .inl ⟨_, rfl⟩
  rename_i hfresh
  obtain ⟨liveness, hlive, h⟩ := Except.bind_eq_ok.mp h
  replace hlive := probeLiveness_ok hlive
  split at h
  · cases h
    exact .inl ⟨_, rfl⟩
  split at h
  · cases h
    exact .inl ⟨_, rfl⟩
  rename_i hcrypto
  obtain ⟨claimed, hclaimed, h⟩ := Except.bind_eq_ok.mp h
  cases claimed with
  | some marker =>
    cases h
    exact .inl ⟨_, rfl⟩
  | none =>
    obtain ⟨⟨expiresAt, firstSeenAt⟩, htimes, h⟩ := Except.bind_eq_ok.mp h
    obtain ⟨saved, hsaved, h⟩ := Except.bind_eq_ok.mp h
    have hunspent : ∀ nullifier ∈ result.nullifiers,
        saved.isNullifierSpent nullifier = false := by
      intro nullifier hmem
      obtain ⟨tokens, rfl⟩ := saveOfferFile_ok hsaved
      have := (evaluateOfferLiveness_ok hlive).1 nullifier hmem
      unfold Db.isLive at this
      exact (Bool.not_eq_true' _).mp this
    rw [foldl_reconcileNullifier hunspent] at h
    cases h
    exact .inr ⟨result, expiresAt, firstSeenAt, saved,
      ⟨hvalidated, Bool.eq_false_iff.mpr hfresh, hlive, htimes, hsaved⟩, hcrypto,
      probeMarkers_none hclaimed, rfl⟩

/-- **What intake can do**: reject the blob, or save the offer and schedule its cleanup. -/
theorem celestiaZswap_ok (h : celestiaZswap env ledger ctx rawBytes db = .ok db') :
    (∃ code, db' = rejectOffer env ctx rawBytes code db) ∨
    ∃ result expiresAt firstSeenAt saved,
      Accepts env ledger ctx rawBytes db result expiresAt firstSeenAt saved ∧
      db' = { saved with scheduled := saved.scheduled ++ [(expiresAt, db.nextId)] } := by
  rcases celestiaZswap_cases h with hreject |
    ⟨result, expiresAt, firstSeenAt, saved, haccepts, -, -, hdb⟩
  · exact .inl hreject
  · exact .inr ⟨result, expiresAt, firstSeenAt, saved, haccepts, hdb⟩

/-- An accepted offer enters sound tables. -/
theorem Db.Sound.accept (h : db.Sound env ledger) {saved : Db}
    (haccepts : Accepts env ledger ctx rawBytes db result expiresAt firstSeenAt saved) :
    saved.Sound env ledger := by
  obtain ⟨hvalidated, -, hlive, -, hsaved⟩ := haccepts
  obtain ⟨tokens, rfl⟩ := saveOfferFile_ok hsaved
  obtain ⟨hnullifiers, hcoins, -⟩ := evaluateOfferLiveness_ok hlive
  refine ⟨?_, ?_, ?_, ?_, ?_, ?_, ?_⟩
  · intro offer hoffer
    rcases List.mem_append.mp hoffer with hoffer | hoffer
    · exact Nat.lt_succ_of_lt (h.ids offer hoffer)
    · rw [List.mem_singleton.mp hoffer]
      exact Nat.lt_succ_self _
  · refine List.pairwise_append.mpr ⟨h.distinct, List.pairwise_singleton _ _, ?_⟩
    intro offer hoffer new hnew
    rw [List.mem_singleton.mp hnew]
    exact (h.ids offer hoffer).ne
  · intro row hrow
    rcases mem_insertRows.mp hrow with hrow | ⟨nullifier, -, rfl⟩
    · exact Nat.lt_succ_of_lt (h.nullifierIds row hrow)
    · exact Nat.lt_succ_self _
  · intro row hrow
    rcases mem_insertRows.mp hrow with hrow | ⟨coin, -, rfl⟩
    · exact Nat.lt_succ_of_lt (h.spendIds row hrow)
    · exact Nat.lt_succ_self _
  · intro offer hoffer
    rcases List.mem_append.mp hoffer with hoffer | hoffer
    · obtain ⟨declared, hdeclares, hn, hs⟩ := h.listed offer hoffer
      exact ⟨declared, hdeclares, fun n hmem => mem_insertRows.mpr (.inl (hn n hmem)),
        fun coin hmem => mem_insertRows.mpr (.inl (hs coin hmem))⟩
    · rw [List.mem_singleton.mp hoffer]
      exact ⟨result, ⟨rawBytes, rfl, rfl, hvalidated⟩,
        fun n hmem => mem_insertRows.mpr (.inr ⟨n, hmem, rfl⟩),
        fun coin hmem => mem_insertRows.mpr (.inr ⟨coin, hmem, rfl⟩)⟩
  · -- a row belongs to the new offer exactly when it is new
    intro offer hoffer row hrow hid
    rcases List.mem_append.mp hoffer with hoffer | hoffer <;>
      rcases mem_insertRows.mp hrow with hrow | ⟨nullifier, hmem, rfl⟩
    · exact h.unspent offer hoffer row hrow hid
    · exact absurd hid (h.ids offer hoffer).ne'
    · rw [List.mem_singleton.mp hoffer] at hid
      exact absurd hid (h.nullifierIds row hrow).ne
    · exact (Bool.not_eq_true' _).mp (hnullifiers nullifier hmem)
  · intro offer hoffer row hrow hid
    rcases List.mem_append.mp hoffer with hoffer | hoffer <;>
      rcases mem_insertRows.mp hrow with hrow | ⟨coin, hmem, rfl⟩
    · exact h.created offer hoffer row hrow hid
    · exact absurd hid (h.ids offer hoffer).ne'
    · rw [List.mem_singleton.mp hoffer] at hid
      exact absurd hid (h.spendIds row hrow).ne
    · exact hcoins coin hmem

end Intake

/-! ## Every run -/

section Run

variable {env : NodeEnv} {ledger : Ledger} {ctx : BlockContext} {db db' : Db}

/-- Every input keeps the tables sound. -/
theorem Db.Sound.processInput (h : db.Sound env ledger) {input : NodeInput}
    (hstep : ZswapKernel.processInput env ledger ctx db input = .ok db') : db'.Sound env ledger := by
  cases input with
  | celestiaZswap suppliedValue =>
    rcases celestiaZswap_ok hstep with ⟨code, rfl⟩ | ⟨_, _, _, saved, haccepts, rfl⟩
    · exact h.congr rfl rfl rfl rfl (fun _ => id) (fun _ => id)
    · exact (h.accept haccepts).congr rfl rfl rfl rfl (fun _ => id) (fun _ => id)
  | zswapEvent event =>
    cases hstep
    exact h.zswapEvent ctx event
  | unshieldedSpend payload =>
    cases hstep
    exact h.unshieldedSpend ctx payload
  | unshieldedCreate payload =>
    cases hstep
    unfold unshieldedCreate
    split
    · exact h
    · refine h.congr rfl rfl rfl rfl (fun _ => id) fun other hother => ?_
      exact (isUnshieldedCreated_insert db _ other _).trans (by rw [hother, Bool.or_true])
  | zswapRoot root =>
    cases hstep
    unfold zswapRoot
    simp only
    split
    · exact h
    · exact h.congr rfl rfl rfl rfl (fun _ => id) (fun _ => id)
  | ttlCleanup offerId =>
    obtain ⟨cutoff, -, hstep⟩ := Except.bind_eq_ok.mp hstep
    cases hstep
    exact h.archiveOffers _ _ _

/-- **Reachable tables are sound.** -/
theorem NodeRun.sound (h : NodeRun env ledger ctx db) : db.Sound env ledger := by
  induction h with
  | start ctx =>
    exact ⟨by simp, .nil, by simp, by simp, by simp, by simp, by simp⟩
  | block _ _ _ ih => exact ih
  | input _ input hstep ih => exact ih.processInput hstep

theorem foldlM_processInput_run (h : NodeRun env ledger ctx db) {inputs : List NodeInput}
    (hrun : inputs.foldlM (ZswapKernel.processInput env ledger ctx) db = .ok db') :
    NodeRun env ledger ctx db' := by
  induction inputs generalizing db with
  | nil =>
    cases hrun
    exact h
  | cons input inputs ih =>
    rw [List.foldlM_cons, Except.bind_eq_ok] at hrun
    obtain ⟨middle, hstep, hrest⟩ := hrun
    exact ih (h.input input hstep) hrest

/-- A matched offer moves to the history. -/
theorem archiveOffers_matched {offer : OfferFile} (hoffer : offer ∈ db.offerFile)
    {isMatched : OfferFile → Bool} (hmatched : isMatched offer = true) (reason : ArchiveReason)
    (archivedAt : Int) :
    offer ∉ (db.archiveOffers isMatched reason archivedAt).offerFile ∧
      ⟨offer, reason, archivedAt⟩ ∈ (db.archiveOffers isMatched reason archivedAt).history := by
  constructor
  · intro hlive
    have hkept := (List.mem_filter.mp hlive).2
    rw [hmatched] at hkept
    cases hkept
  · exact List.mem_append_right _ (List.mem_map_of_mem (List.mem_filter.mpr ⟨hoffer, hmatched⟩))

/-- The input spends a coin that backs `result`. -/
def NodeInput.Spends (ledger : Ledger) (result : OfferValidation) : NodeInput → Prop
  | .zswapEvent (.nullifier nullifier _) => nullifier ∈ result.nullifiers
  | .unshieldedSpend payload => ∃ coin ∈ result.unshieldedSpends, payload.coin ledger = some coin
  | _ => False

/-- A spend archives the offers it competes with. -/
theorem OfferFile.Listed.archived {offer : OfferFile} {result : OfferValidation}
    (h : offer.Listed env ledger db result) (hoffer : offer ∈ db.offerFile) {input : NodeInput}
    (hspends : input.Spends ledger result)
    (hstep : ZswapKernel.processInput env ledger ctx db input = .ok db') :
    offer ∉ db'.offerFile ∧ ⟨offer, .consumed, ctx.blockTimestamp⟩ ∈ db'.history := by
  cases input with
  | zswapEvent event =>
    cases event with
    | commitment commitment txHash mtIndex => cases hspends
    | nullifier nullifier txHash =>
      cases hstep
      obtain ⟨marked, hevent⟩ := zswapEvent_nullifier ctx nullifier txHash db
      have hcompetes : db.competesForNullifier nullifier offer = true :=
        List.any_eq_true.mpr ⟨_, h.nullifiers nullifier hspends, by simp⟩
      have harchived := archiveOffers_matched hoffer hcompetes .consumed ctx.blockTimestamp
      rw [hevent]
      cases marked <;> exact harchived
  | unshieldedSpend payload =>
    obtain ⟨coin, hmem, hcoin⟩ := hspends
    cases hstep
    have hcompetes : db.competesForCoin coin offer = true :=
      List.any_eq_true.mpr ⟨_, h.spends coin hmem, by simp⟩
    rw [unshieldedSpend_coin hcoin]
    exact archiveOffers_matched hoffer hcompetes .consumed ctx.blockTimestamp
  | _ => cases hspends

/-- **No live offer has a spent input.** In every reachable state the nullifiers a live offer
declares are unspent and its unshielded inputs are in the created set, and an input that spends one of
them archives the offer. -/
theorem live_offers_unspent (h : NodeRun env ledger ctx db) : ∀ offer ∈ db.offerFile,
    ∃ result, offer.Declares env ledger result ∧
      (∀ nullifier ∈ result.nullifiers, db.isNullifierSpent nullifier = false) ∧
      (∀ coin ∈ result.unshieldedSpends, db.isUnshieldedCreated coin = true) ∧
      ∀ (input : NodeInput) (db' : Db), input.Spends ledger result →
        ZswapKernel.processInput env ledger ctx db input = .ok db' →
        offer ∉ db'.offerFile ∧ ⟨offer, .consumed, ctx.blockTimestamp⟩ ∈ db'.history := by
  intro offer hoffer
  have hsound := h.sound
  obtain ⟨result, hlisted⟩ := hsound.listed offer hoffer
  exact ⟨result, hlisted.declares,
    fun nullifier hmem => hsound.unspent offer hoffer _ (hlisted.nullifiers nullifier hmem) rfl,
    fun coin hmem => hsound.created offer hoffer _ (hlisted.spends coin hmem) rfl,
    fun input db' hspends hstep => hlisted.archived hoffer hspends hstep⟩

end Run

/-! ## One live offer -/

namespace OneOffer

def env : NodeEnv := ⟨"celestia", 100, 3600, 3600, 10800⟩

/-- A transaction that spends one unshielded coin. -/
def tx : OfferTransaction where
  intents := [(1, {
    guaranteedUnshieldedOffer := some ⟨[⟨.text "aa", .text "bb", 0⟩], []⟩
    intentHash := fun _ => .text "cc"
    ttl := 7200000 })]

def ledger : Ledger where
  deserialize := fun _ => .ok tx
  addressFromKey := id
  deriveTokenLegs := fun _ => .ok ([⟨"01", "1", .unshielded⟩], [⟨"02", "1", .unshielded⟩])
  isTwoSided := fun gives wants => !gives.isEmpty && !wants.isEmpty
  wellFormed := fun _ _ => .ok ()
  earliestIntentTtl := fun _ => some 7200000
  encode := bytesToHex
  sha256 := bytesToHex
  parseAddress := fun _ => none

/-- The coin is created, then the offer is indexed. -/
def block : NodeBlock where
  blockHeight := 1
  blockTimestamp := 1000

def coin : UnshieldedPayload := ⟨some (.text "aa"), some (.text "bb"), some 0, none, none, none⟩

def inputs : List NodeInput := [.unshieldedCreate coin, .celestiaZswap [1]]

theorem live_count : ((inputs.foldlM (processInput env ledger block.toBlockContext) {}).toOption.map
    (·.offerFile.length)) = some 1 := by
  decide +kernel

end OneOffer

open OneOffer in
/-- A reachable state has a live offer, whose coin is in the created set. -/
theorem live_offers_unspent_one_offer : ∃ db, NodeRun env ledger block.toBlockContext db ∧
    ∃ offer ∈ db.offerFile, ∃ result, offer.Declares env ledger result ∧
      ∀ coin ∈ result.unshieldedSpends, db.isUnshieldedCreated coin = true := by
  have hcount := live_count
  cases hrun : inputs.foldlM (processInput env ledger block.toBlockContext) {} with
  | error message =>
    rw [hrun] at hcount
    cases hcount
  | ok db =>
    have hreachable := foldlM_processInput_run (.start block.toBlockContext) hrun
    rw [hrun] at hcount
    have hlength : db.offerFile.length = 1 := Option.some.inj hcount
    obtain ⟨offer, hoffers⟩ := List.length_eq_one_iff.mp hlength
    have hmem : offer ∈ db.offerFile := hoffers ▸ List.mem_singleton.mpr rfl
    obtain ⟨result, hdeclares, -, hcreated, -⟩ := live_offers_unspent hreachable offer hmem
    exact ⟨db, hreachable, offer, hmem, result, hdeclares, hcreated⟩

end ZswapKernel
