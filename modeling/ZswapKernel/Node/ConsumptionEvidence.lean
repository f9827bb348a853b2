import ZswapKernel.Lib.LeftJoin
import ZswapKernel.Node.ArchiveMove
import ZswapKernel.Node.FillVerdict

/-!
# Consumption evidence

`getOfferConsumptionEvidence` of `packages/database/sql/queries.app.ts`: the ledger transaction and
the height of a settlement, reported when every declared marker of an archived offer landed there.
The query counts and compares over joins; the cancel predicates are separate texts over the same
rows.

* `markerEvidence_landed` — what the counts and bounds of a join say of every marker.
* `shieldedCancelled_landed` — markers that landed together exclude a cancel.
* `NodeRun.declared` — the archived rows list what the offer's bytes declare.
* `consumption_evidence_sound` — what reported evidence means.
-/

namespace ZswapKernel

/-! ## The query -/

/-- A row of `nullifiers` or of `commitments`. -/
structure MarkerRow where
  marker : String
  txHash : Option String
  height : Nat
  deriving DecidableEq, Repr

def NullifierRow.toMarkerRow (row : NullifierRow) : MarkerRow :=
  ⟨row.nullifier, row.txHash, row.height⟩

def CommitmentRow.toMarkerRow (row : CommitmentRow) : MarkerRow :=
  ⟨row.commitment, row.txHash, row.height⟩

/-- `input_evidence` or `output_evidence`. -/
structure MarkerEvidence where
  declaredCount : Nat
  boundCount : Nat
  txCount : Nat
  txHash : Option String
  minHeight : Option Nat
  maxHeight : Option Nat
  deriving DecidableEq, Repr

/-- The rows with a hash that the declared markers join. -/
def boundRows (declared : List String) (rows : List MarkerRow) : List MarkerRow :=
  (leftJoin (fun marker row => row.marker = marker) declared rows).filterMap fun joined =>
    joined.2.filter (·.txHash.isSome)

def markerEvidence (declared : List String) (rows : List MarkerRow) : MarkerEvidence :=
  let bound := boundRows declared rows
  { declaredCount := (leftJoin (fun marker row => row.marker = marker) declared rows).length
    boundCount := bound.length
    txCount := (bound.filterMap (·.txHash)).dedup.length
    txHash := (bound.filterMap (·.txHash)).min?
    minHeight := (bound.map (·.height)).min?
    maxHeight := (bound.map (·.height)).max? }

/-- A row of `target`. -/
structure EvidenceTarget where
  id : Nat
  isLive : Bool
  status : FillStatus
  deriving DecidableEq, Repr

/-- `target`, before `LIMIT 1`. -/
def Db.evidenceTargets (db : Db) (offerHash : String) : List EvidenceTarget :=
  (db.offerFile.filter (·.offerHash = offerHash)).map (⟨·.id, true, .live⟩) ++
    (db.history.filter (·.offerHash = offerHash)).map fun entry =>
      ⟨entry.id, false, db.archivedStatus entry⟩

namespace EvidenceTarget

variable (db : Db) (target : EvidenceTarget)

/-- The declared markers that the target joins: a live offer joins none. -/
def declaredNullifiers : List String :=
  if target.isLive then []
  else (db.offerNullifiersHistory.filter (·.offerFileId = target.id)).map (·.value)

def declaredCommitments : List String :=
  if target.isLive then []
  else (db.offerCommitmentsHistory.filter (·.offerFileId = target.id)).map (·.value)

def inputEvidence : MarkerEvidence :=
  markerEvidence (target.declaredNullifiers db) (db.nullifiers.map (·.toMarkerRow))

def outputEvidence : MarkerEvidence :=
  markerEvidence (target.declaredCommitments db) (db.commitments.map (·.toMarkerRow))

/-- The conjuncts of `positive` about markers and legs. -/
def settledTogether : Bool :=
  let i := target.inputEvidence db
  let o := target.outputEvidence db
  0 < i.declaredCount && i.boundCount = i.declaredCount &&
    i.txCount = 1 && sqlEq i.minHeight i.maxHeight &&
    0 < o.declaredCount && o.boundCount = o.declaredCount &&
    o.txCount = 1 && sqlEq o.minHeight o.maxHeight &&
    sqlEq i.txHash o.txHash && sqlEq i.minHeight o.minHeight &&
    !(db.offerSpendsHistory.any (·.offerFileId = target.id)) &&
    !(db.offerOutputsHistory.any (·.offerFileId = target.id)) &&
    !(db.tokensHistory.any fun row => row.offerFileId = target.id && row.value.kind ≠ .shielded)

/-- `positive`. -/
def positive : Bool :=
  target.status = .consumed && !target.isLive && target.settledTogether db

end EvidenceTarget

/-- A row of the answer. -/
structure ConsumptionEvidence where
  status : String
  ledgerTxHash : Option String
  ledgerHeight : Option String
  deriving DecidableEq, Repr

def Db.getOfferConsumptionEvidence (db : Db) (offerHash : String) : List ConsumptionEvidence :=
  ((db.evidenceTargets offerHash).take 1).map fun target =>
    { status := target.status.text
      ledgerTxHash := if target.positive db then (target.inputEvidence db).txHash else none
      ledgerHeight := if target.positive db then
        (target.inputEvidence db).minHeight.map fun height : Nat => decimal height else none }

/-! ## Markers that landed together -/

/-- The marker is recorded, in this transaction and at this height only. -/
structure LandedIn (rows : List MarkerRow) (txHash : String) (height : Nat) (marker : String) :
    Prop where
  recorded : ∃ row ∈ rows, row.marker = marker
  only : ∀ row ∈ rows, row.marker = marker → row.txHash = some txHash ∧ row.height = height

/-- **The counts and the bounds speak of every marker.** -/
theorem markerEvidence_landed {declared : List String} {rows : List MarkerRow} {txHash : String}
    {height : Nat}
    (hbound : (markerEvidence declared rows).boundCount =
      (markerEvidence declared rows).declaredCount)
    (hdistinct : (markerEvidence declared rows).txCount = 1)
    (htx : (markerEvidence declared rows).txHash = some txHash)
    (hmin : (markerEvidence declared rows).minHeight = some height)
    (hmax : (markerEvidence declared rows).maxHeight = some height) :
    ∀ marker ∈ declared, LandedIn rows txHash height marker := by
  intro marker hmarker
  have hall := List.filterMap_length_eq_length.mp hbound
  refine ⟨?_, fun row hrow hkey => ?_⟩
  · obtain ⟨joined, hjoined⟩ := exists_mem_leftJoin
      (fun marker (row : MarkerRow) => decide (row.marker = marker)) rows hmarker
    obtain ⟨row, hrow⟩ := Option.isSome_iff_exists.mp (hall _ hjoined)
    obtain ⟨hsome, -⟩ := Option.filter_eq_some_iff.mp hrow
    have hsome : joined = some row := hsome
    rw [hsome] at hjoined
    obtain ⟨-, hmem, hkey⟩ := mem_leftJoin_some.mp hjoined
    exact ⟨row, hmem, of_decide_eq_true hkey⟩
  · have hjoined : (marker, some row) ∈ leftJoin (fun marker row => row.marker = marker) declared
        rows := mem_leftJoin_some.mpr ⟨hmarker, hrow, decide_eq_true hkey⟩
    have hsome : row.txHash.isSome = true := by
      obtain ⟨other, hother⟩ := Option.isSome_iff_exists.mp (hall _ hjoined)
      obtain ⟨heq, hhash⟩ := Option.filter_eq_some_iff.mp hother
      cases heq
      exact hhash
    have hmem : row ∈ boundRows declared rows :=
      List.mem_filterMap.mpr ⟨_, hjoined, Option.filter_eq_some_iff.mpr ⟨rfl, hsome⟩⟩
    obtain ⟨hash, hhash⟩ := Option.isSome_iff_exists.mp hsome
    refine ⟨?_, eq_of_bounds hmin hmax (List.mem_map_of_mem hmem)⟩
    rw [hhash, eq_of_distinct hdistinct (List.mem_filterMap.mpr ⟨row, hmem, hhash⟩)
      (List.min?_mem htx)]

/-- The row by primary key. -/
theorem LandedIn.find? {α : Type} {rows : List α} {toMarkerRow : α → MarkerRow} {txHash : String}
    {height : Nat} {marker : String} (h : LandedIn (rows.map toMarkerRow) txHash height marker) :
    (rows.find? fun row => (toMarkerRow row).marker = marker).map (fun row =>
      (toMarkerRow row).txHash) = some (some txHash) := by
  obtain ⟨_, hmarker, hkey⟩ := h.recorded
  obtain ⟨row, hrow, rfl⟩ := List.mem_map.mp hmarker
  cases hfind : rows.find? fun row => (toMarkerRow row).marker = marker with
  | none => exact absurd (decide_eq_true hkey) (List.find?_eq_none.mp hfind row hrow)
  | some found =>
    have hfound : (toMarkerRow found).marker = marker := by simpa using List.find?_some hfind
    have hmem := List.mem_map_of_mem (f := toMarkerRow) (List.mem_of_find?_eq_some hfind)
    rw [Option.map_some, (h.only _ hmem hfound).1]

theorem LandedIn.recordedNullifier {db : Db} {txHash : String} {height : Nat} {nullifier : String}
    (h : LandedIn (db.nullifiers.map (·.toMarkerRow)) txHash height nullifier) :
    db.recordedTx (.nullifier nullifier) = some (some txHash) := h.find?

theorem LandedIn.recordedCommitment {db : Db} {txHash : String} {height : Nat} {commitment : String}
    (h : LandedIn (db.commitments.map (·.toMarkerRow)) txHash height commitment) :
    db.recordedTx (.commitment commitment) = some (some txHash) := h.find?

/-- Inputs that all landed in one transaction name it. -/
theorem knownTxs_landed {db : Db} {inputs : List ChainFact} {txHash : String} (hne : inputs ≠ [])
    (h : ∀ input ∈ inputs, db.recordedTx input = some (some txHash)) :
    db.knownTxs inputs = [txHash] := by
  have hspending : db.spendingTxs inputs = List.replicate inputs.length (some txHash) := by
    unfold Db.spendingTxs
    refine List.eq_replicate_iff.mpr ⟨?_, fun hash hhash => ?_⟩
    · exact List.filterMap_length_eq_length.mpr fun input hinput => by rw [h input hinput]; rfl
    · obtain ⟨input, hinput, heq⟩ := List.mem_filterMap.mp hhash
      rw [h input hinput] at heq
      exact (Option.some.inj heq).symm
  unfold Db.knownTxs
  rw [hspending, List.filterMap_replicate_of_some (f := id) rfl]
  exact List.replicate_dedup (by rwa [Ne, List.length_eq_zero_iff])

/-- **Markers that landed together exclude a cancel**: the shielded predicate finds no branch. -/
theorem shieldedCancelled_landed {db : Db} {offerId : Nat} {txHash : String}
    (hne : db.archivedNullifiers offerId ≠ [])
    (hinputs : ∀ input ∈ db.archivedNullifiers offerId, db.recordedTx input = some (some txHash))
    (hmarkers : ∀ marker ∈ db.archivedCommitments offerId,
      db.recordedTx marker = some (some txHash)) : db.shieldedCancelled offerId = false := by
  have hwhole : db.isPartial (db.archivedNullifiers offerId) = false := by
    refine List.any_eq_false.mpr fun input hinput hnone => ?_
    rw [hinputs input hinput] at hnone
    cases of_decide_eq_true hnone
  have hunmarked : ((db.archivedCommitments offerId).any fun marker =>
      db.recordedTx marker ≠ some (some txHash)) = false :=
    List.any_eq_false.mpr fun marker hmarker hne =>
      of_decide_eq_true hne (hmarkers marker hmarker)
  have hknown := knownTxs_landed hne hinputs
  unfold Db.shieldedCancelled
  simp only [hwhole, hknown, List.length_singleton, List.min?_singleton, hunmarked]
  simp

section Target

variable {db : Db} {target : EvidenceTarget}

/-- The conjuncts of a positive row. -/
theorem settledTogether_landed (h : target.settledTogether db = true) :
    ∃ txHash height, (target.inputEvidence db).txHash = some txHash ∧
      (target.inputEvidence db).minHeight = some height ∧
      (∀ nullifier ∈ target.declaredNullifiers db,
        LandedIn (db.nullifiers.map (·.toMarkerRow)) txHash height nullifier) ∧
      ∀ commitment ∈ target.declaredCommitments db,
        LandedIn (db.commitments.map (·.toMarkerRow)) txHash height commitment := by
  unfold EvidenceTarget.settledTogether at h
  simp only [Bool.and_eq_true, decide_eq_true_eq, sqlEq_iff] at h
  obtain ⟨⟨⟨⟨⟨⟨⟨⟨⟨⟨⟨⟨-, hinputs⟩, hinputTx⟩, height, hmin, hmax⟩, -⟩, houtputs⟩, houtputTx⟩,
    height', hmin', hmax'⟩, txHash, htx, htx'⟩, height'', hsame, hsame'⟩, -⟩, -⟩, -⟩ := h
  obtain rfl : height'' = height := Option.some.inj (hsame.symm.trans hmin)
  obtain rfl : height' = height'' := Option.some.inj (hmin'.symm.trans hsame')
  exact ⟨txHash, height', htx, hmin, markerEvidence_landed hinputs hinputTx htx hmin hmax,
    markerEvidence_landed houtputs houtputTx htx' hmin' hmax'⟩

/-- The markers and legs of a positive row decide the cancel predicates too. -/
theorem settledTogether_not_cancelled (hlive : target.isLive = false)
    (h : target.settledTogether db = true) : db.cancelled target.id = false := by
  obtain ⟨txHash, height, -, -, hinputs, houtputs⟩ := settledTogether_landed h
  unfold EvidenceTarget.declaredNullifiers at hinputs
  unfold EvidenceTarget.declaredCommitments at houtputs
  rw [hlive, if_neg Bool.false_ne_true] at hinputs houtputs
  unfold EvidenceTarget.settledTogether at h
  simp only [Bool.and_eq_true, decide_eq_true_eq] at h
  obtain ⟨⟨⟨⟨⟨⟨⟨⟨⟨⟨⟨⟨hdeclared, -⟩, -⟩, -⟩, -⟩, -⟩, -⟩, -⟩, -⟩, -⟩, -⟩, hnone⟩, -⟩ := h
  have hne : db.archivedNullifiers target.id ≠ [] := by
    intro hnil
    have hrows : target.declaredNullifiers db = [] := by
      unfold EvidenceTarget.declaredNullifiers
      rw [hlive, if_neg Bool.false_ne_true, List.map_eq_nil_iff]
      exact List.map_eq_nil_iff.mp hnil
    unfold EvidenceTarget.inputEvidence markerEvidence at hdeclared
    rw [hrows] at hdeclared
    exact absurd hdeclared (Nat.lt_irrefl 0)
  have houtputsNone : db.archivedOutputs target.id = [] := by
    unfold Db.archivedOutputs
    rw [List.map_eq_nil_iff, List.filter_eq_nil_iff]
    intro row hrow hid
    have hany : db.offerOutputsHistory.any (·.offerFileId = target.id) = true :=
      List.any_eq_true.mpr ⟨row, hrow, hid⟩
    rw [hany] at hnone
    cases hnone
  have hspent : ∀ input ∈ db.archivedNullifiers target.id,
      db.recordedTx input = some (some txHash) := by
    intro input hinput
    obtain ⟨row, hrow, rfl⟩ := List.mem_map.mp hinput
    exact (hinputs _ (List.mem_map_of_mem hrow)).recordedNullifier
  have hcreated : ∀ marker ∈ db.archivedCommitments target.id,
      db.recordedTx marker = some (some txHash) := by
    intro marker hmarker
    obtain ⟨row, hrow, rfl⟩ := List.mem_map.mp hmarker
    exact (houtputs _ (List.mem_map_of_mem hrow)).recordedCommitment
  have hshielded := shieldedCancelled_landed hne hspent hcreated
  unfold Db.cancelled Db.unshieldedCancelled
  rw [hshielded, houtputsNone]
  rfl

end Target

/-! ## What the rows list -/

/-- The child rows list what the bytes of the offer declare. -/
def OfferFileRow.Lists (env : NodeEnv) (ledger : Ledger)
    (nullifiers commitments : List (ChildRow String)) (row : OfferFileRow) : Prop :=
  ∃ rawBytes result, row.transactionHex = ledger.encode rawBytes ∧
    row.offerHash = ledger.sha256 rawBytes ∧
    validateZswapOfferBytes ledger env.offerMaxBytes rawBytes = .ok result ∧
    (∀ nullifier ∈ result.nullifiers, ⟨row.id, nullifier⟩ ∈ nullifiers) ∧
    ∀ commitment ∈ collectOutputCommitments result.tx, ⟨row.id, commitment⟩ ∈ commitments

/-- The live and the archived rows do. -/
structure OfferTables.Declared (env : NodeEnv) (ledger : Ledger) (t : OfferTables) : Prop where
  live : ∀ row ∈ t.offerFile, row.Lists env ledger t.nullifiers t.commitments
  archived : ∀ row ∈ t.history, row.toOfferFileRow.Lists env ledger
    (t.nullifiersHistory.map (·.toChildRow)) t.commitmentsHistory

section Declared

variable {env : NodeEnv} {ledger : Ledger} {ctx : BlockContext} {db : Db}

theorem OfferFileRow.Lists.mono {row other : OfferFileRow}
    {nullifiers commitments nullifiers' commitments' : List (ChildRow String)}
    (h : row.Lists env ledger nullifiers commitments) (hid : other.id = row.id)
    (hhex : other.transactionHex = row.transactionHex) (hhash : other.offerHash = row.offerHash)
    (hnullifiers : ∀ child ∈ nullifiers, child.offerFileId = row.id → child ∈ nullifiers')
    (hcommitments : ∀ child ∈ commitments, child.offerFileId = row.id → child ∈ commitments') :
    other.Lists env ledger nullifiers' commitments' := by
  obtain ⟨rawBytes, result, hencode, hsha, hvalid, hlistedNullifiers, hlistedCommitments⟩ := h
  refine ⟨rawBytes, result, hhex.trans hencode, hhash.trans hsha, hvalid, ?_, ?_⟩
  · intro nullifier hmem
    rw [hid]
    exact hnullifiers _ (hlistedNullifiers nullifier hmem) rfl
  · intro commitment hmem
    rw [hid]
    exact hcommitments _ (hlistedCommitments commitment hmem) rfl

theorem OfferTables.Declared.moved {t : OfferTables} (h : t.Declared env ledger)
    (matched : List Nat) (reason : ArchiveReason) (archivedAt : Int) :
    (t.moved matched reason archivedAt).Declared env ledger where
  live row hrow := by
    obtain ⟨hmem, hkept⟩ := List.mem_filter.mp hrow
    refine (h.live row hmem).mono rfl rfl rfl ?_ ?_
    · rintro child hchild hid
      exact List.mem_filter.mpr ⟨hchild, by rw [hid]; exact hkept⟩
    · rintro child hchild hid
      exact List.mem_filter.mpr ⟨hchild, by rw [hid]; exact hkept⟩
  archived entry hentry := by
    rcases List.mem_append.mp hentry with hold | hnew
    · refine (h.archived entry hold).mono rfl rfl rfl (fun child hchild _ => ?_)
        fun child hchild _ => List.mem_append_left _ hchild
      unfold OfferTables.moved
      rw [List.map_append]
      exact List.mem_append_left _ hchild
    · obtain ⟨row, hrow, rfl⟩ := List.mem_map.mp hnew
      obtain ⟨hmem, hmatched⟩ := List.mem_filter.mp hrow
      refine (h.live row hmem).mono rfl rfl rfl (fun child hchild hid => ?_)
        fun child hchild hid => ?_
      · have hcopied : child ∈ rowsOf matched t.nullifiers :=
          List.mem_filter.mpr ⟨hchild, by rw [hid]; exact hmatched⟩
        unfold OfferTables.moved
        rw [List.map_append, List.map_map]
        exact List.mem_append_right _ (List.mem_map.mpr ⟨child, hcopied, rfl⟩)
      · exact List.mem_append_right _ (List.mem_filter.mpr ⟨hchild, by rw [hid]; exact hmatched⟩)

/-- **The rows of every reachable state list what the offers declare.** -/
theorem NodeRun.declared (h : NodeRun env ledger ctx db) : (db.tables {}).Declared env ledger := by
  refine h.tables_induction ⟨fun _ hmem => absurd hmem List.not_mem_nil,
    fun _ hmem => absurd hmem List.not_mem_nil⟩ (fun t matched reason archivedAt ih =>
    ih.moved matched reason archivedAt) ?_
  intro ctx rawBytes db result expiresAt firstSeenAt saved haccepts ih
  obtain ⟨tokens, rfl⟩ := saveOfferFile_ok haccepts.saved
  refine ⟨fun row hrow => ?_, ih.archived⟩
  obtain ⟨offer, hoffer, rfl⟩ := List.mem_map.mp hrow
  rcases List.mem_append.mp hoffer with hold | hnew
  · exact (ih.live _ (List.mem_map_of_mem hold)).mono rfl rfl rfl
      (fun child hchild _ => mem_insertRows.mpr (.inl hchild))
      fun child hchild _ => mem_insertRows.mpr (.inl hchild)
  · rw [List.mem_singleton.mp hnew]
    exact ⟨rawBytes, result, rfl, rfl, haccepts.validated,
      fun nullifier hmem => mem_insertRows.mpr (.inr ⟨nullifier, hmem, rfl⟩),
      fun commitment hmem => mem_insertRows.mpr (.inr ⟨commitment, hmem, rfl⟩)⟩

end Declared

/-! ## Soundness -/

section Soundness

variable {env : NodeEnv} {ledger : Ledger} {ctx : BlockContext} {db : Db}

/-- `LIMIT 1` drops nothing: a hash names one offer, live or archived. -/
theorem evidenceTargets_length (h : NodeRun env ledger ctx db) (offerHash : String) :
    (db.evidenceTargets offerHash).length ≤ 1 := by
  have hcount : (db.evidenceTargets offerHash).length =
      (db.offerHashes.filter (· = offerHash)).length := by
    unfold Db.evidenceTargets Db.offerHashes
    rw [List.filter_append, List.filter_map, List.filter_map, List.length_append,
      List.length_append, List.length_map, List.length_map, List.length_map, List.length_map]
    rfl
  rw [hcount, ← List.countP_eq_length_filter]
  have hnodup := List.nodup_iff_count_le_one.mp h.identity.hashes offerHash
  rwa [List.count_eq_countP] at hnodup

/-- **Positive consumption evidence is sound.** In every reachable state and for every hash,
evidence with a transaction and a height names an archived offer, consumed and not live; every
nullifier and every commitment that its bytes declare is recorded in that transaction at that
height, and nowhere else; and no cancel predicate holds of it, by those records alone. -/
theorem consumption_evidence_sound (h : NodeRun env ledger ctx db) (offerHash : String) :
    (db.evidenceTargets offerHash).length ≤ 1 ∧
    (∀ target ∈ db.evidenceTargets offerHash, target.isLive = false →
      target.settledTogether db = true → db.cancelled target.id = false) ∧
    ∀ evidence ∈ db.getOfferConsumptionEvidence offerHash, ∀ txHash heightText,
      evidence.ledgerTxHash = some txHash → evidence.ledgerHeight = some heightText →
      evidence.status = FillStatus.consumed.text ∧
      ∃ height : Nat, heightText = decimal height ∧ ∃ entry ∈ db.history,
        entry.offerHash = offerHash ∧ entry.archiveReason = .consumed ∧
        (∀ offer ∈ db.offerFile, offer.offerHash ≠ offerHash) ∧
        (∃ result, entry.toOfferFile.Declares env ledger result ∧
          (∀ nullifier ∈ result.nullifiers,
            LandedIn (db.nullifiers.map (·.toMarkerRow)) txHash height nullifier) ∧
          ∀ commitment ∈ collectOutputCommitments result.tx,
            LandedIn (db.commitments.map (·.toMarkerRow)) txHash height commitment) ∧
        db.shieldedCancelled entry.id = false ∧ db.unshieldedCancelled entry.id = false ∧
        db.adjudicateOfferFill entry.id = true := by
  refine ⟨evidenceTargets_length h offerHash,
    fun target _ hlive hsettled => settledTogether_not_cancelled hlive hsettled,
    fun evidence hevidence txHash heightText htx hheight => ?_⟩
  obtain ⟨target, htarget, rfl⟩ := List.mem_map.mp hevidence
  obtain ⟨hpositive, htx⟩ := Option.ite_none_right_eq_some.mp htx
  obtain ⟨-, hheight⟩ := Option.ite_none_right_eq_some.mp hheight
  unfold EvidenceTarget.positive at hpositive
  rw [Bool.and_eq_true, Bool.and_eq_true, decide_eq_true_eq, Bool.not_eq_true'] at hpositive
  obtain ⟨⟨hstatus, hlive⟩, hsettled⟩ := hpositive
  obtain ⟨tx, height, htx', hmin, hinputs, houtputs⟩ := settledTogether_landed hsettled
  obtain rfl : tx = txHash := Option.some.inj (htx'.symm.trans htx)
  rw [hmin] at hheight
  have hnone := settledTogether_not_cancelled hlive hsettled
  refine ⟨congrArg FillStatus.text hstatus, height, (Option.some.inj hheight).symm, ?_⟩
  rcases List.mem_append.mp (List.mem_of_mem_take htarget) with hmem | hmem
  · obtain ⟨offer, -, rfl⟩ := List.mem_map.mp hmem
    cases hlive
  obtain ⟨entry, hentry, rfl⟩ := List.mem_map.mp hmem
  obtain ⟨hentry, hhash⟩ := List.mem_filter.mp hentry
  have hhash : entry.offerHash = offerHash := of_decide_eq_true hhash
  have hreason : entry.archiveReason = .consumed := by
    by_contra hother
    unfold Db.archivedStatus at hstatus
    rw [if_pos hother] at hstatus
    cases hstatus
  obtain ⟨rawBytes, result, hencode, hsha, hvalid, hnullifiers, hcommitments⟩ :=
    h.declared.archived (entry.toRow {}) (List.mem_map_of_mem hentry)
  obtain ⟨hshielded, hunshielded⟩ := Bool.or_eq_false_iff.mp hnone
  refine ⟨entry, hentry, hhash, hreason, hhash ▸ h.identity.archived_not_live hentry,
    ⟨result, ⟨rawBytes, hencode, hsha, hvalid⟩, fun nullifier hmem => ?_,
      fun commitment hmem => ?_⟩,
    hshielded, hunshielded, by unfold Db.adjudicateOfferFill; rw [hnone]; rfl⟩
  · obtain ⟨row, hrow, hchild⟩ := List.mem_map.mp (hnullifiers nullifier hmem)
    refine hinputs nullifier (List.mem_map.mpr ⟨row, List.mem_filter.mpr ⟨hrow, ?_⟩, ?_⟩)
    · exact decide_eq_true (congrArg (·.offerFileId) hchild)
    · exact congrArg (·.value) hchild
  · exact houtputs commitment (List.mem_map.mpr ⟨_, List.mem_filter.mpr
      ⟨hcommitments commitment hmem, decide_eq_true rfl⟩, rfl⟩)

end Soundness

namespace SplitSpend

/-- One transaction creates the output and spends both coins. -/
def settled : Db :=
  zswapEvent second (.nullifier (nullifierOf 2) (some (.text "aa")))
    (zswapEvent second (.nullifier (nullifierOf 1) (some (.text "aa")))
      (zswapEvent second (.commitment (.text "c0") (some (.text "aa")) none) indexed))

theorem settled_run : NodeRun env ledger second settled := by
  have hindexed : NodeRun env ledger first indexed :=
    ((NodeRun.start first).input (.zswapRoot (some "04")) rfl).input (.celestiaZswap [1])
      indexed_step
  have hblock : NodeRun env ledger second indexed :=
    hindexed.block (show first.blockHeight < second.blockHeight by decide) (by decide)
  exact ((hblock.input (.zswapEvent (.commitment (.text "c0") (some (.text "aa")) none)) rfl).input
    (.zswapEvent (.nullifier (nullifierOf 1) (some (.text "aa")))) rfl).input
      (.zswapEvent (.nullifier (nullifierOf 2) (some (.text "aa")))) rfl

theorem settled_evidence : settled.getOfferConsumptionEvidence (ledger.sha256 [1]) =
    [⟨"consumed", some "aa", some "2"⟩] := by
  decide +kernel

end SplitSpend

open SplitSpend in
/-- The two-coin offer, settled in block 2; a split spend of it has no evidence. -/
theorem consumption_evidence_sound_settled :
    (∃ height : Nat, "2" = decimal height ∧ ∃ entry ∈ settled.history,
      entry.archiveReason = .consumed ∧ settled.adjudicateOfferFill entry.id = true) ∧
    (completed (some (.text "bb"))).getOfferConsumptionEvidence (ledger.sha256 [1]) =
      [⟨"cancelled", none, none⟩] := by
  obtain ⟨-, -, hsound⟩ := consumption_evidence_sound settled_run (ledger.sha256 [1])
  rw [settled_evidence] at hsound
  obtain ⟨-, height, hheight, entry, hentry, -, hconsumed, -, -, -, -, hsettled⟩ :=
    hsound _ (List.mem_singleton.mpr rfl) "aa" "2" rfl rfl
  exact ⟨⟨height, hheight, entry, hentry, hconsumed, hsettled⟩, by decide +kernel⟩

end ZswapKernel
