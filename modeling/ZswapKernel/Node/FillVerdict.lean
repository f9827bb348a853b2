import Mathlib.Data.List.Dedup
import ZswapKernel.Node.OfferIdentity

/-!
# The fill verdict

An archived offer was filled or cancelled, by the evidence of the chain tables:
`cancelledPredicate` of `packages/database`. `adjudicateOfferFill` stores the verdict once, after
the archiving block, and `archivedStatusCase` recomputes it at each read.

* `Db.cancelled` — the predicate.
* `processInput_recordedTx` — what one input does to the chain tables.
* `fill_verdict_stable_iff` — when the two verdicts agree.
-/

namespace ZswapKernel

/-! ## Evidence -/

/-- An effect of a transaction that the node records. -/
inductive ChainFact
  | nullifier (nullifier : String)
  | spend (coin : UnshieldedSpendRef)
  | commitment (commitment : String)
  | create (coin : UnshieldedSpendRef)
  deriving DecidableEq, Repr

namespace Db

/-- The row of an effect, by primary key: the transaction it reports. -/
def recordedTx (db : Db) : ChainFact → Option (Option String)
  | .nullifier nullifier => (db.nullifiers.find? (·.nullifier = nullifier)).map (·.txHash)
  | .spend coin => (db.unshieldedSpends.find? (·.coin = coin)).map (·.txHash)
  | .commitment commitment => (db.commitments.find? (·.commitment = commitment)).map (·.txHash)
  | .create coin => (db.unshieldedCreates.find? (·.coin = coin)).map (·.txHash)

/-- `offer_file_nullifiers_history` of one offer. -/
def archivedNullifiers (db : Db) (offerId : Nat) : List ChainFact :=
  (db.offerNullifiersHistory.filter (·.offerFileId = offerId)).map (.nullifier ·.value)

/-- `offer_file_unshielded_spends_history` of one offer. -/
def archivedSpends (db : Db) (offerId : Nat) : List ChainFact :=
  (db.offerSpendsHistory.filter (·.offerFileId = offerId)).map (.spend ·.value)

/-- `offer_file_commitments_history` of one offer. -/
def archivedCommitments (db : Db) (offerId : Nat) : List ChainFact :=
  (db.offerCommitmentsHistory.filter (·.offerFileId = offerId)).map (.commitment ·.value)

/-- `offer_file_unshielded_outputs_history` of one offer. -/
def archivedOutputs (db : Db) (offerId : Nat) : List ChainFact :=
  (db.offerOutputsHistory.filter (·.offerFileId = offerId)).map
    (.create ·.value.toUnshieldedSpendRef)

/-! ## The predicate -/

/-- Some input never landed. -/
def isPartial (db : Db) (inputs : List ChainFact) : Bool := inputs.any (db.recordedTx · = none)

/-- The reported transactions of the inputs that landed. -/
def spendingTxs (db : Db) (inputs : List ChainFact) : List (Option String) :=
  inputs.filterMap db.recordedTx

/-- `DISTINCT tx_hash`: a missing hash does not count. -/
def knownTxs (db : Db) (inputs : List ChainFact) : List String :=
  ((db.spendingTxs inputs).filterMap id).dedup

/-- `shieldedCancelledPredicate`: a partial spend, a split spend, or one transaction without the
offer's own commitments. -/
def shieldedCancelled (db : Db) (offerId : Nat) : Bool :=
  let inputs := db.archivedNullifiers offerId
  db.isPartial inputs || decide (1 < (db.knownTxs inputs).length) ||
    (decide ((db.knownTxs inputs).length = 1) && decide (none ∉ db.spendingTxs inputs) &&
      (db.archivedCommitments offerId).any fun marker =>
        db.recordedTx marker ≠ some (db.knownTxs inputs).min?)

/-- `unshieldedCancelledPredicate`: nothing without declared outputs; otherwise a partial spend, a
split spend, or a declared output that was not created. -/
def unshieldedCancelled (db : Db) (offerId : Nat) : Bool :=
  let inputs := db.archivedSpends offerId
  !(db.archivedOutputs offerId).isEmpty &&
    (db.isPartial inputs || decide (1 < (db.knownTxs inputs).length) ||
      (db.archivedOutputs offerId).any fun marker => db.recordedTx marker = none)

/-- `cancelledPredicate`. -/
def cancelled (db : Db) (offerId : Nat) : Bool :=
  db.shieldedCancelled offerId || db.unshieldedCancelled offerId

/-- `adjudicateOfferFill`: `settled`. -/
def adjudicateOfferFill (db : Db) (offerId : Nat) : Bool := !db.cancelled offerId

end Db

inductive FillStatus
  | live
  | expired
  | cancelled
  | consumed
  deriving DecidableEq, Repr

def FillStatus.text : FillStatus → String
  | .live => "live"
  | .expired => "expired"
  | .cancelled => "cancelled"
  | .consumed => "consumed"

/-- `archivedStatusCase`. -/
def Db.archivedStatus (db : Db) (entry : OfferFileHistory) : FillStatus :=
  if entry.archiveReason ≠ .consumed then .expired
  else if db.cancelled entry.id then .cancelled
  else .consumed

/-- `getOfferStatusByHash`, the live rows first. -/
def Db.getOfferStatusByHash (db : Db) (offerHash : String) : List FillStatus :=
  (db.offerFile.filter (·.offerHash = offerHash)).map (fun _ => .live) ++
    (db.history.filter (·.offerHash = offerHash)).map db.archivedStatus

/-! ## The chain tables -/

/-- The effect an input reports, with the hash it carries. -/
def NodeInput.fact (ledger : Ledger) : NodeInput → Option (ChainFact × Option String)
  | .zswapEvent (.commitment commitment txHash _) =>
    some (.commitment (bytesOrStringToHex commitment), optionalHex txHash)
  | .zswapEvent (.nullifier nullifier txHash) => some (.nullifier nullifier, optionalHex txHash)
  | .unshieldedSpend payload =>
    (payload.coin ledger).map fun coin => (.spend coin, optionalHex payload.txHash)
  | .unshieldedCreate payload =>
    (payload.coin ledger).map fun coin => (.create coin, optionalHex payload.txHash)
  | _ => none

@[simp] theorem NodeInput.fact_unshieldedSpend (ledger : Ledger) (payload : UnshieldedPayload) :
    (NodeInput.unshieldedSpend payload).fact ledger =
      (payload.coin ledger).map fun coin => (.spend coin, optionalHex payload.txHash) := rfl

@[simp] theorem NodeInput.fact_unshieldedCreate (ledger : Ledger) (payload : UnshieldedPayload) :
    (NodeInput.unshieldedCreate payload).fact ledger =
      (payload.coin ledger).map fun coin => (.create coin, optionalHex payload.txHash) := rfl

/-- `ON CONFLICT DO NOTHING`, seen through the primary key. -/
theorem find?_insertNew {α κ : Type} [DecidableEq κ] (key : α → κ) (row : α) (rows : List α)
    (k : κ) : (insertNew key row rows).find? (key · = k) =
      (rows.find? (key · = k)).or (if key row = k then some row else none) := by
  unfold insertNew
  split
  · rename_i hany
    by_cases hkey : key row = k
    · have hsome : (rows.find? (key · = k)).isSome = true := by
        rw [List.find?_isSome]
        obtain ⟨other, hother, heq⟩ := List.any_eq_true.mp hany
        exact ⟨other, hother, by rw [decide_eq_true_eq] at heq ⊢; exact heq.trans hkey⟩
      obtain ⟨other, hother⟩ := Option.isSome_iff_exists.mp hsome
      rw [hother]
      rfl
    · rw [if_neg hkey, Option.or_none]
  · rw [List.find?_append]
    congr 1
    by_cases hkey : key row = k
    · simp [hkey]
    · simp [hkey]

theorem map_find?_insertNew {α κ β : Type} [DecidableEq κ] (key : α → κ) (value : α → β) (row : α)
    (rows : List α) (k : κ) : ((insertNew key row rows).find? (key · = k)).map value =
      ((rows.find? (key · = k)).map value).or (if key row = k then some (value row) else none) := by
  rw [find?_insertNew, Option.map_or]
  split <;> rfl

theorem find?_markNullifierMatched (db : Db) (nullifier other : String) :
    (((db.markNullifierMatched nullifier).nullifiers.find? (·.nullifier = other)).map (·.txHash)) =
      (db.nullifiers.find? (·.nullifier = other)).map (·.txHash) := by
  unfold Db.markNullifierMatched
  rw [List.find?_map, Option.map_map]
  have hkey : ((fun row : NullifierRow => decide (row.nullifier = other)) ∘ fun row =>
      if row.nullifier = nullifier then { row with offerMatched := true } else row) =
      fun row => decide (row.nullifier = other) := by
    funext row
    simp only [Function.comp_apply]
    split <;> rfl
  have hvalue : ((·.txHash) ∘ fun row : NullifierRow =>
      if row.nullifier = nullifier then { row with offerMatched := true } else row) =
      (·.txHash) := by
    funext row
    simp only [Function.comp_apply]
    split <;> rfl
  rw [hkey, hvalue]

section Steps

variable {env : NodeEnv} {ledger : Ledger} {ctx : BlockContext} {db db' : Db}

/-- The chain tables are the same. -/
structure Db.SameChain (db' db : Db) : Prop where
  nullifiers : db'.nullifiers = db.nullifiers
  commitments : db'.commitments = db.commitments
  unshieldedSpends : db'.unshieldedSpends = db.unshieldedSpends
  unshieldedCreates : db'.unshieldedCreates = db.unshieldedCreates

theorem Db.SameChain.recordedTx (h : db'.SameChain db) (fact : ChainFact) :
    db'.recordedTx fact = db.recordedTx fact := by
  cases fact <;> unfold Db.recordedTx <;>
    simp only [h.nullifiers, h.commitments, h.unshieldedSpends, h.unshieldedCreates]

theorem unshieldedCreate_coin {payload : UnshieldedPayload} {coin : UnshieldedSpendRef}
    (h : payload.coin ledger = some coin) (ctx : BlockContext) (db : Db) :
    unshieldedCreate ledger ctx payload db =
      (db.insertCreatedUnshielded coin ctx.blockHeight).insertUnshieldedCreate
        ⟨⟨coin, optionalHex payload.txHash, ctx.blockHeight⟩, fieldHex payload.tokenType,
          payload.value.getD "0"⟩ := by
  unfold unshieldedCreate
  rw [h]

/-- **What one input does to the chain tables**: it records the effect it reports, the first
time. -/
theorem processInput_recordedTx {input : NodeInput}
    (hstep : processInput env ledger ctx db input = .ok db') (fact : ChainFact) :
    db'.recordedTx fact = (db.recordedTx fact).or
      ((input.fact ledger).bind fun (reported, txHash) =>
        if reported = fact then some txHash else none) := by
  have hsame : db'.SameChain db → input.fact ledger = none → db'.recordedTx fact =
      (db.recordedTx fact).or ((input.fact ledger).bind fun (reported, txHash) =>
        if reported = fact then some txHash else none) := by
    intro hsame hnone
    rw [hsame.recordedTx, hnone, Option.bind_none, Option.or_none]
  cases input with
  | celestiaZswap suppliedValue =>
    refine hsame ?_ rfl
    rcases celestiaZswap_ok hstep with ⟨code, rfl⟩ | ⟨_, _, _, saved, haccepts, rfl⟩
    · exact ⟨rfl, rfl, rfl, rfl⟩
    · obtain ⟨tokens, rfl⟩ := saveOfferFile_ok haccepts.saved
      exact ⟨rfl, rfl, rfl, rfl⟩
  | zswapEvent event =>
    cases hstep
    cases event with
    | commitment commitment txHash mtIndex =>
      cases fact with
      | commitment other =>
        exact (map_find?_insertNew _ _ _ _ _).trans (by simp [NodeInput.fact, Db.recordedTx])
      | _ => simp [NodeInput.fact, zswapEvent, Db.recordedTx, Db.insertCommitment]
    | nullifier nullifier txHash =>
      obtain ⟨marked, hevent⟩ := zswapEvent_nullifier ctx nullifier txHash db
      rw [hevent]
      cases fact with
      | nullifier other =>
        have hspent : (((db.archiveOfferByNullifier nullifier ctx.blockTimestamp).insertNullifier
            nullifier ctx.blockHeight (optionalHex txHash)).nullifiers.find?
              (·.nullifier = other)).map (·.txHash) =
            ((db.nullifiers.find? (·.nullifier = other)).map (·.txHash)).or
              (if nullifier = other then some (optionalHex txHash) else none) :=
          map_find?_insertNew _ _ _ _ _
        have hreported : ((NodeInput.zswapEvent (.nullifier nullifier txHash)).fact ledger).bind
            (fun (reported, hash) =>
              if reported = ChainFact.nullifier other then some hash else none) =
            if nullifier = other then some (optionalHex txHash) else none := by
          simp [NodeInput.fact]
        rw [hreported]
        cases marked with
        | false => exact hspent
        | true => exact (find?_markNullifierMatched _ _ _).trans hspent
      | _ => cases marked <;> simp [NodeInput.fact, Db.recordedTx, Db.insertNullifier,
          Db.archiveOfferByNullifier, Db.archiveOffers, Db.markNullifierMatched]
  | unshieldedSpend payload =>
    cases hstep
    cases hcoin : payload.coin ledger with
    | none =>
      refine hsame ?_ (by rw [NodeInput.fact_unshieldedSpend, hcoin]; rfl)
      unfold unshieldedSpend
      rw [hcoin]
      exact ⟨rfl, rfl, rfl, rfl⟩
    | some coin =>
      rw [unshieldedSpend_coin hcoin, NodeInput.fact_unshieldedSpend, hcoin]
      cases fact with
      | spend other =>
        exact (map_find?_insertNew _ _ _ _ _).trans (by
          simp [Db.recordedTx, Db.archiveOfferByUnshieldedSpend, Db.archiveOffers])
      | _ => simp [Db.recordedTx, Db.insertUnshieldedSpend, Db.deleteCreatedUnshielded,
          Db.archiveOfferByUnshieldedSpend, Db.archiveOffers]
  | unshieldedCreate payload =>
    cases hstep
    cases hcoin : payload.coin ledger with
    | none =>
      refine hsame ?_ (by rw [NodeInput.fact_unshieldedCreate, hcoin]; rfl)
      unfold unshieldedCreate
      rw [hcoin]
      exact ⟨rfl, rfl, rfl, rfl⟩
    | some coin =>
      rw [unshieldedCreate_coin hcoin, NodeInput.fact_unshieldedCreate, hcoin]
      cases fact with
      | create other =>
        exact (map_find?_insertNew _ _ _ _ _).trans
          (by simp [Db.recordedTx, Db.insertCreatedUnshielded])
      | _ => simp [Db.recordedTx, Db.insertUnshieldedCreate, Db.insertCreatedUnshielded]
  | zswapRoot root =>
    cases hstep
    refine hsame ?_ rfl
    unfold zswapRoot
    simp only
    split <;> exact ⟨rfl, rfl, rfl, rfl⟩
  | ttlCleanup offerId =>
    obtain ⟨cutoff, -, hstep⟩ := Except.bind_eq_ok.mp hstep
    cases hstep
    exact hsame ⟨rfl, rfl, rfl, rfl⟩ rfl

/-- A recorded effect keeps its hash. -/
theorem recordedTx_keeps {input : NodeInput}
    (hstep : processInput env ledger ctx db input = .ok db') {fact : ChainFact}
    {txHash : Option String} (h : db.recordedTx fact = some txHash) :
    db'.recordedTx fact = some txHash := by
  rw [processInput_recordedTx hstep, h, Option.some_or]

/-- A new record is what the input reports. -/
theorem recordedTx_new {input : NodeInput}
    (hstep : processInput env ledger ctx db input = .ok db') {fact : ChainFact}
    {txHash : Option String} (hnone : db.recordedTx fact = none)
    (h : db'.recordedTx fact = some txHash) : input.fact ledger = some (fact, txHash) := by
  rw [processInput_recordedTx hstep, hnone, Option.none_or] at h
  obtain ⟨⟨reported, hash⟩, hfact, hif⟩ := Option.bind_eq_some_iff.mp h
  obtain ⟨rfl, heq⟩ := Option.ite_none_right_eq_some.mp hif
  rw [hfact, Option.some.inj heq]

/-! ## The archive -/

/-- The ids of offers, live and archived, are distinct. -/
structure Db.Archived (db : Db) : Prop where
  distinct : (db.offerFile.map (·.id) ++ db.history.map (·.id)).Nodup
  ids : ∀ id ∈ db.offerFile.map (·.id) ++ db.history.map (·.id), id < db.nextId
  /-- A consumed offer has an input the chain spent. -/
  consumed : ∀ entry ∈ db.history, entry.archiveReason = .consumed →
    ∃ fact ∈ db.archivedNullifiers entry.id ++ db.archivedSpends entry.id,
      (db.recordedTx fact).isSome = true

/-- The archived rows of one offer. -/
structure Db.SameArchive (offerId : Nat) (db' db : Db) : Prop where
  nullifiers : db'.archivedNullifiers offerId = db.archivedNullifiers offerId
  spends : db'.archivedSpends offerId = db.archivedSpends offerId
  commitments : db'.archivedCommitments offerId = db.archivedCommitments offerId
  outputs : db'.archivedOutputs offerId = db.archivedOutputs offerId

theorem Db.SameOffers.sameArchive (h : db'.SameOffers db) (offerId : Nat) :
    db'.SameArchive offerId db where
  nullifiers := by unfold archivedNullifiers; rw [h.offerNullifiersHistory]
  spends := by unfold archivedSpends; rw [h.offerSpendsHistory]
  commitments := by unfold archivedCommitments; rw [h.offerCommitmentsHistory]
  outputs := by unfold archivedOutputs; rw [h.offerOutputsHistory]

theorem Db.SameArchive.trans {offerId : Nat} {db'' : Db} (h : db''.SameArchive offerId db')
    (h' : db'.SameArchive offerId db) : db''.SameArchive offerId db where
  nullifiers := h.nullifiers.trans h'.nullifiers
  spends := h.spends.trans h'.spends
  commitments := h.commitments.trans h'.commitments
  outputs := h.outputs.trans h'.outputs

/-- Archiving other offers adds no row of an offer. -/
theorem sameArchive_archiveOffers {offerId : Nat} (hgone : offerId ∉ db.offerFile.map (·.id))
    (isMatched : OfferFile → Bool) (reason : ArchiveReason) (archivedAt : Int) :
    (db.archiveOffers isMatched reason archivedAt).SameArchive offerId db := by
  have hnot : offerId ∉ (db.offerFile.filter isMatched).map (·.id) := by
    intro hmem
    obtain ⟨offer, hoffer, rfl⟩ := List.mem_map.mp hmem
    exact hgone (List.mem_map_of_mem (List.mem_filter.mp hoffer).1)
  have hnone : ∀ {α : Type} (rows : List (ChildRow α)),
      (rows.filter (·.offerFileId ∈ (db.offerFile.filter isMatched).map (·.id))).filter
        (·.offerFileId = offerId) = [] := by
    intro α rows
    rw [List.filter_eq_nil_iff]
    intro row hrow hid
    rw [decide_eq_true_eq] at hid
    have hmem := (List.mem_filter.mp hrow).2
    rw [decide_eq_true_eq, hid] at hmem
    exact hnot hmem
  have harchived : ∀ {α : Type} (rows : List (ChildRow α)),
      ((rows.filter (·.offerFileId ∈ (db.offerFile.filter isMatched).map (·.id))).map
        (ArchivedRow.mk · archivedAt)).filter (·.offerFileId = offerId) = [] := by
    intro α rows
    rw [List.filter_map]
    exact congrArg (List.map _) (hnone rows)
  constructor
  · unfold Db.archivedNullifiers Db.archiveOffers
    dsimp only
    rw [List.filter_append, harchived, List.append_nil]
  · unfold Db.archivedSpends Db.archiveOffers
    dsimp only
    rw [List.filter_append, harchived, List.append_nil]
  · unfold Db.archivedCommitments Db.archiveOffers
    dsimp only
    rw [List.filter_append, hnone, List.append_nil]
  · unfold Db.archivedOutputs Db.archiveOffers
    dsimp only
    rw [List.filter_append, hnone, List.append_nil]

/-- A spend that archives offers is one of their inputs, and is recorded. -/
theorem archived_by_nullifier {offer : OfferFile} {nullifier : String} {archivedAt : Int}
    (hoffer : offer ∈ db.offerFile) (hmatched : db.competesForNullifier nullifier offer = true) :
    .nullifier nullifier ∈
      (db.archiveOfferByNullifier nullifier archivedAt).archivedNullifiers offer.id := by
  obtain ⟨row, hrow, hboth⟩ := List.any_eq_true.mp hmatched
  simp only [Bool.and_eq_true, decide_eq_true_eq] at hboth
  refine List.mem_map.mpr ⟨⟨row, archivedAt⟩, List.mem_filter.mpr ⟨?_, ?_⟩, ?_⟩
  · refine List.mem_append_right _ (List.mem_map_of_mem (List.mem_filter.mpr ⟨hrow, ?_⟩))
    rw [decide_eq_true_eq, hboth.1]
    exact List.mem_map_of_mem (List.mem_filter.mpr ⟨hoffer, hmatched⟩)
  · exact decide_eq_true hboth.1
  · rw [hboth.2]

theorem archived_by_spend {offer : OfferFile} {coin : UnshieldedSpendRef} {archivedAt : Int}
    (hoffer : offer ∈ db.offerFile) (hmatched : db.competesForCoin coin offer = true) :
    .spend coin ∈ (db.archiveOfferByUnshieldedSpend coin archivedAt).archivedSpends offer.id := by
  obtain ⟨row, hrow, hboth⟩ := List.any_eq_true.mp hmatched
  simp only [Bool.and_eq_true, decide_eq_true_eq] at hboth
  refine List.mem_map.mpr ⟨⟨row, archivedAt⟩, List.mem_filter.mpr ⟨?_, ?_⟩, ?_⟩
  · refine List.mem_append_right _ (List.mem_map_of_mem (List.mem_filter.mpr ⟨hrow, ?_⟩))
    rw [decide_eq_true_eq, hboth.1]
    exact List.mem_map_of_mem (List.mem_filter.mpr ⟨hoffer, hmatched⟩)
  · exact decide_eq_true hboth.1
  · rw [hboth.2]

/-- A report is recorded. -/
theorem recordedTx_reported {input : NodeInput} {fact : ChainFact} {txHash : Option String}
    (hstep : processInput env ledger ctx db input = .ok db')
    (hfact : input.fact ledger = some (fact, txHash)) : (db'.recordedTx fact).isSome = true := by
  rw [processInput_recordedTx hstep, hfact]
  cases db.recordedTx fact <;> simp

/-- An offer that an input archives as consumed had that input. -/
theorem processInput_consumed {input : NodeInput}
    (hstep : processInput env ledger ctx db input = .ok db') {entry : OfferFileHistory}
    (hentry : entry ∈ db'.history) (hnew : entry ∉ db.history)
    (hconsumed : entry.archiveReason = .consumed) :
    ∃ fact ∈ db'.archivedNullifiers entry.id ++ db'.archivedSpends entry.id,
      (db'.recordedTx fact).isSome = true := by
  cases input with
  | celestiaZswap suppliedValue =>
    rcases celestiaZswap_ok hstep with ⟨code, rfl⟩ | ⟨_, _, _, saved, haccepts, rfl⟩
    · exact absurd hentry hnew
    · obtain ⟨tokens, rfl⟩ := saveOfferFile_ok haccepts.saved
      exact absurd hentry hnew
  | zswapEvent event =>
    cases event with
    | commitment commitment txHash mtIndex =>
      cases hstep
      exact absurd hentry hnew
    | nullifier nullifier txHash =>
      have hrecorded := @recordedTx_reported _ _ _ _ _ _ (.nullifier nullifier) _ hstep rfl
      cases hstep
      obtain ⟨marked, hevent⟩ := zswapEvent_nullifier ctx nullifier txHash db
      rw [hevent] at hentry hrecorded ⊢
      have hmoved : entry ∈ (db.archiveOfferByNullifier nullifier ctx.blockTimestamp).history := by
        cases marked <;> exact hentry
      rcases List.mem_append.mp hmoved with hold | hmoved
      · exact absurd hold hnew
      obtain ⟨offer, hoffer, rfl⟩ := List.mem_map.mp hmoved
      obtain ⟨hlive, hmatched⟩ := List.mem_filter.mp hoffer
      refine ⟨.nullifier nullifier, List.mem_append_left _ ?_, hrecorded⟩
      have harchived := @archived_by_nullifier db offer nullifier ctx.blockTimestamp hlive
        hmatched
      cases marked <;> exact harchived
  | unshieldedSpend payload =>
    cases hcoin : payload.coin ledger with
    | none =>
      cases hstep
      unfold unshieldedSpend at hentry
      rw [hcoin] at hentry
      exact absurd hentry hnew
    | some coin =>
      have hrecorded := @recordedTx_reported _ _ _ _ _ _ (.spend coin) _ hstep
        (by rw [NodeInput.fact_unshieldedSpend, hcoin]; rfl)
      cases hstep
      rw [unshieldedSpend_coin hcoin] at hentry hrecorded ⊢
      have hmoved : entry ∈ (db.archiveOfferByUnshieldedSpend coin ctx.blockTimestamp).history :=
        hentry
      rcases List.mem_append.mp hmoved with hold | hmoved
      · exact absurd hold hnew
      obtain ⟨offer, hoffer, rfl⟩ := List.mem_map.mp hmoved
      obtain ⟨hlive, hmatched⟩ := List.mem_filter.mp hoffer
      exact ⟨.spend coin, List.mem_append_right _ (archived_by_spend hlive hmatched), hrecorded⟩
  | unshieldedCreate payload =>
    cases hstep
    unfold unshieldedCreate at hentry
    split at hentry <;> exact absurd hentry hnew
  | zswapRoot root =>
    cases hstep
    unfold zswapRoot at hentry
    simp only at hentry
    split at hentry <;> exact absurd hentry hnew
  | ttlCleanup offerId =>
    obtain ⟨cutoff, -, hstep⟩ := Except.bind_eq_ok.mp hstep
    cases hstep
    rcases List.mem_append.mp hentry with hold | hmoved
    · exact absurd hold hnew
    · obtain ⟨offer, -, rfl⟩ := List.mem_map.mp hmoved
      cases hconsumed

/-- One input keeps the rows of an archived offer. -/
theorem processInput_sameArchive {input : NodeInput}
    (hstep : processInput env ledger ctx db input = .ok db') (h : db.Archived)
    {entry : OfferFileHistory} (hentry : entry ∈ db.history) : db'.SameArchive entry.id db := by
  have hgone : entry.id ∉ db.offerFile.map (·.id) := fun hlive =>
    (List.nodup_append.mp h.distinct).2.2 _ hlive _ (List.mem_map_of_mem hentry) rfl
  rcases processInput_offers hstep with hsame | ⟨isMatched, reason, archivedAt, hsame⟩ |
    ⟨rawBytes, result, expiresAt, firstSeenAt, saved, haccepts, -, hsame⟩
  · exact hsame.sameArchive _
  · exact (hsame.sameArchive _).trans (sameArchive_archiveOffers hgone isMatched reason archivedAt)
  · obtain ⟨tokens, rfl⟩ := saveOfferFile_ok haccepts.saved
    exact (hsame.sameArchive _).trans ⟨rfl, rfl, rfl, rfl⟩

theorem Db.Archived.processInput (h : db.Archived) {input : NodeInput}
    (hstep : ZswapKernel.processInput env ledger ctx db input = .ok db') : db'.Archived := by
  have hids : (db'.offerFile.map (·.id) ++ db'.history.map (·.id)).Nodup ∧
      ∀ id ∈ db'.offerFile.map (·.id) ++ db'.history.map (·.id), id < db'.nextId := by
    rcases processInput_offers hstep with hsame | ⟨isMatched, reason, archivedAt, hsame⟩ |
      ⟨rawBytes, result, expiresAt, firstSeenAt, saved, haccepts, -, hsame⟩
    · rw [hsame.offerFile, hsame.history, hsame.nextId]
      exact ⟨h.distinct, h.ids⟩
    · have hperm := Db.map_archiveOffers (·.id) db isMatched reason archivedAt
      rw [hsame.offerFile, hsame.history, hsame.nextId]
      exact ⟨hperm.nodup_iff.mpr h.distinct, fun id hid => h.ids id (hperm.mem_iff.mp hid)⟩
    · obtain ⟨tokens, rfl⟩ := saveOfferFile_ok haccepts.saved
      rw [hsame.offerFile, hsame.history, hsame.nextId, List.map_append, List.append_assoc]
      refine ⟨List.perm_middle.nodup_iff.mpr (List.nodup_cons.mpr ⟨fun hid => ?_, h.distinct⟩), ?_⟩
      · exact (h.ids _ hid).ne rfl
      · intro id hid
        rcases List.mem_cons.mp (List.perm_middle.mem_iff.mp hid) with rfl | hid
        · exact Nat.lt_succ_self _
        · exact Nat.lt_succ_of_lt (h.ids id hid)
  refine ⟨hids.1, hids.2, fun entry hentry hconsumed => ?_⟩
  by_cases hold : entry ∈ db.history
  · obtain ⟨fact, hfact, hrecorded⟩ := h.consumed entry hold hconsumed
    have hsame := processInput_sameArchive hstep h hold
    obtain ⟨txHash, htx⟩ := Option.isSome_iff_exists.mp hrecorded
    refine ⟨fact, ?_, by rw [recordedTx_keeps hstep htx]; rfl⟩
    rw [hsame.nullifiers, hsame.spends]
    exact hfact
  · exact processInput_consumed hstep hentry hold hconsumed

end Steps

/-! ## The chain -/

/-- An input of a transaction. -/
def ChainFact.IsSpend : ChainFact → Prop
  | .nullifier _ | .spend _ => True
  | .commitment _ | .create _ => False

/-- The transactions of the chain: each has its effects in one block, and no input is spent
twice. -/
structure Chain where
  Tx : Type
  hash : Tx → String
  height : Tx → Nat
  effect : Tx → ChainFact → Prop
  spentOnce : ∀ fact tx tx', fact.IsSpend → effect tx fact → effect tx' fact → tx = tx'

/-- A hash that an event of `tx` may carry: its own, or none. -/
def Chain.Reports (chain : Chain) (tx : chain.Tx) (txHash : Option String) : Prop :=
  txHash = none ∨ txHash = some (chain.hash tx)

/-- The input reports an effect of the block, if any. -/
def Chain.Emits (chain : Chain) (ledger : Ledger) (ctx : BlockContext) (input : NodeInput) : Prop :=
  ∀ fact txHash, input.fact ledger = some (fact, txHash) →
    ∃ tx, chain.effect tx fact ∧ chain.height tx = ctx.blockHeight ∧ chain.Reports tx txHash

/-- All effects of the blocks up to `height` are recorded. -/
def Chain.AppliedThrough (chain : Chain) (height : Nat) (db : Db) : Prop :=
  ∀ tx fact, chain.effect tx fact → chain.height tx ≤ height → (db.recordedTx fact).isSome = true

/-- A marker the offer declares is created by a transaction that spends all inputs of the offer. -/
def Chain.MarkersNeedInputs (chain : Chain) (db : Db) (offerId : Nat) : Prop :=
  ∀ tx, ∀ marker ∈ db.archivedCommitments offerId ++ db.archivedOutputs offerId,
    chain.effect tx marker →
    ∀ input ∈ db.archivedNullifiers offerId ++ db.archivedSpends offerId, chain.effect tx input

/-- A run on the events of a chain goes on from one state to another. -/
inductive ChainSteps (chain : Chain) (env : NodeEnv) (ledger : Ledger) (ctx : BlockContext)
    (db : Db) : BlockContext → Db → Prop
  | refl : ChainSteps chain env ledger ctx db ctx db
  | block {ctx' ctx'' : BlockContext} {db' : Db} (h : ChainSteps chain env ledger ctx db ctx' db')
    (hheight : ctx'.blockHeight < ctx''.blockHeight)
    (htime : ctx'.blockTimestamp ≤ ctx''.blockTimestamp) :
    ChainSteps chain env ledger ctx db ctx'' db'
  | input {ctx' : BlockContext} {db' db'' : Db} (h : ChainSteps chain env ledger ctx db ctx' db')
    (input : NodeInput) (hemits : chain.Emits ledger ctx' input)
    (hstep : processInput env ledger ctx' db' input = .ok db'') :
    ChainSteps chain env ledger ctx db ctx' db''

section Run

variable {chain : Chain} {env : NodeEnv} {ledger : Ledger} {start ctx ctx' : BlockContext}
  {db db' : Db} {fact : ChainFact} {txHash : Option String} {offerId : Nat}

theorem ChainSteps.height_le (h : ChainSteps chain env ledger ctx db ctx' db') :
    ctx.blockHeight ≤ ctx'.blockHeight := by
  induction h with
  | refl => exact le_rfl
  | block _ hheight _ ih => exact ih.trans hheight.le
  | input _ _ _ _ ih => exact ih

/-- **Records stay.** -/
theorem ChainSteps.keeps (h : ChainSteps chain env ledger ctx db ctx' db')
    (hrecorded : db.recordedTx fact = some txHash) : db'.recordedTx fact = some txHash := by
  induction h with
  | refl => exact hrecorded
  | block _ _ _ ih => exact ih
  | input _ _ _ hstep ih => exact recordedTx_keeps hstep ih

/-- A record that a run adds is an effect of a block of the run. -/
theorem ChainSteps.adds (h : ChainSteps chain env ledger ctx db ctx' db')
    (hnone : db.recordedTx fact = none) (hrecorded : db'.recordedTx fact = some txHash) :
    ∃ tx, chain.effect tx fact ∧ chain.height tx ≤ ctx'.blockHeight ∧
      chain.Reports tx txHash := by
  induction h with
  | refl =>
    rw [hnone] at hrecorded
    cases hrecorded
  | block _ hheight _ ih =>
    obtain ⟨tx, heffect, hle, hreports⟩ := ih hrecorded
    exact ⟨tx, heffect, hle.trans hheight.le, hreports⟩
  | @input ctx' db' db'' _ input hemits hstep ih =>
    cases hbefore : db'.recordedTx fact with
    | some before =>
      rw [recordedTx_keeps hstep hbefore] at hrecorded
      exact ih (hbefore.trans hrecorded)
    | none =>
      obtain ⟨tx, heffect, hheight, hreports⟩ :=
        hemits fact txHash (recordedTx_new hstep hbefore hrecorded)
      exact ⟨tx, heffect, hheight.le, hreports⟩

theorem ChainSteps.archived (h : ChainSteps chain env ledger ctx db ctx' db')
    (harchived : db.Archived) : db'.Archived := by
  induction h with
  | refl => exact harchived
  | block _ _ _ ih => exact ih
  | input _ _ _ hstep ih => exact ih.processInput hstep

theorem Db.Archived.empty : ({} : Db).Archived :=
  ⟨.nil, fun _ hid => absurd hid List.not_mem_nil, fun _ hentry => absurd hentry List.not_mem_nil⟩

/-- **The rows of an archived offer stay.** -/
theorem ChainSteps.sameArchive (h : ChainSteps chain env ledger ctx db ctx' db')
    (harchived : db.Archived) {entry : OfferFileHistory} (hentry : entry ∈ db.history) :
    db'.SameArchive entry.id db ∧ entry ∈ db'.history := by
  induction h with
  | refl => exact ⟨⟨rfl, rfl, rfl, rfl⟩, hentry⟩
  | block _ _ _ ih => exact ih
  | @input ctx' db' db'' hsteps input _ hstep ih =>
    exact ⟨(processInput_sameArchive hstep (hsteps.archived harchived) ih.2).trans ih.1,
      processInput_history hstep ih.2⟩

/-! ## Stability -/

/-- The verdict may change: an offer without declared outputs, whose shielded inputs had landed in
part, has them all landed under one known transaction at most, and either a hash is missing or no
commitment is declared. -/
structure Db.Reclassifies (db db' : Db) (offerId : Nat) : Prop where
  incomplete : ∃ input ∈ db.archivedNullifiers offerId, db.recordedTx input = none
  completed : ∀ input ∈ db.archivedNullifiers offerId, db'.recordedTx input ≠ none
  noOutputs : db.archivedOutputs offerId = []
  oneTx : ∀ input ∈ db.archivedNullifiers offerId, ∀ other ∈ db.archivedNullifiers offerId,
    ∀ tx tx', db'.recordedTx input = some (some tx) → db'.recordedTx other = some (some tx') →
    tx = tx'
  unproven : (∃ input ∈ db.archivedNullifiers offerId, db'.recordedTx input = some none) ∨
    db.archivedCommitments offerId = []

theorem isPartial_iff {inputs : List ChainFact} :
    db.isPartial inputs = true ↔ ∃ input ∈ inputs, db.recordedTx input = none := by
  unfold Db.isPartial
  simp

theorem mem_knownTxs {inputs : List ChainFact} {tx : String} :
    tx ∈ db.knownTxs inputs ↔ ∃ input ∈ inputs, db.recordedTx input = some (some tx) := by
  unfold Db.knownTxs Db.spendingTxs
  simp

theorem none_mem_spendingTxs {inputs : List ChainFact} :
    none ∈ db.spendingTxs inputs ↔ ∃ input ∈ inputs, db.recordedTx input = some none := by
  unfold Db.spendingTxs
  simp

/-- `COUNT(DISTINCT …) > 1`. -/
theorem one_lt_knownTxs {inputs : List ChainFact} : 1 < (db.knownTxs inputs).length ↔
    ∃ tx ∈ db.knownTxs inputs, ∃ tx' ∈ db.knownTxs inputs, tx ≠ tx' := by
  have hnodup : (db.knownTxs inputs).Nodup := List.nodup_dedup _
  cases hknown : db.knownTxs inputs with
  | nil => simp
  | cons tx rest =>
    cases rest with
    | nil => simp
    | cons tx' rest =>
      rw [hknown] at hnodup
      have hne : tx ≠ tx' := fun heq => (List.nodup_cons.mp hnodup).1 (heq ▸ List.mem_cons_self)
      simp only [List.length_cons]
      exact ⟨fun _ => ⟨tx, List.mem_cons_self, tx', by simp, hne⟩, fun _ => by omega⟩

theorem any_congr_of_mem {α : Type} {l : List α} {p q : α → Bool} (h : ∀ a ∈ l, p a = q a) :
    l.any p = l.any q := by
  rw [Bool.eq_iff_iff, List.any_eq_true, List.any_eq_true]
  exact exists_congr fun a => and_congr_right fun ha => by rw [h a ha]

/-- The rows of some inputs. -/
theorem inputs_congr {inputs : List ChainFact}
    (h : ∀ fact ∈ inputs, db'.recordedTx fact = db.recordedTx fact) :
    db'.isPartial inputs = db.isPartial inputs ∧ db'.spendingTxs inputs = db.spendingTxs inputs ∧
      db'.knownTxs inputs = db.knownTxs inputs := by
  have htxs : db'.spendingTxs inputs = db.spendingTxs inputs := List.filterMap_congr h
  exact ⟨any_congr_of_mem fun fact hfact => by rw [h fact hfact], htxs,
    by unfold Db.knownTxs; rw [htxs]⟩

/-- The shielded predicate reads the rows of the nullifiers and of the commitments. -/
theorem shieldedCancelled_congr (hsame : db'.SameArchive offerId db)
    (hinputs : ∀ fact ∈ db.archivedNullifiers offerId, db'.recordedTx fact = db.recordedTx fact)
    (hmarkers : ∀ fact ∈ db.archivedCommitments offerId,
      db'.recordedTx fact = db.recordedTx fact) :
    db'.shieldedCancelled offerId = db.shieldedCancelled offerId := by
  obtain ⟨hlanded, htxs, hknown⟩ := inputs_congr hinputs
  have hmissing : (db.archivedCommitments offerId).any (fun marker => decide
      (db'.recordedTx marker ≠ some (db.knownTxs (db.archivedNullifiers offerId)).min?)) =
      (db.archivedCommitments offerId).any (fun marker => decide
      (db.recordedTx marker ≠ some (db.knownTxs (db.archivedNullifiers offerId)).min?)) :=
    any_congr_of_mem fun marker hmarker => by rw [hmarkers marker hmarker]
  unfold Db.shieldedCancelled
  simp only [hsame.nullifiers, hsame.commitments, hlanded, htxs, hknown, hmissing]

/-- The unshielded predicate reads the rows of the coins and of the outputs. -/
theorem unshieldedCancelled_congr (hsame : db'.SameArchive offerId db)
    (hinputs : ∀ fact ∈ db.archivedSpends offerId, db'.recordedTx fact = db.recordedTx fact)
    (hmarkers : ∀ fact ∈ db.archivedOutputs offerId, db'.recordedTx fact = db.recordedTx fact) :
    db'.unshieldedCancelled offerId = db.unshieldedCancelled offerId := by
  obtain ⟨hlanded, -, hknown⟩ := inputs_congr hinputs
  have hmissing : (db.archivedOutputs offerId).any (fun marker => decide
      (db'.recordedTx marker = none)) = (db.archivedOutputs offerId).any (fun marker => decide
      (db.recordedTx marker = none)) :=
    any_congr_of_mem fun marker hmarker => by rw [hmarkers marker hmarker]
  unfold Db.unshieldedCancelled
  simp only [hsame.spends, hsame.outputs, hlanded, hknown, hmissing]

theorem isSpend_of_mem (h : fact ∈ db.archivedNullifiers offerId ++ db.archivedSpends offerId) :
    fact.IsSpend := by
  rcases List.mem_append.mp h with h | h <;> obtain ⟨row, -, rfl⟩ := List.mem_map.mp h <;> trivial

/-- A recorded marker belongs to the one transaction that spends all inputs of the offer. -/
theorem marker_spends_inputs (hneed : chain.MarkersNeedInputs db offerId) {marker : ChainFact}
    (hmarker : marker ∈ db.archivedCommitments offerId ++ db.archivedOutputs offerId)
    {tx tx' : chain.Tx} (hcreates : chain.effect tx marker) {input : ChainFact}
    (hinput : input ∈ db.archivedNullifiers offerId ++ db.archivedSpends offerId)
    (hspends : chain.effect tx' input) :
    tx = tx' ∧ ∀ input ∈ db.archivedNullifiers offerId ++ db.archivedSpends offerId,
      chain.effect tx input :=
  ⟨chain.spentOnce input tx tx' (isSpend_of_mem hinput)
    (hneed tx marker hmarker hcreates input hinput) hspends, hneed tx marker hmarker hcreates⟩

/-- Inputs that landed in part, later in full: the shielded predicate without its markers. -/
theorem shieldedCancelled_completed (hmissing : ∃ input ∈ db.archivedNullifiers offerId,
      db.recordedTx input = none) (hsame : db'.SameArchive offerId db)
    (hmarkers : ∀ marker ∈ db.archivedCommitments offerId, db'.recordedTx marker = none)
    (hnone : db.archivedOutputs offerId = []) :
    db'.shieldedCancelled offerId = false ↔ db.Reclassifies db' offerId := by
  have hunmarked : (db.archivedCommitments offerId).any (fun marker => decide
      (db'.recordedTx marker ≠ some (db'.knownTxs (db.archivedNullifiers offerId)).min?)) =
      !(db.archivedCommitments offerId).isEmpty := by
    cases hcommitments : db.archivedCommitments offerId with
    | nil => rfl
    | cons marker rest =>
      rw [List.any_cons, hmarkers marker (hcommitments ▸ List.mem_cons_self)]
      simp
  unfold Db.shieldedCancelled
  simp only [hsame.nullifiers, hsame.commitments, hunmarked]
  rw [Bool.or_eq_false_iff, Bool.or_eq_false_iff, Bool.eq_false_iff, ne_eq, isPartial_iff,
    decide_eq_false_iff_not, one_lt_knownTxs]
  constructor
  · rintro ⟨⟨hlanded, hone⟩, hmarker⟩
    have hcompleted : ∀ input ∈ db.archivedNullifiers offerId, db'.recordedTx input ≠ none :=
      fun input hinput hrow => hlanded ⟨input, hinput, hrow⟩
    refine ⟨hmissing, hcompleted, hnone, ?_, ?_⟩
    · intro input hinput other hother tx tx' htx htx'
      by_contra hne
      exact hone ⟨tx, mem_knownTxs.mpr ⟨input, hinput, htx⟩, tx',
        mem_knownTxs.mpr ⟨other, hother, htx'⟩, hne⟩
    · by_contra hproven
      push Not at hproven
      obtain ⟨hknown, hcommitments⟩ := hproven
      obtain ⟨input, hinput, -⟩ := hmissing
      -- all hashes are known, so the one transaction is
      have hlength : (db'.knownTxs (db.archivedNullifiers offerId)).length = 1 := by
        have hle : ¬ 1 < (db'.knownTxs (db.archivedNullifiers offerId)).length :=
          fun hlt => hone (one_lt_knownTxs.mp hlt)
        have hpos : 0 < (db'.knownTxs (db.archivedNullifiers offerId)).length := by
          cases hrow : db'.recordedTx input with
          | none => exact absurd hrow (hcompleted input hinput)
          | some txHash =>
            cases txHash with
            | none => exact absurd hrow (hknown input hinput)
            | some tx => exact List.length_pos_of_mem (mem_knownTxs.mpr ⟨input, hinput, hrow⟩)
        omega
      have hno : none ∉ db'.spendingTxs (db.archivedNullifiers offerId) := by
        rw [none_mem_spendingTxs]
        rintro ⟨input, hinput, hrow⟩
        exact hknown input hinput hrow
      rw [decide_eq_true hlength, decide_eq_true hno] at hmarker
      simp [hcommitments] at hmarker
  · rintro ⟨-, hcompleted, -, hone, hunproven⟩
    refine ⟨⟨fun ⟨input, hinput, hrow⟩ => hcompleted input hinput hrow, ?_⟩, ?_⟩
    · rintro ⟨tx, htx, tx', htx', hne⟩
      obtain ⟨input, hinput, hrow⟩ := mem_knownTxs.mp htx
      obtain ⟨other, hother, hrow'⟩ := mem_knownTxs.mp htx'
      exact hne (hone input hinput other hother tx tx' hrow hrow')
    · rcases hunproven with hhashless | hcommitments
      · rw [decide_eq_false (not_not.mpr (none_mem_spendingTxs.mpr hhashless))]
        simp
      · rw [hcommitments]
        simp

/-- **Verdicts are stable, up to one case.** Let the state hold all events of its blocks, and let a
declared marker be created only by a transaction that spends all inputs of the offer. Then in every
continuation the status of a consumed offer agrees with the verdict stored before, unless a partial
spend is completed without proof that two transactions share the inputs. -/
theorem fill_verdict_stable_iff {entry : OfferFileHistory}
    (hrun : ChainSteps chain env ledger start {} ctx db)
    (happlied : chain.AppliedThrough ctx.blockHeight db) (hentry : entry ∈ db.history)
    (hconsumed : entry.archiveReason = .consumed) (hneed : chain.MarkersNeedInputs db entry.id)
    (hmore : ChainSteps chain env ledger ctx db ctx' db') :
    db'.archivedStatus entry =
        (if db.adjudicateOfferFill entry.id then .consumed else .cancelled) ↔
      ¬ db.Reclassifies db' entry.id := by
  have harchived := hrun.archived Db.Archived.empty
  have hsame := (hmore.sameArchive harchived hentry).1
  have hagree : db'.archivedStatus entry =
      (if db.adjudicateOfferFill entry.id then .consumed else .cancelled) ↔
      db'.cancelled entry.id = db.cancelled entry.id := by
    unfold Db.archivedStatus Db.adjudicateOfferFill
    rw [hconsumed]
    cases db'.cancelled entry.id <;> cases db.cancelled entry.id <;> simp
  rw [hagree]
  obtain ⟨first, hfirst, hspent⟩ := harchived.consumed entry hentry hconsumed
  obtain ⟨hash, hrecorded⟩ := Option.isSome_iff_exists.mp hspent
  obtain ⟨spender, hspends, hspender, -⟩ := hrun.adds (by cases first <;> rfl) hrecorded
  by_cases hatomic : ∀ input ∈ db.archivedNullifiers entry.id ++ db.archivedSpends entry.id,
      chain.effect spender input
  · -- one transaction spends all inputs: its effects are all recorded
    have hkept : ∀ fact, chain.effect spender fact → db'.recordedTx fact = db.recordedTx fact := by
      intro fact heffect
      obtain ⟨txHash, htx⟩ := Option.isSome_iff_exists.mp (happlied spender fact heffect hspender)
      rw [hmore.keeps htx, htx]
    have hmarkers : ∀ marker ∈ db.archivedCommitments entry.id ++ db.archivedOutputs entry.id,
        db'.recordedTx marker = db.recordedTx marker := by
      intro marker hmarker
      cases hbefore : db.recordedTx marker with
      | some txHash => exact hmore.keeps hbefore
      | none =>
        cases hafter : db'.recordedTx marker with
        | none => rfl
        | some txHash =>
          obtain ⟨tx, hcreates, -, -⟩ := hmore.adds hbefore hafter
          obtain ⟨rfl, -⟩ := marker_spends_inputs hneed hmarker hcreates hfirst hspends
          rw [← hkept marker hcreates, hafter] at hbefore
          cases hbefore
    have hshielded := shieldedCancelled_congr hsame
      (fun input hinput => hkept input (hatomic input (List.mem_append_left _ hinput)))
      (fun marker hmarker => hmarkers marker (List.mem_append_left _ hmarker))
    have hunshielded := unshieldedCancelled_congr hsame
      (fun input hinput => hkept input (hatomic input (List.mem_append_right _ hinput)))
      (fun marker hmarker => hmarkers marker (List.mem_append_right _ hmarker))
    refine iff_of_true (by unfold Db.cancelled; rw [hshielded, hunshielded]) fun hchanges => ?_
    obtain ⟨input, hinput, hrow⟩ := hchanges.incomplete
    have happeared := happlied spender input
      (hatomic input (List.mem_append_left _ hinput)) hspender
    rw [hrow] at happeared
    cases happeared
  · -- no transaction spends all inputs: no declared marker is ever created
    have hunmarked : ∀ marker ∈ db.archivedCommitments entry.id ++ db.archivedOutputs entry.id,
        ∀ tx, ¬ chain.effect tx marker := by
      intro marker hmarker tx hcreates
      obtain ⟨rfl, hall⟩ := marker_spends_inputs hneed hmarker hcreates hfirst hspends
      exact hatomic hall
    have hbefore : ∀ marker ∈ db.archivedCommitments entry.id ++ db.archivedOutputs entry.id,
        db.recordedTx marker = none := by
      intro marker hmarker
      by_contra hsome
      obtain ⟨txHash, htx⟩ := Option.ne_none_iff_exists'.mp hsome
      obtain ⟨tx, hcreates, -, -⟩ := hrun.adds (by cases marker <;> rfl) htx
      exact hunmarked marker hmarker tx hcreates
    have hafter : ∀ marker ∈ db.archivedCommitments entry.id ++ db.archivedOutputs entry.id,
        db'.recordedTx marker = none := by
      intro marker hmarker
      by_contra hsome
      obtain ⟨txHash, htx⟩ := Option.ne_none_iff_exists'.mp hsome
      obtain ⟨tx, hcreates, -, -⟩ := hmore.adds (hbefore marker hmarker) htx
      exact hunmarked marker hmarker tx hcreates
    cases houtputs : db.archivedOutputs entry.id with
    | cons output outputs =>
      have hcancelled : ∀ state : Db, state.SameArchive entry.id db →
          state.recordedTx output = none → state.cancelled entry.id = true := by
        intro state hstate hrow
        unfold Db.cancelled Db.unshieldedCancelled
        simp only [hstate.outputs, houtputs, List.any_cons, hrow, decide_true, Bool.true_or,
          Bool.or_true]
        simp
      have hmem : output ∈ db.archivedCommitments entry.id ++ db.archivedOutputs entry.id := by
        rw [houtputs]
        exact List.mem_append_right _ List.mem_cons_self
      refine iff_of_true ?_ fun hchanges => ?_
      · rw [hcancelled db' hsame (hafter output hmem),
          hcancelled db ⟨rfl, rfl, rfl, rfl⟩ (hbefore output hmem)]
      · have hnone := hchanges.noOutputs
        rw [houtputs] at hnone
        cases hnone
    | nil =>
      have hshielded : ∀ state : Db, state.SameArchive entry.id db →
          state.cancelled entry.id = state.shieldedCancelled entry.id := by
        intro state hstate
        unfold Db.cancelled Db.unshieldedCancelled
        rw [hstate.outputs, houtputs]
        simp
      by_cases hmissing : ∃ input ∈ db.archivedNullifiers entry.id, db.recordedTx input = none
      · have hcancelled : db.cancelled entry.id = true := by
          rw [hshielded db ⟨rfl, rfl, rfl, rfl⟩]
          unfold Db.shieldedCancelled
          simp only [isPartial_iff.mpr hmissing, Bool.true_or]
        have hchanges := shieldedCancelled_completed hmissing hsame
          (fun marker hmarker => hafter marker (List.mem_append_left _ hmarker)) houtputs
        rw [hcancelled, hshielded db' hsame, ← hchanges, Bool.not_eq_false]
      · refine iff_of_true ?_ fun hchanges => hmissing hchanges.incomplete
        rw [hshielded db' hsame, hshielded db ⟨rfl, rfl, rfl, rfl⟩]
        refine shieldedCancelled_congr hsame (fun input hinput => ?_) fun marker hmarker => ?_
        · obtain ⟨txHash, htx⟩ := Option.ne_none_iff_exists'.mp
            fun hrow => hmissing ⟨input, hinput, hrow⟩
          rw [hmore.keeps htx, htx]
        · rw [hafter marker (List.mem_append_left _ hmarker),
            hbefore marker (List.mem_append_left _ hmarker)]

end Run

/-! ## A spend that is completed without its hash -/

namespace SplitSpend

/-- The nullifier of 32 bytes `tag`. -/
def nullifierOf (tag : UInt8) : String := bytesToHex (List.replicate 32 tag)

/-- An input with the root `04`. -/
def input (tag : UInt8) : ZswapInput where
  nullifier := .text (nullifierOf tag)
  serialized := pinnedInputTag.toList.map (fun c => UInt8.ofNat c.toNat) ++
    List.replicate 32 tag ++ List.replicate rootGapAfterNullifier 0 ++ [4]

/-- An offer of two shielded coins for one. -/
def ledger : Ledger := { OneOffer.ledger with
  deserialize := fun _ => .ok { guaranteedOffer := some {
    inputs := [input 1, input 2], outputs := [some (.text "c0")] } }
  deriveTokenLegs := fun _ => .ok ([⟨"01", "1", .shielded⟩], [⟨"02", "1", .shielded⟩])
  earliestIntentTtl := fun _ => none }

def env : NodeEnv := OneOffer.env

def first : BlockContext := ⟨1, 0⟩
def second : BlockContext := ⟨2, 6000⟩
def third : BlockContext := ⟨3, 12000⟩

/-- Transactions `aa` and `bb` spend one coin each, in blocks 2 and 3. -/
def chain : Chain where
  Tx := Bool
  hash := fun tx => if tx then "bb" else "aa"
  height := fun tx => if tx then 3 else 2
  effect := fun tx fact => fact = .nullifier (nullifierOf (if tx then 2 else 1))
  spentOnce := by
    rintro fact (_ | _) (_ | _) - rfl h
    · rfl
    · exact absurd h (by decide +kernel)
    · exact absurd h (by decide +kernel)
    · rfl

def rooted : Db := zswapRoot env first (some "04") {}

def indexed : Db := (celestiaZswap env ledger first [1] rooted).toOption.getD {}

/-- The first coin is spent: the offer is archived. -/
def archived : Db := zswapEvent second (.nullifier (nullifierOf 1) (some (.text "aa"))) indexed

/-- The second coin is spent; the event carries the hash, or none. -/
def completed (txHash : Option HexValue) : Db :=
  zswapEvent third (.nullifier (nullifierOf 2) txHash) archived

theorem indexed_step : celestiaZswap env ledger first [1] rooted = .ok indexed := by
  have hsome : (celestiaZswap env ledger first [1] rooted).toOption.isSome = true := by
    decide +kernel
  obtain ⟨db, hdb⟩ := Option.isSome_iff_exists.mp hsome
  unfold indexed
  rw [hdb]
  exact Except.eq_ok_of_toOption hdb

theorem archived_run : ChainSteps chain env ledger first {} second archived := by
  have hindexed : ChainSteps chain env ledger first {} first indexed :=
    (ChainSteps.refl.input (.zswapRoot (some "04")) (fun _ _ h => nomatch h) rfl).input
      (.celestiaZswap [1]) (fun _ _ h => nomatch h) indexed_step
  refine (hindexed.block (show first.blockHeight < second.blockHeight by decide)
    (by decide)).input (.zswapEvent (.nullifier (nullifierOf 1) (some (.text "aa")))) ?_ rfl
  intro fact txHash hfact
  cases Option.some.inj hfact
  exact ⟨false, rfl, rfl, .inr (by decide +kernel)⟩

theorem completed_steps {txHash : Option HexValue}
    (hreports : chain.Reports true (optionalHex txHash)) :
    ChainSteps chain env ledger second archived third (completed txHash) := by
  refine (ChainSteps.refl.block (show second.blockHeight < third.blockHeight by decide)
    (by decide)).input (.zswapEvent (.nullifier (nullifierOf 2) txHash)) ?_ rfl
  intro fact reported hfact
  cases Option.some.inj hfact
  exact ⟨true, rfl, rfl, hreports⟩

theorem archived_applied : chain.AppliedThrough second.blockHeight archived := by
  rintro (_ | _) fact rfl hheight
  · decide +kernel
  · exact absurd hheight (by decide)

theorem archived_markers (offerId : Nat) : chain.MarkersNeedInputs archived offerId := by
  rintro tx marker hmarker rfl
  rcases List.mem_append.mp hmarker with hmarker | hmarker <;>
    obtain ⟨row, -, hrow⟩ := List.mem_map.mp hmarker <;> cases hrow

theorem archived_entry : ∃ entry, archived.history = [entry] ∧
    entry.archiveReason = .consumed ∧ archived.adjudicateOfferFill entry.id = false ∧
    (completed none).archivedStatus entry = .consumed ∧
    (completed (some (.text "bb"))).archivedStatus entry = .cancelled := by
  have hentries : archived.history.map (fun entry => (entry.archiveReason,
      archived.adjudicateOfferFill entry.id, (completed none).archivedStatus entry,
      (completed (some (.text "bb"))).archivedStatus entry)) =
      [(.consumed, false, .consumed, .cancelled)] := by
    decide +kernel
  obtain ⟨entry, hhistory, hentry⟩ := List.map_eq_singleton_iff.mp hentries
  simp only [Prod.mk.injEq] at hentry
  exact ⟨entry, hhistory, hentry⟩

end SplitSpend

open SplitSpend in
/-- The stored verdict of a split spend is `cancelled`; once the second spend lands without its
hash, the offer reads `consumed`. -/
theorem split_spend_reclassified : ∃ (chain : Chain) (start ctx ctx' : BlockContext) (db db' : Db)
    (entry : OfferFileHistory), ChainSteps chain env SplitSpend.ledger start {} ctx db ∧
    chain.AppliedThrough ctx.blockHeight db ∧ entry ∈ db.history ∧
    entry.archiveReason = .consumed ∧ chain.MarkersNeedInputs db entry.id ∧
    ChainSteps chain env SplitSpend.ledger ctx db ctx' db' ∧
    db.adjudicateOfferFill entry.id = false ∧ db'.archivedStatus entry = .consumed := by
  obtain ⟨entry, hhistory, hconsumed, hstored, hread, -⟩ := archived_entry
  exact ⟨chain, first, second, third, archived, completed none, entry, archived_run,
    archived_applied, hhistory ▸ List.mem_singleton.mpr rfl, hconsumed, archived_markers _,
    completed_steps (.inl rfl), hstored, hread⟩

open SplitSpend in
/-- With the hash, the split spend stays `cancelled`. -/
theorem fill_verdict_stable_hash : ∃ entry ∈ archived.history,
    ¬ archived.Reclassifies (completed (some (.text "bb"))) entry.id := by
  obtain ⟨entry, hhistory, hconsumed, hstored, -, hread⟩ := archived_entry
  have hentry : entry ∈ archived.history := hhistory ▸ List.mem_singleton.mpr rfl
  refine ⟨entry, hentry, (fill_verdict_stable_iff archived_run archived_applied hentry hconsumed
    (archived_markers _) (completed_steps (.inr (by decide +kernel)))).mp ?_⟩
  rw [hstored, hread]
  rfl

end ZswapKernel
