import Mathlib.Data.List.Dedup
import ZswapKernel.Lib.Statement
import ZswapKernel.Node.OfferIdentity

/-!
# Archiving is an atomic move

`archiveOfferSql` of `packages/database/sql/queries.app.ts`: one statement whose parts copy the
matched offers and their child rows to the history tables and delete the offers. Every part reads the
tables as they were when the statement started, and the parts run in any order; the foreign keys of
the child tables cascade when all parts have run.

The tables have here what `Db` leaves out: `created_at`, the columns that may be NULL, and those of
the fill verdict, which are NULL in a new history row. The serial ids of child rows are left out.

* `archiveOfferSql_eq` — the statement, in every order of its parts.
* `tables_archiveOffers` — the state machine's `Db.archiveOffers` is this statement.
* `Db.Stored`, `NodeRun.stored` — in every reachable state the statement succeeds.
* `archive_moves` — what the statement moves.
-/

namespace ZswapKernel

/-! ## The tables -/

/-- The columns of the fill verdict. -/
structure FillColumns where
  settled : Option Bool := none
  baseColor : Option String := none
  quoteColor : Option String := none
  baseAmount : Option Rat := none
  quoteAmount : Option Rat := none
  deriving DecidableEq, Repr

/-- `offer_file`. -/
structure OfferFileRow where
  id : Nat
  celestiaHeight : Nat
  transactionHex : String
  offerHash : String
  metadataCreatedAt : Option Int
  metadataExpiresAt : Option Int
  firstSeenAt : Int
  createdAt : Option Int
  ttlSeconds : Int
  deriving DecidableEq, Repr

/-- `offer_file_history`. -/
structure OfferFileHistoryRow extends OfferFileRow, FillColumns where
  archiveReason : ArchiveReason
  archivedAt : Int
  deriving DecidableEq, Repr

/-- The tables of the statement. -/
@[ext]
structure OfferTables where
  offerFile : List OfferFileRow := []
  tokens : List (ChildRow TokenLeg) := []
  nullifiers : List (ChildRow String) := []
  spends : List (ChildRow UnshieldedSpendRef) := []
  commitments : List (ChildRow String) := []
  outputs : List (ChildRow DeclaredOutput) := []
  history : List OfferFileHistoryRow := []
  tokensHistory : List (ArchivedRow TokenLeg) := []
  nullifiersHistory : List (ArchivedRow String) := []
  spendsHistory : List (ArchivedRow UnshieldedSpendRef) := []
  commitmentsHistory : List (ChildRow String) := []
  outputsHistory : List (ChildRow DeclaredOutput) := []
  deriving DecidableEq, Repr

/-- `HISTORY_COLUMNS`, with the reason and the time of the archival. -/
def OfferFileRow.archived (reason : ArchiveReason) (archivedAt : Int) (row : OfferFileRow) :
    OfferFileHistoryRow where
  id := row.id
  celestiaHeight := row.celestiaHeight
  transactionHex := row.transactionHex
  offerHash := row.offerHash
  metadataCreatedAt := row.metadataCreatedAt
  metadataExpiresAt := row.metadataExpiresAt
  firstSeenAt := row.firstSeenAt
  createdAt := row.createdAt
  ttlSeconds := row.ttlSeconds
  archiveReason := reason
  archivedAt := archivedAt

/-! ## The statement -/

/-- The parts of the statement. -/
inductive ArchivePart
  | archivedOffer
  | archivedTokens
  | archivedNullifiers
  | archivedUnshieldedSpends
  | archivedCommitments
  | archivedUnshieldedOutputs
  | delete
  deriving DecidableEq, Repr

def ArchivePart.all : List ArchivePart :=
  [.archivedOffer, .archivedTokens, .archivedNullifiers, .archivedUnshieldedSpends,
    .archivedCommitments, .archivedUnshieldedOutputs, .delete]

/-- The child rows of the matched offers. -/
def rowsOf {α : Type} (matched : List Nat) (rows : List (ChildRow α)) : List (ChildRow α) :=
  rows.filter (·.offerFileId ∈ matched)

/-- What a part writes. The primary keys of three history tables can refuse a row. -/
def ArchivePart.run (matched : List Nat) (reason : ArchiveReason) (archivedAt : Int) :
    ArchivePart → Part OfferTables
  | .archivedOffer => PartOn (·.history) (fun t history => { t with history }) fun start table =>
      insertAll (·.id) ((start.offerFile.filter (·.id ∈ matched)).map (·.archived reason archivedAt))
        table
  | .archivedTokens => PartOn (·.tokensHistory) (fun t tokensHistory => { t with tokensHistory })
      fun start table => some (table ++ (rowsOf matched start.tokens).map (⟨·, archivedAt⟩))
  | .archivedNullifiers => PartOn (·.nullifiersHistory)
      (fun t nullifiersHistory => { t with nullifiersHistory })
      fun start table => some (table ++ (rowsOf matched start.nullifiers).map (⟨·, archivedAt⟩))
  | .archivedUnshieldedSpends => PartOn (·.spendsHistory)
      (fun t spendsHistory => { t with spendsHistory })
      fun start table => some (table ++ (rowsOf matched start.spends).map (⟨·, archivedAt⟩))
  | .archivedCommitments => PartOn (·.commitmentsHistory)
      (fun t commitmentsHistory => { t with commitmentsHistory })
      fun start table => insertAll id (rowsOf matched start.commitments) table
  | .archivedUnshieldedOutputs => PartOn (·.outputsHistory)
      (fun t outputsHistory => { t with outputsHistory })
      fun start table => insertAll outputKey (rowsOf matched start.outputs) table
  | .delete => PartOn (·.offerFile) (fun t offerFile => { t with offerFile })
      fun _ table => some (table.filter (·.id ∉ matched))

/-- `ON DELETE CASCADE`, for the offers that are gone. -/
def OfferTables.cascade (gone : List Nat) (t : OfferTables) : OfferTables :=
  { t with
    tokens := t.tokens.filter (·.offerFileId ∉ gone)
    nullifiers := t.nullifiers.filter (·.offerFileId ∉ gone)
    spends := t.spends.filter (·.offerFileId ∉ gone)
    commitments := t.commitments.filter (·.offerFileId ∉ gone)
    outputs := t.outputs.filter (·.offerFileId ∉ gone) }

/-- The ids of the offers that match and are live. -/
def OfferTables.gone (t : OfferTables) (matched : List Nat) : List Nat :=
  (t.offerFile.filter (·.id ∈ matched)).map (·.id)

/-- `archiveOfferSql`, with the order its parts run in, and what it returns of the deleted offers.
`none` is a violated key: the statement fails, and nothing changes. -/
def archiveOfferSql (matched : OfferTables → List Nat) (reason : ArchiveReason) (archivedAt : Int)
    (order : List ArchivePart) (t : OfferTables) : Option (OfferTables × List (Nat × String)) := do
  let written ← runParts t (order.map (·.run (matched t) reason archivedAt))
  return (written.cascade (t.gone (matched t)),
    (t.offerFile.filter (·.id ∈ matched t)).map fun row => (row.id, row.offerHash))

/-- The offers `archiveOfferByNullifierWithHash` matches. -/
def matchedByNullifier (nullifier : String) (t : OfferTables) : List Nat :=
  ((t.nullifiers.filter (·.value = nullifier)).map (·.offerFileId)).dedup

/-- The offers `archiveOfferByUnshieldedSpendWithHash` matches. -/
def matchedByUnshieldedSpend (coin : UnshieldedSpendRef) (t : OfferTables) : List Nat :=
  ((t.spends.filter (·.value = coin)).map (·.offerFileId)).dedup

/-- The offer `archiveOfferByIdTtlWithHash` matches. -/
def matchedByIdTtl (offerFileId : Nat) (expiresAtCutoff : Int) (t : OfferTables) : List Nat :=
  ((t.offerFile.filter fun row => row.id = offerFileId &&
    row.metadataExpiresAt.any (· ≤ expiresAtCutoff)).map (·.id)).take 1

/-! ## What the statement does -/

namespace OfferTables

/-- The constraints of the schema that the statement relies on. -/
structure Constrained (t : OfferTables) : Prop where
  ids : (t.offerFile.map (·.id)).Nodup
  commitmentKeys : t.commitments.Nodup
  outputKeys : (t.outputs.map outputKey).Nodup
  tokensOf : ∀ row ∈ t.tokens, row.offerFileId ∈ t.offerFile.map (·.id)
  nullifiersOf : ∀ row ∈ t.nullifiers, row.offerFileId ∈ t.offerFile.map (·.id)
  spendsOf : ∀ row ∈ t.spends, row.offerFileId ∈ t.offerFile.map (·.id)
  commitmentsOf : ∀ row ∈ t.commitments, row.offerFileId ∈ t.offerFile.map (·.id)
  outputsOf : ∀ row ∈ t.outputs, row.offerFileId ∈ t.offerFile.map (·.id)

/-- A row that the statement copies has a key that its history table has already. -/
def Collides (t : OfferTables) (matched : List Nat) : Prop :=
  (∃ row ∈ t.offerFile, row.id ∈ matched ∧ row.id ∈ t.history.map (·.id)) ∨
    (∃ row ∈ rowsOf matched t.commitments, row ∈ t.commitmentsHistory) ∨
    ∃ row ∈ rowsOf matched t.outputs, outputKey row ∈ t.outputsHistory.map outputKey

instance (t : OfferTables) (matched : List Nat) : Decidable (t.Collides matched) :=
  inferInstanceAs (Decidable (_ ∨ _ ∨ _))

/-- The tables after the move. -/
def moved (t : OfferTables) (matched : List Nat) (reason : ArchiveReason) (archivedAt : Int) :
    OfferTables where
  offerFile := t.offerFile.filter (·.id ∉ matched)
  tokens := t.tokens.filter (·.offerFileId ∉ matched)
  nullifiers := t.nullifiers.filter (·.offerFileId ∉ matched)
  spends := t.spends.filter (·.offerFileId ∉ matched)
  commitments := t.commitments.filter (·.offerFileId ∉ matched)
  outputs := t.outputs.filter (·.offerFileId ∉ matched)
  history := t.history ++
    (t.offerFile.filter (·.id ∈ matched)).map (·.archived reason archivedAt)
  tokensHistory := t.tokensHistory ++ (rowsOf matched t.tokens).map (⟨·, archivedAt⟩)
  nullifiersHistory := t.nullifiersHistory ++ (rowsOf matched t.nullifiers).map (⟨·, archivedAt⟩)
  spendsHistory := t.spendsHistory ++ (rowsOf matched t.spends).map (⟨·, archivedAt⟩)
  commitmentsHistory := t.commitmentsHistory ++ rowsOf matched t.commitments
  outputsHistory := t.outputsHistory ++ rowsOf matched t.outputs

end OfferTables

open OfferTables

/-- The parts write different tables. -/
theorem ArchivePart.commute (matched : List Nat) (reason : ArchiveReason) (archivedAt : Int)
    (start : OfferTables) (p q : ArchivePart) :
    Part.Commute start (p.run matched reason archivedAt) (q.run matched reason archivedAt) := by
  cases p <;> cases q <;> dsimp only [ArchivePart.run] <;>
    first
    | exact fun _ => rfl
    | exact PartOn.commute (fun _ _ => rfl) (fun _ _ => rfl) fun _ _ _ => rfl

section Statement

variable {t : OfferTables} {matched : List Nat} {reason : ArchiveReason} {archivedAt : Int}

theorem insertAll_archivedOffer (h : t.Constrained) :
    insertAll (·.id) ((t.offerFile.filter (·.id ∈ matched)).map (·.archived reason archivedAt))
      t.history =
    if ∃ row ∈ t.offerFile, row.id ∈ matched ∧ row.id ∈ t.history.map (·.id) then none
    else some (t.moved matched reason archivedAt).history := by
  rw [insertAll_eq]
  split_ifs with hinserts hcollides hcollides
  · obtain ⟨row, hrow, hmatched, hold⟩ := hcollides
    refine absurd hold (hinserts.2 _ (List.mem_map_of_mem (List.mem_filter.mpr ⟨hrow, ?_⟩)))
    exact decide_eq_true hmatched
  · rfl
  · rfl
  · refine absurd ⟨?_, fun entry hentry hold => ?_⟩ hinserts
    · rw [List.map_map]
      exact h.ids.sublist (List.filter_sublist.map _)
    · obtain ⟨row, hrow, rfl⟩ := List.mem_map.mp hentry
      obtain ⟨hmem, hmatched⟩ := List.mem_filter.mp hrow
      exact hcollides ⟨row, hmem, of_decide_eq_true hmatched, hold⟩

/-- A child table whose history has a key. -/
theorem insertAll_rowsOf {α κ : Type} [DecidableEq κ] {key : ChildRow α → κ}
    {rows history : List (ChildRow α)} (h : (rows.map key).Nodup) :
    insertAll key (rowsOf matched rows) history =
      if ∃ row ∈ rowsOf matched rows, key row ∈ history.map key then none
      else some (history ++ rowsOf matched rows) := by
  rw [insertAll_eq]
  split_ifs with hinserts hcollides hcollides
  · obtain ⟨row, hrow, hold⟩ := hcollides
    exact absurd hold (hinserts.2 row hrow)
  · rfl
  · rfl
  · refine absurd ⟨h.sublist (List.filter_sublist.map _), fun row hrow hold => ?_⟩ hinserts
    exact hcollides ⟨row, hrow, hold⟩

/-- The parts, before the foreign keys cascade. -/
theorem runParts_all (h : t.Constrained) : runParts t (ArchivePart.all.map
    (·.run matched reason archivedAt)) = if t.Collides matched then none else
      some { t.moved matched reason archivedAt with
        tokens := t.tokens
        nullifiers := t.nullifiers
        spends := t.spends
        commitments := t.commitments
        outputs := t.outputs } := by
  have hoffers := @insertAll_archivedOffer t matched reason archivedAt h
  have hcommitments : insertAll id (rowsOf matched t.commitments) t.commitmentsHistory = _ :=
    insertAll_rowsOf (by rw [List.map_id]; exact h.commitmentKeys)
  have houtputs : insertAll outputKey (rowsOf matched t.outputs) t.outputsHistory = _ :=
    insertAll_rowsOf h.outputKeys
  unfold runParts
  simp only [ArchivePart.all, List.map_cons, List.map_nil, List.foldlM_cons, List.foldlM_nil,
    ArchivePart.run, PartOn]
  rw [hoffers]
  by_cases hoffer : ∃ row ∈ t.offerFile, row.id ∈ matched ∧ row.id ∈ t.history.map (·.id)
  · have hcollides : t.Collides matched := .inl hoffer
    rw [if_pos hoffer, if_pos hcollides]
    rfl
  rw [if_neg hoffer]
  simp only [Option.map_some, Option.bind_eq_bind, Option.bind_some]
  rw [hcommitments]
  by_cases hcommitment : ∃ row ∈ rowsOf matched t.commitments, row ∈ t.commitmentsHistory
  · have hcollides : t.Collides matched := .inr (.inl hcommitment)
    rw [if_pos (by simpa using hcommitment), if_pos hcollides]
    rfl
  rw [if_neg (by simpa using hcommitment)]
  simp only [Option.map_some, Option.bind_some]
  rw [houtputs]
  by_cases houtput : ∃ row ∈ rowsOf matched t.outputs,
      outputKey row ∈ t.outputsHistory.map outputKey
  · have hcollides : t.Collides matched := .inr (.inr houtput)
    rw [if_pos houtput, if_pos hcollides]
    rfl
  rw [if_neg houtput]
  have hnone : ¬ t.Collides matched := by
    rintro (hcollides | hcollides | hcollides)
    · exact hoffer hcollides
    · exact hcommitment hcollides
    · exact houtput hcollides
  rw [if_neg hnone]
  rfl

/-- The offer of a child row is live, so it is gone when it is matched. -/
theorem mem_gone {id : Nat} (h : id ∈ t.offerFile.map (·.id)) :
    id ∈ t.gone matched ↔ id ∈ matched := by
  unfold gone
  rw [List.mem_map]
  constructor
  · rintro ⟨offer, hoffer, hid⟩
    rw [← hid]
    exact of_decide_eq_true (List.mem_filter.mp hoffer).2
  · intro hmatched
    obtain ⟨offer, hoffer, hid⟩ := List.mem_map.mp h
    exact ⟨offer, List.mem_filter.mpr ⟨hoffer, by rw [hid]; exact decide_eq_true hmatched⟩, hid⟩

theorem filter_gone {α : Type} {rows : List (ChildRow α)}
    (h : ∀ row ∈ rows, row.offerFileId ∈ t.offerFile.map (·.id)) :
    rows.filter (·.offerFileId ∉ t.gone matched) = rows.filter (·.offerFileId ∉ matched) :=
  List.filter_congr fun row hrow => decide_eq_decide.mpr (not_congr (mem_gone (h row hrow)))

theorem rowsOf_gone {α : Type} {rows : List (ChildRow α)}
    (h : ∀ row ∈ rows, row.offerFileId ∈ t.offerFile.map (·.id)) :
    rowsOf (t.gone matched) rows = rowsOf matched rows :=
  List.filter_congr fun row hrow => decide_eq_decide.mpr (mem_gone (h row hrow))

/-- **The statement, in every order of its parts**: it moves the matched offers with their child
rows, or it fails. -/
theorem archiveOfferSql_eq (h : t.Constrained) (matched : OfferTables → List Nat)
    (reason : ArchiveReason) (archivedAt : Int) {order : List ArchivePart}
    (horder : order.Perm ArchivePart.all) :
    archiveOfferSql matched reason archivedAt order t =
      if t.Collides (matched t) then none
      else some (t.moved (matched t) reason archivedAt,
        (t.offerFile.filter (·.id ∈ matched t)).map fun row => (row.id, row.offerHash)) := by
  unfold archiveOfferSql
  rw [runParts_perm (horder.map _), runParts_all h]
  · split
    · rfl
    · show some (_, _) = some (_, _)
      refine congrArg (fun tables => some (tables, _)) ?_
      unfold cascade
      rw [filter_gone h.tokensOf, filter_gone h.nullifiersOf, filter_gone h.spendsOf,
        filter_gone h.commitmentsOf, filter_gone h.outputsOf]
      rfl
  · intro p hp q hq
    obtain ⟨part, -, rfl⟩ := List.mem_map.mp hp
    obtain ⟨other, -, rfl⟩ := List.mem_map.mp hq
    exact ArchivePart.commute _ _ _ _ _ _

end Statement

/-! ## What is moved -/

/-- The child rows of the matched offers move to the history, once and under the same offer. -/
structure RowsMoved {α ρ : Type} (matched : List Nat) (stamp : ChildRow α → ρ)
    (strip : ρ → ChildRow α) (rows rows' : List (ChildRow α)) (history history' : List ρ) : Prop where
  kept : rows' = rows.filter (·.offerFileId ∉ matched)
  copied : history' = history ++ (rowsOf matched rows).map stamp
  conserved : (rows' ++ history'.map strip).Perm (rows ++ history.map strip)

/-- The statement moved the matched offers from `t` to `t'`. -/
structure OfferTables.Moves (matched : List Nat) (reason : ArchiveReason) (archivedAt : Int)
    (t t' : OfferTables) : Prop where
  kept : t'.offerFile = t.offerFile.filter (·.id ∉ matched)
  copied : t'.history = t.history ++
    (t.offerFile.filter (·.id ∈ matched)).map (·.archived reason archivedAt)
  tokens : RowsMoved matched (⟨·, archivedAt⟩) (·.toChildRow) t.tokens t'.tokens t.tokensHistory
    t'.tokensHistory
  nullifiers : RowsMoved matched (⟨·, archivedAt⟩) (·.toChildRow) t.nullifiers t'.nullifiers
    t.nullifiersHistory t'.nullifiersHistory
  spends : RowsMoved matched (⟨·, archivedAt⟩) (·.toChildRow) t.spends t'.spends t.spendsHistory
    t'.spendsHistory
  commitments : RowsMoved matched id id t.commitments t'.commitments t.commitmentsHistory
    t'.commitmentsHistory
  outputs : RowsMoved matched id id t.outputs t'.outputs t.outputsHistory t'.outputsHistory

theorem rowsMoved {α ρ : Type} (matched : List Nat) {stamp : ChildRow α → ρ}
    {strip : ρ → ChildRow α} (hstrip : ∀ row, strip (stamp row) = row) (rows : List (ChildRow α))
    (history : List ρ) : RowsMoved matched stamp strip rows
      (rows.filter (·.offerFileId ∉ matched)) history
      (history ++ (rowsOf matched rows).map stamp) where
  kept := rfl
  copied := rfl
  conserved := by
    have hcopied : ((rowsOf matched rows).map stamp).map strip = rowsOf matched rows := by
      rw [List.map_map]
      exact List.map_id'' hstrip _
    have hsplit : (rowsOf matched rows ++ rows.filter (·.offerFileId ∉ matched)).Perm rows := by
      have hfilter := List.filter_append_perm (p := (·.offerFileId ∈ matched)) (l := rows)
      simpa [rowsOf] using hfilter
    rw [List.map_append, hcopied, ← List.append_assoc]
    refine List.perm_append_comm.trans ?_
    rw [← List.append_assoc]
    exact hsplit.append_right _

theorem OfferTables.moves_moved (t : OfferTables) (matched : List Nat) (reason : ArchiveReason)
    (archivedAt : Int) : Moves matched reason archivedAt t (t.moved matched reason archivedAt) where
  kept := rfl
  copied := rfl
  tokens := rowsMoved matched (fun _ => rfl) t.tokens t.tokensHistory
  nullifiers := rowsMoved matched (fun _ => rfl) t.nullifiers t.nullifiersHistory
  spends := rowsMoved matched (fun _ => rfl) t.spends t.spendsHistory
  commitments := by
    have hmoved := @rowsMoved _ _ matched id id (fun _ => rfl) t.commitments
      t.commitmentsHistory
    rwa [List.map_id] at hmoved
  outputs := by
    have hmoved := @rowsMoved _ _ matched id id (fun _ => rfl) t.outputs
      t.outputsHistory
    rwa [List.map_id] at hmoved

/-- The move keeps the constraints: no child row is left behind. -/
theorem OfferTables.Constrained.moved {t : OfferTables} (h : t.Constrained) (matched : List Nat)
    (reason : ArchiveReason) (archivedAt : Int) :
    (t.moved matched reason archivedAt).Constrained := by
  have hlive : ∀ id ∈ t.offerFile.map (·.id), id ∉ matched →
      id ∈ (t.offerFile.filter (·.id ∉ matched)).map (·.id) := by
    intro id hid hkept
    obtain ⟨row, hrow, rfl⟩ := List.mem_map.mp hid
    exact List.mem_map_of_mem (List.mem_filter.mpr ⟨hrow, decide_eq_true hkept⟩)
  have hof : ∀ {α : Type} {rows : List (ChildRow α)},
      (∀ row ∈ rows, row.offerFileId ∈ t.offerFile.map (·.id)) →
      ∀ row ∈ rows.filter (·.offerFileId ∉ matched),
        row.offerFileId ∈ (t.offerFile.filter (·.id ∉ matched)).map (·.id) := by
    intro α rows hrows row hrow
    obtain ⟨hmem, hkept⟩ := List.mem_filter.mp hrow
    exact hlive _ (hrows row hmem) (of_decide_eq_true hkept)
  exact
    { ids := h.ids.sublist (List.filter_sublist.map _)
      commitmentKeys := h.commitmentKeys.filter _
      outputKeys := h.outputKeys.sublist (List.filter_sublist.map _)
      tokensOf := hof h.tokensOf
      nullifiersOf := hof h.nullifiersOf
      spendsOf := hof h.spendsOf
      commitmentsOf := hof h.commitmentsOf
      outputsOf := hof h.outputsOf }

/-! ## The state machine's archival -/

/-- The columns that `Db` leaves out, by offer. -/
structure LocalColumns where
  createdAt : Nat → Option Int := fun _ => none
  verdict : Nat → FillColumns := fun _ => {}

def OfferFile.toRow (columns : LocalColumns) (offer : OfferFile) : OfferFileRow where
  id := offer.id
  celestiaHeight := offer.celestiaHeight
  transactionHex := offer.transactionHex
  offerHash := offer.offerHash
  metadataCreatedAt := some offer.metadataCreatedAt
  metadataExpiresAt := some offer.metadataExpiresAt
  firstSeenAt := offer.firstSeenAt
  createdAt := columns.createdAt offer.id
  ttlSeconds := offer.ttlSeconds

def OfferFileHistory.toRow (columns : LocalColumns) (entry : OfferFileHistory) :
    OfferFileHistoryRow where
  toOfferFileRow := entry.toOfferFile.toRow columns
  toFillColumns := columns.verdict entry.id
  archiveReason := entry.archiveReason
  archivedAt := entry.archivedAt

/-- The offer tables of a state of the node. -/
def Db.tables (columns : LocalColumns) (db : Db) : OfferTables where
  offerFile := db.offerFile.map (·.toRow columns)
  tokens := db.tokens
  nullifiers := db.offerNullifiers
  spends := db.offerSpends
  commitments := db.offerCommitments
  outputs := db.offerOutputs
  history := db.history.map (·.toRow columns)
  tokensHistory := db.tokensHistory
  nullifiersHistory := db.offerNullifiersHistory
  spendsHistory := db.offerSpendsHistory
  commitmentsHistory := db.offerCommitmentsHistory
  outputsHistory := db.offerOutputsHistory

section Refinement

variable {db : Db} {columns : LocalColumns}

theorem tables_ids (columns : LocalColumns) (db : Db) :
    (db.tables columns).offerFile.map (·.id) = db.offerFile.map (·.id) := by
  unfold Db.tables
  rw [List.map_map]
  rfl

/-- The constraints do not depend on the local columns. -/
theorem constrained_tables (other : LocalColumns) (h : (db.tables columns).Constrained) :
    (db.tables other).Constrained := by
  have hids : (db.tables other).offerFile.map (·.id) = (db.tables columns).offerFile.map (·.id) :=
    (tables_ids other db).trans (tables_ids columns db).symm
  exact
    { ids := hids ▸ h.ids
      commitmentKeys := h.commitmentKeys
      outputKeys := h.outputKeys
      tokensOf := hids ▸ h.tokensOf
      nullifiersOf := hids ▸ h.nullifiersOf
      spendsOf := hids ▸ h.spendsOf
      commitmentsOf := hids ▸ h.commitmentsOf
      outputsOf := hids ▸ h.outputsOf }

/-- **The state machine's archival is the statement**, where the predicate and the matched ids say
the same of the live offers. -/
theorem tables_archiveOffers (h : (db.tables columns).Constrained)
    (hverdict : ∀ offer ∈ db.offerFile, columns.verdict offer.id = {}) {matched : List Nat}
    {isMatched : OfferFile → Bool}
    (hmatched : ∀ offer ∈ db.offerFile, isMatched offer = decide (offer.id ∈ matched))
    (reason : ArchiveReason) (archivedAt : Int) :
    (db.archiveOffers isMatched reason archivedAt).tables columns =
      (db.tables columns).moved matched reason archivedAt := by
  have hgone : (db.offerFile.filter isMatched).map (·.id) =
      (db.tables columns).gone matched := by
    unfold gone Db.tables
    rw [List.filter_map, List.map_map]
    exact congrArg (List.map _) (List.filter_congr hmatched)
  unfold Db.archiveOffers
  rw [hgone]
  refine OfferTables.ext ?_ (filter_gone h.tokensOf) (filter_gone h.nullifiersOf)
    (filter_gone h.spendsOf) (filter_gone h.commitmentsOf) (filter_gone h.outputsOf) ?_ ?_ ?_ ?_ ?_ ?_
  · show (db.offerFile.filter (!isMatched ·)).map _ = (db.offerFile.map _).filter _
    rw [List.filter_map]
    refine congrArg (List.map _) (List.filter_congr fun offer hoffer => ?_)
    rw [hmatched offer hoffer, ← decide_not]
    rfl
  · show (db.history ++ _).map _ = db.history.map _ ++ _
    rw [List.map_append]
    refine congrArg (db.history.map _ ++ ·) ?_
    show _ = ((db.offerFile.map _).filter _).map _
    rw [List.filter_map, List.map_map, List.map_map, List.filter_congr hmatched]
    refine List.map_congr_left fun offer hoffer => ?_
    -- a new history row has no verdict yet
    have hnone := hverdict offer (List.mem_filter.mp hoffer).1
    show OfferFileHistory.toRow columns ⟨offer, reason, archivedAt⟩ =
      (offer.toRow columns).archived reason archivedAt
    unfold OfferFileHistory.toRow
    dsimp only
    rw [hnone]
    rfl
  · exact congrArg (db.tokensHistory ++ List.map _ ·) (rowsOf_gone h.tokensOf)
  · exact congrArg (db.offerNullifiersHistory ++ List.map _ ·) (rowsOf_gone h.nullifiersOf)
  · exact congrArg (db.offerSpendsHistory ++ List.map _ ·) (rowsOf_gone h.spendsOf)
  · exact congrArg (db.offerCommitmentsHistory ++ ·) (rowsOf_gone h.commitmentsOf)
  · exact congrArg (db.offerOutputsHistory ++ ·) (rowsOf_gone h.outputsOf)

/-- The three conditions, as the state machine has them. -/
theorem competesForNullifier_iff (nullifier : String) (offer : OfferFile) :
    db.competesForNullifier nullifier offer =
      decide (offer.id ∈ matchedByNullifier nullifier (db.tables columns)) := by
  unfold Db.competesForNullifier matchedByNullifier
  rw [Bool.eq_iff_iff, decide_eq_true_eq, List.mem_dedup, List.mem_map, List.any_eq_true]
  refine exists_congr fun row => ?_
  rw [List.mem_filter, and_assoc, Bool.and_eq_true, and_comm (b := decide _ = true),
    decide_eq_true_eq (p := row.offerFileId = offer.id)]
  rfl

theorem competesForCoin_iff (coin : UnshieldedSpendRef) (offer : OfferFile) :
    db.competesForCoin coin offer =
      decide (offer.id ∈ matchedByUnshieldedSpend coin (db.tables columns)) := by
  unfold Db.competesForCoin matchedByUnshieldedSpend
  rw [Bool.eq_iff_iff, decide_eq_true_eq, List.mem_dedup, List.mem_map, List.any_eq_true]
  refine exists_congr fun row => ?_
  rw [List.mem_filter, and_assoc, Bool.and_eq_true, and_comm (b := decide _ = true),
    decide_eq_true_eq (p := row.offerFileId = offer.id)]
  rfl

theorem mem_matchedByIdTtl {offerFileId : Nat} {cutoff : Int} {t : OfferTables} {id : Nat} :
    id ∈ matchedByIdTtl offerFileId cutoff t ↔ id = offerFileId ∧ ∃ row ∈ t.offerFile,
      row.id = offerFileId ∧ row.metadataExpiresAt.any (· ≤ cutoff) = true := by
  unfold matchedByIdTtl
  -- `LIMIT 1` of rows that have the same id
  have hall : ∀ row ∈ t.offerFile.filter fun row => row.id = offerFileId &&
      row.metadataExpiresAt.any (· ≤ cutoff), row ∈ t.offerFile ∧ row.id = offerFileId ∧
        row.metadataExpiresAt.any (· ≤ cutoff) = true := by
    intro row hrow
    obtain ⟨hmem, hboth⟩ := List.mem_filter.mp hrow
    rw [Bool.and_eq_true, decide_eq_true_eq] at hboth
    exact ⟨hmem, hboth⟩
  constructor
  · intro hid
    obtain ⟨row, hrow, rfl⟩ := List.mem_map.mp (List.mem_of_mem_take hid)
    obtain ⟨hmem, hrowId, hexpired⟩ := hall row hrow
    exact ⟨hrowId, row, hmem, hrowId, hexpired⟩
  · rintro ⟨rfl, row, hrow, hrowId, hexpired⟩
    have hmem : row ∈ t.offerFile.filter fun row => row.id = id &&
        row.metadataExpiresAt.any (· ≤ cutoff) :=
      List.mem_filter.mpr ⟨hrow, by rw [hexpired, Bool.and_true]; exact decide_eq_true hrowId⟩
    cases hrows : t.offerFile.filter fun row => row.id = id &&
        row.metadataExpiresAt.any (· ≤ cutoff) with
    | nil =>
      rw [hrows] at hmem
      cases hmem
    | cons first rest =>
      rw [hrows] at hall
      rw [List.map_cons, List.take_succ_cons]
      exact List.mem_cons.mpr (.inl (hall first List.mem_cons_self).2.1.symm)

theorem expired_iff (offerFileId : Nat) (cutoff : Int) (h : (db.tables columns).Constrained)
    {offer : OfferFile} (hoffer : offer ∈ db.offerFile) :
    (offer.id = offerFileId && offer.metadataExpiresAt ≤ cutoff) =
      decide (offer.id ∈ matchedByIdTtl offerFileId cutoff (db.tables columns)) := by
  rw [Bool.eq_iff_iff, Bool.and_eq_true, decide_eq_true_eq, decide_eq_true_eq, decide_eq_true_eq,
    mem_matchedByIdTtl]
  refine and_congr_right fun hid => ?_
  have hrow : offer.toRow columns ∈ (db.tables columns).offerFile := List.mem_map_of_mem hoffer
  constructor
  · intro hexpired
    exact ⟨_, hrow, hid, decide_eq_true hexpired⟩
  · rintro ⟨row, hmem, hrowId, hexpired⟩
    have hsame : row = offer.toRow columns :=
      List.inj_on_of_nodup_map h.ids hmem hrow (hrowId.trans hid.symm)
    rw [hsame] at hexpired
    exact of_decide_eq_true hexpired

end Refinement

/-! ## Every reachable state -/

/-- What the offer tables keep to, with `nextId` the next id of the sequence. -/
structure OfferTables.Stored (nextId : Nat) (t : OfferTables) : Prop extends t.Constrained where
  next : ∀ id ∈ t.offerFile.map (·.id), id < nextId
  past : ∀ row ∈ t.history, row.id < nextId ∧ row.id ∉ t.offerFile.map (·.id)
  pastCommitments : ∀ row ∈ t.commitmentsHistory,
    row.offerFileId < nextId ∧ row.offerFileId ∉ t.offerFile.map (·.id)
  pastOutputs : ∀ row ∈ t.outputsHistory,
    row.offerFileId < nextId ∧ row.offerFileId ∉ t.offerFile.map (·.id)
  expired : ∀ row ∈ t.history, row.archiveReason = .ttl →
    row.metadataExpiresAt.any (· ≤ row.archivedAt) = true

namespace OfferTables.Stored

variable {nextId : Nat} {t : OfferTables}

/-- An archived offer is not live, so nothing collides. -/
theorem not_collides (h : t.Stored nextId) (matched : List Nat) : ¬ t.Collides matched := by
  rintro (⟨row, hrow, -, hold⟩ | ⟨row, hrow, hold⟩ | ⟨row, hrow, hold⟩)
  · obtain ⟨entry, hentry, hid⟩ := List.mem_map.mp hold
    exact (h.past entry hentry).2 (hid ▸ List.mem_map_of_mem hrow)
  · exact (h.pastCommitments row hold).2 (h.commitmentsOf row (List.mem_filter.mp hrow).1)
  · obtain ⟨entry, hentry, hkey⟩ := List.mem_map.mp hold
    have hid : entry.offerFileId = row.offerFileId := congrArg Prod.fst hkey
    exact (h.pastOutputs entry hentry).2 (hid ▸ h.outputsOf row (List.mem_filter.mp hrow).1)

/-- The move keeps the tables. -/
theorem moved (h : t.Stored nextId) (matched : List Nat) {reason : ArchiveReason} {archivedAt : Int}
    (hexpired : reason = .ttl → ∀ row ∈ t.offerFile, row.id ∈ matched →
      row.metadataExpiresAt.any (· ≤ archivedAt) = true) :
    (t.moved matched reason archivedAt).Stored nextId := by
  have hlive : ∀ id ∈ (t.offerFile.filter (·.id ∉ matched)).map (·.id),
      id ∈ t.offerFile.map (·.id) ∧ id ∉ matched := by
    intro id hid
    obtain ⟨row, hrow, rfl⟩ := List.mem_map.mp hid
    obtain ⟨hmem, hkept⟩ := List.mem_filter.mp hrow
    exact ⟨List.mem_map_of_mem hmem, of_decide_eq_true hkept⟩
  have hrows : ∀ {α : Type} {rows history : List (ChildRow α)},
      (∀ row ∈ history, row.offerFileId < nextId ∧ row.offerFileId ∉ t.offerFile.map (·.id)) →
      (∀ row ∈ rows, row.offerFileId ∈ t.offerFile.map (·.id)) →
      ∀ row ∈ history ++ rowsOf matched rows, row.offerFileId < nextId ∧
        row.offerFileId ∉ (t.offerFile.filter (·.id ∉ matched)).map (·.id) := by
    intro α rows history hpast hof row hrow
    rcases List.mem_append.mp hrow with hold | hnew
    · exact ⟨(hpast row hold).1, fun hmem => (hpast row hold).2 (hlive _ hmem).1⟩
    · obtain ⟨hmem, hmatched⟩ := List.mem_filter.mp hnew
      exact ⟨h.next _ (hof row hmem), fun hkept =>
        (hlive _ hkept).2 (of_decide_eq_true hmatched)⟩
  refine { h.toConstrained.moved matched reason archivedAt with
    next := fun id hid => h.next id (hlive id hid).1
    past := fun entry hentry => ?_
    pastCommitments := hrows h.pastCommitments h.commitmentsOf
    pastOutputs := hrows h.pastOutputs h.outputsOf
    expired := fun entry hentry hreason => ?_ }
  · rcases List.mem_append.mp hentry with hold | hnew
    · exact ⟨(h.past entry hold).1, fun hmem => (h.past entry hold).2 (hlive _ hmem).1⟩
    · obtain ⟨row, hrow, rfl⟩ := List.mem_map.mp hnew
      obtain ⟨hmem, hmatched⟩ := List.mem_filter.mp hrow
      exact ⟨h.next _ (List.mem_map_of_mem hmem), fun hkept =>
        (hlive _ hkept).2 (of_decide_eq_true hmatched)⟩
  · rcases List.mem_append.mp hentry with hold | hnew
    · exact h.expired entry hold hreason
    · obtain ⟨row, hrow, rfl⟩ := List.mem_map.mp hnew
      obtain ⟨hmem, hmatched⟩ := List.mem_filter.mp hrow
      exact hexpired hreason row hmem (of_decide_eq_true hmatched)

end OfferTables.Stored

section Intake

variable {env : NodeEnv} {ledger : Ledger} {ctx : BlockContext} {db db' : Db}
  {rawBytes : List UInt8} {result : OfferValidation} {expiresAt firstSeenAt : Int}

/-- Inserting legs appends them. -/
theorem foldlM_insertOfferFileToken_rows {offerFileId : Nat} {legs : List TokenLeg}
    (h : legs.foldlM (Db.insertOfferFileToken offerFileId) db = .ok db') :
    db' = { db with tokens := db.tokens ++ legs.map (⟨offerFileId, ·⟩) } := by
  induction legs generalizing db with
  | nil =>
    cases h
    rw [List.map_nil, List.append_nil]
  | cons leg legs ih =>
    rw [List.foldlM_cons, Except.bind_eq_ok] at h
    obtain ⟨middle, hleg, hrest⟩ := h
    unfold Db.insertOfferFileToken at hleg
    split at hleg
    · cases hleg
    · cases hleg
      rw [ih hrest, List.append_assoc]
      rfl

/-- The leg rows of a new offer. -/
theorem saveOfferFile_legs
    (h : saveOfferFile ledger ctx rawBytes result expiresAt firstSeenAt db = .ok db') :
    db'.tokens = db.tokens ++ (result.gives.map (TokenLeg.mk · .giving) ++
      result.wants.map (TokenLeg.mk · .wanting)).map (⟨db.nextId, ·⟩) := by
  unfold saveOfferFile at h
  simp only [foldl_insertOfferFileNullifier, foldl_insertOfferFileUnshieldedSpend,
    foldl_insertOfferFileCommitment, foldl_insertOfferFileUnshieldedOutput] at h
  rw [Except.bind_eq_ok] at h
  obtain ⟨middle, hgives, hwants⟩ := h
  rw [foldlM_insertOfferFileToken_rows hwants, foldlM_insertOfferFileToken_rows hgives,
    List.map_append, ← List.append_assoc]
  rfl

theorem nodup_insertNew {α : Type} [DecidableEq α] {row : α} {rows : List α} (h : rows.Nodup) :
    (insertNew id row rows).Nodup := by
  unfold insertNew
  split
  · exact h
  · rename_i hnew
    refine List.nodup_append.mpr ⟨h, List.nodup_singleton row, fun old hold other hother heq => ?_⟩
    rw [List.mem_singleton.mp hother] at heq
    exact hnew (List.any_eq_true.mpr ⟨old, hold, decide_eq_true heq⟩)

theorem nodup_insertRows {α : Type} [DecidableEq α] (offerFileId : Nat) (values : List α)
    {rows : List (ChildRow α)} (h : rows.Nodup) : (insertRows offerFileId values rows).Nodup := by
  unfold insertRows
  induction values generalizing rows with
  | nil => exact h
  | cons value values ih => exact ih (nodup_insertNew h)

theorem nodup_countOutput {row : ChildRow DeclaredOutput} {rows : List (ChildRow DeclaredOutput)}
    (h : (rows.map outputKey).Nodup) : ((Db.countOutput row rows).map outputKey).Nodup := by
  induction rows with
  | nil => exact List.nodup_singleton _
  | cons other rows ih =>
    obtain ⟨hother, hrest⟩ := List.nodup_cons.mp h
    unfold Db.countOutput
    split
    · exact h
    · rename_i hdifferent
      refine List.nodup_cons.mpr ⟨fun hmem => ?_, ih hrest⟩
      rcases mem_countOutput_keys.mp hmem with hmem | hsame
      · exact hother hmem
      · exact hdifferent ⟨congrArg Prod.fst hsame, congrArg Prod.snd hsame⟩

theorem nodup_countOutputs (offerFileId : Nat) (outputs : List UnshieldedOutputRef)
    {rows : List (ChildRow DeclaredOutput)} (h : (rows.map outputKey).Nodup) :
    ((countOutputs offerFileId outputs rows).map outputKey).Nodup := by
  unfold countOutputs
  induction outputs generalizing rows with
  | nil => exact h
  | cons output outputs ih => exact ih (nodup_countOutput h)

/-- The tables of a state of the node, by the invariant. -/
def Db.Stored (db : Db) : Prop := (db.tables {}).Stored db.nextId

/-- An accepted offer has the next id, and so have its child rows. -/
theorem Db.Stored.accept (h : db.Stored) {saved : Db}
    (haccepts : Accepts env ledger ctx rawBytes db result expiresAt firstSeenAt saved) :
    saved.Stored := by
  have htokens := saveOfferFile_legs haccepts.saved
  obtain ⟨tokens, rfl⟩ := saveOfferFile_ok haccepts.saved
  replace htokens : tokens = _ := htokens
  unfold Db.Stored at h ⊢
  have hids : (db.tables {}).offerFile.map (·.id) = db.offerFile.map (·.id) := tables_ids {} db
  have hsavedIds : ∀ id, id ∈ ((db.offerFile ++
      [offerFileRow ledger ctx rawBytes expiresAt firstSeenAt db.nextId]).map
        (OfferFile.toRow {})).map (·.id) ↔
      id ∈ (db.tables {}).offerFile.map (·.id) ∨ id = db.nextId := by
    intro id
    rw [hids]
    simp [OfferFile.toRow, offerFileRow]
  have hpast : ∀ id, id < db.nextId ∧ id ∉ (db.tables {}).offerFile.map (·.id) →
      id < db.nextId + 1 ∧ id ∉ ((db.offerFile ++
        [offerFileRow ledger ctx rawBytes expiresAt firstSeenAt db.nextId]).map
          (OfferFile.toRow {})).map (·.id) := by
    rintro id ⟨hlt, hold⟩
    refine ⟨Nat.lt_succ_of_lt hlt, fun hmem => ?_⟩
    rcases (hsavedIds id).mp hmem with hmem | rfl
    · exact hold hmem
    · exact lt_irrefl _ hlt
  have hrows : ∀ {α : Type} [DecidableEq α] {values : List α} {rows : List (ChildRow α)},
      (∀ row ∈ rows, row.offerFileId ∈ (db.tables {}).offerFile.map (·.id)) →
      ∀ row ∈ insertRows db.nextId values rows, row.offerFileId ∈ ((db.offerFile ++
        [offerFileRow ledger ctx rawBytes expiresAt firstSeenAt db.nextId]).map
          (OfferFile.toRow {})).map (·.id) := by
    intro α _ values rows hof row hrow
    rcases mem_insertRows.mp hrow with hold | ⟨value, -, rfl⟩
    · exact (hsavedIds _).mpr (.inl (hof row hold))
    · exact (hsavedIds _).mpr (.inr rfl)
  exact
    { ids := by
        show (List.map _ (List.map _ (_ ++ [_]))).Nodup
        rw [List.map_append, List.map_append, List.nodup_append]
        refine ⟨h.ids, List.nodup_singleton _, fun old hold new hnew heq => ?_⟩
        have hnext : new = db.nextId := List.mem_singleton.mp hnew
        exact absurd (h.next old hold) (by rw [heq, hnext]; exact lt_irrefl _)
      commitmentKeys := nodup_insertRows _ _ h.commitmentKeys
      outputKeys := nodup_countOutputs _ _ h.outputKeys
      tokensOf := by
        intro row hrow
        have hrow : row ∈ tokens := hrow
        rw [htokens] at hrow
        rcases List.mem_append.mp hrow with hold | hnew
        · exact (hsavedIds _).mpr (.inl (h.tokensOf row hold))
        · obtain ⟨leg, -, rfl⟩ := List.mem_map.mp hnew
          exact (hsavedIds _).mpr (.inr rfl)
      nullifiersOf := hrows h.nullifiersOf
      spendsOf := hrows h.spendsOf
      commitmentsOf := hrows h.commitmentsOf
      outputsOf := by
        intro row hrow
        rcases mem_countOutputs_keys.mp (List.mem_map_of_mem (f := outputKey) hrow) with
          hold | ⟨output, -, hkey⟩
        · obtain ⟨old, hmem, hkey⟩ := List.mem_map.mp hold
          have hid : old.offerFileId = row.offerFileId := congrArg Prod.fst hkey
          exact (hsavedIds _).mpr (.inl (hid ▸ h.outputsOf old hmem))
        · exact (hsavedIds _).mpr (.inr (congrArg Prod.fst hkey))
      next := by
        intro id hid
        rcases (hsavedIds id).mp hid with hold | rfl
        · exact Nat.lt_succ_of_lt (h.next id hold)
        · exact Nat.lt_succ_self _
      past := fun entry hentry => hpast _ (h.past entry hentry)
      pastCommitments := fun row hrow => hpast _ (h.pastCommitments row hrow)
      pastOutputs := fun row hrow => hpast _ (h.pastOutputs row hrow)
      expired := h.expired }

/-- The same offer tables. -/
def Db.SameTables (db' db : Db) : Prop := db'.nextId = db.nextId ∧ db'.tables {} = db.tables {}

theorem Db.Stored.congr (h : db.Stored) (hsame : db'.SameTables db) : db'.Stored := by
  unfold Db.Stored at h ⊢
  rw [hsame.1, hsame.2]
  exact h

/-- **What one input does to the offer tables**: nothing, one archival, or one new offer. -/
theorem processInput_tables {input : NodeInput}
    (hstep : processInput env ledger ctx db input = .ok db') :
    db'.SameTables db ∨
    (∃ isMatched reason archivedAt,
      (reason = .ttl → ∀ offer, isMatched offer = true → offer.metadataExpiresAt ≤ archivedAt) ∧
      db'.SameTables (db.archiveOffers isMatched reason archivedAt)) ∨
    ∃ rawBytes result expiresAt firstSeenAt saved,
      Accepts env ledger ctx rawBytes db result expiresAt firstSeenAt saved ∧
      db'.SameTables saved := by
  cases input with
  | celestiaZswap suppliedValue =>
    rcases celestiaZswap_ok hstep with ⟨code, rfl⟩ |
      ⟨result, expiresAt, firstSeenAt, saved, haccepts, rfl⟩
    · exact .inl ⟨rfl, rfl⟩
    · exact .inr (.inr ⟨suppliedValue, result, expiresAt, firstSeenAt, saved, haccepts, rfl, rfl⟩)
  | zswapEvent event =>
    cases hstep
    cases event with
    | commitment commitment txHash mtIndex => exact .inl ⟨rfl, rfl⟩
    | nullifier nullifier txHash =>
      obtain ⟨marked, hevent⟩ := zswapEvent_nullifier ctx nullifier txHash db
      refine .inr (.inl ⟨db.competesForNullifier nullifier, .consumed, ctx.blockTimestamp,
        fun hreason => (by cases hreason), ?_⟩)
      rw [hevent]
      cases marked <;> exact ⟨rfl, rfl⟩
  | unshieldedSpend payload =>
    cases hstep
    cases hcoin : payload.coin ledger with
    | none =>
      unfold unshieldedSpend
      rw [hcoin]
      exact .inl ⟨rfl, rfl⟩
    | some coin =>
      rw [unshieldedSpend_coin hcoin]
      exact .inr (.inl ⟨db.competesForCoin coin, .consumed, ctx.blockTimestamp,
        fun hreason => (by cases hreason), rfl, rfl⟩)
  | unshieldedCreate payload =>
    cases hstep
    unfold unshieldedCreate
    split
    · exact .inl ⟨rfl, rfl⟩
    · exact .inl ⟨rfl, rfl⟩
  | zswapRoot root =>
    cases hstep
    unfold zswapRoot
    simp only
    split
    · exact .inl ⟨rfl, rfl⟩
    · exact .inl ⟨rfl, rfl⟩
  | ttlCleanup offerId =>
    obtain ⟨cutoff, -, hstep⟩ := Except.bind_eq_ok.mp hstep
    cases hstep
    refine .inr (.inl ⟨_, .ttl, cutoff, fun _ offer hmatched => ?_, rfl, rfl⟩)
    rw [Bool.and_eq_true] at hmatched
    exact of_decide_eq_true hmatched.2

/-- The ids of the matched offers say the same as the predicate. -/
theorem Db.Stored.tables_archived (h : db.Stored) (isMatched : OfferFile → Bool)
    (reason : ArchiveReason) (archivedAt : Int) :
    (db.archiveOffers isMatched reason archivedAt).tables {} =
      (db.tables {}).moved ((db.offerFile.filter isMatched).map (·.id)) reason archivedAt := by
  refine tables_archiveOffers h.toConstrained (fun _ _ => rfl) (fun offer hoffer => ?_) _ _
  rw [Bool.eq_iff_iff, decide_eq_true_eq, List.mem_map]
  constructor
  · intro hmatch
    exact ⟨offer, List.mem_filter.mpr ⟨hoffer, hmatch⟩, rfl⟩
  · rintro ⟨other, hother, hid⟩
    obtain ⟨hmem, hmatch⟩ := List.mem_filter.mp hother
    have hnodup : (db.offerFile.map (·.id)).Nodup := tables_ids {} db ▸ h.ids
    exact List.inj_on_of_nodup_map hnodup hmem hoffer hid ▸ hmatch

theorem Db.Stored.processInput (h : db.Stored) {input : NodeInput}
    (hstep : ZswapKernel.processInput env ledger ctx db input = .ok db') : db'.Stored := by
  rcases processInput_tables hstep with hsame | ⟨isMatched, reason, archivedAt, hexpired, hsame⟩ |
    ⟨rawBytes, result, expiresAt, firstSeenAt, saved, haccepts, hsame⟩
  · exact h.congr hsame
  · refine Db.Stored.congr ?_ hsame
    unfold Db.Stored
    rw [h.tables_archived]
    refine h.moved _ fun hreason row hrow hid => ?_
    obtain ⟨offer, hoffer, hofferId⟩ := List.mem_map.mp hid
    obtain ⟨hmem, hmatch⟩ := List.mem_filter.mp hoffer
    have hsame : offer.toRow {} = row :=
      List.inj_on_of_nodup_map h.ids (List.mem_map_of_mem hmem) hrow hofferId
    rw [← hsame]
    exact decide_eq_true (hexpired hreason offer hmatch)
  · exact (h.accept haccepts).congr hsame

theorem NodeRun.stored (h : NodeRun env ledger ctx db) : db.Stored := by
  induction h with
  | start ctx =>
    refine ⟨⟨List.nodup_nil, List.nodup_nil, List.nodup_nil, ?_, ?_, ?_, ?_, ?_⟩, ?_, ?_, ?_, ?_, ?_⟩
      <;> exact fun _ hmem => absurd hmem List.not_mem_nil
  | block _ _ _ ih => exact ih
  | input _ input hstep ih => exact ih.processInput hstep

/-- What holds of the empty tables and survives a move and an accepted offer holds of the tables of
every reachable state. -/
theorem NodeRun.tables_induction {P : OfferTables → Prop} (start : P {})
    (moved : ∀ (t : OfferTables) matched reason archivedAt, P t →
      P (t.moved matched reason archivedAt))
    (accept : ∀ {ctx : BlockContext} {rawBytes : List UInt8} {db : Db} {result : OfferValidation}
      {expiresAt firstSeenAt : Int} {saved : Db},
      Accepts env ledger ctx rawBytes db result expiresAt firstSeenAt saved → P (db.tables {}) →
        P (saved.tables {}))
    (h : NodeRun env ledger ctx db) : P (db.tables {}) := by
  induction h with
  | start ctx => exact start
  | block _ _ _ ih => exact ih
  | input hrun input hstep ih =>
    rcases processInput_tables hstep with ⟨-, hsame⟩ | ⟨isMatched, reason, archivedAt, -, -, hsame⟩ |
      ⟨rawBytes, result, expiresAt, firstSeenAt, saved, haccepts, -, hsame⟩
    · rw [hsame]
      exact ih
    · rw [hsame, hrun.stored.tables_archived]
      exact moved _ _ _ _ ih
    · rw [hsame]
      exact accept haccepts ih

end Intake

/-! ## The move -/

/-- What the statement returns of the offers it deletes. -/
def OfferTables.returning (t : OfferTables) (matched : List Nat) : List (Nat × String) :=
  (t.offerFile.filter (·.id ∈ matched)).map fun row => (row.id, row.offerHash)

/-- A statement that does not fail moves the offers and keeps the constraints. -/
theorem archiveOfferSql_moves {t : OfferTables} (h : t.Constrained)
    {matched : OfferTables → List Nat} (hnone : ¬ t.Collides (matched t)) (reason : ArchiveReason)
    (archivedAt : Int) {order : List ArchivePart} (horder : order.Perm ArchivePart.all) :
    ∃ t', archiveOfferSql matched reason archivedAt order t = some (t', t.returning (matched t)) ∧
      Moves (matched t) reason archivedAt t t' ∧ t'.Constrained := by
  refine ⟨_, ?_, t.moves_moved (matched t) reason archivedAt, h.moved _ reason archivedAt⟩
  rw [archiveOfferSql_eq h matched reason archivedAt horder, if_neg hnone]
  rfl

/-- In a state of the node nothing collides, whatever the local columns are. -/
theorem Db.Stored.not_collides {db : Db} (h : db.Stored) (columns : LocalColumns)
    (matched : List Nat) : ¬ (db.tables columns).Collides matched := by
  rintro (⟨row, hrow, -, hold⟩ | hcollides | hcollides)
  · have hlive : row.id ∈ db.offerFile.map (·.id) :=
      tables_ids columns db ▸ List.mem_map_of_mem hrow
    obtain ⟨entry, hentry, hid⟩ := List.mem_map.mp hold
    obtain ⟨archived, harchived, rfl⟩ := List.mem_map.mp hentry
    refine (h.past _ (List.mem_map_of_mem harchived)).2 ?_
    rw [tables_ids]
    exact hid ▸ hlive
  · exact OfferTables.Stored.not_collides h matched (.inr (.inl hcollides))
  · exact OfferTables.Stored.not_collides h matched (.inr (.inr hcollides))

/-- The three archivals of the state machine are the statement, in every order of its parts. -/
theorem archivals_are_statements {db : Db} (h : db.Stored) {columns : LocalColumns}
    (hverdict : ∀ offer ∈ db.offerFile, columns.verdict offer.id = {}) (archivedAt : Int)
    {order : List ArchivePart} (horder : order.Perm ArchivePart.all) :
    (∀ nullifier, (archiveOfferSql (matchedByNullifier nullifier) .consumed archivedAt order
      (db.tables columns)).map Prod.fst =
        some ((db.archiveOfferByNullifier nullifier archivedAt).tables columns)) ∧
    (∀ coin, (archiveOfferSql (matchedByUnshieldedSpend coin) .consumed archivedAt order
      (db.tables columns)).map Prod.fst =
        some ((db.archiveOfferByUnshieldedSpend coin archivedAt).tables columns)) ∧
    ∀ offerFileId cutoff, (archiveOfferSql (matchedByIdTtl offerFileId cutoff) .ttl archivedAt order
      (db.tables columns)).map Prod.fst =
        some ((db.archiveOfferByIdTtl offerFileId cutoff archivedAt).tables columns) := by
  have hconstrained : (db.tables columns).Constrained := constrained_tables columns h.toConstrained
  have hstatement : ∀ (matched : OfferTables → List Nat) (isMatched : OfferFile → Bool) reason,
      (∀ offer ∈ db.offerFile, isMatched offer =
        decide (offer.id ∈ matched (db.tables columns))) →
      (archiveOfferSql matched reason archivedAt order (db.tables columns)).map Prod.fst =
        some ((db.archiveOffers isMatched reason archivedAt).tables columns) := by
    intro matched isMatched reason hmatched
    rw [archiveOfferSql_eq hconstrained matched reason archivedAt horder,
      if_neg (h.not_collides columns _), tables_archiveOffers hconstrained hverdict hmatched]
    rfl
  refine ⟨fun nullifier => ?_, fun coin => ?_, fun offerFileId cutoff => ?_⟩
  · exact hstatement _ _ .consumed fun offer _ => competesForNullifier_iff nullifier offer
  · exact hstatement _ _ .consumed fun offer _ => competesForCoin_iff coin offer
  · exact hstatement _ _ .ttl fun offer hoffer => expired_iff offerFileId cutoff hconstrained hoffer

/-- **Archiving is an atomic move.** For any tables that keep the schema's constraints, any condition
and any order of the parts, the statement moves the matched offers and all of their child rows, and
leaves the others as they are, or it fails because a key is archived already, and changes nothing. In
a reachable state of the node no key is. The condition of the time-to-live archival matches a live
offer only at or after its expiry, and every offer archived so was archived then. -/
theorem archive_moves :
    (∀ t : OfferTables, t.Constrained → ∀ (matched : OfferTables → List Nat)
      (reason : ArchiveReason) (archivedAt : Int) (order : List ArchivePart),
      order.Perm ArchivePart.all →
      (archiveOfferSql matched reason archivedAt order t = none ∧ t.Collides (matched t)) ∨
      ∃ t', archiveOfferSql matched reason archivedAt order t = some (t', t.returning (matched t)) ∧
        Moves (matched t) reason archivedAt t t' ∧ t'.Constrained) ∧
    (∀ env ledger ctx db, NodeRun env ledger ctx db → ∀ (columns : LocalColumns)
      (matched : OfferTables → List Nat) (reason : ArchiveReason) (archivedAt : Int)
      (order : List ArchivePart), order.Perm ArchivePart.all →
      ∃ t', archiveOfferSql matched reason archivedAt order (db.tables columns) =
          some (t', (db.tables columns).returning (matched (db.tables columns))) ∧
        Moves (matched (db.tables columns)) reason archivedAt (db.tables columns) t' ∧
        t'.Constrained) ∧
    (∀ t : OfferTables, t.Constrained → ∀ (offerFileId : Nat) (cutoff : Int), ∀ row ∈ t.offerFile,
      row.id ∈ matchedByIdTtl offerFileId cutoff t →
      ∃ expiresAt, row.metadataExpiresAt = some expiresAt ∧ expiresAt ≤ cutoff) ∧
    ∀ env ledger ctx db, NodeRun env ledger ctx db → ∀ entry ∈ db.history,
      entry.archiveReason = .ttl → entry.metadataExpiresAt ≤ entry.archivedAt := by
  refine ⟨fun t h matched reason archivedAt order horder => ?_,
    fun env ledger ctx db hrun columns matched reason archivedAt order horder => ?_,
    fun t h offerFileId cutoff row hrow hmatched => ?_,
    fun env ledger ctx db hrun entry hentry hreason => ?_⟩
  · by_cases hcollides : t.Collides (matched t)
    · refine .inl ⟨?_, hcollides⟩
      rw [archiveOfferSql_eq h matched reason archivedAt horder, if_pos hcollides]
    · exact .inr (archiveOfferSql_moves h hcollides reason archivedAt horder)
  · have hstored := hrun.stored
    exact archiveOfferSql_moves (constrained_tables columns hstored.toConstrained)
      (hstored.not_collides columns _) reason archivedAt horder
  · obtain ⟨hid, expired, hexpired, hexpiredId, hexpiry⟩ := mem_matchedByIdTtl.mp hmatched
    have hsame : expired = row :=
      List.inj_on_of_nodup_map h.ids hexpired hrow (hexpiredId.trans hid.symm)
    rw [hsame] at hexpiry
    cases hexpires : row.metadataExpiresAt with
    | none =>
      rw [hexpires] at hexpiry
      cases hexpiry
    | some expiresAt =>
      rw [hexpires] at hexpiry
      exact ⟨expiresAt, rfl, of_decide_eq_true hexpiry⟩
  · have hexpiry := hrun.stored.expired (entry.toRow {}) (List.mem_map_of_mem hentry) hreason
    exact of_decide_eq_true hexpiry

namespace OneArchive

/-- Two offers that spend one coin, and a third. -/
def tables : OfferTables where
  offerFile := [row 1, row 2, row 3]
  tokens := [⟨1, ⟨⟨"g", "1", .shielded⟩, .giving⟩⟩, ⟨2, ⟨⟨"g", "1", .shielded⟩, .giving⟩⟩]
  nullifiers := [⟨1, "n"⟩, ⟨2, "n"⟩, ⟨3, "m"⟩]
  commitments := [⟨1, "c"⟩]
where
  row (id : Nat) : OfferFileRow := ⟨id, 7, "", "", some 0, some 9, 0, none, 3600⟩

theorem constrained : tables.Constrained :=
  ⟨by decide, by decide, by decide, by decide, by decide, by decide, by decide, by decide⟩

end OneArchive

open OneArchive OneOffer in
/-- Two of three offers are archived; one offer of a run is. -/
theorem archive_moves_competing :
    (∃ t', archiveOfferSql (matchedByNullifier "n") .consumed 5 ArchivePart.all.reverse tables =
        some (t', tables.returning [1, 2]) ∧
      Moves [1, 2] .consumed 5 tables t' ∧ t'.Constrained) ∧
    (∃ expiresAt, (tables.row 3).metadataExpiresAt = some expiresAt ∧ expiresAt ≤ 9) ∧
    ∃ db, NodeRun env ledger block.toBlockContext db ∧ db.offerFile.length = 1 ∧
      (∃ t', archiveOfferSql (matchedByUnshieldedSpend ⟨"aa", "bb", 0⟩) .consumed 5
          ArchivePart.all (db.tables {}) = some (t', (db.tables {}).returning
            (matchedByUnshieldedSpend ⟨"aa", "bb", 0⟩ (db.tables {}))) ∧
        Moves (matchedByUnshieldedSpend ⟨"aa", "bb", 0⟩ (db.tables {})) .consumed 5 (db.tables {})
          t' ∧ t'.Constrained) ∧
      ∀ entry ∈ db.history, entry.archiveReason = .ttl →
        entry.metadataExpiresAt ≤ entry.archivedAt := by
  obtain ⟨hmoves, hreachable, hexpired, harchived⟩ := archive_moves
  refine ⟨?_, ?_, ?_⟩
  · rcases hmoves tables constrained (matchedByNullifier "n") .consumed 5
      ArchivePart.all.reverse (List.reverse_perm _) with ⟨-, hcollides⟩ | hmoves
    · exact absurd hcollides (by decide)
    · exact hmoves
  · exact hexpired tables constrained 3 9 (tables.row 3) (by decide) (by decide)
  · have hcount := live_count
    cases hrun : inputs.foldlM (processInput env ledger block.toBlockContext) {} with
    | error message =>
      rw [hrun] at hcount
      cases hcount
    | ok db =>
      rw [hrun] at hcount
      have hdb := foldlM_processInput_run (.start block.toBlockContext) hrun
      exact ⟨db, hdb, Option.some.inj hcount,
        hreachable _ _ _ _ hdb {} _ .consumed 5 _ (List.Perm.refl _), harchived _ _ _ _ hdb⟩

end ZswapKernel
