import ZswapKernel.Node.KnownRoots
import ZswapKernel.Validator.Validate

/-!
# The node's database

The tables of `packages/database` that the state machine writes, and its queries. A table is the list
of its rows in insertion order; a child row carries the id of its offer, and goes when the offer goes.

Left out: columns of local bookkeeping (`created_at`, `recorded_at`, the serial ids of child rows) and
the stored fill verdict of an archived offer, which the state machine does not write.
-/

namespace ZswapKernel

structure OfferFile where
  id : Nat
  celestiaHeight : Nat
  transactionHex : String
  offerHash : String
  metadataCreatedAt : Int
  metadataExpiresAt : Int
  firstSeenAt : Int
  ttlSeconds : Int
  deriving DecidableEq, Repr

inductive ArchiveReason
  | consumed
  | ttl
  deriving DecidableEq, Repr

structure OfferFileHistory extends OfferFile where
  archiveReason : ArchiveReason
  archivedAt : Int
  deriving DecidableEq, Repr

/-- A row of a child table. -/
structure ChildRow (α : Type) where
  offerFileId : Nat
  value : α
  deriving DecidableEq, Repr

/-- An archived child row. -/
structure ArchivedRow (α : Type) extends ChildRow α where
  archivedAt : Int
  deriving DecidableEq, Repr

inductive LegDirection
  | giving
  | wanting
  deriving DecidableEq, Repr

/-- A leg of an offer, in `offer_file_tokens`. -/
structure TokenLeg extends OfferLeg where
  direction : LegDirection
  deriving DecidableEq, Repr

/-- A declared output and how often it was declared. -/
structure DeclaredOutput extends UnshieldedOutputRef where
  count : Nat
  deriving DecidableEq, Repr

structure NullifierRow where
  nullifier : String
  height : Nat
  txHash : Option String
  offerMatched : Bool := false
  deriving DecidableEq, Repr

structure CommitmentRow where
  commitment : String
  txHash : Option String
  mtIndex : Option String
  height : Nat
  deriving DecidableEq, Repr

structure UnshieldedSpendRow where
  coin : UnshieldedSpendRef
  txHash : Option String
  height : Nat
  deriving DecidableEq, Repr

structure UnshieldedCreateRow extends UnshieldedSpendRow where
  tokenType : String
  value : String
  deriving DecidableEq, Repr

/-- A row of the framework's accounting table, which holds every fetched blob. -/
structure AccountingRow where
  primitiveName : String
  blockHeight : Nat
  supplied : List UInt8
  deriving DecidableEq, Repr

/-- A row of `offer_rejections`. -/
structure RejectionRow where
  celestiaHeight : Nat
  code : String
  count : Nat
  deriving DecidableEq, Repr

structure Db where
  /-- The sequence of `offer_file.id`. -/
  nextId : Nat := 1
  offerFile : List OfferFile := []
  tokens : List (ChildRow TokenLeg) := []
  offerNullifiers : List (ChildRow String) := []
  offerSpends : List (ChildRow UnshieldedSpendRef) := []
  offerCommitments : List (ChildRow String) := []
  offerOutputs : List (ChildRow DeclaredOutput) := []
  history : List OfferFileHistory := []
  tokensHistory : List (ArchivedRow TokenLeg) := []
  offerNullifiersHistory : List (ArchivedRow String) := []
  offerSpendsHistory : List (ArchivedRow UnshieldedSpendRef) := []
  offerCommitmentsHistory : List (ChildRow String) := []
  offerOutputsHistory : List (ChildRow DeclaredOutput) := []
  nullifiers : List NullifierRow := []
  commitments : List CommitmentRow := []
  unshieldedSpends : List UnshieldedSpendRow := []
  unshieldedCreates : List UnshieldedCreateRow := []
  createdUnshielded : List (UnshieldedSpendRef × Nat) := []
  knownRoots : KnownRoots := KnownRoots.empty
  accounting : List AccountingRow := []
  rejections : List RejectionRow := []
  /-- Scheduled clean-ups: the time and the offer. -/
  scheduled : List (Int × Nat) := []

/-- `INSERT … ON CONFLICT DO NOTHING` into a table with the given key. -/
def insertNew {α κ : Type} [DecidableEq κ] (key : α → κ) (row : α) (rows : List α) : List α :=
  if rows.any (key · = key row) then rows else rows ++ [row]

theorem mem_insertNew {α κ : Type} [DecidableEq κ] {key : α → κ} {row other : α} {rows : List α}
    (h : other ∈ insertNew key row rows) : other ∈ rows ∨ other = row := by
  unfold insertNew at h
  split at h
  · exact .inl h
  · simpa using h

theorem mem_insertNew_of_mem {α κ : Type} [DecidableEq κ] {key : α → κ} {row other : α}
    {rows : List α} (h : other ∈ rows) : other ∈ insertNew key row rows := by
  unfold insertNew
  split
  · exact h
  · exact List.mem_append_left _ h

/-- Afterwards the table has a row with the key. -/
theorem exists_mem_insertNew {α κ : Type} [DecidableEq κ] (key : α → κ) (row : α) (rows : List α) :
    ∃ other ∈ insertNew key row rows, key other = key row := by
  unfold insertNew
  split
  · rename_i h
    simpa using h
  · exact ⟨row, by simp, rfl⟩

namespace Db

/-! ## Chain observations -/

/-- `insertNullifierWithTx`. -/
def insertNullifier (db : Db) (nullifier : String) (height : Nat) (txHash : Option String) : Db :=
  { db with nullifiers := insertNew (·.nullifier) ⟨nullifier, height, txHash, false⟩ db.nullifiers }

/-- `isNullifierSpent`. -/
def isNullifierSpent (db : Db) (nullifier : String) : Bool :=
  db.nullifiers.any (·.nullifier = nullifier)

/-- `markNullifierMatched`. -/
def markNullifierMatched (db : Db) (nullifier : String) : Db :=
  { db with nullifiers := db.nullifiers.map fun row =>
      if row.nullifier = nullifier then { row with offerMatched := true } else row }

/-- `findUnmatchedNullifier`. -/
def findUnmatchedNullifier (db : Db) (nullifier : String) : Bool :=
  db.nullifiers.any fun row => row.nullifier = nullifier && !row.offerMatched

def insertCommitment (db : Db) (row : CommitmentRow) : Db :=
  { db with commitments := insertNew (·.commitment) row db.commitments }

def insertUnshieldedSpend (db : Db) (row : UnshieldedSpendRow) : Db :=
  { db with unshieldedSpends := insertNew (·.coin) row db.unshieldedSpends }

def insertUnshieldedCreate (db : Db) (row : UnshieldedCreateRow) : Db :=
  { db with unshieldedCreates := insertNew (·.coin) row db.unshieldedCreates }

def insertCreatedUnshielded (db : Db) (coin : UnshieldedSpendRef) (height : Nat) : Db :=
  { db with createdUnshielded := insertNew (·.1) (coin, height) db.createdUnshielded }

def deleteCreatedUnshielded (db : Db) (coin : UnshieldedSpendRef) : Db :=
  { db with createdUnshielded := db.createdUnshielded.filter (·.1 ≠ coin) }

/-- `isUnshieldedCreated`. -/
def isUnshieldedCreated (db : Db) (coin : UnshieldedSpendRef) : Bool :=
  db.createdUnshielded.any (·.1 = coin)

/-! ## Offers -/

/-- `insertOfferFileWithHash`; the row has the next id of the sequence. -/
def insertOfferFile (db : Db) (offer : OfferFile) : Db :=
  { db with
    offerFile := db.offerFile ++ [offer]
    nextId := db.nextId + 1 }

def insertOfferFileNullifier (offerFileId : Nat) (db : Db) (nullifier : String) : Db :=
  { db with offerNullifiers := insertNew id ⟨offerFileId, nullifier⟩ db.offerNullifiers }

def insertOfferFileUnshieldedSpend (offerFileId : Nat) (db : Db) (coin : UnshieldedSpendRef) : Db :=
  { db with offerSpends := insertNew id ⟨offerFileId, coin⟩ db.offerSpends }

def insertOfferFileCommitment (offerFileId : Nat) (db : Db) (commitment : String) : Db :=
  { db with offerCommitments := insertNew id ⟨offerFileId, commitment⟩ db.offerCommitments }

/-- A repeated output is counted. -/
def countOutput (row : ChildRow DeclaredOutput) :
    List (ChildRow DeclaredOutput) → List (ChildRow DeclaredOutput)
  | [] => [row]
  | other :: rows =>
    if other.offerFileId = row.offerFileId ∧
        other.value.toUnshieldedSpendRef = row.value.toUnshieldedSpendRef then
      { other with value := { other.value with count := other.value.count + 1 } } :: rows
    else other :: countOutput row rows

def insertOfferFileUnshieldedOutput (offerFileId : Nat) (db : Db) (output : UnshieldedOutputRef) :
    Db :=
  { db with offerOutputs := countOutput ⟨offerFileId, ⟨output, 1⟩⟩ db.offerOutputs }

/-- `insertOfferFileTokenWithKind`: a repeated leg violates the unique constraint. -/
def insertOfferFileToken (offerFileId : Nat) (db : Db) (leg : TokenLeg) : Except String Db :=
  if db.tokens.any fun row => row.offerFileId = offerFileId && row.value.token = leg.token &&
      row.value.direction = leg.direction && row.value.kind = leg.kind then
    .error "duplicate key value violates unique constraint"
  else .ok { db with tokens := db.tokens ++ [⟨offerFileId, leg⟩] }

/-- `archiveOfferSql`: the matched offers and their child rows move to the history tables. -/
def archiveOffers (db : Db) (isMatched : OfferFile → Bool) (reason : ArchiveReason)
    (archivedAt : Int) : Db :=
  let gone := (db.offerFile.filter isMatched).map (·.id)
  { db with
    offerFile := db.offerFile.filter (!isMatched ·)
    tokens := db.tokens.filter (·.offerFileId ∉ gone)
    offerNullifiers := db.offerNullifiers.filter (·.offerFileId ∉ gone)
    offerSpends := db.offerSpends.filter (·.offerFileId ∉ gone)
    offerCommitments := db.offerCommitments.filter (·.offerFileId ∉ gone)
    offerOutputs := db.offerOutputs.filter (·.offerFileId ∉ gone)
    history := db.history ++ (db.offerFile.filter isMatched).map (⟨·, reason, archivedAt⟩)
    tokensHistory := db.tokensHistory ++
      (db.tokens.filter (·.offerFileId ∈ gone)).map (⟨·, archivedAt⟩)
    offerNullifiersHistory := db.offerNullifiersHistory ++
      (db.offerNullifiers.filter (·.offerFileId ∈ gone)).map (⟨·, archivedAt⟩)
    offerSpendsHistory := db.offerSpendsHistory ++
      (db.offerSpends.filter (·.offerFileId ∈ gone)).map (⟨·, archivedAt⟩)
    offerCommitmentsHistory := db.offerCommitmentsHistory ++
      db.offerCommitments.filter (·.offerFileId ∈ gone)
    offerOutputsHistory := db.offerOutputsHistory ++ db.offerOutputs.filter (·.offerFileId ∈ gone) }

/-- The offers `archiveOfferByNullifierWithHash` matches. -/
def competesForNullifier (db : Db) (nullifier : String) (offer : OfferFile) : Bool :=
  db.offerNullifiers.any fun row => row.offerFileId = offer.id && row.value = nullifier

def archiveOfferByNullifier (db : Db) (nullifier : String) (archivedAt : Int) : Db :=
  db.archiveOffers (db.competesForNullifier nullifier) .consumed archivedAt

/-- The offers `archiveOfferByUnshieldedSpendWithHash` matches. -/
def competesForCoin (db : Db) (coin : UnshieldedSpendRef) (offer : OfferFile) : Bool :=
  db.offerSpends.any fun row => row.offerFileId = offer.id && row.value = coin

def archiveOfferByUnshieldedSpend (db : Db) (coin : UnshieldedSpendRef) (archivedAt : Int) : Db :=
  db.archiveOffers (db.competesForCoin coin) .consumed archivedAt

/-- `archiveOfferByIdTtlWithHash`. -/
def archiveOfferByIdTtl (db : Db) (offerFileId : Nat) (expiresAtCutoff archivedAt : Int) : Db :=
  db.archiveOffers (fun offer => offer.id = offerFileId && offer.metadataExpiresAt ≤ expiresAtCutoff)
    .ttl archivedAt

/-- `getOfferStatusByHash`: an offer with the hash, live or archived. -/
def hasOfferHash (db : Db) (offerHash : String) : Bool :=
  db.offerFile.any (·.offerHash = offerHash) || db.history.any (·.offerHash = offerHash)

/-- The least hash of the live offers that satisfy `claims`. -/
def leastActiveHash (db : Db) (claims : OfferFile → Bool) : Option String :=
  ((db.offerFile.filter claims).map (·.offerHash)).min?

/-- `findActiveOfferByCommitment`. -/
def findActiveOfferByCommitment (db : Db) (commitment : String) : Option String :=
  db.leastActiveHash fun offer => db.offerCommitments.any fun row =>
    row.offerFileId = offer.id && row.value = commitment

/-- `findActiveOfferByUnshieldedOutput`. -/
def findActiveOfferByUnshieldedOutput (db : Db) (output : UnshieldedSpendRef) : Option String :=
  db.leastActiveHash fun offer => db.offerOutputs.any fun row =>
    row.offerFileId = offer.id && row.value.toUnshieldedSpendRef = output

/-! ## Rejections -/

/-- `deleteRejectedAccountingRow`. -/
def deleteRejectedAccountingRow (db : Db) (primitiveName : String) (blockHeight : Nat)
    (supplied : List UInt8) : Db :=
  { db with accounting := db.accounting.filter fun row =>
      row ≠ AccountingRow.mk primitiveName blockHeight supplied }

/-- `recordOfferRejection`. -/
def recordOfferRejection (db : Db) (celestiaHeight : Nat) (code : String) : Db :=
  let count := ((db.rejections.find? fun row => row.celestiaHeight = celestiaHeight &&
    row.code = code).map (·.count)).getD 0
  let row : RejectionRow := ⟨celestiaHeight, code, count + 1⟩
  let key := fun row : RejectionRow => (row.celestiaHeight, row.code)
  { db with rejections := BestByKey.replace key row db.rejections }

end Db

end ZswapKernel
