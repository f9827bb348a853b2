import ZswapKernel.Database.TokenRegistry
import ZswapKernel.Lib.CheckedTable
import ZswapKernel.Lib.Traces

/-!
# The import of the canonical token registry

`applyCanonicalRegistry` (`packages/database/token-registry.ts`) on one connection. A query may be
lost on its way, with any message; a statement that breaks a constraint is refused. The ids of
`known_tokens` come from a sequence, which no rollback moves back and which has no last value here.
The names of the constraints in the errors of the database are left out, and so is what other
connections write meanwhile.
-/

namespace ZswapKernel

namespace TokenRegistry

/-! ## The tables -/

/-- A row of `known_tokens`. -/
structure KnownTokenRow extends KnownToken where
  id : Nat
  deriving DecidableEq, Repr

/-- A row of `canonical_token_registry_state`. -/
structure RegistryStateRow where
  name : String
  tokenColor : String
  network : RegistryNetwork
  registryRevision : String
  updatedAt : Int
  deriving DecidableEq, Repr

/-- The constraints of `known_tokens`. -/
structure KnownTokensValid (assets : List String) (rows : List KnownTokenRow) : Prop where
  ids : (rows.map (·.id)).Nodup
  colors : (rows.map (·.tokenColor)).Nodup
  names : (rows.map (·.name)).Nodup
  fields : ∀ row ∈ rows, (row.kind = "shielded" ∨ row.kind = "unshielded") ∧ row.decimals ≤ 38 ∧
    ∀ assetId ∈ row.assetId, assetId ∈ assets

instance (assets : List String) : DecidablePred (KnownTokensValid assets) := fun rows =>
  decidable_of_iff ((rows.map (·.id)).Nodup ∧ (rows.map (·.tokenColor)).Nodup ∧
    (rows.map (·.name)).Nodup ∧ ∀ row ∈ rows, (row.kind = "shielded" ∨ row.kind = "unshielded") ∧
      row.decimals ≤ 38 ∧ ∀ assetId ∈ row.assetId, assetId ∈ assets)
    ⟨fun h => ⟨h.1, h.2.1, h.2.2.1, h.2.2.2⟩, fun h => ⟨h.1, h.2, h.3, h.4⟩⟩

/-- What a text column can hold: no NUL. -/
def Storable (text : String) : Prop := Char.ofNat 0 ∉ text.toList

instance (text : String) : Decidable (Storable text) := inferInstanceAs (Decidable (_ ∉ _))

/-- The constraints of `canonical_token_registry_state`. -/
structure RegistryStateValid (rows : List RegistryStateRow) : Prop where
  names : (rows.map (·.name)).Nodup
  colors : (rows.map (·.tokenColor)).Nodup
  texts : ∀ row ∈ rows, Storable row.registryRevision

instance : DecidablePred RegistryStateValid := fun rows =>
  decidable_of_iff ((rows.map (·.name)).Nodup ∧ (rows.map (·.tokenColor)).Nodup ∧
    ∀ row ∈ rows, Storable row.registryRevision)
    ⟨fun h => ⟨h.1, h.2.1, h.2.2⟩, fun h => ⟨h.1, h.2, h.3⟩⟩

structure RegistryDb where
  /-- The ids of `asset_prices`. -/
  assets : List String
  knownTokens : Table (KnownTokensValid assets)
  /-- None where the table does not exist. -/
  state : Option (Table RegistryStateValid)

/-- A connection to the database. -/
structure Connection where
  /-- What is committed. -/
  database : RegistryDb
  /-- What the open transaction has made of it. -/
  transaction : Option RegistryDb := none
  /-- The next value of the sequence of ids. -/
  nextId : Nat
  /-- How many queries were sent. -/
  queries : Nat := 0

namespace Connection

variable (connection : Connection)

/-- The tables that a statement reads. -/
def tables : RegistryDb := connection.transaction.getD connection.database

/-- The tables as a statement leaves them; outside a transaction it commits them. -/
def write (tables : RegistryDb) : Connection :=
  match connection.transaction with
  | some _ => { connection with transaction := some tables }
  | none => { connection with database := tables }

end Connection

/-! ## Queries -/

section Queries

variable {α : Type} (lost : Nat → Option String)

/-- A query is lost on its way, or the server runs it. -/
def query (body : Program Connection String α) : Program Connection String α := do
  let connection ← get
  set { connection with queries := connection.queries + 1 }
  match lost connection.queries with
  | some message => throw message
  | none => body

def reads (f : RegistryDb → α) : Program Connection String α := do
  return f (← get).tables

def writes (f : RegistryDb → Except String RegistryDb) : Program Connection String Unit := do
  let connection ← get
  match f connection.tables with
  | .error message => throw message
  | .ok tables => set (connection.write tables)

def nextval : Program Connection String Nat := do
  let connection ← get
  set { connection with nextId := connection.nextId + 1 }
  return connection.nextId

/-- `BEGIN`. -/
def beginTransaction : Program Connection String Unit :=
  modify fun connection => { connection with transaction := some connection.database }

/-- `COMMIT`. -/
def commit : Program Connection String Unit :=
  modify fun connection => { connection with database := connection.tables, transaction := none }

/-- `ROLLBACK`. -/
def rollback : Program Connection String Unit :=
  modify fun connection => { connection with transaction := none }

/-- A check of the code between two queries. -/
def checks (check : Except String Unit) : Program Connection String Unit :=
  match check with
  | .ok () => pure ()
  | .error message => throw message

end Queries

/-! ## The statements -/

/-- The error of a refused write. -/
def constraintViolation : String := "the statement violates a constraint"

namespace RegistryDb

variable (db : RegistryDb)

/-- A write to `known_tokens`. -/
def onKnown
    (write : Table (KnownTokensValid db.assets) → Option (Table (KnownTokensValid db.assets))) :
    Except String RegistryDb :=
  match write db.knownTokens with
  | some knownTokens => .ok { db with knownTokens }
  | none => .error constraintViolation

/-- A write to `canonical_token_registry_state`. -/
def onState (write : Table RegistryStateValid → Option (Table RegistryStateValid)) :
    Except String RegistryDb :=
  match db.state with
  | none => .error "relation \"canonical_token_registry_state\" does not exist"
  | some table =>
    match write table with
    | some written => .ok { db with state := some written }
    | none => .error constraintViolation

def stateRows : List RegistryStateRow := (db.state.map (·.rows)).getD []

/-- `CREATE TABLE IF NOT EXISTS`. -/
def createState : RegistryDb :=
  { db with state := some (db.state.getD ⟨[], List.nodup_nil, List.nodup_nil, nofun⟩) }

end RegistryDb

/-- The temporary color of a token. -/
def KnownTokenRow.mark (row : KnownTokenRow) : KnownTokenRow :=
  { row with tokenColor := "registry-import:" ++ toString row.id ++ ":" ++ row.tokenColor }

/-- The temporary color of a row of the registry's state. -/
def RegistryStateRow.mark (row : RegistryStateRow) : RegistryStateRow :=
  { row with tokenColor := "registry-import-state:" ++ row.name ++ ":" ++ row.tokenColor }

/-- The columns that the upsert sets. -/
def CanonicalToken.mergeKnown (token : CanonicalToken) (row : KnownTokenRow) : KnownTokenRow :=
  { row with
    tokenColor := token.tokenColor
    kind := token.known.kind
    decimals := token.known.decimals
    assetId := token.known.assetId }

namespace ValidatedRegistry

variable (registry : ValidatedRegistry) (now : Int)

/-- The state row of a token. -/
def stateRow (token : CanonicalToken) : RegistryStateRow :=
  ⟨token.name, token.tokenColor, registry.network, registry.revision, now⟩

/-- The columns that the upsert sets. -/
def mergeState (token : CanonicalToken) (row : RegistryStateRow) : RegistryStateRow :=
  { row with
    tokenColor := token.tokenColor
    network := registry.network
    registryRevision := registry.revision
    updatedAt := now }

end ValidatedRegistry

def markKnown (names : List String) (db : RegistryDb) : Except String RegistryDb :=
  db.onKnown fun table =>
    table.update (·.name) KnownTokenRow.mark ((table.rows.map (·.name)).filter (· ∈ names))

def markState (names : List String) (db : RegistryDb) : Except String RegistryDb :=
  db.onState fun table =>
    table.update (·.name) RegistryStateRow.mark ((table.rows.map (·.name)).filter (· ∈ names))

def upsertKnown (token : CanonicalToken) (id : Nat) (db : RegistryDb) : Except String RegistryDb :=
  db.onKnown fun table => table.upsert (·.name) token.mergeKnown ⟨token.known, id⟩

def upsertState (registry : ValidatedRegistry) (now : Int) (token : CanonicalToken)
    (db : RegistryDb) : Except String RegistryDb :=
  db.onState fun table =>
    table.upsert (·.name) (registry.mergeState now token) (registry.stateRow now token)

/-! ## The import -/

/-- The check on the row of a managed name. -/
def checkToken (token : CanonicalToken) (row : Option KnownTokenRow) (priorColor : Option String) :
    Except String Unit :=
  match priorColor with
  | some prior =>
    failUnless (row.any fun row => toLowerCase row.tokenColor = prior)
      s!"managed token {token.name} no longer matches canonical registry provenance"
  | none =>
    failUnless (row.all fun row => toLowerCase row.tokenColor = token.tokenColor &&
        row.kind = token.known.kind && row.decimals = token.known.decimals &&
        row.assetId = token.known.assetId)
      s!"token name collision with unrelated known token {token.name}"

/-- The checks before anything is written. -/
def checkConflicts (registry : ValidatedRegistry) (existing : List KnownTokenRow)
    (state : List RegistryStateRow) : Except String Unit := do
  failUnless (state.length = 0 || state.length = registry.names.length)
    "canonical registry provenance is incomplete"
  existing.forM fun row =>
    failUnless (!(registry.colors.contains (toLowerCase row.tokenColor) &&
        !registry.names.contains row.name))
      s!"token color collision with unrelated known token {row.name}"
  registry.tokens.forM fun token =>
    checkToken token (existing.find? fun row => row.name = token.name)
      ((state.find? fun row => row.name = token.name).map fun row => toLowerCase row.tokenColor)

/-- The statements of one token. -/
def importToken (lost : Nat → Option String) (registry : ValidatedRegistry) (now : Int)
    (token : CanonicalToken) : Program Connection String Unit := do
  query lost do
    let id ← nextval
    writes (upsertKnown token id)
  query lost (writes (upsertState registry now token))

/-- The statements between `BEGIN` and `COMMIT`; `now` is the time of the transaction. -/
def importStatements (lost : Nat → Option String) (registry : ValidatedRegistry) (now : Int) :
    Program Connection String Unit := do
  query lost (writes fun db => .ok db.createState)
  let existing ← query lost (reads fun db => db.knownTokens.rows.filter fun row =>
    row.name ∈ registry.names || row.tokenColor ∈ registry.colors)
  let state ← query lost (reads fun db => db.stateRows.filter fun row => row.name ∈ registry.names)
  checks (checkConflicts registry existing state)
  query lost (writes (markKnown registry.names))
  query lost (writes (markState registry.names))
  registry.tokens.forM (importToken lost registry now)
  query lost commit

/-- `applyCanonicalRegistry`. -/
def applyCanonicalRegistry (lost : Nat → Option String) (registry : ValidatedRegistry)
    (now : Int) : Program Connection String Unit := do
  query lost beginTransaction
  Program.catching (importStatements lost registry now) fun error => do
    Program.catching (query lost rollback) fun _ => pure ()
    throw error

/-- The database between two imports. -/
structure RegistryServer where
  database : RegistryDb
  nextId : Nat

def RegistryServer.connect (server : RegistryServer) : Connection :=
  { database := server.database, nextId := server.nextId }

/-- An import of which no query is lost, at its time. `none` is an import that throws. -/
def RegistryServer.importAt (server : RegistryServer) (job : ValidatedRegistry × Int) :
    Option RegistryServer :=
  match (applyCanonicalRegistry (fun _ => none) job.1 job.2).outcome server.connect with
  | (.ok (), connection) => some ⟨connection.database, connection.nextId⟩
  | (.error _, _) => none

end TokenRegistry

end ZswapKernel
