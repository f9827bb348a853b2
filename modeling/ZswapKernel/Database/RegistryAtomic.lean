import ZswapKernel.Database.RegistryImport

/-!
# Registry imports are atomic

An import is followed through its transaction: the checks, the two updates that give the managed
rows temporary colors, and the upserts of the six tokens in both tables. `Progress` is what holds of
the tables of the transaction; `Fits` is what keeps every statement from being refused.

* `ownRows_of_check`, `check_of_fits`: what the checks rule out, and what passes them.
* `markKnown_writes`, `markState_writes`, `upsertKnown_writes`, `upsertState_writes`: one statement.
* `applyCanonicalRegistry_rule`: the import replaces the rows or changes nothing.
* `importAt_isSome_iff`: over its own tables an import commits exactly when nothing is in its way.
* `registry_import_atomic`: the import, and any sequence of imports after a committed one.
-/

namespace ZswapKernel

namespace TokenRegistry

open Program

/-! ## Queries in a transaction -/

section Rules

variable {α : Type} {start : RegistryDb} {lost : Nat → Option String} {bad : Prop}

/-- A transaction is open, and its tables satisfy `p`. -/
def Working (start : RegistryDb) (p : RegistryDb → Prop) (connection : Connection) : Prop :=
  connection.database = start ∧ ∃ tables, connection.transaction = some tables ∧ p tables

/-- Nothing is committed, and there is a reason: `bad`, or a query that was lost. -/
def Rejected (start : RegistryDb) (lost : Nat → Option String) (bad : Prop) (_ : String)
    (connection : Connection) : Prop :=
  connection.database = start ∧ (bad ∨ ∃ k, (lost k).isSome)

/-- A query keeps what does not speak of the count of queries. -/
theorem query_rule {P : Connection → Prop} {Q : α → Connection → Prop}
    {body : Program Connection String α}
    (hcount : ∀ connection queries, P connection → P { connection with queries })
    (hstart : ∀ connection, P connection → connection.database = start)
    (h : Triple P body Q (Rejected start lost bad)) :
    Triple P (query lost body) Q (Rejected start lost bad) := by
  unfold query
  refine Triple.bind (Q := fun before after => P before ∧ before = after)
    (Triple.get fun connection hp => ⟨hp, rfl⟩) fun connection => ?_
  refine Triple.bind (Q := fun _ => fun after => P after ∧ P connection) (fun after hp => ?_)
    fun _ => ?_
  · exact ⟨hcount _ _ hp.1, hp.1⟩
  · cases hlost : lost connection.queries with
    | none => exact h.pre fun _ hp => hp.1
    | some message =>
      refine Triple.throw fun after hp => ⟨hstart after hp.1, .inr ⟨connection.queries, ?_⟩⟩
      rw [hlost]
      rfl

theorem Working.count {p : RegistryDb → Prop} (connection : Connection) (queries : Nat)
    (h : Working start p connection) : Working start p { connection with queries } := h

/-- **A select** keeps the tables and returns what it reads. -/
theorem reads_rule {p : RegistryDb → Prop} (f : RegistryDb → α) :
    Triple (Working start p) (query lost (reads f))
      (fun a => Working start fun tables => p tables ∧ a = f tables) (Rejected start lost bad) := by
  refine query_rule Working.count (fun _ h => h.1) ?_
  unfold reads
  refine Triple.bind (Q := fun before after => Working start p before ∧ before = after)
    (Triple.get fun connection hp => ⟨hp, rfl⟩) fun connection => ?_
  refine Triple.pure ?_
  rintro _ ⟨⟨hstart, tables, htransaction, hp⟩, rfl⟩
  refine ⟨hstart, tables, htransaction, hp, ?_⟩
  unfold Connection.tables
  rw [htransaction]
  rfl

/-- What a write needs: it leaves `q`, and it is refused only if `bad`. -/
structure Writes (bad : Prop) (p : RegistryDb → Prop) (f : RegistryDb → Except String RegistryDb)
    (q : RegistryDb → Prop) : Prop where
  leaves : ∀ tables tables', p tables → f tables = .ok tables' → q tables'
  refused : ∀ tables message, p tables → f tables = .error message → bad

theorem writes_body {p q : RegistryDb → Prop} {f : RegistryDb → Except String RegistryDb}
    (h : Writes bad p f q) :
    Triple (Working start p) (writes f) (fun _ => Working start q) (Rejected start lost bad) := by
  unfold writes
  refine Triple.bind (Q := fun before after => Working start p before ∧ before = after)
    (Triple.get fun connection hp => ⟨hp, rfl⟩) fun connection => ?_
  rintro _ ⟨⟨hstart, tables, htransaction, hp⟩, rfl⟩
  have htables : connection.tables = tables := by
    unfold Connection.tables
    rw [htransaction]
    rfl
  cases hf : f connection.tables with
  | error message => exact ⟨hstart, .inl (h.refused tables message hp (htables ▸ hf))⟩
  | ok tables' =>
    have hwrite : connection.write tables' = { connection with transaction := some tables' } := by
      unfold Connection.write
      rw [htransaction]
    simp only [hwrite]
    exact ⟨hstart, tables', rfl, h.leaves tables tables' hp (htables ▸ hf)⟩

/-- **A write** of the transaction. -/
theorem writes_rule {p q : RegistryDb → Prop} {f : RegistryDb → Except String RegistryDb}
    (h : Writes bad p f q) :
    Triple (Working start p) (query lost (writes f)) (fun _ => Working start q)
      (Rejected start lost bad) :=
  query_rule Working.count (fun _ h => h.1) (writes_body h)

/-- A write with an id of the sequence. -/
theorem nextval_rule {p q : RegistryDb → Prop} {f : Nat → RegistryDb → Except String RegistryDb}
    (h : ∀ id, Writes bad p (f id) q) :
    Triple (Working start p) (query lost (do
      let id ← nextval
      writes (f id))) (fun _ => Working start q) (Rejected start lost bad) := by
  refine query_rule Working.count (fun _ h => h.1) ?_
  refine Triple.bind (Q := fun _ => Working start p) (fun connection hp => ?_) fun id =>
    writes_body (h id)
  exact hp

/-- A check keeps the tables, and fails only if `bad`. -/
theorem checks_rule {p : RegistryDb → Prop} {check : Except String Unit} {fact : Prop}
    (hok : ∀ tables, p tables → check = .ok () → fact)
    (herror : ∀ tables message, p tables → check = .error message → bad) :
    Triple (Working start p) (checks check) (fun _ => Working start fun tables => p tables ∧ fact)
      (Rejected start lost bad) := by
  unfold checks
  cases hcheck : check with
  | ok value =>
    refine Triple.pure ?_
    rintro _ ⟨hstart, tables, htransaction, hp⟩
    exact ⟨hstart, tables, htransaction, hp, hok tables hp hcheck⟩
  | error message =>
    refine Triple.throw ?_
    rintro _ ⟨hstart, tables, -, hp⟩
    exact ⟨hstart, .inl (herror tables message hp hcheck)⟩

/-- **The commit** makes the tables of the transaction those of the database. -/
theorem commit_rule {p : RegistryDb → Prop} :
    Triple (Working start p) (query lost commit) (fun _ connection => p connection.database)
      (Rejected start lost bad) := by
  refine query_rule Working.count (fun _ h => h.1) (Triple.modify ?_)
  rintro connection ⟨-, tables, htransaction, hp⟩
  unfold Connection.tables
  rw [htransaction]
  exact hp

end Rules

/-! ## Colors -/

theorem Color.isHexDigit {color : String} (h : Color color) : ∀ c ∈ color.toList, isHexDigit c := by
  have hhex := h.1
  unfold hex64 at hhex
  rw [Bool.and_eq_true, List.all_eq_true] at hhex
  exact hhex.2

theorem Color.length {color : String} (h : Color color) : color.toList.length = 64 := by
  have hhex := h.1
  unfold hex64 at hhex
  rw [Bool.and_eq_true, beq_iff_eq] at hhex
  exact hhex.1

/-- A text with an `r` in it is no color. -/
theorem not_color_of_mem {color : String} (h : 'r' ∈ color.toList) : ¬ Color color := fun hcolor =>
  absurd (hcolor.isHexDigit 'r' h) (by decide)

/-- What two texts end in is the same when it is a color in both. -/
theorem color_suffix {a b colorA colorB : String} (hA : Color colorA) (hB : Color colorB)
    (h : a ++ colorA = b ++ colorB) : colorA = colorB := by
  have hlist := congrArg String.toList h
  rw [String.toList_append, String.toList_append] at hlist
  exact String.toList_inj.1 (List.append_inj_right' hlist (hA.length.trans hB.length.symm))

theorem KnownTokenRow.not_color_mark (row : KnownTokenRow) : ¬ Color row.mark.tokenColor := by
  refine not_color_of_mem ?_
  unfold KnownTokenRow.mark
  simp

theorem RegistryStateRow.not_color_mark (row : RegistryStateRow) :
    ¬ Color row.mark.tokenColor := by
  refine not_color_of_mem ?_
  unfold RegistryStateRow.mark
  simp

/-! ## The rows that stand beside the managed ones -/

section Admits

variable {ρ : Type} {name color : ρ → String} {mark : ρ → ρ} {registry : ValidatedRegistry}
  {rows : List ρ}

/-- No row that is not managed holds the temporary color of a managed one. -/
def Temporary {ρ : Type} (name color : ρ → String) (mark : ρ → ρ) (rows : List ρ) : Prop :=
  ∀ managed ∈ rows, name managed ∈ managedNames → ∀ row ∈ rows, name row ∉ managedNames →
    color (mark managed) ≠ color row

/-- No row of another name holds an incoming color, or the temporary color of a managed row. -/
structure RowsAdmit (name color : ρ → String) (mark : ρ → ρ) (registry : ValidatedRegistry)
    (rows : List ρ) : Prop where
  incoming : ∀ row ∈ rows, name row ∉ managedNames →
    ∀ token ∈ registry.tokens, token.tokenColor ≠ color row
  temporary : Temporary name color mark rows

/-- What the temporary colors are like. -/
structure Marking (name color : ρ → String) (mark : ρ → ρ) : Prop where
  name : ∀ row, name (mark row) = name row
  fresh : ∀ row, ¬ Color (color (mark row))
  injective : ∀ a b, Color (color a) → Color (color b) → color (mark a) = color (mark b) →
    color a = color b

theorem marking_known : Marking (fun row : KnownTokenRow => row.name) (·.tokenColor)
    KnownTokenRow.mark where
  name _ := rfl
  fresh := KnownTokenRow.not_color_mark
  injective _ _ ha hb h := color_suffix ha hb h

theorem marking_state : Marking RegistryStateRow.name (·.tokenColor) RegistryStateRow.mark where
  name _ := rfl
  fresh := RegistryStateRow.not_color_mark
  injective _ _ ha hb h := color_suffix ha hb h

variable (hmarking : Marking name color mark) (hcolors : (rows.map color).Nodup)
  (hmanaged : ∀ row ∈ rows, name row ∈ managedNames → Color (color row))

include hmarking hcolors hmanaged

/-- **The marks stay apart**, whichever of the managed rows have one. -/
theorem RowsAdmit.apart_marking (h : RowsAdmit name color mark registry rows)
    {written : List String} (hwritten : ∀ k ∈ written, k ∈ managedNames) :
    Apart name CanonicalToken.name mark color CanonicalToken.tokenColor written [] rows where
  items _ hitem := absurd hitem List.not_mem_nil
  itemMark _ hitem := absurd hitem List.not_mem_nil
  itemRest _ hitem := absurd hitem List.not_mem_nil
  rest a ha b hb hsame := by rw [List.inj_on_of_nodup_map hcolors ha hb hsame]
  marks a ha hna b hb hnb hsame := by
    have hcolor := hmarking.injective a b (hmanaged a ha (hwritten _ hna))
      (hmanaged b hb (hwritten _ hnb)) hsame
    rw [List.inj_on_of_nodup_map hcolors ha hb hcolor]
  markRest a ha hna b hb hnb hsame := by
    by_cases hmb : name b ∈ managedNames
    · exact hmarking.fresh a (hsame ▸ hmanaged b hb hmb)
    · exact h.temporary a ha (hwritten _ hna) b hb hmb hsame

/-- **The incoming colors stay apart** from the marks and from the rows that are not managed. -/
theorem RowsAdmit.apart_placing (h : RowsAdmit name color mark registry rows)
    {done : List CanonicalToken} (hdone : ∀ token ∈ done, token ∈ registry.tokens) :
    Apart name CanonicalToken.name mark color CanonicalToken.tokenColor managedNames done rows where
  items a ha b hb hsame := by rw [registry.eq_of_color (hdone a ha) (hdone b hb) hsame]
  itemMark token _ row _ _ hsame := hmarking.fresh row (hsame ▸ token.isColor)
  itemRest token htoken row hrow hname hsame :=
    h.incoming row hrow hname token (hdone token htoken) hsame
  rest a ha b hb hsame := by rw [List.inj_on_of_nodup_map hcolors ha hb hsame]
  marks a ha hna b hb hnb hsame := by
    have hcolor := hmarking.injective a b (hmanaged a ha hna) (hmanaged b hb hnb) hsame
    rw [List.inj_on_of_nodup_map hcolors ha hb hcolor]
  markRest a ha hna b hb hnb := h.temporary a ha hna b hb hnb

end Admits

/-! ## What an import relies on, and what it leaves -/

/-- The colors of both tables are in lower case. -/
structure RegistryDb.Lower (db : RegistryDb) : Prop where
  known : ∀ row ∈ db.knownTokens.rows, toLowerCase row.tokenColor = row.tokenColor
  state : ∀ row ∈ db.stateRows, toLowerCase row.tokenColor = row.tokenColor

/-- **Both tables map the six names to the registry's tokens.** -/
structure Holds (registry : ValidatedRegistry) (db : RegistryDb) : Prop where
  known : ∀ token ∈ registry.tokens, ∃ row ∈ db.knownTokens.rows, row.toKnownToken = token.known
  state : ∀ token ∈ registry.tokens, ∃ row ∈ db.stateRows, row.name = token.name ∧
    row.tokenColor = token.tokenColor ∧ row.network = registry.network ∧
    row.registryRevision = registry.revision

/-- **What can still stop an import**: a text that no column holds, or a row that is not managed. -/
structure Admits (db : RegistryDb) (registry : ValidatedRegistry) : Prop where
  storable : Storable registry.revision
  known : RowsAdmit (fun row : KnownTokenRow => row.name) (·.tokenColor) KnownTokenRow.mark registry
    db.knownTokens.rows
  state : RowsAdmit RegistryStateRow.name (·.tokenColor) RegistryStateRow.mark registry db.stateRows

/-- **Every row of a managed name** is the importer's own or what the registry says. -/
def OwnRows (db : RegistryDb) (registry : ValidatedRegistry) : Prop :=
  ∀ row ∈ db.knownTokens.rows, row.name ∈ managedNames →
    (∃ prior ∈ db.stateRows, prior.name = row.name ∧ prior.tokenColor = row.tokenColor) ∨
      ∃ token ∈ registry.tokens, row.toKnownToken = token.known

/-- The importer's own tables, and nothing in the way. -/
structure Fits (db : RegistryDb) (registry : ValidatedRegistry) : Prop where
  lower : db.Lower
  managed : ∃ prior, Holds prior db
  admits : Admits db registry

theorem RegistryDb.state_valid (db : RegistryDb) : RegistryStateValid db.stateRows := by
  unfold RegistryDb.stateRows
  cases db.state with
  | none => exact ⟨List.nodup_nil, List.nodup_nil, nofun⟩
  | some table => exact table.holds

theorem RegistryDb.stateRows_createState (db : RegistryDb) :
    db.createState.stateRows = db.stateRows := by
  unfold RegistryDb.createState RegistryDb.stateRows
  cases db.state <;> rfl

section Held

variable {registry : ValidatedRegistry} {db : RegistryDb}

theorem CanonicalToken.name_known (token : CanonicalToken) : token.known.name = token.name := rfl

/-- A row of a managed name is the row of its token. -/
theorem Holds.known_exact (h : Holds registry db) {row : KnownTokenRow}
    (hrow : row ∈ db.knownTokens.rows) (hname : row.name ∈ managedNames) :
    ∃ token ∈ registry.tokens, row.toKnownToken = token.known := by
  obtain ⟨token, htoken, hsame⟩ := registry.exists_token hname
  obtain ⟨own, hown, hknown⟩ := h.known token htoken
  have hnames : own.name = row.name := by
    rw [← hsame, ← token.name_known, ← hknown]
  obtain rfl := List.inj_on_of_nodup_map db.knownTokens.holds.names hown hrow hnames
  exact ⟨token, htoken, hknown⟩

theorem Holds.state_exact (h : Holds registry db) {row : RegistryStateRow}
    (hrow : row ∈ db.stateRows) (hname : row.name ∈ managedNames) :
    ∃ token ∈ registry.tokens, row.name = token.name ∧ row.tokenColor = token.tokenColor := by
  obtain ⟨token, htoken, hsame⟩ := registry.exists_token hname
  obtain ⟨own, hown, hnames, hcolor, -⟩ := h.state token htoken
  obtain rfl := List.inj_on_of_nodup_map db.state_valid.names hown hrow (hnames.trans hsame)
  exact ⟨token, htoken, hnames, hcolor⟩

theorem Holds.known_color (h : Holds registry db) :
    ∀ row ∈ db.knownTokens.rows, row.name ∈ managedNames → Color row.tokenColor := by
  intro row hrow hname
  obtain ⟨token, -, hknown⟩ := h.known_exact hrow hname
  rw [hknown]
  exact token.isColor

theorem Holds.state_color (h : Holds registry db) :
    ∀ row ∈ db.stateRows, row.name ∈ managedNames → Color row.tokenColor := by
  intro row hrow hname
  obtain ⟨token, -, -, hcolor⟩ := h.state_exact hrow hname
  rw [hcolor]
  exact token.isColor

end Held

/-! ## The checks -/

/-- Two checks in sequence. -/
theorem andThen_eq_ok {first next : Except String Unit} :
    (do first; next) = .ok () ↔ first = .ok () ∧ next = .ok () := by
  cases first with
  | error message => exact ⟨nofun, fun h => nomatch h.1⟩
  | ok value => exact ⟨fun h => ⟨rfl, h⟩, fun h => h.2⟩

theorem forM_eq_ok {α : Type} {l : List α} {f : α → Except String Unit} :
    l.forM f = .ok () ↔ ∀ a ∈ l, f a = .ok () := by
  induction l with
  | nil => exact ⟨fun _ => nofun, fun _ => rfl⟩
  | cons a l ih =>
    rw [List.forM_eq_forM, List.forM_cons, andThen_eq_ok, List.forall_mem_cons]
    exact and_congr_right fun _ => ih

theorem failUnless_eq_ok {condition : Bool} {message : String} :
    failUnless condition message = .ok () ↔ condition = true := by
  unfold failUnless
  cases condition with
  | true => exact ⟨fun _ => rfl, fun _ => rfl⟩
  | false => exact ⟨nofun, nofun⟩

section Checks

variable (registry : ValidatedRegistry) (db : RegistryDb)

/-- The rows of `known_tokens` that the import selects. -/
def existingRows : List KnownTokenRow :=
  db.knownTokens.rows.filter fun row =>
    row.name ∈ registry.names || row.tokenColor ∈ registry.colors

/-- The state rows that the import selects. -/
def priorRows : List RegistryStateRow := db.stateRows.filter fun row => row.name ∈ registry.names

variable {registry db}

theorem find?_existing {row : KnownTokenRow} (hrow : row ∈ db.knownTokens.rows)
    (hname : row.name ∈ managedNames) :
    (existingRows registry db).find? (fun other => other.name = row.name) = some row := by
  have hmem : row ∈ existingRows registry db := by
    unfold existingRows
    rw [registry.names_eq]
    exact List.mem_filter.2 ⟨hrow, by simp [hname]⟩
  cases hfind : (existingRows registry db).find? fun other => other.name = row.name with
  | none =>
    have := List.find?_eq_none.1 hfind row hmem
    simp at this
  | some other =>
    have hsame : other.name = row.name := by simpa using List.find?_some hfind
    have hother := List.mem_filter.1 (List.mem_of_find?_eq_some hfind)
    rw [List.inj_on_of_nodup_map db.knownTokens.holds.names hother.1 hrow hsame]

theorem find?_prior {row : RegistryStateRow} (hrow : row ∈ db.stateRows)
    (hname : row.name ∈ managedNames) :
    (priorRows registry db).find? (fun other => other.name = row.name) = some row := by
  have hmem : row ∈ priorRows registry db := by
    unfold priorRows
    rw [registry.names_eq]
    exact List.mem_filter.2 ⟨hrow, decide_eq_true hname⟩
  cases hfind : (priorRows registry db).find? fun other => other.name = row.name with
  | none =>
    have := List.find?_eq_none.1 hfind row hmem
    simp at this
  | some other =>
    have hsame : other.name = row.name := by simpa using List.find?_some hfind
    have hother := List.mem_filter.1 (List.mem_of_find?_eq_some hfind)
    rw [List.inj_on_of_nodup_map db.state_valid.names hother.1 hrow hsame]

theorem checkConflicts_eq_ok {existing : List KnownTokenRow} {state : List RegistryStateRow} :
    checkConflicts registry existing state = .ok () ↔
      (state.length = 0 ∨ state.length = registry.names.length) ∧
      (∀ row ∈ existing, toLowerCase row.tokenColor ∈ registry.colors →
        row.name ∈ registry.names) ∧
      ∀ token ∈ registry.tokens, checkToken token
        (existing.find? fun row => row.name = token.name)
        ((state.find? fun row => row.name = token.name).map fun row =>
          toLowerCase row.tokenColor) = .ok () := by
  unfold checkConflicts
  rw [andThen_eq_ok, andThen_eq_ok, failUnless_eq_ok, forM_eq_ok, forM_eq_ok]
  refine and_congr (by simp) (and_congr_left fun _ => forall₂_congr fun row _ => ?_)
  rw [failUnless_eq_ok]
  simp [imp_iff_not_or]

/-- **What the checks rule out**: a row of a managed name that is not the importer's own. -/
theorem ownRows_of_check (hlower : db.Lower)
    (h : checkConflicts registry (existingRows registry db) (priorRows registry db) = .ok ()) :
    OwnRows db registry := by
  obtain ⟨-, -, htokens⟩ := checkConflicts_eq_ok.1 h
  intro row hrow hname
  obtain ⟨token, htoken, hsame⟩ := registry.exists_token hname
  have hcheck := htokens token htoken
  rw [hsame, find?_existing hrow hname] at hcheck
  cases hprior : (priorRows registry db).find? fun other => other.name = row.name with
  | some prior =>
    have hpriorName : prior.name = row.name := by simpa using List.find?_some hprior
    have hmem := (List.mem_filter.1 (List.mem_of_find?_eq_some hprior)).1
    rw [hprior] at hcheck
    have hcolor : toLowerCase row.tokenColor = toLowerCase prior.tokenColor := by
      simpa using failUnless_eq_ok.1 hcheck
    rw [hlower.known row hrow, hlower.state prior hmem] at hcolor
    exact .inl ⟨prior, hmem, hpriorName, hcolor.symm⟩
  | none =>
    rw [hprior] at hcheck
    have hfields := failUnless_eq_ok.1 hcheck
    simp only [Option.all_some, Bool.and_eq_true, decide_eq_true_iff] at hfields
    obtain ⟨⟨⟨hcolor, hkind⟩, hdecimals⟩, hasset⟩ := hfields
    rw [hlower.known row hrow] at hcolor
    refine .inr ⟨token, htoken, ?_⟩
    have hname' : row.name = token.known.name := hsame.symm
    cases row with
    | mk known id =>
      cases known
      cases token
      simp_all [CanonicalToken.known]

/-- **The importer's own tables pass the checks.** -/
theorem check_of_fits (h : Fits db registry) :
    checkConflicts registry (existingRows registry db) (priorRows registry db) = .ok () := by
  obtain ⟨prior, hholds⟩ := h.managed
  refine checkConflicts_eq_ok.2 ⟨.inr ?_, fun row hrow hcolor => ?_, fun token htoken => ?_⟩
  · -- the state has a row for each of the six names
    have hnodup : ((priorRows registry db).map (·.name)).Nodup :=
      db.state_valid.names.sublist (List.filter_sublist.map _)
    have hperm : ((priorRows registry db).map (·.name)).Perm managedNames := by
      rw [List.perm_ext_iff_of_nodup hnodup nodup_managedNames]
      intro name
      constructor
      · intro hname
        obtain ⟨row, hrow, rfl⟩ := List.mem_map.1 hname
        have hmem := (List.mem_filter.1 hrow).2
        rw [registry.names_eq] at hmem
        exact of_decide_eq_true hmem
      · intro hname
        obtain ⟨token, htoken, rfl⟩ := prior.exists_token hname
        obtain ⟨row, hrow, hsame, -⟩ := hholds.state token htoken
        refine List.mem_map.2 ⟨row, List.mem_filter.2 ⟨hrow, ?_⟩, hsame⟩
        rw [registry.names_eq, hsame]
        exact decide_eq_true hname
    rw [registry.names_eq, ← hperm.length_eq, List.length_map]
  · have hmem := (List.mem_filter.1 hrow).1
    rw [h.lower.known row hmem] at hcolor
    by_contra hname
    rw [registry.names_eq] at hname
    obtain ⟨token, htoken, hsame⟩ := List.mem_map.1 hcolor
    exact h.admits.known.incoming row hmem hname token htoken hsame
  · have hname : token.name ∈ managedNames := by
      rw [← registry.names_eq]
      exact List.mem_map_of_mem htoken
    obtain ⟨own, hown, howned⟩ := prior.exists_token hname
    obtain ⟨row, hrow, hknown⟩ := hholds.known own hown
    obtain ⟨state, hstate, hstateName, hstateColor, -⟩ := hholds.state own hown
    have hrowName : row.name = token.name := by
      rw [← howned, ← own.name_known, ← hknown]
    have hcolor : row.tokenColor = state.tokenColor := by
      rw [hstateColor, hknown]
      rfl
    have hfindRow : (existingRows registry db).find? (fun other => other.name = row.name) =
        some row := find?_existing hrow (hrowName ▸ hname)
    have hfindState : (priorRows registry db).find? (fun other => other.name = state.name) =
        some state := find?_prior hstate ((hstateName.trans howned) ▸ hname)
    rw [hrowName] at hfindRow
    rw [hstateName, howned] at hfindState
    rw [hfindRow, hfindState]
    refine failUnless_eq_ok.2 ?_
    simp [hcolor]

end Checks

/-! ## The writes -/

section Writing

variable {db db' : RegistryDb} {registry : ValidatedRegistry} {now : Int}

theorem onKnown_eq_ok {write : Table (KnownTokensValid db.assets) →
    Option (Table (KnownTokensValid db.assets))} : db.onKnown write = .ok db' ↔
      ∃ table, write db.knownTokens = some table ∧ db' = { db with knownTokens := table } := by
  unfold RegistryDb.onKnown
  cases write db.knownTokens with
  | none => exact ⟨nofun, fun ⟨_, h, _⟩ => nomatch h⟩
  | some table =>
    constructor
    · exact fun h => ⟨table, rfl, (Except.ok.inj h).symm⟩
    · rintro ⟨_, h, rfl⟩
      rw [Option.some.inj h]

theorem onState_eq_ok {write : Table RegistryStateValid → Option (Table RegistryStateValid)} :
    db.onState write = .ok db' ↔ ∃ table written, db.state = some table ∧
      write table = some written ∧ db' = { db with state := some written } := by
  unfold RegistryDb.onState
  cases hstate : db.state with
  | none => exact ⟨nofun, fun ⟨_, _, h, _⟩ => nomatch h⟩
  | some table =>
    simp only
    cases hwrite : write table with
    | none =>
      refine ⟨nofun, ?_⟩
      rintro ⟨_, _, h, hw, _⟩
      rw [← Option.some.inj h, hwrite] at hw
      cases hw
    | some written =>
      constructor
      · exact fun h => ⟨table, written, rfl, hwrite, (Except.ok.inj h).symm⟩
      · rintro ⟨_, _, h, hw, rfl⟩
        rw [← Option.some.inj h, hwrite] at hw
        rw [Option.some.inj hw]

theorem stateRows_of_state {table : Table RegistryStateValid} (h : db.state = some table) :
    db.stateRows = table.rows := by
  unfold RegistryDb.stateRows
  rw [h]
  rfl

/-- A row of `known_tokens`, marked if it is of `names`, or with the token of `done` in place. -/
def placeKnown (names : List String) (done : List CanonicalToken) : KnownTokenRow → KnownTokenRow :=
  place (·.name) CanonicalToken.name KnownTokenRow.mark CanonicalToken.mergeKnown names done

/-- A row of the registry's state, the same. -/
def placeState (registry : ValidatedRegistry) (now : Int) (names : List String)
    (done : List CanonicalToken) : RegistryStateRow → RegistryStateRow :=
  place RegistryStateRow.name CanonicalToken.name RegistryStateRow.mark (registry.mergeState now)
    names done

variable {names : List String} {done : List CanonicalToken}

theorem name_placeKnown (row : KnownTokenRow) : (placeKnown names done row).name = row.name :=
  @key_place _ _ _ _ (fun row : KnownTokenRow => row.name) CanonicalToken.name KnownTokenRow.mark
    CanonicalToken.mergeKnown names done (fun _ => rfl) (fun _ _ => rfl) row

theorem name_placeState (row : RegistryStateRow) :
    (placeState registry now names done row).name = row.name :=
  @key_place _ _ _ _ RegistryStateRow.name CanonicalToken.name RegistryStateRow.mark
    (registry.mergeState now) names done (fun _ => rfl) (fun _ _ => rfl) row

theorem id_placeKnown (row : KnownTokenRow) : (placeKnown names done row).id = row.id := by
  unfold placeKnown place
  split
  · rfl
  · split <;> rfl

theorem name_mem_managedNames (token : CanonicalToken) : token.name ∈ managedNames :=
  List.mem_map.2 ⟨token.symbol, by cases token.symbol <;> decide, rfl⟩

/-- The fields of a placed row stay in their bounds. -/
theorem fields_placeKnown {prior : ValidatedRegistry} (hholds : Holds prior db) :
    ∀ row ∈ db.knownTokens.rows.map (placeKnown names done),
      (row.kind = "shielded" ∨ row.kind = "unshielded") ∧ row.decimals ≤ 38 ∧
        ∀ assetId ∈ row.assetId, assetId ∈ db.assets := by
  intro row hrow
  obtain ⟨old, hold, rfl⟩ := List.mem_map.1 hrow
  have hfields := db.knownTokens.holds.fields old hold
  unfold placeKnown place
  split
  · rename_i token hfind
    have hname : token.name = old.name := by simpa using List.find?_some hfind
    -- the row was of the same symbol before, so it has the same fields
    obtain ⟨own, -, hknown⟩ := hholds.known_exact hold (hname ▸ name_mem_managedNames token)
    have hsymbol : own.symbol = token.symbol := by
      refine CanonicalSymbol.name_injective ?_
      have howned : own.known.name = old.name := by rw [← hknown]
      exact howned.trans hname.symm
    have hsame : token.known.kind = old.kind ∧ token.known.decimals = old.decimals ∧
        token.known.assetId = old.assetId := by
      rw [hknown]
      unfold CanonicalToken.known
      rw [hsymbol]
      exact ⟨rfl, rfl, rfl⟩
    unfold CanonicalToken.mergeKnown
    simp only [hsame.1, hsame.2.1, hsame.2.2]
    exact hfields
  · split
    · exact hfields
    · exact hfields

/-- **Rows of `known_tokens` whose colors stay apart** are valid. -/
theorem known_valid {prior : ValidatedRegistry} (hholds : Holds prior db)
    (h : Apart (fun row : KnownTokenRow => row.name) CanonicalToken.name KnownTokenRow.mark
      (·.tokenColor) CanonicalToken.tokenColor names done db.knownTokens.rows) :
    KnownTokensValid db.assets (db.knownTokens.rows.map (placeKnown names done)) := by
  have hvalid := db.knownTokens.holds
  refine ⟨?_, nodup_place (fun _ _ => rfl) hvalid.names h, ?_, fields_placeKnown hholds⟩
  · have hids : (fun row : KnownTokenRow => row.id) ∘ placeKnown names done = (·.id) := by
      funext row
      exact id_placeKnown row
    rw [List.map_map, hids]
    exact hvalid.ids
  · have hnames : (fun row : KnownTokenRow => row.name) ∘ placeKnown names done = (·.name) := by
      funext row
      exact name_placeKnown row
    rw [List.map_map, hnames]
    exact hvalid.names

/-- **State rows whose colors stay apart** are valid. -/
theorem state_valid (hstorable : Storable registry.revision)
    (h : Apart RegistryStateRow.name CanonicalToken.name RegistryStateRow.mark (·.tokenColor)
      CanonicalToken.tokenColor names done db.stateRows) :
    RegistryStateValid (db.stateRows.map (placeState registry now names done)) := by
  have hvalid := db.state_valid
  refine ⟨?_, nodup_place (fun _ _ => rfl) hvalid.names h, fun row hrow => ?_⟩
  · have hnames : (fun row : RegistryStateRow => row.name) ∘ placeState registry now names done =
        (·.name) := by
      funext row
      exact name_placeState row
    rw [List.map_map, hnames]
    exact hvalid.names
  · obtain ⟨old, hold, rfl⟩ := List.mem_map.1 hrow
    unfold placeState place
    split
    · exact hstorable
    · split
      · exact hvalid.texts old hold
      · exact hvalid.texts old hold

/-- Marks that were stored beside the other rows are none of their colors. -/
theorem temporary_of_nodup {ρ : Type} {name color : ρ → String} {mark : ρ → ρ}
    {merge : CanonicalToken → ρ → ρ} {rows : List ρ} (hmarking : Marking name color mark)
    (h : ((rows.map (place name CanonicalToken.name mark merge managedNames [])).map color).Nodup) :
    Temporary name color mark rows := by
  intro managed hmanaged hname row hrow hother hsame
  have hmark : place name CanonicalToken.name mark merge managedNames [] managed = mark managed :=
    if_pos hname
  have hkeep : place name CanonicalToken.name mark merge managedNames [] row = row := if_neg hother
  have heq : mark managed = row := by
    refine List.inj_on_of_nodup_map h ?_ ?_ hsame
    · exact hmark ▸ List.mem_map_of_mem hmanaged
    · exact List.mem_map.2 ⟨row, hrow, hkeep⟩
  refine hother ?_
  rw [← heq, hmarking.name]
  exact hname

/-- **The tokens of `known` are in `known_tokens`, those of `state` in the registry's state**, and
the other rows are as they were. -/
structure Progress (start : RegistryDb) (registry : ValidatedRegistry) (now : Int)
    (known state : List CanonicalToken) (tables : RegistryDb) : Prop where
  assets : tables.assets = start.assets
  created : tables.state.isSome = true
  knownOthers : tables.knownTokens.rows.filter (fun row => row.name ∉ managedNames) =
    start.knownTokens.rows.filter fun row => row.name ∉ managedNames
  stateOthers : tables.stateRows.filter (fun row => row.name ∉ managedNames) =
    start.stateRows.filter fun row => row.name ∉ managedNames
  inKnown : ∀ token ∈ known, ∃ row ∈ tables.knownTokens.rows, row.toKnownToken = token.known
  inState : ∀ token ∈ state, registry.stateRow now token ∈ tables.stateRows
  exactKnown : Fits start registry → tables.knownTokens.rows =
    start.knownTokens.rows.map (placeKnown managedNames known)
  exactState : Fits start registry → tables.stateRows =
    start.stateRows.map (placeState registry now managedNames state)
  temporaryKnown : Temporary (fun row : KnownTokenRow => row.name) (·.tokenColor)
    KnownTokenRow.mark start.knownTokens.rows
  temporaryState : Temporary RegistryStateRow.name (·.tokenColor) RegistryStateRow.mark
    start.stateRows

/-- The rows of `known_tokens` are marked. -/
structure KnownMarked (start tables : RegistryDb) : Prop where
  assets : tables.assets = start.assets
  created : tables.state.isSome = true
  state : tables.stateRows = start.stateRows
  known : tables.knownTokens.rows = start.knownTokens.rows.map (placeKnown managedNames [])
  temporary : Temporary (fun row : KnownTokenRow => row.name) (·.tokenColor) KnownTokenRow.mark
    start.knownTokens.rows

theorem nodup_filter_names {ρ : Type} {name : ρ → String} {rows : List ρ}
    (h : (rows.map name).Nodup) : ((rows.map name).filter (· ∈ managedNames)).Nodup :=
  h.filter _

theorem apart_known {start : RegistryDb} (h : Fits start registry) (written : List String)
    (hwritten : ∀ k ∈ written, k ∈ managedNames) :
    Apart (fun row : KnownTokenRow => row.name) CanonicalToken.name KnownTokenRow.mark
      (·.tokenColor) CanonicalToken.tokenColor written [] start.knownTokens.rows := by
  obtain ⟨prior, hholds⟩ := h.managed
  exact h.admits.known.apart_marking marking_known start.knownTokens.holds.colors
    hholds.known_color hwritten

theorem apart_state {start : RegistryDb} (h : Fits start registry) (written : List String)
    (hwritten : ∀ k ∈ written, k ∈ managedNames) :
    Apart RegistryStateRow.name CanonicalToken.name RegistryStateRow.mark (·.tokenColor)
      CanonicalToken.tokenColor written [] start.stateRows := by
  obtain ⟨prior, hholds⟩ := h.managed
  exact h.admits.state.apart_marking marking_state start.state_valid.colors
    hholds.state_color hwritten

/-- **The first update** marks the managed rows of `known_tokens`. -/
theorem markKnown_writes (start : RegistryDb) (registry : ValidatedRegistry) :
    Writes (¬ Fits start registry) (· = start.createState) (markKnown registry.names)
      (KnownMarked start) where
  leaves := by
    rintro _ tables' rfl h
    rw [registry.names_eq] at h
    obtain ⟨table, hwrite, rfl⟩ := onKnown_eq_ok.1 h
    have hnames : (start.knownTokens.rows.map (·.name)).Nodup := start.knownTokens.holds.names
    have hrows : table.rows = start.knownTokens.rows.map (placeKnown managedNames []) := by
      rw [Table.update_rows marking_known.name (nodup_filter_names hnames) hwrite]
      exact rewriteRows_filter managedNames _
    refine ⟨rfl, rfl, start.stateRows_createState, hrows, ?_⟩
    have hcolors : ((start.knownTokens.rows.map (placeKnown managedNames [])).map
        (·.tokenColor)).Nodup := hrows ▸ table.holds.colors
    exact temporary_of_nodup marking_known hcolors
  refused := by
    rintro _ message rfl h hfits
    rw [registry.names_eq] at h
    obtain ⟨prior, hholds⟩ := hfits.managed
    have hnames : (start.knownTokens.rows.map (·.name)).Nodup := start.knownTokens.holds.names
    obtain ⟨table, htable⟩ := @Table.update_of_valid _ _ _ (KnownTokensValid start.assets) _
      (fun row : KnownTokenRow => row.name) KnownTokenRow.mark marking_known.name _
      (nodup_filter_names hnames) start.knownTokens fun written hwritten =>
        known_valid hholds (apart_known hfits written fun k hk =>
          of_decide_eq_true (List.mem_filter.1 (hwritten.subset hk)).2)
    have hok : markKnown managedNames start.createState =
        .ok { start.createState with knownTokens := table } :=
      onKnown_eq_ok.2 ⟨table, htable, rfl⟩
    cases h.symm.trans hok

/-- **The second update** marks the managed rows of the registry's state. -/
theorem markState_writes (start : RegistryDb) (registry : ValidatedRegistry) (now : Int) :
    Writes (¬ Fits start registry) (KnownMarked start) (markState registry.names)
      (Progress start registry now [] []) where
  leaves := by
    intro tables tables' hmarked h
    rw [registry.names_eq] at h
    obtain ⟨table, written, hstate, hwrite, rfl⟩ := onState_eq_ok.1 h
    have hstart : table.rows = start.stateRows :=
      (stateRows_of_state hstate).symm.trans hmarked.state
    have hrows : written.rows =
        start.stateRows.map (placeState registry now managedNames []) := by
      rw [Table.update_rows marking_state.name (nodup_filter_names table.holds.names) hwrite,
        rewriteRows_filter, hstart]
      rfl
    have hcolors : ((start.stateRows.map (placeState registry now managedNames [])).map
        (·.tokenColor)).Nodup := hrows ▸ written.holds.colors
    refine ⟨hmarked.assets, rfl, ?_, ?_, nofun, nofun, fun _ => hmarked.known, fun _ => hrows,
      hmarked.temporary, temporary_of_nodup marking_state hcolors⟩
    · rw [hmarked.known]
      exact rewriteRows_others marking_known.name (fun _ h => h) _
    · exact (congrArg _ hrows).trans
        (rewriteRows_others marking_state.name (fun _ h => h) start.stateRows)
  refused := by
    intro tables message hmarked h hfits
    rw [registry.names_eq] at h
    obtain ⟨table, hstate⟩ := Option.isSome_iff_exists.1 hmarked.created
    have hstart : table.rows = start.stateRows :=
      (stateRows_of_state hstate).symm.trans hmarked.state
    obtain ⟨written, hwrite⟩ := @Table.update_of_valid _ _ _ RegistryStateValid _
      RegistryStateRow.name RegistryStateRow.mark marking_state.name _
      (nodup_filter_names table.holds.names) table fun written hwritten => by
        have hvalid : RegistryStateValid
            (start.stateRows.map (placeState registry now written [])) :=
          state_valid hfits.admits.storable (apart_state hfits written fun k hk =>
            of_decide_eq_true (List.mem_filter.1 (hwritten.subset hk)).2)
        rw [hstart]
        exact hvalid
    have hok : markState managedNames tables = .ok { tables with state := some written } :=
      onState_eq_ok.2 ⟨table, written, hstate, hwrite, rfl⟩
    cases h.symm.trans hok

variable {start : RegistryDb} {token : CanonicalToken} {rest state : List CanonicalToken}

/-- A token comes once. -/
theorem name_new (hsplit : registry.tokens = done ++ token :: rest) :
    token.name ∉ done.map CanonicalToken.name := by
  have hnames : (registry.tokens.map CanonicalToken.name).Nodup := by
    have hall : registry.tokens.map CanonicalToken.name = managedNames := registry.names_eq
    rw [hall]
    exact nodup_managedNames
  rw [hsplit, List.map_append, List.map_cons] at hnames
  exact fun hmem => (List.nodup_append.1 hnames).2.2 _ hmem _ List.mem_cons_self rfl

theorem name_mergeKnown (token : CanonicalToken) (row : KnownTokenRow) :
    (token.mergeKnown row).name = row.name := rfl

theorem name_mergeState (registry : ValidatedRegistry) (now : Int) (token : CanonicalToken)
    (row : RegistryStateRow) : (registry.mergeState now token row).name = row.name := rfl

theorem mergeKnown_eq {row : KnownTokenRow} (h : row.name = token.name) :
    (token.mergeKnown row).toKnownToken = token.known := by
  unfold CanonicalToken.mergeKnown CanonicalToken.known
  simp [h]

theorem mergeState_eq {row : RegistryStateRow} (h : row.name = token.name) :
    registry.mergeState now token row = registry.stateRow now token := by
  unfold ValidatedRegistry.mergeState ValidatedRegistry.stateRow
  rw [h]

/-- The importer's own tables have a row for each name. -/
theorem Fits.known_name (h : Fits start registry) (token : CanonicalToken) :
    token.name ∈ start.knownTokens.rows.map fun row => row.name := by
  obtain ⟨prior, hholds⟩ := h.managed
  obtain ⟨own, hown, hsame⟩ := prior.exists_token (name_mem_managedNames token)
  obtain ⟨row, hrow, hknown⟩ := hholds.known own hown
  refine List.mem_map.2 ⟨row, hrow, ?_⟩
  rw [← hsame, ← own.name_known, ← hknown]

theorem Fits.state_name (h : Fits start registry) (token : CanonicalToken) :
    token.name ∈ start.stateRows.map RegistryStateRow.name := by
  obtain ⟨prior, hholds⟩ := h.managed
  obtain ⟨own, hown, hsame⟩ := prior.exists_token (name_mem_managedNames token)
  obtain ⟨row, hrow, hname, -⟩ := hholds.state own hown
  exact List.mem_map.2 ⟨row, hrow, hname.trans hsame⟩

theorem upsertKnown_exact {valid : List KnownTokenRow → Prop} [DecidablePred valid]
    {table : Table valid} {id : Nat} (hsplit : registry.tokens = done ++ token :: rest)
    (hfits : Fits start registry)
    (htable : table.rows = start.knownTokens.rows.map (placeKnown managedNames done)) :
    table.upsert (fun row : KnownTokenRow => row.name) token.mergeKnown ⟨token.known, id⟩ =
      store valid (start.knownTokens.rows.map (placeKnown managedNames (done ++ [token]))) :=
  Table.upsert_place marking_known.name (fun _ _ => rfl) (fun _ => rfl) (name_new hsplit) rfl
    (hfits.known_name token) htable

theorem upsertState_exact {table : Table RegistryStateValid}
    (hsplit : registry.tokens = done ++ token :: rest) (hfits : Fits start registry)
    (htable : table.rows = start.stateRows.map (placeState registry now managedNames done)) :
    table.upsert RegistryStateRow.name (registry.mergeState now token)
        (registry.stateRow now token) =
      store RegistryStateValid
        (start.stateRows.map (placeState registry now managedNames (done ++ [token]))) :=
  Table.upsert_place marking_state.name (fun _ _ => rfl) (fun _ => rfl) (name_new hsplit) rfl
    (hfits.state_name token) htable

/-- **The upsert of a token** puts it into `known_tokens`. -/
theorem upsertKnown_writes (hsplit : registry.tokens = done ++ token :: rest) (id : Nat) :
    Writes (¬ Fits start registry) (Progress start registry now done state)
      (upsertKnown token id) (Progress start registry now (done ++ [token]) state) where
  leaves := by
    intro tables tables' h hok
    obtain ⟨table, hwrite, rfl⟩ := onKnown_eq_ok.1 hok
    obtain ⟨hplaced, hkept, hothers⟩ := Table.upsert_spec (name_mergeKnown token) hwrite
    refine ⟨h.assets, h.created, ?_, h.stateOthers, fun other hother => ?_, h.inState,
      fun hfits => ?_, h.exactState, h.temporaryKnown, h.temporaryState⟩
    · exact (hothers managedNames (name_mem_managedNames token)).trans h.knownOthers
    · rcases List.mem_append.1 hother with hother | hother
      · obtain ⟨row, hrow, hknown⟩ := h.inKnown other hother
        refine ⟨row, hkept row hrow fun hsame => name_new hsplit ?_, hknown⟩
        have hname : row.name = other.name := by rw [← other.name_known, ← hknown]
        exact List.mem_map.2 ⟨other, hother, hname.symm.trans hsame⟩
      · rw [List.mem_singleton.1 hother]
        rcases hplaced with hmem | ⟨old, -, hname, hmem⟩
        · exact ⟨_, hmem, rfl⟩
        · exact ⟨_, hmem, mergeKnown_eq hname⟩
    · rw [upsertKnown_exact hsplit hfits (h.exactKnown hfits)] at hwrite
      exact Table.store_eq_some.1 hwrite
  refused := by
    intro tables message h herror hfits
    obtain ⟨prior, hholds⟩ := hfits.managed
    have hvalid : KnownTokensValid tables.assets
        (start.knownTokens.rows.map (placeKnown managedNames (done ++ [token]))) := by
      rw [h.assets]
      refine known_valid hholds (hfits.admits.known.apart_placing marking_known
        start.knownTokens.holds.colors hholds.known_color fun other hother => ?_)
      rw [hsplit, List.append_cons]
      exact List.mem_append_left _ hother
    obtain ⟨table, hstore, -⟩ := Table.store_of_valid hvalid
    have hok : upsertKnown token id tables = .ok { tables with knownTokens := table } := by
      refine onKnown_eq_ok.2 ⟨table, ?_, rfl⟩
      rw [upsertKnown_exact hsplit hfits (h.exactKnown hfits)]
      exact hstore
    cases herror.symm.trans hok

/-- **The second upsert of a token** puts it into the registry's state. -/
theorem upsertState_writes (hsplit : registry.tokens = state ++ token :: rest)
    {known : List CanonicalToken} :
    Writes (¬ Fits start registry) (Progress start registry now known state)
      (upsertState registry now token)
      (Progress start registry now known (state ++ [token])) where
  leaves := by
    intro tables tables' h hok
    obtain ⟨table, written, hstate, hwrite, rfl⟩ := onState_eq_ok.1 hok
    have hrows := stateRows_of_state hstate
    obtain ⟨hplaced, hkept, hothers⟩ :=
      Table.upsert_spec (name_mergeState registry now token) hwrite
    refine ⟨h.assets, rfl, h.knownOthers, ?_, h.inKnown, fun other hother => ?_, h.exactKnown,
      fun hfits => ?_, h.temporaryKnown, h.temporaryState⟩
    · exact (hothers managedNames (name_mem_managedNames token)).trans (hrows ▸ h.stateOthers)
    · rcases List.mem_append.1 hother with hother | hother
      · refine hkept _ (hrows ▸ h.inState other hother) fun hsame => name_new hsplit ?_
        exact List.mem_map.2 ⟨other, hother, hsame⟩
      · rw [List.mem_singleton.1 hother]
        rcases hplaced with hmem | ⟨old, -, hname, hmem⟩
        · exact hmem
        · exact mergeState_eq hname ▸ hmem
    · rw [upsertState_exact hsplit hfits (hrows ▸ h.exactState hfits)] at hwrite
      exact Table.store_eq_some.1 hwrite
  refused := by
    intro tables message h herror hfits
    obtain ⟨prior, hholds⟩ := hfits.managed
    obtain ⟨table, hstate⟩ := Option.isSome_iff_exists.1 h.created
    have hrows := stateRows_of_state hstate
    have hvalid : RegistryStateValid
        (start.stateRows.map (placeState registry now managedNames (state ++ [token]))) := by
      refine state_valid hfits.admits.storable (hfits.admits.state.apart_placing marking_state
        start.state_valid.colors hholds.state_color fun other hother => ?_)
      rw [hsplit, List.append_cons]
      exact List.mem_append_left _ hother
    obtain ⟨written, hstore, -⟩ := Table.store_of_valid hvalid
    have hok : upsertState registry now token tables =
        .ok { tables with state := some written } := by
      refine onState_eq_ok.2 ⟨table, written, hstate, ?_, rfl⟩
      rw [upsertState_exact hsplit hfits (hrows ▸ h.exactState hfits)]
      exact hstore
    cases herror.symm.trans hok

end Writing

/-! ## The import -/

section Import

variable {start : RegistryDb} {registry : ValidatedRegistry} {now : Int}
  {lost : Nat → Option String}

/-- The statements of one token. -/
theorem importToken_rule {token : CanonicalToken} {done rest : List CanonicalToken}
    (hsplit : registry.tokens = done ++ token :: rest) :
    Triple (Working start (Progress start registry now done done))
      (importToken lost registry now token)
      (fun _ => Working start (Progress start registry now (done ++ [token]) (done ++ [token])))
      (Rejected start lost (¬ Fits start registry)) := by
  unfold importToken
  refine Triple.bind (nextval_rule fun id => upsertKnown_writes hsplit id) fun _ => ?_
  exact writes_rule (upsertState_writes hsplit)

/-- The statements of all of them. -/
theorem importTokens_rule :
    Triple (Working start (Progress start registry now [] []))
      (registry.tokens.forM (importToken lost registry now))
      (fun _ => Working start (Progress start registry now registry.tokens registry.tokens))
      (Rejected start lost (¬ Fits start registry)) := by
  refine (Triple.forM (I := fun rest connection => ∃ done, registry.tokens = done ++ rest ∧
    Working start (Progress start registry now done done) connection) ?_).conseq
    (fun _ h => ⟨[], rfl, h⟩) ?_ fun _ _ h => h
  · rintro token rest - connection ⟨done, hsplit, hworking⟩
    refine (importToken_rule hsplit).conseq (fun _ h => h)
      (fun _ _ h => ⟨done ++ [token], ?_, h⟩) (fun _ _ h => h) connection hworking
    rw [hsplit, List.append_cons]
  · rintro _ connection ⟨done, hsplit, hworking⟩
    rw [List.append_nil] at hsplit
    rw [hsplit]
    exact hworking

/-- **Between `BEGIN` and `COMMIT`.** -/
theorem importStatements_rule (hlower : start.Lower) :
    Triple (Working start (· = start)) (importStatements lost registry now)
      (fun _ connection => OwnRows start registry ∧
        Progress start registry now registry.tokens registry.tokens connection.database)
      (Rejected start lost (¬ Fits start registry)) := by
  unfold importStatements
  refine Triple.bind (Q := fun _ => Working start (· = start.createState)) (writes_rule ?_)
    fun _ => ?_
  · refine ⟨fun tables tables' hstart hok => ?_, fun _ _ _ herror => nomatch herror⟩
    rw [← Except.ok.inj hok, hstart]
  refine Triple.bind (reads_rule _) fun existing => Triple.bind (reads_rule _) fun state => ?_
  refine Triple.bind (Q := fun _ => Working start fun tables => ((tables = start.createState ∧
    existing = _) ∧ state = _) ∧ OwnRows start registry) (checks_rule ?_ ?_) fun _ => ?_
  · rintro tables ⟨⟨rfl, rfl⟩, rfl⟩ hcheck
    rw [start.stateRows_createState] at hcheck
    exact ownRows_of_check hlower hcheck
  · rintro tables message ⟨⟨rfl, rfl⟩, rfl⟩ hcheck hfits
    rw [start.stateRows_createState] at hcheck
    cases hcheck.symm.trans (check_of_fits hfits)
  rintro connection ⟨hstart, tables, htransaction, ⟨⟨hcreated, -⟩, -⟩, hown⟩
  have hworking : Working start (· = start.createState) connection :=
    ⟨hstart, tables, htransaction, hcreated⟩
  refine Triple.bind (writes_rule (markKnown_writes start registry)) (fun _ => ?_) connection
    hworking
  refine Triple.bind (writes_rule (markState_writes start registry now)) fun _ => ?_
  refine Triple.bind importTokens_rule fun _ => ?_
  exact commit_rule.conseq (fun _ h => h) (fun _ _ h => ⟨hown, h⟩) fun _ _ h => h

/-- **`applyCanonicalRegistry`**: it returns with the tables replaced, or throws with the database
as it was, and throws only over a lost query or tables that do not fit. -/
theorem applyCanonicalRegistry_rule (hlower : start.Lower) :
    Triple (fun connection => connection.database = start)
      (applyCanonicalRegistry lost registry now)
      (fun _ connection => OwnRows start registry ∧
        Progress start registry now registry.tokens registry.tokens connection.database)
      (Rejected start lost (¬ Fits start registry)) := by
  unfold applyCanonicalRegistry
  refine Triple.bind (Q := fun _ => Working start (· = start))
    (query_rule (fun _ _ h => h) (fun _ h => h) (Triple.modify fun _ h => ⟨h, _, rfl, h⟩))
    fun _ => ?_
  refine Triple.catching (importStatements_rule hlower) fun error => ?_
  refine Triple.bind (Q := fun _ => Rejected start lost (¬ Fits start registry) error)
    (Triple.catching (query_rule (fun _ _ h => h) (fun _ h => h.1) (Triple.modify fun _ h => h))
      fun _ => Triple.pure fun _ h => h) fun _ => ?_
  exact Triple.throw fun _ h => h

end Import

/-! ## What a committed import leaves -/

/-- **The tables are replaced**: the six names have the incoming tokens and nothing else, and every
other row is as it was. -/
structure Replaced (before after : RegistryDb) (registry : ValidatedRegistry) : Prop where
  holds : Holds registry after
  onlyKnown : ∀ row ∈ after.knownTokens.rows, row.name ∈ managedNames →
    ∃ token ∈ registry.tokens, row.toKnownToken = token.known
  onlyState : ∀ row ∈ after.stateRows, row.name ∈ managedNames →
    ∃ token ∈ registry.tokens, row.name = token.name ∧ row.tokenColor = token.tokenColor
  assets : after.assets = before.assets
  knownOthers : after.knownTokens.rows.filter (fun row => row.name ∉ managedNames) =
    before.knownTokens.rows.filter fun row => row.name ∉ managedNames
  stateOthers : after.stateRows.filter (fun row => row.name ∉ managedNames) =
    before.stateRows.filter fun row => row.name ∉ managedNames

section Results

variable {before after : RegistryDb} {registry : ValidatedRegistry} {now : Int}

theorem Progress.replaced
    (h : Progress before registry now registry.tokens registry.tokens after) :
    Replaced before after registry := by
  have hholds : Holds registry after :=
    ⟨h.inKnown, fun token htoken => ⟨_, h.inState token htoken, rfl, rfl, rfl, rfl⟩⟩
  exact ⟨hholds, fun _ hrow => hholds.known_exact hrow, fun _ hrow => hholds.state_exact hrow,
    h.assets, h.knownOthers, h.stateOthers⟩

theorem mem_of_others {ρ : Type} {name : ρ → String} {rows rows' : List ρ} {row : ρ}
    (h : rows'.filter (fun row => name row ∉ managedNames) =
      rows.filter fun row => name row ∉ managedNames)
    (hname : name row ∉ managedNames) : row ∈ rows' ↔ row ∈ rows := by
  have hiff : row ∈ rows'.filter (fun row => name row ∉ managedNames) ↔
      row ∈ rows.filter fun row => name row ∉ managedNames := by rw [h]
  simpa [List.mem_filter, hname] using hiff

/-- **A committed import had nothing in its way.** -/
theorem Progress.admits (h : Progress before registry now registry.tokens registry.tokens after) :
    Admits before registry := by
  refine ⟨?_, ⟨fun row hrow hname token htoken hsame => ?_, h.temporaryKnown⟩,
    ⟨fun row hrow hname token htoken hsame => ?_, h.temporaryState⟩⟩
  · obtain ⟨token, htoken, -⟩ := registry.exists_token (List.mem_cons_self : "TWBTC" ∈ managedNames)
    exact after.state_valid.texts _ (h.inState token htoken)
  · obtain ⟨own, hown, hknown⟩ := h.inKnown token htoken
    have hmem := (mem_of_others h.knownOthers hname).2 hrow
    have hcolor : own.tokenColor = row.tokenColor := by
      rw [hknown]
      exact hsame
    obtain rfl := List.inj_on_of_nodup_map after.knownTokens.holds.colors hown hmem hcolor
    rw [hknown] at hname
    exact hname (name_mem_managedNames token)
  · have hmem := (mem_of_others h.stateOthers hname).2 hrow
    have heq := List.inj_on_of_nodup_map after.state_valid.colors (h.inState token htoken) hmem
      hsame
    rw [← heq] at hname
    exact hname (name_mem_managedNames token)

theorem Replaced.lower (h : Replaced before after registry) (hlower : before.Lower) :
    after.Lower := by
  refine ⟨fun row hrow => ?_, fun row hrow => ?_⟩
  · by_cases hname : row.name ∈ managedNames
    · obtain ⟨token, -, hknown⟩ := h.onlyKnown row hrow hname
      rw [hknown]
      exact token.isColor.2
    · exact hlower.known row ((mem_of_others h.knownOthers hname).1 hrow)
  · by_cases hname : row.name ∈ managedNames
    · obtain ⟨token, -, -, hcolor⟩ := h.onlyState row hrow hname
      rw [hcolor]
      exact token.isColor.2
    · exact hlower.state row ((mem_of_others h.stateOthers hname).1 hrow)

variable {server server' later : RegistryServer} {job : ValidatedRegistry × Int}

/-- **An import of which no query is lost.** -/
theorem importAt_spec (hlower : server.database.Lower) :
    (∀ server', server.importAt job = some server' →
      Replaced server.database server'.database job.1 ∧ Admits server.database job.1) ∧
    (Fits server.database job.1 → ∃ server', server.importAt job = some server') := by
  have hrule := @applyCanonicalRegistry_rule server.database job.1 job.2 (fun _ => none) hlower
    server.connect rfl
  unfold RegistryServer.importAt
  cases houtcome : (applyCanonicalRegistry (fun _ => none) job.1 job.2).outcome server.connect with
  | mk result connection =>
    rw [houtcome] at hrule
    cases result with
    | ok value =>
      refine ⟨fun server' h => ?_, fun _ => ⟨_, rfl⟩⟩
      obtain rfl := Option.some.inj h
      exact ⟨hrule.2.replaced, hrule.2.admits⟩
    | error message =>
      refine ⟨nofun, fun hfits => ?_⟩
      obtain ⟨-, hbad | ⟨k, hk⟩⟩ := hrule
      · exact absurd hfits hbad
      · cases hk

/-! ## Sequences of imports -/

/-- What a sequence of imports keeps: the importer's own tables, and the rows that are not its. -/
structure Managed (start : RegistryDb) (db : RegistryDb) : Prop where
  lower : db.Lower
  holds : ∃ prior, Holds prior db
  knownOthers : db.knownTokens.rows.filter (fun row => row.name ∉ managedNames) =
    start.knownTokens.rows.filter fun row => row.name ∉ managedNames
  stateOthers : db.stateRows.filter (fun row => row.name ∉ managedNames) =
    start.stateRows.filter fun row => row.name ∉ managedNames

variable {start : RegistryDb}

theorem Replaced.managed (h : Replaced before after registry) (hlower : before.Lower)
    (hknown : before.knownTokens.rows.filter (fun row => row.name ∉ managedNames) =
      start.knownTokens.rows.filter fun row => row.name ∉ managedNames)
    (hstate : before.stateRows.filter (fun row => row.name ∉ managedNames) =
      start.stateRows.filter fun row => row.name ∉ managedNames) : Managed start after :=
  ⟨h.lower hlower, ⟨registry, h.holds⟩, h.knownOthers.trans hknown, h.stateOthers.trans hstate⟩

/-- **Every state of a sequence of imports** is the importer's own. -/
theorem managed_of_trace {jobs : List (ValidatedRegistry × Int)}
    (h : Managed start server.database) (hrun : Trace RegistryServer.importAt server jobs later) :
    Managed start later.database := by
  refine Trace.invariant (p := fun server => Managed start server.database) h ?_ hrun
  intro server job server' hmanaged hstep
  obtain ⟨hreplaced, -⟩ := (importAt_spec hmanaged.lower).1 server' hstep
  exact hreplaced.managed hmanaged.lower hmanaged.knownOthers hmanaged.stateOthers

/-- **Over its own tables** an import commits exactly when nothing is in its way. -/
theorem importAt_isSome_iff (h : Managed start server.database) :
    (server.importAt job).isSome ↔ Admits server.database job.1 := by
  obtain ⟨hok, hfits⟩ := @importAt_spec server job h.lower
  constructor
  · intro hsome
    obtain ⟨server', hserver⟩ := Option.isSome_iff_exists.1 hsome
    exact (hok server' hserver).2
  · intro hadmits
    exact Option.isSome_iff_exists.2 (hfits ⟨h.lower, h.holds, hadmits⟩)

/-- No row that is not managed has a color like the temporary ones. -/
structure Unmarked (db : RegistryDb) : Prop where
  known : ∀ row ∈ db.knownTokens.rows, row.name ∉ managedNames →
    ¬ "registry-import".toList <+: row.tokenColor.toList
  state : ∀ row ∈ db.stateRows, row.name ∉ managedNames →
    ¬ "registry-import".toList <+: row.tokenColor.toList

/-- No row that is not managed holds an incoming color. -/
structure Unclaimed (db : RegistryDb) (registry : ValidatedRegistry) : Prop where
  known : ∀ row ∈ db.knownTokens.rows, row.name ∉ managedNames →
    ∀ token ∈ registry.tokens, token.tokenColor ≠ row.tokenColor
  state : ∀ row ∈ db.stateRows, row.name ∉ managedNames →
    ∀ token ∈ registry.tokens, token.tokenColor ≠ row.tokenColor

theorem KnownTokenRow.marked (row : KnownTokenRow) :
    "registry-import".toList <+: row.mark.tokenColor.toList := by
  unfold KnownTokenRow.mark
  simp only [String.toList_append, List.append_assoc]
  exact List.prefix_append_of_prefix ⟨[':'], rfl⟩

theorem RegistryStateRow.marked (row : RegistryStateRow) :
    "registry-import".toList <+: row.mark.tokenColor.toList := by
  unfold RegistryStateRow.mark
  simp only [String.toList_append, List.append_assoc]
  exact List.prefix_append_of_prefix ⟨"-state:".toList, rfl⟩

theorem Unclaimed.admits {db : RegistryDb} (h : Unclaimed db registry) (hunmarked : Unmarked db)
    (hstorable : Storable registry.revision) : Admits db registry where
  storable := hstorable
  known := ⟨h.known, fun managed _ _ row hrow hname hsame =>
    hunmarked.known row hrow hname (hsame ▸ managed.marked)⟩
  state := ⟨h.state, fun managed _ _ row hrow hname hsame =>
    hunmarked.state row hrow hname (hsame ▸ managed.marked)⟩

/-- Rows that are not managed stay as they were at the start. -/
theorem Managed.unmarked {db : RegistryDb} (h : Managed start db) (hunmarked : Unmarked start) :
    Unmarked db where
  known row hrow hname := hunmarked.known row ((mem_of_others h.knownOthers hname).1 hrow) hname
  state row hrow hname := hunmarked.state row ((mem_of_others h.stateOthers hname).1 hrow) hname

theorem Managed.unclaimed {db : RegistryDb} (h : Managed start db)
    (hunclaimed : Unclaimed start registry) : Unclaimed db registry where
  known row hrow hname := hunclaimed.known row ((mem_of_others h.knownOthers hname).1 hrow) hname
  state row hrow hname := hunclaimed.state row ((mem_of_others h.stateOthers hname).1 hrow) hname

/-- **Colors that the six names already hold**, in any order, no other row holds. -/
theorem Managed.unclaimed_permuted {db : RegistryDb} (h : Managed start db)
    (hcolors : ∀ token ∈ registry.tokens, ∃ row ∈ db.knownTokens.rows, row.name ∈ managedNames ∧
      row.tokenColor = token.tokenColor) : Unclaimed db registry := by
  obtain ⟨prior, hholds⟩ := h.holds
  refine ⟨fun row hrow hname token htoken hsame => ?_, fun row hrow hname token htoken hsame => ?_⟩
  · obtain ⟨own, hown, hmanaged, hcolor⟩ := hcolors token htoken
    obtain rfl := List.inj_on_of_nodup_map db.knownTokens.holds.colors hown hrow
      (hcolor.trans hsame)
    exact hname hmanaged
  · obtain ⟨own, hown, hmanaged, hcolor⟩ := hcolors token htoken
    obtain ⟨held, hheld, hknown⟩ := hholds.known_exact hown hmanaged
    obtain ⟨state, hstate, hstateName, hstateColor, -⟩ := hholds.state held hheld
    have hstateSame : state.tokenColor = row.tokenColor := by
      rw [hstateColor, ← hsame, ← hcolor, hknown]
      rfl
    obtain rfl := List.inj_on_of_nodup_map db.state_valid.colors hstate hrow hstateSame
    rw [hstateName] at hname
    exact hname (name_mem_managedNames held)

end Results

/-- **Registry imports are atomic.** An import over any tables with colors in lower case replaces
the rows of the six names, all of them its own or equal to the incoming ones, or changes nothing.
After a committed one, any sequence of imports of storable registries commits as long as no other
row holds an incoming color, which a permutation of the colors in place never meets; an import is
only stopped by such a row. -/
theorem registry_import_atomic (lost : Nat → Option String) (job : ValidatedRegistry × Int)
    {server : RegistryServer} (hlower : server.database.Lower) :
    (∀ connection, (applyCanonicalRegistry lost job.1 job.2).outcome server.connect =
        (.ok (), connection) →
      Replaced server.database connection.database job.1 ∧ OwnRows server.database job.1) ∧
    (∀ message connection, (applyCanonicalRegistry lost job.1 job.2).outcome server.connect =
        (.error message, connection) → connection.database = server.database) ∧
    ∀ first, server.importAt job = some first →
      (∀ jobs later, Trace RegistryServer.importAt first jobs later → ∀ next,
        ((later.importAt next).isSome ↔ Admits later.database next.1) ∧
        ((∀ token ∈ next.1.tokens, ∃ row ∈ later.database.knownTokens.rows,
          row.name ∈ managedNames ∧ row.tokenColor = token.tokenColor) →
          Storable next.1.revision → Unmarked server.database → (later.importAt next).isSome)) ∧
      ∀ jobs, Unmarked server.database → (∀ next ∈ jobs, Storable next.1.revision ∧
        Unclaimed server.database next.1) →
        ∃ later, Trace RegistryServer.importAt first jobs later := by
  have hrule := @applyCanonicalRegistry_rule server.database job.1 job.2 lost hlower
    server.connect rfl
  refine ⟨fun connection houtcome => ?_, fun message connection houtcome => ?_,
    fun first hfirst => ?_⟩
  · rw [houtcome] at hrule
    exact ⟨hrule.2.replaced, hrule.1⟩
  · rw [houtcome] at hrule
    exact hrule.1
  obtain ⟨hreplaced, -⟩ := (importAt_spec hlower).1 first hfirst
  have hmanaged : Managed server.database first.database := hreplaced.managed hlower rfl rfl
  refine ⟨fun jobs later hrun next => ?_, fun jobs hunmarked hjobs => ?_⟩
  · have hlater := managed_of_trace hmanaged hrun
    refine ⟨importAt_isSome_iff hlater, fun hcolors hstorable hunmarked => ?_⟩
    refine (importAt_isSome_iff hlater).2 ?_
    exact (hlater.unclaimed_permuted hcolors).admits (hlater.unmarked hunmarked) hstorable
  · -- each import finds the rows that are not managed as the first one did
    induction jobs using List.reverseRecOn with
    | nil => exact ⟨first, .nil⟩
    | append_singleton jobs next ih =>
      obtain ⟨later, hrun⟩ := ih fun job hjob => hjobs job (List.mem_append_left _ hjob)
      have hlater := managed_of_trace hmanaged hrun
      obtain ⟨hstorable, hunclaimed⟩ := hjobs next
        (List.mem_append_right _ (List.mem_singleton_self next))
      have hadmits : Admits later.database next.1 :=
        (hlater.unclaimed hunclaimed).admits (hlater.unmarked hunmarked) hstorable
      obtain ⟨last, hlast⟩ := Option.isSome_iff_exists.1 ((importAt_isSome_iff hlater).2 hadmits)
      exact ⟨last, .snoc hrun hlast⟩

/-! ## Sample imports -/

/-- A color that ends in a digit. -/
def sampleColor (digit : Fin 16) : String :=
  String.ofList (List.replicate 63 '0' ++ [Nat.digitChar digit])

theorem isColor_sampleColor : ∀ digit, Color (sampleColor digit) := by
  decide +kernel

def sampleTokens (digit : CanonicalSymbol → Fin 16) : List CanonicalToken :=
  CanonicalSymbol.all.map fun symbol => ⟨symbol, sampleColor (digit symbol), isColor_sampleColor _⟩

def sampleDigit : CanonicalSymbol → Fin 16
  | .twBTC => 1
  | .twETH => 2
  | .twUSDC => 3
  | .twUSDM => 4
  | .utwUSDC => 5
  | .utwBTC => 6

def sampleRegistry : ValidatedRegistry :=
  ⟨.preprod, "1", sampleTokens sampleDigit, rfl, by decide +kernel, by decide⟩

/-- The same colors with the first two exchanged. -/
def exchangedRegistry : ValidatedRegistry :=
  ⟨.preview, "2", sampleTokens fun symbol => sampleDigit (match symbol with
    | .twBTC => .twETH
    | .twETH => .twBTC
    | other => other), rfl, by decide +kernel, by decide⟩

/-- A registry whose first color is the native token's. -/
def collidingRegistry : ValidatedRegistry :=
  ⟨.preview, "3", sampleTokens fun symbol => match symbol with
    | .twBTC => 0
    | other => sampleDigit other, rfl, by decide +kernel, by decide⟩

/-- The sample with a NUL for a revision. -/
def unstorableRegistry : ValidatedRegistry :=
  { sampleRegistry with revision := String.singleton (Char.ofNat 0), revised := by decide +kernel }

/-- A database with the native token and without the importer's table. -/
def freshServer : RegistryServer where
  database :=
    { assets := ["bitcoin", "ethereum", "usd-coin", "midnight-3", "usdm-2"]
      knownTokens := ⟨[⟨⟨sampleColor 0, "NIGHT", "unshielded", 6, some "midnight-3"⟩, 1⟩],
        by decide +kernel⟩
      state := none }
  nextId := 2

theorem lower_freshServer : freshServer.database.Lower := ⟨by decide +kernel, by decide +kernel⟩

theorem registry_import_atomic_exchanged :
    ∃ first later, freshServer.importAt (sampleRegistry, 0) = some first ∧
      Trace RegistryServer.importAt first [(exchangedRegistry, 1), (sampleRegistry, 2)] later := by
  have hsome : (freshServer.importAt (sampleRegistry, 0)).isSome = true := by decide +kernel
  obtain ⟨first, hfirst⟩ := Option.isSome_iff_exists.1 hsome
  obtain ⟨-, -, hnext⟩ :=
    registry_import_atomic (fun _ => none) (sampleRegistry, 0) lower_freshServer
  have hunmarked : Unmarked freshServer.database := ⟨by decide +kernel, by decide +kernel⟩
  have hexchanged : Unclaimed freshServer.database exchangedRegistry :=
    ⟨by decide +kernel, by decide +kernel⟩
  have hsample : Unclaimed freshServer.database sampleRegistry :=
    ⟨by decide +kernel, by decide +kernel⟩
  obtain ⟨later, hrun⟩ := (hnext first hfirst).2 [(exchangedRegistry, 1), (sampleRegistry, 2)]
    hunmarked fun next hmem => by
      rcases List.mem_cons.1 hmem with rfl | hmem
      · exact ⟨by decide +kernel, hexchanged⟩
      · rw [List.mem_singleton.1 hmem]
        exact ⟨by decide +kernel, hsample⟩
  exact ⟨first, later, hfirst, hrun⟩

/-- After a committed import the next one is stopped by a color that another row holds, or by a
revision that no text column takes. -/
theorem registry_import_stopped :
    ∃ first, freshServer.database.Lower ∧ freshServer.importAt (sampleRegistry, 0) = some first ∧
      first.importAt (collidingRegistry, 1) = none ∧
      first.importAt (unstorableRegistry, 1) = none := by
  have hsome : (freshServer.importAt (sampleRegistry, 0)).isSome = true := by decide +kernel
  obtain ⟨first, hfirst⟩ := Option.isSome_iff_exists.1 hsome
  have hcolliding : ((freshServer.importAt (sampleRegistry, 0)).bind
      (·.importAt (collidingRegistry, 1))).isNone = true := by decide +kernel
  have hunstorable : ((freshServer.importAt (sampleRegistry, 0)).bind
      (·.importAt (unstorableRegistry, 1))).isNone = true := by decide +kernel
  rw [hfirst] at hcolliding hunstorable
  exact ⟨first, lower_freshServer, hfirst, Option.isNone_iff_eq_none.1 hcolliding,
    Option.isNone_iff_eq_none.1 hunstorable⟩

end TokenRegistry

end ZswapKernel
