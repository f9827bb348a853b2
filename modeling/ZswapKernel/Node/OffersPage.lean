import Mathlib.Data.Prod.Lex
import ZswapKernel.Lib.Keyset
import ZswapKernel.Node.OfferIdentity

/-!
# Pages of the open offers

`GET /v1/offers` of `packages/node/api.ts`, with `getOpenOffersPage` and `resolveOfferCursor` of
`packages/database/sql/queries.app.ts`. A cursor is the hash of an offer, and stands for the height
and the hash that the offer was published with; the offer may have been archived since. The queries
of one request see different states.

* `BookTimeline` — states of the tables with inserts and archivals between them.
* `BookTimeline.resolveOfferCursor` — a cursor keeps its key.
* `NodeTimeline.bookTimeline` — the states of the node are such.

Left out: `blobChars`, `blockHeight` and the texts of timestamps.
-/

namespace ZswapKernel

/-! ## Queries -/

/-- `(celestia_height, offer_hash)`. -/
def OfferFile.pageKey (offer : OfferFile) : Nat ×ₗ String :=
  toLex (offer.celestiaHeight, offer.offerHash)

/-- The rows with a leg of the token, in any direction or in the given one. -/
def Db.offersWith (db : Db) (token : String) (direction : Option LegDirection) : List OfferFile :=
  db.offerFile.filter fun offer => token = "" || db.tokens.any fun leg =>
    leg.offerFileId = offer.id && leg.value.token = token && direction.all (leg.value.direction = ·)

/-- `getOpenOffersPage`. -/
def Db.getOpenOffersPage (db : Db) (token : String) (direction : Option LegDirection) (limit : Nat)
    (after : Option (Nat ×ₗ String)) : List OfferFile :=
  Keyset.pageAfter OfferFile.pageKey limit after (db.offersWith token direction)

/-- `resolveOfferCursor`. -/
def Db.resolveOfferCursor (db : Db) (offerHash : String) : Option (Nat ×ₗ String) :=
  ((db.offerFile.filter (·.offerHash = offerHash)).map (·.pageKey) ++
    (db.history.filter (·.offerHash = offerHash)).map (·.pageKey)).head?

/-! ## The request -/

/-- `/^[0-9a-f]{64}$/`. -/
def canonicalCursor (value : String) : Bool :=
  value.length = 64 && value.toList.all fun c => ('0' ≤ c && c ≤ '9') || ('a' ≤ c && c ≤ 'f')

/-- A row of the answer. -/
structure ApiZswap where
  offerId : String
  gives : List OfferLeg
  wants : List OfferLeg
  expiresAt : Int
  inputNullifiers : List String
  firstSeenAt : Int
  deriving DecidableEq, Repr

structure ApiZswapsPage where
  offers : List ApiZswap
  nextCursor : Option String
  deriving DecidableEq, Repr

/-- The states that the queries of a request see. -/
structure PageStates where
  cursor : Db
  page : Db
  legs : Db
  nullifiers : Db

def PageStates.toApi (seen : PageStates) (offer : OfferFile) : ApiZswap where
  offerId := offer.offerHash
  gives := (seen.legs.tokens.filter fun leg =>
    leg.offerFileId = offer.id && leg.value.direction = .giving).map (·.value.toOfferLeg)
  wants := (seen.legs.tokens.filter fun leg =>
    leg.offerFileId = offer.id && leg.value.direction ≠ .giving).map (·.value.toOfferLeg)
  expiresAt := offer.metadataExpiresAt
  inputNullifiers :=
    (seen.nullifiers.offerNullifiers.filter (·.offerFileId = offer.id)).map (·.value)
  firstSeenAt := offer.firstSeenAt

/-- The `limit` of a request. -/
def pageLimit (rawLimit : Option Int) : Nat :=
  match rawLimit with
  | some limit => if limit ≤ 0 ∨ 100 < limit then 100 else limit.toNat
  | none => 100

/-- The anchor of a cursor. -/
def PageStates.anchor (seen : PageStates) (afterHash : String) :
    Except String (Option (Nat ×ₗ String)) :=
  if afterHash = "" then .ok none
  else if canonicalCursor afterHash then
    match seen.cursor.resolveOfferCursor afterHash with
    | some key => .ok (some key)
    | none => .error "unknown cursor — restart pagination from the first page"
  else .error "after_hash must be 64 hex chars (a next_cursor value)"

/-- `GET /v1/offers`. -/
def listOffers (seen : PageStates) (rawLimit : Option Int) (token : String)
    (direction : Option LegDirection) (afterHash : String) : Except String ApiZswapsPage := do
  let after ← seen.anchor (toLowerCase afterHash)
  let limit := pageLimit rawLimit
  let offers := seen.page.getOpenOffersPage token direction limit after
  return {
    offers := offers.map seen.toApi
    nextCursor := if offers.length = limit then offers.getLast?.map (·.offerHash) else none }

/-! ## Inserts and archivals -/

/-- Offers stay as they are, live or archived; others may come. -/
structure Db.Evolves (db db' : Db) : Prop where
  live : ∀ offer ∈ db.offerFile,
    offer ∈ db'.offerFile ∨ ∃ entry ∈ db'.history, entry.toOfferFile = offer
  archived : db.history ⊆ db'.history

/-- The hashes are canonical, and name one offer each. -/
structure Db.Keyed (db : Db) : Prop where
  distinct : db.offerHashes.Nodup
  canonical : ∀ offerHash ∈ db.offerHashes, canonicalCursor offerHash = true

/-- States of the tables, with any inserts and archivals between one and the next. -/
structure BookTimeline (states : Nat → Db) : Prop where
  keyed : ∀ i, (states i).Keyed
  evolves : ∀ i, (states i).Evolves (states (i + 1))

section Timeline

variable {states : Nat → Db} {db db' db'' : Db} {offer other : OfferFile} {i j : Nat}

theorem Db.Evolves.refl (db : Db) : db.Evolves db := ⟨fun _ => .inl, List.Subset.refl _⟩

theorem Db.Evolves.trans (h : db.Evolves db') (h' : db'.Evolves db'') : db.Evolves db'' where
  live offer hoffer := by
    rcases h.live offer hoffer with hlive | ⟨entry, hentry, heq⟩
    · exact h'.live offer hlive
    · exact .inr ⟨entry, h'.archived hentry, heq⟩
  archived := List.Subset.trans h.archived h'.archived

theorem BookTimeline.evolves_le (h : BookTimeline states) (hle : i ≤ j) :
    (states i).Evolves (states j) := by
  induction hle with
  | refl => exact .refl _
  | step _ ih => exact ih.trans (h.evolves _)

theorem BookTimeline.const (h : db.Keyed) : BookTimeline fun _ => db :=
  ⟨fun _ => h, fun _ => .refl _⟩

/-- The hash tells the offer, among the live and the archived. -/
theorem Db.Keyed.eq_of_hash (h : db.Keyed)
    (hoffer : offer ∈ db.offerFile ∨ ∃ entry ∈ db.history, entry.toOfferFile = offer)
    (hother : other ∈ db.offerFile ∨ ∃ entry ∈ db.history, entry.toOfferFile = other)
    (hhash : other.offerHash = offer.offerHash) : other = offer := by
  have hmem : ∀ {offer : OfferFile},
      (offer ∈ db.offerFile ∨ ∃ entry ∈ db.history, entry.toOfferFile = offer) →
      offer ∈ db.offerFile ++ db.history.map (·.toOfferFile) := by
    rintro offer (hlive | ⟨entry, hentry, rfl⟩)
    · exact List.mem_append_left _ hlive
    · exact List.mem_append_right _ (List.mem_map_of_mem hentry)
  have hnodup : ((db.offerFile ++ db.history.map (·.toOfferFile)).map (·.offerHash)).Nodup := by
    rw [List.map_append, List.map_map]
    exact h.distinct
  exact List.inj_on_of_nodup_map hnodup (hmem hother) (hmem hoffer) hhash

/-- A hash names the same offer at all times. -/
theorem BookTimeline.eq_of_hash (h : BookTimeline states) (hoffer : offer ∈ (states i).offerFile)
    (hother : other ∈ (states j).offerFile) (hhash : other.offerHash = offer.offerHash) :
    other = offer := by
  rcases Nat.le_total i j with hle | hle
  · exact (h.keyed j).eq_of_hash ((h.evolves_le hle).live offer hoffer) (.inl hother) hhash
  · exact (h.keyed i).eq_of_hash (.inl hoffer) ((h.evolves_le hle).live other hother) hhash

/-- **A cursor keeps its key**, also when its offer is archived between two pages. -/
theorem BookTimeline.resolveOfferCursor (h : BookTimeline states)
    (hoffer : offer ∈ (states i).offerFile) (hle : i ≤ j) :
    (states j).resolveOfferCursor offer.offerHash = some offer.pageKey := by
  have hknown := (h.evolves_le hle).live offer hoffer
  unfold Db.resolveOfferCursor
  rw [List.head?_eq_some_iff]
  have hall : ∀ key ∈
      ((states j).offerFile.filter (·.offerHash = offer.offerHash)).map (·.pageKey) ++
      ((states j).history.filter (·.offerHash = offer.offerHash)).map (·.pageKey),
      key = offer.pageKey := by
    intro key hkey
    rcases List.mem_append.mp hkey with hkey | hkey
    · obtain ⟨other, hother, rfl⟩ := List.mem_map.mp hkey
      obtain ⟨hmem, hhash⟩ := List.mem_filter.mp hother
      rw [(h.keyed j).eq_of_hash hknown (.inl hmem) (of_decide_eq_true hhash)]
    · obtain ⟨entry, hentry, rfl⟩ := List.mem_map.mp hkey
      obtain ⟨hmem, hhash⟩ := List.mem_filter.mp hentry
      rw [(h.keyed j).eq_of_hash hknown (.inr ⟨entry, hmem, rfl⟩) (of_decide_eq_true hhash)]
  cases hkeys : ((states j).offerFile.filter (·.offerHash = offer.offerHash)).map (·.pageKey) ++
      ((states j).history.filter (·.offerHash = offer.offerHash)).map (·.pageKey) with
  | nil =>
    obtain ⟨hlive, harchived⟩ := List.append_eq_nil_iff.mp hkeys
    rw [List.map_eq_nil_iff, List.filter_eq_nil_iff] at hlive harchived
    rcases hknown with hmem | ⟨entry, hmem, rfl⟩
    · exact absurd (decide_eq_true rfl) (hlive offer hmem)
    · exact absurd (decide_eq_true rfl) (harchived entry hmem)
  | cons key keys =>
    rw [hkeys] at hall
    exact ⟨keys, by rw [hall key List.mem_cons_self]⟩

/-- The keys of the live offers are distinct. -/
theorem Db.Keyed.pageKeys (h : db.Keyed) : (db.offerFile.map (·.pageKey)).Nodup := by
  have hnodup : (db.offerFile.map (·.offerHash)).Nodup := (List.nodup_append.mp h.distinct).1
  refine List.Nodup.of_map (fun key => (ofLex key).2) ?_
  rw [List.map_map]
  exact hnodup

end Timeline

/-! ## The states of the node -/

/-- The node goes from each state to the next, by any inputs. -/
structure NodeTimeline (env : NodeEnv) (ledger : Ledger) (blocks : Nat → BlockContext)
    (states : Nat → Db) : Prop where
  run : NodeRun env ledger (blocks 0) (states 0)
  steps : ∀ i, NodeSteps env ledger (blocks i) (states i) (blocks (i + 1)) (states (i + 1))

section Node

variable {env : NodeEnv} {ledger : Ledger} {ctx ctx' : BlockContext} {db db' : Db}
  {blocks : Nat → BlockContext} {states : Nat → Db}

theorem Db.SameOffers.evolves (h : db'.SameOffers db) : db.Evolves db' :=
  ⟨fun _ hoffer => .inl (h.offerFile ▸ hoffer), h.history ▸ List.Subset.refl _⟩

theorem Db.evolves_archiveOffers (db : Db) (isMatched : OfferFile → Bool) (reason : ArchiveReason)
    (archivedAt : Int) : db.Evolves (db.archiveOffers isMatched reason archivedAt) where
  live offer hoffer := by
    by_cases hmatched : isMatched offer = true
    · refine .inr ⟨⟨offer, reason, archivedAt⟩, List.mem_append_right _ ?_, rfl⟩
      exact List.mem_map_of_mem (List.mem_filter.mpr ⟨hoffer, hmatched⟩)
    · refine .inl (List.mem_filter.mpr ⟨hoffer, ?_⟩)
      rw [Bool.eq_false_iff.mpr hmatched]
      rfl
  archived := List.subset_append_left _ _

theorem processInput_evolves {input : NodeInput}
    (hstep : processInput env ledger ctx db input = .ok db') : db.Evolves db' := by
  rcases processInput_offers hstep with hsame | ⟨isMatched, reason, archivedAt, hsame⟩ |
    ⟨rawBytes, result, expiresAt, firstSeenAt, saved, haccepts, -, hsame⟩
  · exact hsame.evolves
  · exact (db.evolves_archiveOffers isMatched reason archivedAt).trans hsame.evolves
  · refine Db.Evolves.trans ?_ hsame.evolves
    obtain ⟨tokens, rfl⟩ := saveOfferFile_ok haccepts.saved
    exact ⟨fun offer hoffer => .inl (List.mem_append_left _ hoffer), List.Subset.refl _⟩

theorem NodeSteps.evolves (h : NodeSteps env ledger ctx db ctx' db') : db.Evolves db' := by
  induction h with
  | refl => exact .refl _
  | block _ _ _ ih => exact ih
  | input _ input hstep ih => exact ih.trans (processInput_evolves hstep)

/-- Every hash is that of a blob. -/
theorem NodeRun.hashes (h : NodeRun env ledger ctx db) :
    ∀ offerHash ∈ db.offerHashes, ∃ rawBytes, offerHash = ledger.sha256 rawBytes := by
  induction h with
  | start ctx => exact fun _ hmem => absurd hmem List.not_mem_nil
  | block _ _ _ ih => exact ih
  | input _ input hstep ih =>
    rcases processInput_offers hstep with hsame | ⟨isMatched, reason, archivedAt, hsame⟩ |
      ⟨rawBytes, result, expiresAt, firstSeenAt, saved, haccepts, -, hsame⟩
    · rwa [hsame.offerHashes]
    · rw [hsame.offerHashes]
      intro offerHash hmem
      refine ih offerHash ?_
      exact (Db.map_archiveOffers (·.offerHash) _ isMatched reason archivedAt).mem_iff.mp hmem
    · rw [hsame.offerHashes]
      obtain ⟨tokens, rfl⟩ := saveOfferFile_ok haccepts.saved
      intro offerHash hmem
      unfold Db.offerHashes at hmem ih
      simp only [List.map_append, List.mem_append, List.map_cons, List.map_nil,
        List.mem_singleton] at hmem ih
      rcases hmem with (hold | rfl) | hold
      · exact ih offerHash (.inl hold)
      · exact ⟨rawBytes, rfl⟩
      · exact ih offerHash (.inr hold)

/-- **The states of the node**, where `sha256` is 64 lower-case hex digits. -/
theorem NodeTimeline.bookTimeline (h : NodeTimeline env ledger blocks states)
    (hsha : ∀ rawBytes, canonicalCursor (ledger.sha256 rawBytes) = true) : BookTimeline states := by
  have hrun : ∀ i, NodeRun env ledger (blocks i) (states i) := by
    intro i
    induction i with
    | zero => exact h.run
    | succ i ih => exact (h.steps i).run ih
  refine ⟨fun i => ⟨(hrun i).identity.hashes, fun offerHash hmem => ?_⟩,
    fun i => (h.steps i).evolves⟩
  obtain ⟨rawBytes, rfl⟩ := (hrun i).hashes offerHash hmem
  exact hsha rawBytes

end Node

end ZswapKernel
