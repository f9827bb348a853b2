import ZswapKernel.Lib.Double
import ZswapKernel.Node.OffersPage
import ZswapKernel.Solver.Book

/-!
# The walk of the whole book

`fetchWholeBook` of `packages/solver/src/book-sync.ts`, with the parser of the rows in
`packages/solver/src/book.ts`, against the node whose offers come and go between the queries.

* `Served.full`, `Served.last` — one page.
* `readPages_ok`, `readPages_error` — the rest of the walk.
* `fetchWholeBook_complete` — what the walk returns, and when it throws.

Left out: deadlines and failures of the requests.
-/

namespace ZswapKernel

/-! ## Rows -/

/-- `/^[1-9][0-9]*$/`. -/
def positiveDecimal (value : String) : Bool :=
  match value.toList with
  | [] => false
  | c :: digits => ('1' ≤ c && c ≤ '9') && digits.all fun c => '0' ≤ c && c ≤ '9'

def ValueLayer.legKind : ValueLayer → LegKind
  | .shielded => .shielded
  | .unshielded => .unshielded

def parseTokenLeg (leg : OfferLeg) : Option LadderSourceLeg :=
  if !hex64 leg.token then none
  else if !positiveDecimal leg.amount then none
  else some { token := toLowerCase leg.token, amount := bigInt leg.amount, kind := leg.kind.legKind }

def bookOfferFromApi (row : ApiZswap) : Option BookOffer :=
  if !hex64 row.offerId then none
  else if row.inputNullifiers.any (!hex64 ·) then none
  else do
    let gives ← row.gives.mapM parseTokenLeg
    let wants ← row.wants.mapM parseTokenLeg
    return {
      offerHash := toLowerCase row.offerId
      gives := gives
      wants := wants
      expiresAt := some row.expiresAt
      firstSeenAt := some row.firstSeenAt
      inputNullifiers := row.inputNullifiers.map toLowerCase }

/-! ## The walk -/

structure SnapshotLimits where
  maxPages : Option Double := none
  maxOffers : Option Double := none

def DEFAULT_MAX_SNAPSHOT_PAGES : Double := .finite 100

def DEFAULT_MAX_SNAPSHOT_OFFERS : Double := .finite 10000

inductive SnapshotError
  /-- `${name} must be a positive safe integer, got ${value}`. -/
  | invalidLimit (name : String) (value : Double)
  /-- `offer snapshot exceeded ${maxPages} pages`. -/
  | exceededPages (maxPages : Nat)
  /-- `offer snapshot exceeded ${maxOffers} rows`. -/
  | exceededRows (maxOffers : Nat)
  /-- `offer snapshot returned a non-canonical nextCursor`. -/
  | nonCanonicalCursor
  /-- `offer snapshot cursor cycle at ${nextCursor}`. -/
  | cursorCycle (nextCursor : String)
  /-- The request failed. -/
  | request (reason : String)
  deriving DecidableEq, Repr

/-- `Number.isSafeInteger(value) && value > 0`, with the integer. -/
def positiveSafeInteger : Double → Option Nat
  | .finite value =>
    if value.den = 1 ∧ 0 < value.num ∧ value.num < 2 ^ 53 then some value.num.toNat else none
  | .nan | .infinity _ => none

def requireLimit (name : String) (value : Double) : Except SnapshotError Nat :=
  match positiveSafeInteger value with
  | some limit => .ok limit
  | none => .error (.invalidLimit name value)

structure SnapshotWalk where
  offers : List BookOffer := []
  seenCursors : List String := []
  cursor : Option String := none
  pages : Nat := 0
  rows : Nat := 0

/-- The loop, which may read `left` more of the `maxPages` pages. -/
def readPages (getZswapsPage : Nat → Option String → Except String ApiZswapsPage)
    (maxPages maxOffers : Nat) : Nat → SnapshotWalk → Except SnapshotError (List BookOffer)
  | 0, _ => .error (.exceededPages maxPages)
  | left + 1, walk =>
    match getZswapsPage walk.pages walk.cursor with
    | .error reason => .error (.request reason)
    | .ok page =>
      let rows := walk.rows + page.offers.length
      if maxOffers < rows then .error (.exceededRows maxOffers)
      else
        let offers := walk.offers ++ page.offers.filterMap bookOfferFromApi
        match page.nextCursor with
        | none => .ok offers
        | some nextCursor =>
          if nextCursor = "" then .ok offers
          else if !canonicalCursor nextCursor then .error .nonCanonicalCursor
          else if walk.seenCursors.contains nextCursor then .error (.cursorCycle nextCursor)
          else readPages getZswapsPage maxPages maxOffers left {
            offers := offers
            seenCursors := nextCursor :: walk.seenCursors
            cursor := some nextCursor
            pages := walk.pages + 1
            rows := rows }

/-- `limits.maxPages ?? DEFAULT_MAX_SNAPSHOT_PAGES`. -/
def SnapshotLimits.pagesLimit (limits : SnapshotLimits) : Double :=
  limits.maxPages.getD DEFAULT_MAX_SNAPSHOT_PAGES

/-- `limits.maxOffers ?? DEFAULT_MAX_SNAPSHOT_OFFERS`. -/
def SnapshotLimits.offersLimit (limits : SnapshotLimits) : Double :=
  limits.maxOffers.getD DEFAULT_MAX_SNAPSHOT_OFFERS

def fetchWholeBook (getZswapsPage : Nat → Option String → Except String ApiZswapsPage)
    (limits : SnapshotLimits) : Except SnapshotError (List BookOffer) := do
  let maxPages ← requireLimit "maxPages" limits.pagesLimit
  let maxOffers ← requireLimit "maxOffers" limits.offersLimit
  readPages getZswapsPage maxPages maxOffers maxPages {}

/-! ## The node's answers -/

/-- The states that the request for a page sees. -/
def pageStates (states : Nat → Db) (i : Nat) : PageStates where
  cursor := states (4 * i)
  page := states (4 * i + 1)
  legs := states (4 * i + 2)
  nullifiers := states (4 * i + 3)

/-- `getZswapsPage({ limit: PAGE_LIMIT, after_hash: cursor })`. -/
def serveBook (states : Nat → Db) (i : Nat) (cursor : Option String) :
    Except String ApiZswapsPage :=
  listOffers (pageStates states i) (some 100) "" none (cursor.getD "")

/-- The row of a page, parsed. -/
def parsedRow (states : Nat → Db) (row : Nat × OfferFile) : Option BookOffer :=
  bookOfferFromApi ((pageStates states row.1).toApi row.2)

/-- The tables that the pages were read from, the last first. -/
def pageTables (states : Nat → Db) : Nat → List (List OfferFile)
  | 0 => []
  | pages + 1 => (states (4 * pages + 1)).offerFile :: pageTables states pages

/-- Distinct offers, each live when one of the pages was read. -/
structure ReadLive (states : Nat → Db) (pages : Nat) (served : List (Nat × OfferFile)) : Prop where
  distinct : served.Pairwise fun row other => row.2.offerHash ≠ other.2.offerHash
  live : ∀ row ∈ served, row.1 < pages ∧ row.2 ∈ (states (4 * row.1 + 1)).offerFile

/-- The offers are the rows of the pages that the parser accepts: none twice, and each offer that is
live throughout. -/
structure WholeBook (states : Nat → Db) (pages : Nat) (offers : List BookOffer) : Prop where
  distinct : (offers.map (·.offerHash)).Nodup
  sound : ∀ parsed ∈ offers, ∃ i < pages, ∃ offer ∈ (states (4 * i + 1)).offerFile,
    parsedRow states (i, offer) = some parsed
  complete : ∀ offer, (∀ i < 4 * pages, offer ∈ (states i).offerFile) →
    ∃ i < pages, ∀ parsed, parsedRow states (i, offer) = some parsed → parsed ∈ offers

/-- Full pages served the rows, up to the key. -/
structure Served (states : Nat → Db) (walk : SnapshotWalk) (served : List (Nat × OfferFile))
    (after : Option (Nat ×ₗ String)) : Prop where
  walked : Keyset.Walked OfferFile.pageKey (pageTables states walk.pages) (served.map (·.2)) after
  live : ∀ row ∈ served, row.1 < walk.pages ∧ row.2 ∈ (states (4 * row.1 + 1)).offerFile
  offers : walk.offers = served.filterMap (parsedRow states)
  cursor : (walk.cursor = none ∧ after = none) ∨
    ∃ row ∈ served, walk.cursor = some row.2.offerHash ∧ after = some row.2.pageKey
  seenCursors : ∀ cursor ∈ walk.seenCursors, ∃ row ∈ served, row.2.offerHash = cursor
  rows : walk.rows = served.length
  full : served.length = 100 * walk.pages

theorem toLowerCase_of_canonicalCursor {value : String} (h : canonicalCursor value = true) :
    toLowerCase value = value := by
  unfold canonicalCursor at h
  rw [Bool.and_eq_true, List.all_eq_true] at h
  unfold toLowerCase
  have hlower : value.toList.map Char.toLower = value.toList := by
    refine (List.map_congr_left fun c hc => ?_).trans (List.map_id _)
    have hdigit := h.2 c hc
    simp only [Bool.or_eq_true, Bool.and_eq_true, decide_eq_true_eq, Char.le_def,
      UInt32.le_iff_toNat_le] at hdigit
    rw [id, ← Char.toNat_inj, toNat_toLower, if_neg]
    rintro ⟨hle, hge⟩
    rcases hdigit with ⟨-, h9⟩ | ⟨ha, -⟩
    · exact absurd (hle.trans h9) (by decide)
    · exact absurd (ha.trans hge) (by decide)
  rw [hlower, String.ofList_toList]

theorem ne_empty_of_canonicalCursor {value : String} (h : canonicalCursor value = true) :
    value ≠ "" := by
  rintro rfl
  exact absurd h (by decide)

section Walk

variable {states : Nat → Db} {walk : SnapshotWalk} {served : List (Nat × OfferFile)}
  {after : Option (Nat ×ₗ String)} {maxPages maxOffers : Nat}

/-- The rows after the key, with the page that reads them. -/
def pageRows (states : Nat → Db) (pages : Nat) (after : Option (Nat ×ₗ String)) :
    List OfferFile :=
  Keyset.pageAfter OfferFile.pageKey 100 after (states (4 * pages + 1)).offerFile

theorem serveBook_of_anchor {i : Nat} {cursor : Option String}
    (h : (pageStates states i).anchor (toLowerCase (cursor.getD "")) = .ok after) :
    serveBook states i cursor = .ok {
      offers := (pageRows states i after).map (pageStates states i).toApi
      nextCursor := if (pageRows states i after).length = 100
        then (pageRows states i after).getLast?.map (·.offerHash) else none } := by
  have hpage : (pageStates states i).page.getOpenOffersPage "" none (pageLimit (some 100)) after =
      pageRows states i after := by
    unfold Db.getOpenOffersPage Db.offersWith pageRows
    rw [List.filter_eq_self.mpr fun _ _ => by simp]
    rfl
  unfold serveBook listOffers
  rw [h]
  simp only [bind, Except.bind, pure, Except.pure, hpage]
  rfl

theorem ReadLive.mono {pages pages' : Nat} (h : ReadLive states pages served)
    (hle : pages ≤ pages') : ReadLive states pages' served :=
  ⟨h.distinct, fun row hrow => ⟨(h.live row hrow).1.trans_le hle, (h.live row hrow).2⟩⟩

theorem mem_pageTables {pages : Nat} {offer : OfferFile}
    (h : ∀ i < 4 * pages, offer ∈ (states i).offerFile) :
    ∀ rows ∈ pageTables states pages, offer ∈ rows := by
  induction pages with
  | zero => exact fun _ hmem => absurd hmem List.not_mem_nil
  | succ pages ih =>
    intro rows hmem
    rcases List.mem_cons.mp hmem with rfl | hmem
    · exact h _ (by omega)
    · exact ih (fun i hi => h i (by omega)) rows hmem

/-- The rows so far, with those of the page. -/
theorem Served.live_page (h : Served states walk served after) :
    ∀ row ∈ served ++ (pageRows states walk.pages after).map (walk.pages, ·),
      row.1 < walk.pages + 1 ∧ row.2 ∈ (states (4 * row.1 + 1)).offerFile := by
  intro row hrow
  rcases List.mem_append.mp hrow with hrow | hrow
  · exact ⟨Nat.lt_succ_of_lt (h.live row hrow).1, (h.live row hrow).2⟩
  · obtain ⟨offer, hoffer, rfl⟩ := List.mem_map.mp hrow
    exact ⟨Nat.lt_succ_self _, (Keyset.mem_pageAfter hoffer).1⟩

theorem Served.offers_page (h : Served states walk served after) :
    walk.offers ++ ((pageRows states walk.pages after).map
        (pageStates states walk.pages).toApi).filterMap bookOfferFromApi =
      (served ++ (pageRows states walk.pages after).map (walk.pages, ·)).filterMap
        (parsedRow states) := by
  rw [List.filterMap_append, h.offers, List.filterMap_map, List.filterMap_map]
  rfl

variable (hstates : BookTimeline states)
include hstates

theorem BookTimeline.canonical {offer : OfferFile} {i : Nat}
    (h : offer ∈ (states i).offerFile) : canonicalCursor offer.offerHash = true :=
  (hstates.keyed i).canonical _ (List.mem_append_left _ (List.mem_map_of_mem h))

/-- Keys that descend are those of distinct offers. -/
theorem BookTimeline.readLive {pages : Nat}
    (hlive : ∀ row ∈ served, row.1 < pages ∧ row.2 ∈ (states (4 * row.1 + 1)).offerFile)
    (hsorted : (served.map (·.2)).Pairwise (·.pageKey > ·.pageKey)) :
    ReadLive states pages served where
  live := hlive
  distinct := by
    refine (List.pairwise_map.mp hsorted).imp_of_mem fun {row other} hrow hother hlt heq => ?_
    have hsame : row.2 = other.2 :=
      hstates.eq_of_hash (hlive other hother).2 (hlive row hrow).2 heq
    rw [hsame] at hlt
    exact lt_irrefl _ hlt

theorem parsedRow_offerHash {row : Nat × OfferFile} {i : Nat} {parsed : BookOffer}
    (hrow : row.2 ∈ (states i).offerFile) (h : parsedRow states row = some parsed) :
    parsed.offerHash = row.2.offerHash := by
  unfold parsedRow bookOfferFromApi at h
  split at h
  · cases h
  · split at h
    · cases h
    · simp only [Option.bind_eq_bind, Option.bind_eq_some_iff, Option.pure_def,
        Option.some.injEq] at h
      obtain ⟨gives, -, wants, -, rfl⟩ := h
      exact toLowerCase_of_canonicalCursor (hstates.canonical hrow)

/-- The parsed rows of distinct offers. -/
theorem ReadLive.distinct_parsed {pages : Nat} (h : ReadLive states pages served) :
    ((served.filterMap (parsedRow states)).map (·.offerHash)).Nodup := by
  rw [List.Nodup, List.pairwise_map, List.pairwise_filterMap]
  refine h.distinct.imp_of_mem fun {row other} hrow hother hne parsed hparsed parsed' hparsed' => ?_
  rw [parsedRow_offerHash hstates (h.live row hrow).2 hparsed,
    parsedRow_offerHash hstates (h.live other hother).2 hparsed']
  exact hne

/-! ### One page -/

section Page

variable (h : Served states walk served after)
include h

theorem Served.anchor :
    (pageStates states walk.pages).anchor (toLowerCase (walk.cursor.getD "")) = .ok after := by
  unfold PageStates.anchor
  rcases h.cursor with ⟨hcursor, rfl⟩ | ⟨row, hrow, hcursor, rfl⟩
  · rw [hcursor]
    rfl
  · obtain ⟨hpage, hoffer⟩ := h.live row hrow
    have hcanonical := hstates.canonical hoffer
    have hresolve : (pageStates states walk.pages).cursor.resolveOfferCursor row.2.offerHash =
        some row.2.pageKey := hstates.resolveOfferCursor hoffer (by omega)
    rw [hcursor, Option.getD_some, toLowerCase_of_canonicalCursor hcanonical,
      if_neg (ne_empty_of_canonicalCursor hcanonical), if_pos hcanonical, hresolve]

theorem Served.readLive_page : ReadLive states (walk.pages + 1)
    (served ++ (pageRows states walk.pages after).map (walk.pages, ·)) := by
  refine hstates.readLive h.live_page ?_
  rw [List.map_append, List.map_map, Function.comp_def, List.map_id']
  exact h.walked.sorted_append (hstates.keyed _).pageKeys

/-- **The page that is not full** completes the book. -/
theorem Served.last (hshort : (pageRows states walk.pages after).length < 100) :
    WholeBook states (walk.pages + 1)
      ((served ++ (pageRows states walk.pages after).map (walk.pages, ·)).filterMap
        (parsedRow states)) where
  distinct := (h.readLive_page hstates).distinct_parsed hstates
  sound parsed hparsed := by
    obtain ⟨row, hrow, hparse⟩ := List.mem_filterMap.mp hparsed
    obtain ⟨hpage, hoffer⟩ := h.live_page row hrow
    exact ⟨row.1, hpage, row.2, hoffer, hparse⟩
  complete offer hlive := by
    have hread := h.walked.last hshort (mem_pageTables hlive)
    have hserved : ∃ row ∈ served ++ (pageRows states walk.pages after).map (walk.pages, ·),
        row.2 = offer := by
      rcases List.mem_append.mp hread with hread | hread
      · obtain ⟨row, hrow, heq⟩ := List.mem_map.mp hread
        exact ⟨row, List.mem_append_left _ hrow, heq⟩
      · exact ⟨_, List.mem_append_right _ (List.mem_map_of_mem hread), rfl⟩
    obtain ⟨row, hrow, rfl⟩ := hserved
    exact ⟨row.1, (h.live_page row hrow).1,
      fun parsed hparse => List.mem_filterMap.mpr ⟨row, hrow, hparse⟩⟩

/-- A full page ends with an offer whose hash is not a cursor yet. -/
theorem Served.fresh {last : OfferFile}
    (hlast : (pageRows states walk.pages after).getLast? = some last) :
    last.offerHash ∉ walk.seenCursors := by
  intro hseen
  obtain ⟨row, hrow, hhash⟩ := h.seenCursors _ hseen
  have hne := (List.pairwise_append.mp (h.readLive_page hstates).distinct).2.2 row hrow
    (walk.pages, last) (List.mem_map_of_mem (List.mem_of_getLast? hlast))
  exact hne hhash

/-- **A full page.** -/
theorem Served.page {last : OfferFile} (hfull : (pageRows states walk.pages after).length = 100)
    (hlast : (pageRows states walk.pages after).getLast? = some last) :
    Served states {
        offers := walk.offers ++ ((pageRows states walk.pages after).map
          (pageStates states walk.pages).toApi).filterMap bookOfferFromApi
        seenCursors := last.offerHash :: walk.seenCursors
        cursor := some last.offerHash
        pages := walk.pages + 1
        rows := walk.rows + 100 }
      (served ++ (pageRows states walk.pages after).map (walk.pages, ·)) (some last.pageKey) where
  walked := by
    rw [List.map_append, List.map_map, Function.comp_def, List.map_id']
    exact h.walked.page (hstates.keyed _).pageKeys hlast
  live := h.live_page
  offers := h.offers_page
  cursor := .inr ⟨(walk.pages, last),
    List.mem_append_right _ (List.mem_map_of_mem (List.mem_of_getLast? hlast)), rfl, rfl⟩
  seenCursors cursor hcursor := by
    rcases List.mem_cons.mp hcursor with rfl | hcursor
    · exact ⟨(walk.pages, last),
        List.mem_append_right _ (List.mem_map_of_mem (List.mem_of_getLast? hlast)), rfl⟩
    · obtain ⟨row, hrow, hhash⟩ := h.seenCursors cursor hcursor
      exact ⟨row, List.mem_append_left _ hrow, hhash⟩
  rows := by rw [List.length_append, List.length_map, hfull, h.rows]
  full := by rw [List.length_append, List.length_map, hfull, h.full, Nat.mul_succ]

end Page

/-! ### The loop -/

/-- One turn of the loop: it throws, or it returns, or it goes on after a full page. -/
theorem Served.readPages_succ (h : Served states walk served after) (left : Nat) :
    (maxOffers < walk.rows + (pageRows states walk.pages after).length ∧
      readPages (serveBook states) maxPages maxOffers (left + 1) walk =
        .error (.exceededRows maxOffers)) ∨
    (∃ offers, WholeBook states (walk.pages + 1) offers ∧
      readPages (serveBook states) maxPages maxOffers (left + 1) walk = .ok offers) ∨
    ∃ walk' served' after', Served states walk' served' after' ∧ walk'.pages = walk.pages + 1 ∧
      readPages (serveBook states) maxPages maxOffers (left + 1) walk =
        readPages (serveBook states) maxPages maxOffers left walk' := by
  rw [readPages, serveBook_of_anchor (h.anchor hstates)]
  simp only [List.length_map]
  by_cases hrows : maxOffers < walk.rows + (pageRows states walk.pages after).length
  · exact .inl ⟨hrows, if_pos hrows⟩
  rw [if_neg hrows]
  by_cases hfull : (pageRows states walk.pages after).length = 100
  · cases hlast : (pageRows states walk.pages after).getLast? with
    | none =>
      rw [List.getLast?_eq_none_iff.mp hlast] at hfull
      cases hfull
    | some last =>
      have hcanonical := hstates.canonical (Keyset.mem_pageAfter (List.mem_of_getLast? hlast)).1
      have hfresh : walk.seenCursors.contains last.offerHash = false := by
        rw [← Bool.not_eq_true, List.contains_iff_mem]
        exact h.fresh hstates hlast
      refine .inr (.inr ⟨_, _, _, h.page hstates hfull hlast, rfl, ?_⟩)
      simp only [hfull, if_true, Option.map_some, if_neg (ne_empty_of_canonicalCursor hcanonical),
        hcanonical, Bool.not_true, Bool.false_eq_true, if_false, hfresh]
  · have hshort : (pageRows states walk.pages after).length < 100 :=
      lt_of_le_of_ne Keyset.length_pageAfter_le hfull
    rw [if_neg hfull, h.offers_page]
    exact .inr (.inl ⟨_, h.last hstates hshort, rfl⟩)

/-- What the rest of the walk returns. -/
theorem readPages_ok {left : Nat} {offers : List BookOffer} (h : Served states walk served after)
    (hok : readPages (serveBook states) maxPages maxOffers left walk = .ok offers) :
    ∃ pages ≤ walk.pages + left, WholeBook states pages offers := by
  induction left generalizing walk served after with
  | zero => cases hok
  | succ left ih =>
    rcases h.readPages_succ hstates left with ⟨-, hstep⟩ | ⟨book, hbook, hstep⟩ |
      ⟨walk', served', after', hserved, hpages, hstep⟩ <;> rw [hstep] at hok
    · cases hok
    · cases hok
      exact ⟨walk.pages + 1, by omega, hbook⟩
    · obtain ⟨pages, hle, hbook⟩ := ih hserved hok
      exact ⟨pages, by omega, hbook⟩

/-- When the rest of the walk throws: it has read a full page too many, or a row too many. -/
theorem readPages_error {left : Nat} {error : SnapshotError}
    (h : Served states walk served after)
    (herror : readPages (serveBook states) maxPages maxOffers left walk = .error error) :
    ∃ rows, ReadLive states (walk.pages + left) rows ∧
      (error = .exceededPages maxPages ∧ rows.length = 100 * (walk.pages + left) ∨
        error = .exceededRows maxOffers ∧ maxOffers < rows.length) := by
  induction left generalizing walk served after with
  | zero =>
    cases herror
    exact ⟨served, hstates.readLive h.live h.walked.sorted, .inl ⟨rfl, h.full⟩⟩
  | succ left ih =>
    rcases h.readPages_succ hstates left with ⟨hrows, hstep⟩ | ⟨book, hbook, hstep⟩ |
      ⟨walk', served', after', hserved, hpages, hstep⟩ <;> rw [hstep] at herror
    · cases herror
      refine ⟨_, (h.readLive_page hstates).mono (by omega), .inr ⟨rfl, ?_⟩⟩
      rwa [List.length_append, List.length_map, ← h.rows]
    · cases herror
    · have hleft : walk'.pages + left = walk.pages + (left + 1) := by omega
      have hrest := ih hserved herror
      rwa [hleft] at hrest

end Walk

/-! ## The whole walk -/

/-- Why a walk throws: a limit is not valid, or the pages held too many distinct offers. -/
def SnapshotLimits.Throws (limits : SnapshotLimits) (states : Nat → Db) : SnapshotError → Prop
  | .invalidLimit name value => positiveSafeInteger value = none ∧
      (name = "maxPages" ∧ value = limits.pagesLimit ∨
        name = "maxOffers" ∧ value = limits.offersLimit)
  | .exceededPages maxPages => positiveSafeInteger limits.pagesLimit = some maxPages ∧
      ∃ rows, ReadLive states maxPages rows ∧ rows.length = 100 * maxPages
  | .exceededRows maxOffers => positiveSafeInteger limits.offersLimit = some maxOffers ∧
      ∃ pages rows, ReadLive states pages rows ∧ maxOffers < rows.length
  | .nonCanonicalCursor | .cursorCycle _ | .request _ => False

theorem requireLimit_ok {name : String} {value : Double} {limit : Nat}
    (h : requireLimit name value = .ok limit) : positiveSafeInteger value = some limit := by
  unfold requireLimit at h
  split at h
  · rename_i hlimit
    rw [hlimit, Except.ok.inj h]
  · cases h

theorem requireLimit_error {name : String} {value : Double} {error : SnapshotError}
    (h : requireLimit name value = .error error) :
    positiveSafeInteger value = none ∧ error = .invalidLimit name value := by
  unfold requireLimit at h
  split at h
  · cases h
  · rename_i hlimit
    exact ⟨hlimit, (Except.error.inj h).symm⟩

theorem Served.start (states : Nat → Db) : Served states {} [] none where
  walked := .start
  live := fun _ hmem => absurd hmem List.not_mem_nil
  offers := rfl
  cursor := .inl ⟨rfl, rfl⟩
  seenCursors := fun _ hmem => absurd hmem List.not_mem_nil
  rows := rfl
  full := rfl

/-- **The whole book.** Whatever comes and goes between the queries, the walk ends with every offer
that is live throughout, none twice, within `maxPages` pages; or it throws for one of its limits. -/
theorem fetchWholeBook_complete {states : Nat → Db} (hstates : BookTimeline states)
    (limits : SnapshotLimits) :
    match fetchWholeBook (serveBook states) limits with
    | .ok offers => ∃ maxPages, positiveSafeInteger limits.pagesLimit = some maxPages ∧
        ∃ pages ≤ maxPages, WholeBook states pages offers
    | .error error => limits.Throws states error := by
  unfold fetchWholeBook
  cases hpages : requireLimit "maxPages" limits.pagesLimit with
  | error error =>
    obtain ⟨hinvalid, rfl⟩ := requireLimit_error hpages
    exact ⟨hinvalid, .inl ⟨rfl, rfl⟩⟩
  | ok maxPages =>
    cases hoffers : requireLimit "maxOffers" limits.offersLimit with
    | error error =>
      obtain ⟨hinvalid, rfl⟩ := requireLimit_error hoffers
      exact ⟨hinvalid, .inr ⟨rfl, rfl⟩⟩
    | ok maxOffers =>
      show match readPages (serveBook states) maxPages maxOffers maxPages {} with
        | .ok offers => _
        | .error error => _
      cases hread : readPages (serveBook states) maxPages maxOffers maxPages {} with
      | ok offers =>
        obtain ⟨pages, hle, hbook⟩ := readPages_ok hstates (.start states) hread
        rw [Nat.zero_add] at hle
        exact ⟨maxPages, requireLimit_ok hpages, pages, hle, hbook⟩
      | error error =>
        obtain ⟨rows, hrows, ⟨rfl, hcount⟩ | ⟨rfl, hcount⟩⟩ :=
          readPages_error hstates (.start states) hread <;> rw [Nat.zero_add] at hrows
        · rw [Nat.zero_add] at hcount
          exact ⟨requireLimit_ok hpages, rows, hrows, hcount⟩
        · exact ⟨requireLimit_ok hoffers, maxPages, rows, hrows, hcount⟩

/-! ### Two offers -/

def restingOffer : OfferFile where
  id := 1
  celestiaHeight := 7
  transactionHex := ""
  offerHash := String.ofList (List.replicate 64 'a')
  metadataCreatedAt := 0
  metadataExpiresAt := 1000
  firstSeenAt := 0
  ttlSeconds := 1

/-- Another offer of the same height. -/
def takenOffer : OfferFile :=
  { restingOffer with id := 2, offerHash := String.ofList (List.replicate 64 'b') }

def restingBook : Db := { offerFile := [restingOffer, takenOffer] }

/-- The offer is taken after the page was read. -/
def takenStates (i : Nat) : Db :=
  if i < 2 then restingBook else restingBook.archiveOffers (·.id = 2) .consumed 0

/-- The row of an offer without legs. -/
def restingRow (offer : OfferFile) : BookOffer where
  offerHash := offer.offerHash
  gives := []
  wants := []
  expiresAt := some 1000
  inputNullifiers := []
  firstSeenAt := some 0

theorem restingBook_keyed : restingBook.Keyed := ⟨by decide +kernel, by decide +kernel⟩

theorem takenStates_timeline : BookTimeline takenStates where
  keyed i := by
    unfold takenStates
    split_ifs
    · exact restingBook_keyed
    · exact ⟨by decide +kernel, by decide +kernel⟩
  evolves i := by
    unfold takenStates
    split_ifs
    · exact .refl _
    · exact Db.evolves_archiveOffers _ _ _ _
    · omega
    · exact .refl _

theorem fetchWholeBook_complete_taken :
    ∃ maxPages, positiveSafeInteger (.finite 100) = some maxPages ∧
      ∃ pages ≤ maxPages, WholeBook takenStates pages
        [restingRow takenOffer, restingRow restingOffer] := by
  have hwalk : fetchWholeBook (serveBook takenStates) {} =
      .ok [restingRow takenOffer, restingRow restingOffer] := by decide +kernel
  have hbook := fetchWholeBook_complete takenStates_timeline {}
  rw [hwalk] at hbook
  exact hbook

/-- An offer with a leg that the parser refuses. -/
def refusedBook : Db where
  offerFile := [restingOffer]
  tokens := [⟨1, { token := "", amount := "0", kind := .shielded, direction := .giving }⟩]

theorem refusedBook_keyed : refusedBook.Keyed := ⟨by decide +kernel, by decide +kernel⟩

/-- Both offers are live throughout, and the walk throws; the offer is live throughout, and the walk
skips its row. -/
theorem fetchWholeBook_limits :
    (BookTimeline (fun _ => restingBook) ∧
      fetchWholeBook (serveBook fun _ => restingBook) { maxOffers := some (.finite 1) } =
        .error (.exceededRows 1)) ∧
    BookTimeline (fun _ => refusedBook) ∧
      fetchWholeBook (serveBook fun _ => refusedBook) {} = .ok [] :=
  ⟨⟨.const restingBook_keyed, by decide +kernel⟩, .const refusedBook_keyed, by decide +kernel⟩

end ZswapKernel
