import ZswapKernel.Lib.Buckets
import ZswapKernel.Solver.ExactFiles
import ZswapKernel.Solver.StockRuns

/-!
# The indices of the offer book

`Book` of `packages/solver/src/book.ts` whole: the offers by hash, the hashes by nullifier and the
hashes by directed pair, through any sequence of its operations.

The copy of an offer that the book keeps lists every nullifier once, in lower case. `resync` compares
that copy with the snapshot's own list, so an offer that repeats a nullifier counts as updated though
nothing about it changed.

* `indexed_run` — the indices list the offers of the book, after any run.
* `resync_offers` — the offers after a resync.
* `book_indices` — the indices, `removeByNullifier` and `resync`, after any run.
-/

namespace ZswapKernel

/-! ## The book and its indices -/

/-- `isSingleLeg`. -/
def BookOffer.isSingleLeg (offer : BookOffer) : Bool :=
  offer.gives.length = 1 && offer.wants.length = 1

/-- `pairKey`. -/
def pairKey (tokenIn tokenOut : String) : String :=
  toLowerCase tokenIn ++ "|" ++ toLowerCase tokenOut

/-- The key of the pair of a single-leg offer. -/
def BookOffer.pairKeys (offer : BookOffer) : List String :=
  if offer.isSingleLeg then
    List.zipWith (fun give want => pairKey give.token want.token) offer.gives offer.wants
  else []

/-- `Book`. -/
structure IndexedBook where
  byHash : Book := .empty
  hashesByNullifier : Buckets String String := .empty
  byPair : Buckets String String := .empty

namespace IndexedBook

/-- `#unindex`. -/
def unindex (book : IndexedBook) (hash : String) : IndexedBook :=
  match book.byHash.get hash with
  | none => book
  | some existing =>
    { book with
      hashesByNullifier := book.hashesByNullifier.unlinkAll hash existing.inputNullifiers
      byPair := book.byPair.unlinkAll hash existing.pairKeys }

def upsert (book : IndexedBook) (offer : BookOffer) : IndexedBook :=
  let hash := toLowerCase offer.offerHash
  let book := if (book.byHash.get hash).isSome then book.unindex hash else book
  let stored := offer.stored
  { byHash := book.byHash.upsert offer
    hashesByNullifier := book.hashesByNullifier.linkAll hash stored.inputNullifiers
    byPair := book.byPair.linkAll hash stored.pairKeys }

/-- `remove`, without its answer. -/
def remove (book : IndexedBook) (offerHash : String) : IndexedBook :=
  let hash := toLowerCase offerHash
  if (book.byHash.get hash).isNone then book
  else { book.unindex hash with byHash := book.byHash.remove hash }

/-- `removeByNullifier`, with the hashes it removed. -/
def removeByNullifier (book : IndexedBook) (nullifier : String) : IndexedBook × List String :=
  let hashes := book.hashesByNullifier.bucket (toLowerCase nullifier)
  (hashes.foldl remove book, hashes)

/-- The offer is at its margin or past it. -/
def expires (nowMs marginSeconds : Int) (offer : BookOffer) : Bool :=
  match offer.expiresAt with
  | none => false
  | some expiresAt => expiresAt - marginSeconds * 1000 ≤ nowMs

/-- `sweepExpired`, with the hashes it removed. -/
def sweepExpired (book : IndexedBook) (nowMs marginSeconds : Int) : IndexedBook × List String :=
  let removed := (book.byHash.all.filter (expires nowMs marginSeconds)).map (·.offerHash)
  (removed.foldl remove book, removed)

structure ResyncDiff where
  added : List String
  removed : List String
  updated : List String

/-- `${leg.kind}:${leg.token}:${leg.amount}`. -/
def projectionText (leg : LadderSourceLeg) : String :=
  leg.kind.text ++ ":" ++ leg.token ++ ":" ++ decimal leg.amount

/-- `sameOfferProjection`. -/
def sameOfferProjection (left right : BookOffer) : Bool :=
  toLowerCase left.offerHash = toLowerCase right.offerHash &&
  legsText (left.gives.map projectionText) = legsText (right.gives.map projectionText) &&
  legsText (left.wants.map projectionText) = legsText (right.wants.map projectionText) &&
  left.expiresAt = right.expiresAt && left.firstSeenAt = right.firstSeenAt &&
  legsText left.inputNullifiers = legsText right.inputNullifiers &&
  (left.blob.isNone || right.blob.isNone || left.blob = right.blob)

/-- The `Map` of the snapshot: the last offer of each hash. -/
def lastByHash (offers : List BookOffer) : List (String × BookOffer) :=
  offers.foldl (fun next offer => BestByKey.replace Prod.fst (toLowerCase offer.offerHash, offer) next)
    []

/-- A cached blob is kept for a snapshot that has none; the empty text is none. -/
def carryBlob (existing : Option BookOffer) (offer : BookOffer) : BookOffer :=
  match (existing.bind (·.blob)).filter (· ≠ ""), offer.blob.filter (· ≠ "") with
  | some cached, none => { offer with blob := some cached }
  | _, _ => offer

/-- `resync`. -/
def resync (book : IndexedBook) (offers : List BookOffer) : IndexedBook × ResyncDiff :=
  let next := lastByHash offers
  let removed := (book.byHash.all.map (·.offerHash)).filter fun hash => hash ∉ next.map Prod.fst
  let added := (next.map Prod.fst).filter fun hash => (book.byHash.get hash).isNone
  let updated := (next.filter fun entry => match book.byHash.get entry.1 with
    | some existing => !sameOfferProjection existing entry.2
    | none => false).map Prod.fst
  (next.foldl (fun book entry => book.upsert (carryBlob (book.byHash.get entry.1) entry.2))
    (removed.foldl remove book), ⟨added, removed, updated⟩)

/-! ## What the indices list -/

/-- The index lists the offers of the book, each under its keys. -/
def Lists (index : Buckets String String) (keysOf : BookOffer → List String) (book : Book) : Prop :=
  ∀ key hash, hash ∈ index.bucket key ↔
    ∃ offer ∈ book.offers, offer.offerHash = hash ∧ key ∈ keysOf offer

/-- An index without the entries of a hash. -/
def unlinked (index : Buckets String String) (keysOf : BookOffer → List String) (book : Book)
    (hash : String) : Buckets String String :=
  match book.get hash with
  | none => index
  | some existing => index.unlinkAll hash (keysOf existing)

theorem unindex_eq (book : IndexedBook) (hash : String) : book.unindex hash =
    { book with
      hashesByNullifier :=
        unlinked book.hashesByNullifier (·.inputNullifiers) book.byHash hash
      byPair := unlinked book.byPair BookOffer.pairKeys book.byHash hash } := by
  unfold unindex unlinked
  split <;> rfl

section Lists

variable {index : Buckets String String} {keysOf : BookOffer → List String} {book : Book}

/-- Unindexing a hash takes it out of every bucket. -/
theorem Lists.unlinked (h : Lists index keysOf book) (hash key o : String) :
    o ∈ (unlinked index keysOf book hash).bucket key ↔ o ∈ index.bucket key ∧ o ≠ hash := by
  unfold IndexedBook.unlinked
  cases hget : book.get hash with
  | none =>
    refine (and_iff_left_of_imp fun hmem heq => ?_).symm
    obtain ⟨offer, hoffer, hhash, -⟩ := (h key o).mp hmem
    rw [← heq, ← hhash, Book.get_of_mem hoffer] at hget
    cases hget
  | some existing =>
    rw [Buckets.mem_unlinkAll]
    refine and_congr_right fun hmem => not_congr (and_iff_right_of_imp fun heq => ?_)
    obtain ⟨offer, hoffer, hhash, hkey⟩ := (h key o).mp hmem
    -- the offer of that hash is the one that is unindexed
    rw [← heq, ← hhash, Book.get_of_mem hoffer] at hget
    rwa [← Option.some.inj hget]

theorem Lists.upsert (h : Lists index keysOf book) (offer : BookOffer) :
    Lists ((IndexedBook.unlinked index keysOf book (toLowerCase offer.offerHash)).linkAll
      (toLowerCase offer.offerHash) (keysOf offer.stored)) keysOf (book.upsert offer) := by
  intro key hash
  have hoffers : ∀ entry, entry ∈ (book.upsert offer).offers ↔ entry = offer.stored ∨
      (entry ∈ book.offers ∧ entry.offerHash ≠ toLowerCase offer.offerHash) := fun entry =>
    BestByKey.mem_replace book.distinct
  rw [Buckets.mem_linkAll, h.unlinked, h]
  constructor
  · rintro (⟨⟨entry, hentry, rfl, hkey⟩, hne⟩ | ⟨hkey, rfl⟩)
    · exact ⟨entry, (hoffers entry).mpr (.inr ⟨hentry, hne⟩), rfl, hkey⟩
    · exact ⟨offer.stored, (hoffers _).mpr (.inl rfl), rfl, hkey⟩
  · rintro ⟨entry, hentry, rfl, hkey⟩
    rcases (hoffers entry).mp hentry with rfl | ⟨hentry, hne⟩
    · exact .inr ⟨hkey, rfl⟩
    · exact .inl ⟨⟨entry, hentry, rfl, hkey⟩, hne⟩

theorem Lists.remove (h : Lists index keysOf book) (offerHash : String) :
    Lists (IndexedBook.unlinked index keysOf book (toLowerCase offerHash)) keysOf
      (book.remove offerHash) := by
  intro key hash
  rw [h.unlinked, h]
  unfold Book.remove
  simp only [List.mem_filter, decide_eq_true_eq]
  constructor
  · rintro ⟨⟨entry, hentry, rfl, hkey⟩, hne⟩
    exact ⟨entry, ⟨hentry, hne⟩, rfl, hkey⟩
  · rintro ⟨entry, ⟨hentry, hne⟩, rfl, hkey⟩
    exact ⟨⟨entry, hentry, rfl, hkey⟩, hne⟩

end Lists

/-- Both indices list the offers of the book, whose nullifiers are in the form that is stored. -/
structure Indexed (book : IndexedBook) : Prop where
  nullifiers : Lists book.hashesByNullifier (·.inputNullifiers) book.byHash
  pairs : Lists book.byPair BookOffer.pairKeys book.byHash
  stored : ∀ offer ∈ book.byHash.offers, offer.inputNullifiers.Nodup ∧
    ∀ nullifier ∈ offer.inputNullifiers, toLowerCase nullifier = nullifier

variable {book : IndexedBook}

theorem nodup_eraseDups : ∀ values : List String, values.eraseDups.Nodup
  | [] => List.nodup_nil
  | value :: values => by
    rw [List.eraseDups_cons, List.nodup_cons, List.mem_eraseDups]
    exact ⟨fun hmem => by simpa using (List.mem_filter.mp hmem).2, nodup_eraseDups _⟩
  termination_by values => values.length
  decreasing_by exact Nat.lt_succ_of_le (List.length_filter_le _ _)

theorem eraseDups_of_nodup {values : List String} (h : values.Nodup) :
    values.eraseDups = values := by
  induction values with
  | nil => rfl
  | cons value values ih =>
    obtain ⟨hfresh, hvalues⟩ := List.nodup_cons.mp h
    have hkept : (values.filter fun other => !other == value) = values :=
      List.filter_eq_self.mpr fun other hother => by
        simpa using fun heq : other = value => hfresh (heq ▸ hother)
    rw [List.eraseDups_cons, hkept, ih hvalues]

theorem stored_nullifiers (offer : BookOffer) : offer.stored.inputNullifiers.Nodup ∧
    ∀ nullifier ∈ offer.stored.inputNullifiers, toLowerCase nullifier = nullifier := by
  refine ⟨nodup_eraseDups _, fun nullifier hnullifier => ?_⟩
  obtain ⟨original, -, rfl⟩ := List.mem_map.mp (List.mem_eraseDups.mp hnullifier)
  exact toLowerCase_toLowerCase original

theorem Indexed.upsert (h : book.Indexed) (offer : BookOffer) : (book.upsert offer).Indexed := by
  have hunlinked : ∀ {index keysOf}, Lists index keysOf book.byHash →
      (book.byHash.get (toLowerCase offer.offerHash)).isSome = false →
      unlinked index keysOf book.byHash (toLowerCase offer.offerHash) = index := by
    intro index keysOf _ hnone
    unfold unlinked
    rw [Option.isSome_eq_false_iff, Option.isNone_iff_eq_none] at hnone
    rw [hnone]
  refine ⟨?_, ?_, fun entry hentry => ?_⟩
  · have hlists := h.nullifiers.upsert offer
    unfold IndexedBook.upsert
    simp only [unindex_eq]
    split
    · exact hlists
    · rename_i hnone
      rwa [hunlinked h.nullifiers (by simpa using hnone)] at hlists
  · have hlists := h.pairs.upsert offer
    unfold IndexedBook.upsert
    simp only [unindex_eq]
    split
    · exact hlists
    · rename_i hnone
      rwa [hunlinked h.pairs (by simpa using hnone)] at hlists
  · have hbyHash : (book.upsert offer).byHash = book.byHash.upsert offer := by
      unfold IndexedBook.upsert
      simp only [unindex_eq]
      split <;> rfl
    rw [hbyHash] at hentry
    rcases (BestByKey.mem_replace book.byHash.distinct).mp hentry with rfl | ⟨hmem, -⟩
    · exact stored_nullifiers offer
    · exact h.stored entry hmem

theorem Indexed.remove (h : book.Indexed) (offerHash : String) :
    (book.remove offerHash).Indexed := by
  unfold IndexedBook.remove
  simp only [unindex_eq]
  split
  · exact h
  · have hnullifiers := h.nullifiers.remove (toLowerCase offerHash)
    have hpairs := h.pairs.remove (toLowerCase offerHash)
    rw [toLowerCase_toLowerCase] at hnullifiers hpairs
    exact ⟨hnullifiers, hpairs, fun offer hoffer => h.stored offer (List.mem_of_mem_filter hoffer)⟩

/-! ## The offers after an operation -/

theorem upsert_byHash (book : IndexedBook) (offer : BookOffer) :
    (book.upsert offer).byHash = book.byHash.upsert offer := by
  unfold upsert
  simp only [unindex_eq]
  split <;> rfl

theorem remove_offers (book : IndexedBook) (offerHash : String) :
    (book.remove offerHash).byHash.offers =
      book.byHash.offers.filter (·.offerHash ≠ toLowerCase offerHash) := by
  unfold remove
  simp only [unindex_eq]
  split
  · rename_i hnone
    rw [Option.isNone_iff_eq_none] at hnone
    refine (List.filter_eq_self.mpr fun offer hoffer => ?_).symm
    rw [decide_eq_true_eq]
    intro heq
    rw [← heq, Book.get_of_mem hoffer] at hnone
    cases hnone
  · unfold Book.remove
    simp only [toLowerCase_toLowerCase]

/-- Removing hashes of the book one by one leaves the other offers. -/
theorem foldl_remove_offers (hashes : List String) (book : IndexedBook)
    (hlower : ∀ hash ∈ hashes, toLowerCase hash = hash) :
    (hashes.foldl remove book).byHash.offers =
      book.byHash.offers.filter (·.offerHash ∉ hashes) := by
  induction hashes generalizing book with
  | nil => simp
  | cons hash hashes ih =>
    rw [List.foldl_cons, ih _ fun other hother => hlower other (List.mem_cons_of_mem _ hother),
      remove_offers, hlower hash List.mem_cons_self, List.filter_filter]
    refine List.filter_congr fun offer _ => ?_
    rw [Bool.and_comm]
    simp

theorem Indexed.foldl_remove (hashes : List String) (h : book.Indexed) :
    (hashes.foldl IndexedBook.remove book).Indexed := by
  induction hashes generalizing book with
  | nil => exact h
  | cons hash hashes ih => exact ih (h.remove hash)

/-! ## Resync -/

/-- The last offer of the snapshot with a hash. -/
def lastOf (offers : List BookOffer) (hash : String) : Option BookOffer :=
  offers.reverse.find? (toLowerCase ·.offerHash = hash)

theorem lastOf_hash {offers : List BookOffer} {hash : String} {offer : BookOffer}
    (h : lastOf offers hash = some offer) : toLowerCase offer.offerHash = hash := by
  simpa using List.find?_some h

/-- The map of the snapshot has the last offer of each hash. -/
theorem lastByHash_spec (offers : List BookOffer) :
    (lastByHash offers).Pairwise (·.1 ≠ ·.1) ∧
      ∀ entry, entry ∈ lastByHash offers ↔ lastOf offers entry.1 = some entry.2 := by
  unfold lastByHash lastOf
  induction offers using List.reverseRecOn with
  | nil => exact ⟨.nil, fun entry => by simp⟩
  | append_singleton offers offer ih =>
    obtain ⟨hdistinct, hmem⟩ := ih
    rw [List.foldl_append, List.foldl_cons, List.foldl_nil]
    refine ⟨BestByKey.pairwise_replace hdistinct _, fun entry => ?_⟩
    rw [BestByKey.mem_replace hdistinct, hmem, List.reverse_append, List.reverse_singleton,
      List.singleton_append]
    by_cases hhash : toLowerCase offer.offerHash = entry.1
    · simp only [List.find?_cons, hhash, decide_true]
      simp [Prod.ext_iff, eq_comm]
    · simp only [List.find?_cons, hhash, decide_false]
      have hne : entry ≠ (toLowerCase offer.offerHash, offer) :=
        fun heq => hhash (congrArg Prod.fst heq).symm
      simp [hne, Ne.symm hhash]

theorem get_eq_some_iff {book : Book} {hash : String} {offer : BookOffer} :
    book.get hash = some offer ↔ offer ∈ book.offers ∧ offer.offerHash = toLowerCase hash := by
  refine ⟨Book.mem_of_get, fun ⟨hmem, hhash⟩ => ?_⟩
  have hget := Book.get_of_mem hmem
  unfold Book.get at hget ⊢
  rwa [hhash, toLowerCase_toLowerCase] at hget

/-- Storing an offer leaves what is found under other hashes. -/
theorem get_upsert_of_ne {book : Book} {offer : BookOffer} {hash : String}
    (h : toLowerCase hash ≠ toLowerCase offer.offerHash) :
    (book.upsert offer).get hash = book.get hash := by
  refine Option.ext fun entry => ?_
  have hoffers : entry ∈ (book.upsert offer).offers ↔ entry = offer.stored ∨
      (entry ∈ book.offers ∧ entry.offerHash ≠ toLowerCase offer.offerHash) :=
    BestByKey.mem_replace book.distinct
  rw [get_eq_some_iff, get_eq_some_iff, hoffers]
  constructor
  · rintro ⟨rfl | ⟨hmem, -⟩, hhash⟩
    · exact absurd hhash.symm h
    · exact ⟨hmem, hhash⟩
  · rintro ⟨hmem, hhash⟩
    exact ⟨.inr ⟨hmem, hhash ▸ h⟩, hhash⟩

@[simp] theorem carryBlob_offerHash (existing : Option BookOffer) (offer : BookOffer) :
    (carryBlob existing offer).offerHash = offer.offerHash := by
  unfold carryBlob
  split <;> rfl

/-- The loop of `resync` that stores the snapshot. -/
theorem foldl_upsert_offers (next : List (String × BookOffer)) (book : IndexedBook)
    (hdistinct : next.Pairwise (·.1 ≠ ·.1))
    (hkeys : ∀ entry ∈ next, toLowerCase entry.2.offerHash = entry.1 ∧
      toLowerCase entry.1 = entry.1) (offer : BookOffer) :
    offer ∈ (next.foldl (fun book entry =>
        book.upsert (carryBlob (book.byHash.get entry.1) entry.2)) book).byHash.offers ↔
      (∃ entry ∈ next, offer = (carryBlob (book.byHash.get entry.1) entry.2).stored) ∨
        (offer ∈ book.byHash.offers ∧ ∀ entry ∈ next, offer.offerHash ≠ entry.1) := by
  induction next generalizing book with
  | nil => simp
  | cons first next ih =>
    obtain ⟨hfirst, hnext⟩ := List.pairwise_cons.mp hdistinct
    obtain ⟨hfirstKey, hfirstLower⟩ := hkeys first List.mem_cons_self
    have hrest : ∀ entry ∈ next, (book.upsert
        (carryBlob (book.byHash.get first.1) first.2)).byHash.get entry.1 =
          book.byHash.get entry.1 := by
      intro entry hentry
      rw [upsert_byHash]
      refine get_upsert_of_ne ?_
      rw [carryBlob_offerHash, hfirstKey, (hkeys entry (List.mem_cons_of_mem _ hentry)).2]
      exact (hfirst entry hentry).symm
    have hoffers : ∀ entry, entry ∈ (book.upsert
        (carryBlob (book.byHash.get first.1) first.2)).byHash.offers ↔
          entry = (carryBlob (book.byHash.get first.1) first.2).stored ∨
            (entry ∈ book.byHash.offers ∧ entry.offerHash ≠ first.1) := by
      intro entry
      rw [upsert_byHash]
      refine (BestByKey.mem_replace book.byHash.distinct).trans ?_
      show _ ∨ (_ ∧ _ ≠ toLowerCase (carryBlob _ first.2).offerHash) ↔ _
      rw [carryBlob_offerHash, hfirstKey]
    rw [List.foldl_cons, ih _ hnext fun entry hentry => hkeys entry (List.mem_cons_of_mem _ hentry),
      hoffers]
    constructor
    · rintro (⟨entry, hentry, heq⟩ | ⟨rfl | ⟨hmem, hne⟩, hothers⟩)
      · exact .inl ⟨entry, List.mem_cons_of_mem _ hentry, by rw [heq, hrest entry hentry]⟩
      · exact .inl ⟨first, List.mem_cons_self, rfl⟩
      · exact .inr ⟨hmem, List.forall_mem_cons.mpr ⟨hne, hothers⟩⟩
    · rintro (⟨entry, hentry, heq⟩ | ⟨hmem, hothers⟩)
      · rcases List.mem_cons.mp hentry with rfl | hentry
        · refine .inr ⟨.inl heq, fun other hother => ?_⟩
          rw [heq]
          show toLowerCase (carryBlob _ entry.2).offerHash ≠ _
          rw [carryBlob_offerHash, hfirstKey]
          exact hfirst other hother
        · exact .inl ⟨entry, hentry, by rw [heq, hrest entry hentry]⟩
      · obtain ⟨hne, hothers⟩ := List.forall_mem_cons.mp hothers
        exact .inr ⟨.inr ⟨hmem, hne⟩, hothers⟩

/-- **The offers after a resync** are the last ones of the snapshot, each with its cached blob. -/
theorem resync_offers (book : IndexedBook) (offers : List BookOffer) (offer : BookOffer) :
    offer ∈ (book.resync offers).1.byHash.offers ↔
      ∃ hash last, lastOf offers hash = some last ∧
        offer = (carryBlob (book.byHash.get hash) last).stored := by
  obtain ⟨hdistinct, hmem⟩ := lastByHash_spec offers
  have hkeys : ∀ entry ∈ lastByHash offers, toLowerCase entry.2.offerHash = entry.1 ∧
      toLowerCase entry.1 = entry.1 := by
    intro entry hentry
    have hkey := lastOf_hash ((hmem entry).mp hentry)
    exact ⟨hkey, by rw [← hkey, toLowerCase_toLowerCase]⟩
  -- what is removed first is what the snapshot does not have
  set removed := (book.byHash.all.map (·.offerHash)).filter
    fun hash => hash ∉ (lastByHash offers).map Prod.fst with hremoved
  have hlower : ∀ hash ∈ removed, toLowerCase hash = hash := by
    intro hash hhash
    obtain ⟨entry, hentry, rfl⟩ := List.mem_map.mp (List.mem_of_mem_filter hhash)
    exact book.byHash.lower entry hentry
  have hkept : ∀ entry, entry ∈ (removed.foldl remove book).byHash.offers ↔
      entry ∈ book.byHash.offers ∧ entry.offerHash ∈ (lastByHash offers).map Prod.fst := by
    intro entry
    rw [foldl_remove_offers removed book hlower, List.mem_filter, decide_eq_true_eq]
    refine and_congr_right fun hentry => ?_
    rw [hremoved, List.mem_filter, decide_eq_true_eq, not_and, not_not]
    exact ⟨fun h => h (List.mem_map_of_mem hentry), fun h _ => h⟩
  have hget : ∀ entry ∈ lastByHash offers,
      (removed.foldl remove book).byHash.get entry.1 = book.byHash.get entry.1 := by
    intro entry hentry
    refine Option.ext fun found => ?_
    rw [get_eq_some_iff, get_eq_some_iff, hkept, (hkeys entry hentry).2]
    constructor
    · exact fun h => ⟨h.1.1, h.2⟩
    · exact fun h => ⟨⟨h.1, h.2 ▸ List.mem_map_of_mem hentry⟩, h.2⟩
  show offer ∈ ((lastByHash offers).foldl _ (removed.foldl remove book)).byHash.offers ↔ _
  rw [foldl_upsert_offers _ _ hdistinct hkeys]
  constructor
  · rintro (⟨entry, hentry, heq⟩ | ⟨hmember, hothers⟩)
    · exact ⟨entry.1, entry.2, (hmem entry).mp hentry, by rw [heq, hget entry hentry]⟩
    · obtain ⟨entry, hentry, heq⟩ := List.mem_map.mp ((hkept offer).mp hmember).2
      exact absurd heq.symm (hothers entry hentry)
  · rintro ⟨hash, last, hlast, heq⟩
    have hentry := (hmem (hash, last)).mpr hlast
    exact .inl ⟨(hash, last), hentry, by rw [heq, hget _ hentry]⟩

theorem Indexed.resync (h : book.Indexed) (offers : List BookOffer) :
    (book.resync offers).1.Indexed := by
  have hupserts : ∀ (next : List (String × BookOffer)) {book : IndexedBook}, book.Indexed →
      (next.foldl (fun book entry =>
        book.upsert (carryBlob (book.byHash.get entry.1) entry.2)) book).Indexed := by
    intro next
    induction next with
    | nil => exact fun h => h
    | cons entry next ih => exact fun h => ih (h.upsert _)
  exact hupserts _ (h.foldl_remove _)

/-! ## What a resync reports -/

/-- What `bookOfferFromApi` returns: texts without punctuation, and no empty blob. -/
structure Parsed (offer : BookOffer) : Prop where
  tokens : ∀ leg ∈ offer.gives ++ offer.wants, ':' ∉ leg.token.toList ∧ '|' ∉ leg.token.toList
  nullifiers : ∀ nullifier ∈ offer.inputNullifiers, Joined.Part '|' nullifier
  blob : offer.blob ≠ some ""

/-- Nothing but the order changed; a blob that is not there yet is no change. -/
structure SameOffer (old new : BookOffer) : Prop where
  gives : old.gives.Perm new.gives
  wants : old.wants.Perm new.wants
  expiresAt : old.expiresAt = new.expiresAt
  firstSeenAt : old.firstSeenAt = new.firstSeenAt
  nullifiers : old.inputNullifiers.Perm new.inputNullifiers
  blob : old.blob = none ∨ new.blob = none ∨ old.blob = new.blob

/-- The nullifiers as the book stores them. -/
def ListsOnce (offer : BookOffer) : Prop :=
  offer.inputNullifiers.Nodup ∧
    ∀ nullifier ∈ offer.inputNullifiers, toLowerCase nullifier = nullifier

theorem stored_of_listsOnce {offer : BookOffer} (h : ListsOnce offer) :
    offer.stored.inputNullifiers = offer.inputNullifiers := by
  show (offer.inputNullifiers.map toLowerCase).eraseDups = _
  rw [List.map_congr_left h.2, List.map_id', eraseDups_of_nodup h.1]

theorem notMem_toLowerCase {value : String} {c : Char} (hc : ¬ (97 ≤ c.toNat ∧ c.toNat ≤ 122))
    (h : c ∉ value.toList) : c ∉ (toLowerCase value).toList := by
  unfold toLowerCase
  rw [String.toList_ofList, List.mem_map]
  rintro ⟨d, hd, hlower⟩
  have hnat := toNat_toLower d
  rw [hlower] at hnat
  split at hnat
  · omega
  · exact h (Char.toNat_inj.mp hnat ▸ hd)

theorem Parsed.stored {offer : BookOffer} (h : Parsed offer) : Parsed offer.stored := by
  refine ⟨h.tokens, fun nullifier hnullifier => ?_, h.blob⟩
  obtain ⟨original, horiginal, rfl⟩ := List.mem_map.mp (List.mem_eraseDups.mp hnullifier)
  obtain ⟨hnonempty, hfree⟩ := h.nullifiers original horiginal
  refine ⟨fun hempty => hnonempty ?_, notMem_toLowerCase (by decide) hfree⟩
  have hlist := congrArg String.toList hempty
  unfold toLowerCase at hlist
  rw [String.toList_ofList] at hlist
  exact String.toList_inj.mp (List.map_eq_nil_iff.mp hlist)

theorem projectionText_part {leg : LadderSourceLeg} (h : '|' ∉ leg.token.toList) :
    Joined.Part '|' (projectionText leg) := by
  have hcolon : (":" : String).toList = [':'] := rfl
  have hkind : '|' ∉ leg.kind.text.toList := by
    cases leg.kind <;> decide
  have htext : (projectionText leg).toList = leg.kind.text.toList ++
      ':' :: (leg.token.toList ++ ':' :: (decimal leg.amount).toList) := by
    unfold projectionText
    simp only [String.toList_append, hcolon, List.append_assoc, List.cons_append,
      List.nil_append]
  refine ⟨fun hempty => ?_, ?_⟩
  · rw [hempty] at htext
    exact absurd htext.symm (by simp)
  · rw [htext, List.mem_append, List.mem_cons, List.mem_append, List.mem_cons, not_or, not_or,
      not_or, not_or]
    exact ⟨hkind, by decide, h, by decide, notMem_decimal (by decide) (by decide) leg.amount⟩

theorem projectionText_inj {leg other : LadderSourceLeg} (h : ':' ∉ leg.token.toList)
    (h' : ':' ∉ other.token.toList) (heq : projectionText leg = projectionText other) :
    leg = other := by
  have hcolon : (":" : String).toList = [':'] := rfl
  have hkind : ∀ kind : LegKind, ':' ∉ kind.text.toList := by
    intro kind
    cases kind <;> decide
  have hlist := congrArg String.toList heq
  unfold projectionText at hlist
  simp only [String.toList_append, hcolon, List.append_assoc, List.singleton_append] at hlist
  obtain ⟨hkinds, hrest⟩ :=
    Joined.append_cons_inj_of_notMem_left (hkind leg.kind) (hkind other.kind) hlist
  obtain ⟨htoken, hamount⟩ := Joined.append_cons_inj_of_notMem_left h h' hrest
  have hkindEq : leg.kind = other.kind := by
    have := String.toList_inj.mp hkinds
    revert this
    cases leg.kind <;> cases other.kind <;> decide
  cases leg
  cases other
  cases String.toList_inj.mp htoken
  cases decimal_injective (String.toList_inj.mp hamount)
  cases hkindEq
  rfl

/-- Sorted joins are equal when the parts are the same up to order. -/
theorem legsText_eq_iff {texts others : List String} (h : ∀ text ∈ texts, Joined.Part '|' text)
    (h' : ∀ text ∈ others, Joined.Part '|' text) :
    legsText texts = legsText others ↔ texts.Perm others := by
  unfold legsText
  refine ⟨Joined.perm_of_sorted rfl h h', fun hperm => congrArg _ ?_⟩
  exact ((List.perm_insertionSort _ texts).trans
    (hperm.trans (List.perm_insertionSort _ others).symm)).eq_of_pairwise
      (fun _ _ _ _ => le_antisymm) (List.pairwise_insertionSort _ _)
      (List.pairwise_insertionSort _ _)

theorem projections_eq_iff {legs others : List LadderSourceLeg}
    (h : ∀ leg ∈ legs, ':' ∉ leg.token.toList ∧ '|' ∉ leg.token.toList)
    (h' : ∀ leg ∈ others, ':' ∉ leg.token.toList ∧ '|' ∉ leg.token.toList) :
    legsText (legs.map projectionText) = legsText (others.map projectionText) ↔
      legs.Perm others := by
  have hparts : ∀ {legs : List LadderSourceLeg},
      (∀ leg ∈ legs, ':' ∉ leg.token.toList ∧ '|' ∉ leg.token.toList) →
      ∀ text ∈ legs.map projectionText, Joined.Part '|' text := by
    intro legs hlegs text htext
    obtain ⟨leg, hleg, rfl⟩ := List.mem_map.mp htext
    exact projectionText_part (hlegs leg hleg).2
  rw [legsText_eq_iff (hparts h) (hparts h')]
  refine ⟨fun hperm => ?_, fun hperm => hperm.map _⟩
  have : Nonempty LadderSourceLeg := ⟨⟨"", 0, .shielded⟩⟩
  exact perm_of_map_perm (fun a b => projectionText_inj) (fun leg hleg => (h leg hleg).1)
    (fun leg hleg => (h' leg hleg).1) hperm

theorem sameOfferProjection_iff {old new : BookOffer} (hold : Parsed old) (hnew : Parsed new)
    (hhash : toLowerCase old.offerHash = toLowerCase new.offerHash) :
    sameOfferProjection old new = true ↔ SameOffer old new := by
  have hgives := projections_eq_iff
    (fun leg hleg => hold.tokens leg (List.mem_append_left _ hleg))
    (fun leg hleg => hnew.tokens leg (List.mem_append_left _ hleg))
  have hwants := projections_eq_iff
    (fun leg hleg => hold.tokens leg (List.mem_append_right _ hleg))
    (fun leg hleg => hnew.tokens leg (List.mem_append_right _ hleg))
  have hnullifiers := legsText_eq_iff hold.nullifiers hnew.nullifiers
  unfold sameOfferProjection
  simp only [Bool.and_eq_true, Bool.or_eq_true, decide_eq_true_eq, Option.isNone_iff_eq_none,
    hgives, hwants, hnullifiers, hhash, true_and]
  constructor
  · rintro ⟨⟨⟨⟨⟨hg, hw⟩, he⟩, hf⟩, hn⟩, hb⟩
    exact ⟨hg, hw, he, hf, hn, by rwa [or_assoc] at hb⟩
  · rintro ⟨hg, hw, he, hf, hn, hb⟩
    exact ⟨⟨⟨⟨⟨hg, hw⟩, he⟩, hf⟩, hn⟩, by rwa [or_assoc]⟩

/-- Carrying a cached blob over makes no difference to the comparison. -/
theorem sameOffer_carryBlob {old new : BookOffer} (hnew : Parsed new) :
    SameOffer old (carryBlob (some old) new) ↔ SameOffer old new := by
  unfold carryBlob
  split
  · rename_i cached hcached hblob
    rw [Option.bind_some] at hcached
    have hold : old.blob = some cached := (Option.filter_eq_some_iff.mp hcached).1
    have hnone : new.blob = none := by
      cases hnewBlob : new.blob with
      | none => rfl
      | some blob =>
        rw [hnewBlob, Option.filter_some] at hblob
        split at hblob
        · cases hblob
        · rename_i hempty
          refine absurd hnewBlob (?_ : new.blob ≠ some blob)
          rw [show blob = "" by simpa using hempty]
          exact hnew.blob
    constructor
    · exact fun h => ⟨h.gives, h.wants, h.expiresAt, h.firstSeenAt, h.nullifiers, .inr (.inl hnone)⟩
    · exact fun h => ⟨h.gives, h.wants, h.expiresAt, h.firstSeenAt, h.nullifiers, .inr (.inr hold)⟩
  · exact Iff.rfl

/-- A snapshot offer changes the book, or lists its nullifiers as the book does. -/
def Distinguished (before : Book) (offers : List BookOffer) : Prop :=
  ∀ hash last old, lastOf offers hash = some last → before.get hash = some old →
    SameOffer old (carryBlob (some old) last).stored → ListsOnce last

/-- The reported differences are those between two books. -/
structure DiffExact (before after : Book) (diff : ResyncDiff) : Prop where
  added : diff.added.Nodup ∧ ∀ hash, hash ∈ diff.added ↔
    (∃ new ∈ after.offers, new.offerHash = hash) ∧ ¬ ∃ old ∈ before.offers, old.offerHash = hash
  removed : diff.removed.Nodup ∧ ∀ hash, hash ∈ diff.removed ↔
    (∃ old ∈ before.offers, old.offerHash = hash) ∧ ¬ ∃ new ∈ after.offers, new.offerHash = hash
  updated : diff.updated.Nodup ∧ ∀ hash, hash ∈ diff.updated ↔
    ∃ old ∈ before.offers, ∃ new ∈ after.offers, old.offerHash = hash ∧ new.offerHash = hash ∧
      ¬ SameOffer old new

/-- The hashes of the book after a resync. -/
theorem exists_resync_offers {offers : List BookOffer} {hash : String} :
    (∃ new ∈ (book.resync offers).1.byHash.offers, new.offerHash = hash) ↔
      ∃ last, lastOf offers hash = some last := by
  constructor
  · rintro ⟨new, hnew, rfl⟩
    obtain ⟨hash, last, hlast, rfl⟩ := (resync_offers book offers new).mp hnew
    refine ⟨last, ?_⟩
    show lastOf offers (toLowerCase (carryBlob _ last).offerHash) = some last
    rw [carryBlob_offerHash, lastOf_hash hlast]
    exact hlast
  · rintro ⟨last, hlast⟩
    refine ⟨_, (resync_offers book offers _).mpr ⟨hash, last, hlast, rfl⟩, ?_⟩
    show toLowerCase (carryBlob _ last).offerHash = hash
    rw [carryBlob_offerHash, lastOf_hash hlast]

@[simp] theorem carryBlob_inputNullifiers (existing : Option BookOffer) (offer : BookOffer) :
    (carryBlob existing offer).inputNullifiers = offer.inputNullifiers := by
  unfold carryBlob
  split <;> rfl

/-- An offer that lists its nullifiers as the book does is compared as it is stored. -/
theorem sameOffer_stored {old new : BookOffer} (hnew : Parsed new) (honce : ListsOnce new) :
    SameOffer old (carryBlob (some old) new).stored ↔ SameOffer old new := by
  have honce' : ListsOnce (carryBlob (some old) new) := by
    unfold ListsOnce
    rwa [carryBlob_inputNullifiers]
  rw [← sameOffer_carryBlob hnew]
  constructor
  · exact fun h => ⟨h.gives, h.wants, h.expiresAt, h.firstSeenAt,
      stored_of_listsOnce honce' ▸ h.nullifiers, h.blob⟩
  · refine fun h => ⟨h.gives, h.wants, h.expiresAt, h.firstSeenAt, ?_, h.blob⟩
    rw [stored_of_listsOnce honce']
    exact h.nullifiers

/-- The offers that a resync changes. -/
theorem changed_iff {offers : List BookOffer} {hash : String} :
    (∃ old ∈ book.byHash.offers, ∃ new ∈ (book.resync offers).1.byHash.offers,
      old.offerHash = hash ∧ new.offerHash = hash ∧ ¬ SameOffer old new) ↔
      ∃ last old, lastOf offers hash = some last ∧ book.byHash.get hash = some old ∧
        ¬ SameOffer old (carryBlob (some old) last).stored := by
  constructor
  · rintro ⟨old, hold, new, hnew, rfl, hhash, hdiffer⟩
    obtain ⟨hash, last, hlast, rfl⟩ := (resync_offers book offers new).mp hnew
    have hkey : hash = old.offerHash := by
      rw [← hhash]
      show hash = toLowerCase (carryBlob _ last).offerHash
      rw [carryBlob_offerHash, lastOf_hash hlast]
    subst hkey
    rw [Book.get_of_mem hold] at hdiffer
    exact ⟨last, old, hlast, Book.get_of_mem hold, hdiffer⟩
  · rintro ⟨last, old, hlast, hget, hdiffer⟩
    obtain ⟨hold, hhash⟩ := get_eq_some_iff.mp hget
    have hlower : toLowerCase hash = hash := by
      rw [← lastOf_hash hlast, toLowerCase_toLowerCase]
    refine ⟨old, hold, _, (resync_offers book offers _).mpr ⟨hash, last, hlast, rfl⟩,
      hhash.trans hlower, ?_, hget ▸ hdiffer⟩
    show toLowerCase (carryBlob _ last).offerHash = hash
    rw [carryBlob_offerHash, lastOf_hash hlast]

theorem mem_updated {offers : List BookOffer} {hash : String} :
    hash ∈ (book.resync offers).2.updated ↔
      ∃ last old, lastOf offers hash = some last ∧ book.byHash.get hash = some old ∧
        ¬ sameOfferProjection old last = true := by
  obtain ⟨-, hmem⟩ := lastByHash_spec offers
  unfold IndexedBook.resync
  simp only [List.mem_map, List.mem_filter]
  constructor
  · rintro ⟨entry, ⟨hentry, hdiffers⟩, rfl⟩
    split at hdiffers
    · rename_i old hget
      exact ⟨entry.2, old, (hmem entry).mp hentry, hget, by simpa using hdiffers⟩
    · cases hdiffers
  · rintro ⟨last, old, hlast, hget, hdiffers⟩
    refine ⟨(hash, last), ⟨(hmem (hash, last)).mpr hlast, ?_⟩, rfl⟩
    simp only [hget]
    simpa using hdiffers

/-- **What a resync reports** is the difference exactly when the snapshot is distinguished. -/
theorem resync_diffExact_iff (h : book.Indexed) {offers : List BookOffer}
    (hbook : ∀ offer ∈ book.byHash.offers, Parsed offer) (hoffers : ∀ offer ∈ offers, Parsed offer) :
    DiffExact book.byHash (book.resync offers).1.byHash (book.resync offers).2 ↔
      Distinguished book.byHash offers := by
  obtain ⟨hdistinct, hmem⟩ := lastByHash_spec offers
  have hkeys : ((lastByHash offers).map Prod.fst).Nodup := List.pairwise_map.mpr hdistinct
  have hnext : ∀ hash, hash ∈ (lastByHash offers).map Prod.fst ↔
      ∃ last, lastOf offers hash = some last := by
    intro hash
    rw [List.mem_map]
    constructor
    · rintro ⟨entry, hentry, rfl⟩
      exact ⟨entry.2, (hmem entry).mp hentry⟩
    · rintro ⟨last, hlast⟩
      exact ⟨(hash, last), (hmem (hash, last)).mpr hlast, rfl⟩
  have hheld : ∀ hash, hash ∈ book.byHash.all.map (·.offerHash) ↔
      ∃ old ∈ book.byHash.offers, old.offerHash = hash := fun hash => List.mem_map
  have hheldNodup : (book.byHash.all.map (·.offerHash)).Nodup :=
    List.pairwise_map.mpr book.byHash.distinct
  have hadded : (book.resync offers).2.added.Nodup ∧ ∀ hash,
      hash ∈ (book.resync offers).2.added ↔
        (∃ new ∈ (book.resync offers).1.byHash.offers, new.offerHash = hash) ∧
          ¬ ∃ old ∈ book.byHash.offers, old.offerHash = hash := by
    refine ⟨hkeys.filter _, fun hash => ?_⟩
    show hash ∈ List.filter _ ((lastByHash offers).map Prod.fst) ↔ _
    rw [List.mem_filter, hnext, exists_resync_offers, Option.isNone_iff_eq_none]
    refine and_congr_right fun ⟨last, hlast⟩ => ?_
    have hlower : toLowerCase hash = hash := by
      rw [← lastOf_hash hlast, toLowerCase_toLowerCase]
    constructor
    · rintro hnone ⟨old, hold, rfl⟩
      rw [Book.get_of_mem hold] at hnone
      cases hnone
    · intro hfresh
      refine Option.eq_none_iff_forall_ne_some.mpr fun old hget => ?_
      obtain ⟨hold, hhash⟩ := get_eq_some_iff.mp hget
      exact hfresh ⟨old, hold, hhash.trans hlower⟩
  have hremoved : (book.resync offers).2.removed.Nodup ∧ ∀ hash,
      hash ∈ (book.resync offers).2.removed ↔
        (∃ old ∈ book.byHash.offers, old.offerHash = hash) ∧
          ¬ ∃ new ∈ (book.resync offers).1.byHash.offers, new.offerHash = hash := by
    refine ⟨hheldNodup.filter _, fun hash => ?_⟩
    show hash ∈ List.filter _ (book.byHash.all.map (·.offerHash)) ↔ _
    rw [List.mem_filter, decide_eq_true_eq, hheld, hnext, exists_resync_offers]
  have hupdatedNodup : (book.resync offers).2.updated.Nodup :=
    (hkeys.sublist (List.filter_sublist.map Prod.fst))
  -- the comparison with the snapshot, and with what is stored of it
  have hcompare : ∀ {hash last old}, lastOf offers hash = some last →
      book.byHash.get hash = some old →
        (sameOfferProjection old last = true ↔ SameOffer old last) ∧ Parsed last ∧
          (SameOffer old last → ListsOnce last) := by
    intro hash last old hlast hget
    obtain ⟨hold, hhash⟩ := get_eq_some_iff.mp hget
    have hlastMem : last ∈ offers := List.mem_reverse.mp (List.mem_of_find?_eq_some hlast)
    refine ⟨sameOfferProjection_iff (hbook old hold) (hoffers last hlastMem) ?_,
      hoffers last hlastMem, fun hsame => ?_⟩
    · rw [lastOf_hash hlast, book.byHash.lower old hold, hhash, ← lastOf_hash hlast,
        toLowerCase_toLowerCase]
    · obtain ⟨hnodup, hlower⟩ := h.stored old hold
      exact ⟨hsame.nullifiers.nodup_iff.mp hnodup, fun nullifier hnullifier =>
        hlower nullifier (hsame.nullifiers.mem_iff.mpr hnullifier)⟩
  constructor
  · intro hexact hash last old hlast hget hsame
    obtain ⟨hprojection, hparsed, honce⟩ := hcompare hlast hget
    refine honce ?_
    by_contra hdiffer
    have hreported : hash ∈ (book.resync offers).2.updated :=
      mem_updated.mpr ⟨last, old, hlast, hget, fun h => hdiffer (hprojection.mp h)⟩
    obtain ⟨last', old', hlast', hget', hchanged⟩ :=
      changed_iff.mp ((hexact.updated.2 hash).mp hreported)
    cases Option.some.inj (hlast.symm.trans hlast')
    cases Option.some.inj (hget.symm.trans hget')
    exact hchanged hsame
  · intro hdistinguished
    refine ⟨hadded, hremoved, hupdatedNodup, fun hash => ?_⟩
    rw [mem_updated, changed_iff]
    refine exists_congr fun last => exists_congr fun old => and_congr_right fun hlast =>
      and_congr_right fun hget => not_congr ?_
    obtain ⟨hprojection, hparsed, honce⟩ := hcompare hlast hget
    rw [hprojection]
    constructor
    · exact fun hsame => (sameOffer_stored hparsed (honce hsame)).mpr hsame
    · intro hsame
      exact (sameOffer_stored hparsed (hdistinguished hash last old hlast hget hsame)).mp hsame

/-! ## Any run -/

inductive BookOp
  | upsert (offer : BookOffer)
  | remove (offerHash : String)
  | removeByNullifier (nullifier : String)
  | sweepExpired (nowMs marginSeconds : Int)
  | resync (offers : List BookOffer)

/-- The offers an operation brings. -/
def BookOp.offers : BookOp → List BookOffer
  | .upsert offer => [offer]
  | .resync offers => offers
  | _ => []

def step (book : IndexedBook) : BookOp → IndexedBook
  | .upsert offer => book.upsert offer
  | .remove offerHash => book.remove offerHash
  | .removeByNullifier nullifier => (book.removeByNullifier nullifier).1
  | .sweepExpired nowMs marginSeconds => (book.sweepExpired nowMs marginSeconds).1
  | .resync offers => (book.resync offers).1

def run (ops : List BookOp) : IndexedBook := ops.foldl step {}

theorem Indexed.step (h : book.Indexed) (op : BookOp) : (book.step op).Indexed := by
  cases op with
  | upsert offer => exact h.upsert offer
  | remove offerHash => exact h.remove offerHash
  | removeByNullifier nullifier => exact h.foldl_remove _
  | sweepExpired nowMs marginSeconds => exact h.foldl_remove _
  | resync offers => exact h.resync offers

theorem indexed_empty : ({} : IndexedBook).Indexed := by
  refine ⟨fun key hash => ?_, fun key hash => ?_, fun offer hoffer => absurd hoffer List.not_mem_nil⟩
  all_goals
    refine iff_of_false (fun hmem => absurd hmem List.not_mem_nil) ?_
    rintro ⟨offer, hoffer, -⟩
    cases hoffer

/-- **After any run** the indices list the offers of the book. -/
theorem indexed_run (ops : List BookOp) : (run ops).Indexed := by
  unfold run
  induction ops using List.reverseRecOn with
  | nil => exact indexed_empty
  | append_singleton ops op ih =>
    rw [List.foldl_append]
    exact ih.step op

/-- The blob of a snapshot offer, or else the cached one. -/
theorem carryBlob_eq {existing : Option BookOffer} {offer : BookOffer} (h : Parsed offer)
    (hexisting : ∀ old ∈ existing, Parsed old) : carryBlob existing offer =
      { offer with blob := offer.blob.or (existing.bind (·.blob)) } := by
  have hfilter : ∀ blob : Option String, blob ≠ some "" → blob.filter (· ≠ "") = blob := by
    intro blob hblob
    cases blob with
    | none => rfl
    | some text =>
      rw [Option.filter_some, if_pos]
      exact decide_eq_true fun heq => hblob (congrArg some heq)
  have hcached : existing.bind (·.blob) ≠ some "" := by
    intro hempty
    obtain ⟨old, hold, hblob⟩ := Option.bind_eq_some_iff.mp hempty
    exact (hexisting old hold).blob hblob
  unfold carryBlob
  rw [hfilter _ hcached, hfilter _ h.blob]
  cases hblob : offer.blob with
  | some blob =>
    split
    · rename_i hnone
      cases hnone
    · rw [Option.some_or, ← hblob]
  | none =>
    cases hbind : existing.bind (·.blob) with
    | some cached => rfl
    | none =>
      show offer = { offer with blob := none }
      rw [← hblob]

theorem Parsed.carryBlob {existing : Option BookOffer} {offer : BookOffer} (h : Parsed offer)
    (hexisting : ∀ old ∈ existing, Parsed old) : Parsed (carryBlob existing offer) := by
  rw [carryBlob_eq h hexisting]
  refine ⟨h.tokens, h.nullifiers, fun hempty => ?_⟩
  rcases Option.or_eq_some_iff.mp hempty with hblob | ⟨-, hcached⟩
  · exact h.blob hblob
  · obtain ⟨old, hold, hblob⟩ := Option.bind_eq_some_iff.mp hcached
    exact (hexisting old hold).blob hblob

theorem parsed_step (h : ∀ offer ∈ book.byHash.offers, Parsed offer) {op : BookOp}
    (hop : ∀ offer ∈ op.offers, Parsed offer) :
    ∀ offer ∈ (book.step op).byHash.offers, Parsed offer := by
  have hremoves : ∀ (hashes : List String) (book : IndexedBook),
      (∀ offer ∈ book.byHash.offers, Parsed offer) →
        ∀ offer ∈ (hashes.foldl remove book).byHash.offers, Parsed offer := by
    intro hashes
    induction hashes with
    | nil => exact fun _ h => h
    | cons hash hashes ih =>
      refine fun book h => ih _ fun offer hoffer => h offer ?_
      rw [remove_offers] at hoffer
      exact List.mem_of_mem_filter hoffer
  cases op with
  | upsert offer =>
    intro entry hentry
    unfold step at hentry
    rw [upsert_byHash] at hentry
    rcases (BestByKey.mem_replace book.byHash.distinct).mp hentry with rfl | ⟨hmem, -⟩
    · exact (hop offer List.mem_cons_self).stored
    · exact h entry hmem
  | remove offerHash => exact hremoves [offerHash] book h
  | removeByNullifier nullifier => exact hremoves _ book h
  | sweepExpired nowMs marginSeconds => exact hremoves _ book h
  | resync offers =>
    intro entry hentry
    obtain ⟨hash, last, hlast, rfl⟩ := (resync_offers book offers entry).mp hentry
    have hlastMem : last ∈ offers := List.mem_reverse.mp (List.mem_of_find?_eq_some hlast)
    exact ((hop last hlastMem).carryBlob fun old hold => h old (get_eq_some_iff.mp hold).1).stored

theorem parsed_run {ops : List BookOp} (hops : ∀ op ∈ ops, ∀ offer ∈ op.offers, Parsed offer) :
    ∀ offer ∈ (run ops).byHash.offers, Parsed offer := by
  unfold run
  induction ops using List.reverseRecOn with
  | nil => exact fun offer hoffer => absurd hoffer List.not_mem_nil
  | append_singleton ops op ih =>
    rw [List.foldl_append]
    exact parsed_step (ih fun other hother => hops other (List.mem_append_left _ hother))
      (hops op (List.mem_append_right _ (List.mem_singleton_self op)))

/-- No offer that declares the nullifier is left, and the removed ones are reported. -/
theorem removeByNullifier_spec (h : book.Indexed) (nullifier : String) :
    (book.removeByNullifier nullifier).1.byHash.offers =
        book.byHash.offers.filter (toLowerCase nullifier ∉ ·.inputNullifiers) ∧
      (book.removeByNullifier nullifier).2.Nodup ∧
      ∀ hash, hash ∈ (book.removeByNullifier nullifier).2 ↔
        ∃ offer ∈ book.byHash.offers, offer.offerHash = hash ∧
          toLowerCase nullifier ∈ offer.inputNullifiers := by
  refine ⟨?_, Buckets.bucket_nodup _ _, fun hash => h.nullifiers _ hash⟩
  have hlower : ∀ hash ∈ book.hashesByNullifier.bucket (toLowerCase nullifier),
      toLowerCase hash = hash := by
    intro hash hhash
    obtain ⟨offer, hoffer, rfl, -⟩ := (h.nullifiers _ hash).mp hhash
    exact book.byHash.lower offer hoffer
  show (List.foldl remove book _).byHash.offers = _
  rw [foldl_remove_offers _ book hlower]
  refine List.filter_congr fun offer hoffer => ?_
  rw [decide_eq_decide]
  refine not_congr ((h.nullifiers _ _).trans ⟨?_, fun hmem => ⟨offer, hoffer, rfl, hmem⟩⟩)
  rintro ⟨other, hother, hhash, hmem⟩
  -- one hash, one offer
  have hsame := Book.get_of_mem hother
  rw [hhash, Book.get_of_mem hoffer] at hsame
  rwa [Option.some.inj hsame]

/-- **The book after any run**: the indices list its offers and have no empty bucket,
`removeByNullifier` removes what declares the nullifier, and a resync leaves the last offers of the
snapshot, with the blobs that were cached. It reports the difference exactly when the snapshot is
distinguished. -/
theorem book_indices (ops : List BookOp) :
    ((run ops).Indexed ∧
      (∀ entry ∈ (run ops).hashesByNullifier.entries, entry.2 ≠ [] ∧ entry.2.Nodup) ∧
      ∀ entry ∈ (run ops).byPair.entries, entry.2 ≠ [] ∧ entry.2.Nodup) ∧
    (∀ nullifier, ((run ops).removeByNullifier nullifier).1.byHash.offers =
        (run ops).byHash.offers.filter (toLowerCase nullifier ∉ ·.inputNullifiers)) ∧
    ((∀ op ∈ ops, ∀ offer ∈ op.offers, Parsed offer) →
      ∀ offers : List BookOffer, (∀ offer ∈ offers, Parsed offer) →
        (∀ offer, offer ∈ ((run ops).resync offers).1.byHash.offers ↔
          ∃ hash last, lastOf offers hash = some last ∧ offer = BookOffer.stored
            { last with blob := last.blob.or (((run ops).byHash.get hash).bind (·.blob)) }) ∧
        (DiffExact (run ops).byHash ((run ops).resync offers).1.byHash
          ((run ops).resync offers).2 ↔ Distinguished (run ops).byHash offers)) := by
  have hindexed := indexed_run ops
  refine ⟨⟨hindexed, (run ops).hashesByNullifier.filled, (run ops).byPair.filled⟩,
    fun nullifier => (removeByNullifier_spec hindexed nullifier).1, fun hops offers hoffers => ?_⟩
  have hparsed := parsed_run hops
  refine ⟨fun offer => ?_, resync_diffExact_iff hindexed hparsed hoffers⟩
  rw [resync_offers]
  refine exists_congr fun hash => exists_congr fun last => and_congr_right fun hlast => ?_
  have hlastMem : last ∈ offers := List.mem_reverse.mp (List.mem_of_find?_eq_some hlast)
  rw [carryBlob_eq (hoffers last hlastMem) fun old hold =>
    hparsed old (get_eq_some_iff.mp hold).1]

end IndexedBook

namespace RepeatedNullifier

def ident (c : Char) : String := String.ofList (List.replicate 64 c)

/-- An offer whose list of nullifiers repeats one. -/
def offer : BookOffer where
  offerHash := ident 'a'
  gives := [⟨ident 'b', 10, .shielded⟩]
  wants := [⟨ident 'c', 20, .shielded⟩]
  expiresAt := some 1000
  inputNullifiers := [ident 'd', ident 'd']

theorem parsed : IndexedBook.Parsed offer := by
  refine ⟨by decide +kernel, ?_, by decide⟩
  intro nullifier hnullifier
  have : nullifier = ident 'd' := by simpa [offer] using hnullifier
  subst this
  exact ⟨by decide +kernel, by decide +kernel⟩

end RepeatedNullifier

open IndexedBook RepeatedNullifier in
/-- A book of the offer, after the empty snapshot. -/
theorem book_indices_emptied :
    DiffExact (run [.upsert offer]).byHash ((run [.upsert offer]).resync []).1.byHash
      ((run [.upsert offer]).resync []).2 := by
  have hops : ∀ op ∈ [BookOp.upsert offer], ∀ other ∈ op.offers, Parsed other := by
    simp [BookOp.offers, parsed]
  obtain ⟨-, hexact⟩ := (book_indices [.upsert offer]).2.2 hops [] (by simp)
  exact hexact.mpr fun hash last old hlast => nomatch (show none = some last from hlast)

open IndexedBook RepeatedNullifier in
/-- A resync with the offer the book holds reports it as updated, and changes nothing. -/
theorem resync_reports_unchanged_offer :
    ((run [.upsert offer]).resync [offer]).2.updated = [ident 'a'] ∧
      ((run [.upsert offer]).resync [offer]).1.byHash.offers = (run [.upsert offer]).byHash.offers ∧
      ¬ DiffExact (run [.upsert offer]).byHash ((run [.upsert offer]).resync [offer]).1.byHash
        ((run [.upsert offer]).resync [offer]).2 := by
  have hupdated : ((run [.upsert offer]).resync [offer]).2.updated = [ident 'a'] := by
    decide +kernel
  have hbefore : (run [.upsert offer]).byHash.offers = [offer.stored] := by decide +kernel
  have hafter : ((run [.upsert offer]).resync [offer]).1.byHash.offers = [offer.stored] := by
    decide +kernel
  refine ⟨hupdated, hafter.trans hbefore.symm, fun hexact => ?_⟩
  obtain ⟨old, hold, new, hnew, -, -, hdiffer⟩ :=
    (hexact.updated.2 (ident 'a')).mp (by rw [hupdated]; exact List.mem_singleton_self _)
  rw [hbefore, List.mem_singleton] at hold
  rw [hafter, List.mem_singleton] at hnew
  rw [hold, hnew] at hdiffer
  exact hdiffer ⟨.rfl, .rfl, rfl, rfl, .rfl, .inr (.inr rfl)⟩

end ZswapKernel
