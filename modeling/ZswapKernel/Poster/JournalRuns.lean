import ZswapKernel.Poster.CoinOffers

/-!
# The journal over any run

What the journal says at the end of every tick: a coin with a consumed offer is spent, a coin has at
most one offer that is not over, and the file has what is in memory.

`reconcile` closes the coin of an offer that the kernel consumed; the poll of a new offer does not,
and nothing comes back to it. A write that throws leaves its mutation in memory.

* `triple_runTick_kept` — a tick keeps the journal, as long as no poll reads `consumed` and no write
  throws.
* `journal_kept` — every run of such ticks, and what a write that throws leaves.
-/

namespace ZswapKernel

open Program

/-! ## Kept journals -/

/-- What a tick does not share with the kernel. -/
structure PosterDisk where
  journal : PosterJournal
  file : PosterJournal
  writes : List Bool
  polled : List (String × String)

def PosterWorld.disk (world : PosterWorld) : PosterDisk :=
  ⟨world.journal, world.file, world.writes, world.polled⟩

/-- The offers of a coin: only the latest may not be over. -/
structure JournalCoin.Settled (coin : JournalCoin) : Prop where
  distinct : (coin.offers.map (·.offerId)).Nodup
  earlier : ∀ offer ∈ coin.offers.dropLast, offer.status.nonTerminal = false

/-- A coin with a consumed offer is spent. -/
def JournalCoin.Closed (coin : JournalCoin) : Prop :=
  ∀ offer ∈ coin.offers, offer.status = .consumed → coin.state = .spent

namespace PosterDisk

/-- What holds of the journal between the calls of a tick. `closing` is a coin whose consumed offer is
noted and that is not spent yet. -/
structure Kept (closing : Option String) (disk : PosterDisk) : Prop where
  keys : (disk.journal.coins.map Prod.fst).Nodup
  normal : ∀ key ∈ disk.journal.coins.map Prod.fst, normaliseNonce key = .ok key
  lower : ∀ id ∈ disk.journal.offerIds, toLowerCase id = id
  settled : ∀ entry ∈ disk.journal.coins, entry.2.Settled
  closed : ∀ entry ∈ disk.journal.coins, closing = some entry.1 ∨ entry.2.Closed
  stored : disk.file = disk.journal
  writable : ∀ ok ∈ disk.writes, ok = true

/-- The latest offer of the coin. -/
def LatestIs (key id : String) (disk : PosterDisk) : Prop :=
  ∃ coin last, disk.journal.find key = some coin ∧ coin.offers.getLast? = some last ∧
    last.offerId = id

/-- A coin that may be offered, under an id that none of its earlier offers has. -/
def Offerable (key : String) (ids : List String) (disk : PosterDisk) : Prop :=
  ∃ coin, disk.journal.find key = some coin ∧ coin.state ≠ .spent ∧
    PosterJournal.released coin = true ∧
    ∀ id ∈ ids, id ∉ coin.offers.dropLast.map (·.offerId)

/-- None of the ids is that of an offer before the latest of its coin. -/
def Unbuilt (ids : List String) (disk : PosterDisk) : Prop :=
  ∀ entry ∈ disk.journal.coins, ∀ id ∈ ids, id ∉ entry.2.offers.dropLast.map (·.offerId)

/-- The disk after a journal call whose write succeeds. -/
def saved (disk : PosterDisk) (journal : PosterJournal) (writes : List Bool) : PosterDisk :=
  { disk with journal, file := journal, writes }

end PosterDisk

open PosterDisk

theorem OfferStatus.over_of_releasable {status : OfferStatus} (h : status.releasable = true) :
    status.nonTerminal = false ∧ status ≠ .consumed := by
  cases status <;> first | exact ⟨rfl, by decide⟩ | cases h

/-- Every offer of a released coin is over. -/
theorem JournalCoin.Settled.over {coin : JournalCoin} (h : coin.Settled)
    (hreleased : PosterJournal.released coin = true) :
    ∀ offer ∈ coin.offers, offer.status.nonTerminal = false := by
  intro offer hoffer
  rcases List.eq_nil_or_concat coin.offers with hnil | ⟨earlier, last, hoffers⟩
  · rw [hnil] at hoffer
    cases hoffer
  · have hlast : coin.offers.getLast? = some last := by rw [hoffers]; simp
    unfold PosterJournal.released at hreleased
    rw [hlast] at hreleased
    rw [hoffers, List.concat_eq_append] at hoffer
    rcases List.mem_append.mp hoffer with hmem | hmem
    · refine h.earlier offer ?_
      rw [hoffers, List.concat_eq_append, List.dropLast_concat]
      exact hmem
    · rw [List.mem_singleton.mp hmem]
      exact (OfferStatus.over_of_releasable hreleased).1

/-- Of the offers of a coin, only the latest may not be over. -/
theorem JournalCoin.Settled.open_sublist {coin : JournalCoin} (h : coin.Settled) :
    (coin.offers.filter (·.status.nonTerminal)).Sublist coin.offers.getLast?.toList := by
  rcases List.eq_nil_or_concat coin.offers with hnil | ⟨earlier, last, hoffers⟩
  · rw [hnil]
    exact List.nil_sublist _
  · have hover : earlier.filter (·.status.nonTerminal) = [] := by
      refine List.filter_eq_nil_iff.mpr fun offer hoffer => ?_
      rw [h.earlier offer (by rw [hoffers, List.concat_eq_append, List.dropLast_concat]; exact hoffer)]
      exact Bool.false_ne_true
    rw [hoffers, List.concat_eq_append, List.filter_append, hover, List.getLast?_concat]
    exact List.filter_sublist

theorem JournalCoin.Settled.open_length {coin : JournalCoin} (h : coin.Settled) :
    (coin.offers.filter (·.status.nonTerminal)).length ≤ 1 := by
  refine h.open_sublist.length_le.trans ?_
  cases coin.offers.getLast? <;> simp

theorem sublist_flatMap {α β : Type} {l : List α} {f : α → List β} {g : α → β}
    (h : ∀ a ∈ l, (f a).Sublist [g a]) : (l.flatMap f).Sublist (l.map g) := by
  induction l with
  | nil => exact List.nil_sublist _
  | cons a l ih =>
    rw [List.flatMap_cons, List.map_cons, ← List.singleton_append]
    exact (h a List.mem_cons_self).append (ih fun b hb => h b (List.mem_cons_of_mem _ hb))

/-- What is changed under the id of the latest offer is the latest offer. -/
theorem modify_latest {offers : List JournalOffer} {index : Nat} {target last : JournalOffer}
    {f : JournalOffer → JournalOffer} (hdistinct : (offers.map (·.offerId)).Nodup)
    (htarget : offers[index]? = some target) (hlast : offers.getLast? = some last)
    (hid : last.offerId = target.offerId) : offers.modify index f = offers.dropLast ++ [f last] := by
  obtain ⟨earlier, rfl⟩ := List.getLast?_eq_some_iff.mp hlast
  obtain ⟨hlt, hget⟩ := List.getElem?_eq_some_iff.mp htarget
  have hindex : index = earlier.length := by
    refine (List.getElem?_inj (by simpa using hlt) hdistinct).mp ?_
    rw [List.getElem?_map, List.getElem?_map, htarget, List.getElem?_concat_length,
      Option.map_some, Option.map_some, hid]
  subst hindex
  rw [List.dropLast_concat, List.modify_eq_take_cons_drop hlt]
  simp

namespace PosterDisk.Kept

variable {disk : PosterDisk} {closing : Option String} {journal' : PosterJournal}
  {key : String} {before after : JournalCoin} {writes : List Bool}

/-- A record is written. -/
theorem rewrite (h : disk.Kept closing) (hwrite : Rewrites disk.journal journal' key before after)
    (hwrites : ∀ ok ∈ writes, ok = true) {closing' : Option String}
    (hlower : ∀ offer ∈ after.offers, toLowerCase offer.offerId = offer.offerId)
    (hsettled : after.Settled) (hclosed : closing' = some key ∨ after.Closed)
    (hothers : closing = none ∨ closing = some key) : (disk.saved journal' writes).Kept closing' where
  keys := by
    show (journal'.coins.map Prod.fst).Nodup
    rw [hwrite.keys]
    exact h.keys
  normal := by
    show ∀ key ∈ journal'.coins.map Prod.fst, _
    rw [hwrite.keys]
    exact h.normal
  lower id hid := by
    rcases hwrite.offerIds hid with hold | hnew
    · exact h.lower id hold
    · obtain ⟨offer, hoffer, rfl⟩ := List.mem_map.mp hnew
      exact hlower offer hoffer
  settled entry hentry := by
    rcases hwrite.mem hentry with rfl | ⟨hold, -⟩
    · exact hsettled
    · exact h.settled entry hold
  closed entry hentry := by
    rcases hwrite.mem hentry with rfl | ⟨hold, hne⟩
    · exact hclosed
    · refine .inr ((h.closed entry hold).resolve_left fun hclosing => ?_)
      rcases hothers with hnone | hsome
      · rw [hnone] at hclosing
        cases hclosing
      · exact hne (Option.some.inj (hclosing.symm.trans hsome))
  stored := rfl
  writable := hwrites

theorem lower_of_find (h : disk.Kept closing) {coin : JournalCoin}
    (hfind : disk.journal.find key = some coin) {offer : JournalOffer}
    (hoffer : offer ∈ coin.offers) : toLowerCase offer.offerId = offer.offerId :=
  h.lower _ (PosterJournal.mem_offerIds_of_find hfind hoffer)

theorem normal_of_find (h : disk.Kept closing) {coin : JournalCoin}
    (hfind : disk.journal.find key = some coin) : normaliseNonce key = .ok key :=
  h.normal _ (List.mem_map_of_mem (PosterJournal.mem_of_find hfind))

theorem settled_of_find (h : disk.Kept closing) {coin : JournalCoin}
    (hfind : disk.journal.find key = some coin) : coin.Settled :=
  h.settled _ (PosterJournal.mem_of_find hfind)

theorem closed_of_find (h : disk.Kept none) {coin : JournalCoin}
    (hfind : disk.journal.find key = some coin) : coin.Closed :=
  (h.closed _ (PosterJournal.mem_of_find hfind)).resolve_left (by simp)

/-- The status of the latest offer is written. -/
theorem setLatest (h : disk.Kept none) {nonce offerId : String} {status : OfferStatus}
    (hkey : normaliseNonce nonce = .ok key)
    (hset : disk.journal.setOfferStatus nonce offerId status = .ok journal')
    (hlatest : LatestIs key (toLowerCase offerId) disk) (hwrites : ∀ ok ∈ writes, ok = true) :
    ∃ before last, Rewrites disk.journal journal' key before { before with
        offers := before.offers.dropLast ++ [{ last with status }] } ∧
      before.offers.getLast? = some last ∧ last.offerId = toLowerCase offerId ∧
      (disk.saved journal' writes).Kept (if status = .consumed then some key else none) := by
  obtain ⟨before, index, hwrite, target, htarget, htargetId⟩ := setOfferStatus_eq_ok hkey hset
  obtain ⟨coin, last, hfind, hlast, hid⟩ := hlatest
  cases Option.some.inj (hfind.symm.trans hwrite.here)
  have hsettled := h.settled_of_find hfind
  rw [modify_latest hsettled.distinct htarget hlast (hid.trans htargetId.symm)] at hwrite
  obtain ⟨earlier, hoffers⟩ := List.getLast?_eq_some_iff.mp hlast
  have hdrop : before.offers.dropLast = earlier := by rw [hoffers, List.dropLast_concat]
  refine ⟨before, last, hwrite, hlast, hid, h.rewrite hwrite hwrites ?_ ?_ ?_ (.inl rfl)⟩
  · intro offer hoffer
    rcases List.mem_append.mp hoffer with hold | hnew
    · exact h.lower_of_find hfind (List.mem_of_mem_dropLast hold)
    · rw [List.mem_singleton.mp hnew]
      show toLowerCase last.offerId = last.offerId
      exact h.lower_of_find hfind (List.mem_of_getLast? hlast)
  · constructor
    · have hids := hsettled.distinct
      rw [hoffers] at hids
      rw [hdrop]
      simpa using hids
    · intro offer hoffer
      refine hsettled.earlier offer ?_
      simpa using hoffer
  · split
    · exact .inl rfl
    · rename_i hstatus
      refine .inr fun offer hoffer hconsumed => ?_
      rcases List.mem_append.mp hoffer with hold | hnew
      · have hclosed := h.closed_of_find hfind
        exact hclosed offer (List.mem_of_mem_dropLast hold) hconsumed
      · rw [List.mem_singleton.mp hnew] at hconsumed
        exact absurd hconsumed hstatus

/-- The coin is spent. -/
theorem markSpent (h : disk.Kept closing) (hclosing : closing = none ∨ closing = some key)
    {nonce : String} (hkey : normaliseNonce nonce = .ok key)
    (hspent : disk.journal.markSpent nonce = .ok journal') (hwrites : ∀ ok ∈ writes, ok = true) :
    ∃ before, Rewrites disk.journal journal' key before { before with state := .spent } ∧
      (disk.saved journal' writes).Kept none := by
  obtain ⟨before, hwrite⟩ := markSpent_eq_ok hkey hspent
  refine ⟨before, hwrite, h.rewrite hwrite hwrites
    (fun offer hoffer => h.lower_of_find hwrite.here hoffer) ?_ (.inr fun _ _ _ => rfl) hclosing⟩
  exact ⟨(h.settled_of_find hwrite.here).distinct, (h.settled_of_find hwrite.here).earlier⟩

/-- An offer is recorded on a coin that may be offered. -/
theorem recordOffer (h : disk.Kept none) {nonce : String} {input : RecordOfferInput}
    (hkey : normaliseNonce nonce = .ok key) {ids : List String} (hoffer : Offerable key ids disk)
    (hrecord : disk.journal.recordOffer nonce input = .ok journal')
    (hstatus : input.status ≠ .consumed) (hwrites : ∀ ok ∈ writes, ok = true) :
    ∃ before offer state, Rewrites disk.journal journal' key before { before with
        offers := before.offers ++ [offer], state } ∧
      offer.offerId = toLowerCase input.offerId ∧ (disk.saved journal' writes).Kept none := by
  obtain ⟨before, offer, state, hwrite, hid, hofferStatus, hfresh⟩ := recordOffer_eq_ok hkey hrecord
  obtain ⟨coin, hfind, hspent, hreleased, -⟩ := hoffer
  cases Option.some.inj (hfind.symm.trans hwrite.here)
  have hsettled := h.settled_of_find hfind
  refine ⟨before, offer, state, hwrite, hid, h.rewrite hwrite hwrites ?_ ?_ (.inr ?_) (.inl rfl)⟩
  · intro other hother
    rcases List.mem_append.mp hother with hold | hnew
    · exact h.lower_of_find hfind hold
    · rw [List.mem_singleton.mp hnew, hid, toLowerCase_toLowerCase]
  · constructor
    · show ((before.offers ++ [offer]).map (·.offerId)).Nodup
      rw [List.map_append, List.map_singleton, List.nodup_append]
      refine ⟨hsettled.distinct, List.nodup_singleton _, fun old hold new hnew heq => ?_⟩
      rw [List.mem_singleton.mp hnew, hid] at heq
      exact hfresh (heq ▸ hold)
    · show ∀ other ∈ (before.offers ++ [offer]).dropLast, _
      rw [List.dropLast_concat]
      exact hsettled.over hreleased
  · intro other hother hconsumed
    rcases List.mem_append.mp hother with hold | hnew
    · exact absurd (h.closed_of_find hfind other hold hconsumed) hspent
    · rw [List.mem_singleton.mp hnew, hofferStatus] at hconsumed
      exact absurd hconsumed hstatus

/-- A coin is adopted. -/
theorem recordInventory (h : disk.Kept none) {nonce type nullifier : String} {value : Nat}
    {now : Int} (hkey : normaliseNonce nonce = .ok key)
    (hrecord : disk.journal.recordInventory nonce type value nullifier now = .ok journal')
    (hwrites : ∀ ok ∈ writes, ok = true) (ids : List String) :
    (disk.saved journal' writes).Kept none ∧ Offerable key ids (disk.saved journal' writes) := by
  obtain ⟨hnone, coin, hoffers, hstate, rfl⟩ := recordInventory_eq_ok hkey hrecord
  have hmem : ∀ entry ∈ disk.journal.coins ++ [(key, coin)],
      entry ∈ disk.journal.coins ∨ entry = (key, coin) := fun entry hentry =>
    (List.mem_append.mp hentry).imp_right List.mem_singleton.mp
  refine ⟨⟨?_, ?_, ?_, ?_, ?_, rfl, hwrites⟩, ?_⟩
  · show ((disk.journal.coins ++ [(key, coin)]).map Prod.fst).Nodup
    rw [List.map_append, List.map_singleton, List.nodup_append]
    refine ⟨h.keys, List.nodup_singleton _, fun old hold new hnew heq => ?_⟩
    rw [heq, List.mem_singleton.mp hnew] at hold
    rw [← Option.not_isSome_iff_eq_none] at hnone
    exact hnone (PosterJournal.find_isSome hold)
  · intro k hk
    obtain ⟨entry, hentry, rfl⟩ := List.mem_map.mp hk
    rcases hmem entry hentry with hold | rfl
    · exact h.normal _ (List.mem_map_of_mem hold)
    · exact normaliseNonce_idem hkey
  · intro id hid
    obtain ⟨entry, hentry, hid⟩ := List.mem_flatMap.mp hid
    rcases hmem entry hentry with hold | rfl
    · exact h.lower id (List.mem_flatMap.mpr ⟨entry, hold, hid⟩)
    · rw [hoffers] at hid
      cases hid
  · intro entry hentry
    rcases hmem entry hentry with hold | rfl
    · exact h.settled entry hold
    · exact ⟨by rw [hoffers]; exact List.nodup_nil, by rw [hoffers]; simp⟩
  · intro entry hentry
    rcases hmem entry hentry with hold | rfl
    · exact h.closed entry hold
    · refine .inr fun offer hoffer => ?_
      rw [hoffers] at hoffer
      cases hoffer
  · refine ⟨coin, ?_, by rw [hstate]; decide, ?_, by rw [hoffers]; simp⟩
    · show PosterJournal.find ⟨disk.journal.coins ++ [(key, coin)]⟩ key = some coin
      unfold PosterJournal.find at hnone ⊢
      rw [List.lookup_append, hnone, Option.none_or, List.lookup_cons_self]
    · unfold PosterJournal.released
      rw [hoffers]
      rfl

end PosterDisk.Kept

/-! ## The calls of a tick -/

/-- Holds as long as no poll has read `consumed`. -/
def Quietly (K : PosterDisk → Prop) (world : PosterWorld) : Prop :=
  (∀ poll ∈ world.disk.polled, poll.2 ≠ "consumed") → K world.disk

/-- Where a tick stops, the journal is kept. -/
abbrev StoppedKept : PosterStop → PosterWorld → Prop := fun _ => Quietly (Kept none)

theorem frames_answer {α : Type} (move : Move α) : Frames PosterWorld.disk (answer move) := by
  unfold answer
  refine Frames.bind (Frames.modify fun _ => rfl) fun _ => ?_
  cases move.answer with
  | some value => exact Frames.pure
  | none => exact Frames.throw

theorem frames_answerNext {α : Type} (moves : List (Move α)) :
    Frames PosterWorld.disk (answerNext moves) := by
  cases moves with
  | nil => exact Frames.throw
  | cons move rest => exact Frames.bind (frames_answer move) fun _ => Frames.pure

theorem frames_posts (coin offerId : String) (moves : List PostMove) :
    Frames PosterWorld.disk (moves.forM (post coin offerId)) :=
  Frames.forM fun _ => Frames.modify fun _ => rfl

/-- A call that does not touch the disk. -/
theorem triple_framed {α : Type} {m : Poster α} (hm : Frames PosterWorld.disk m)
    {K : PosterDisk → Prop} (hK : ∀ disk, K disk → disk.Kept none) :
    Triple (Quietly K) m (fun _ => Quietly K) StoppedKept :=
  (hm.triple fun disk => (∀ poll ∈ disk.polled, poll.2 ≠ "consumed") → K disk).conseq
    (fun _ h => h) (fun _ _ h => h) fun _ _ h hquiet => hK _ (h hquiet)

/-- A journal call. -/
theorem triple_saved {K K' : PosterDisk → Prop}
    {f : PosterJournal → Except JournalError PosterJournal}
    (hK : ∀ disk, K disk → ∀ ok ∈ disk.writes, ok = true)
    (hok : ∀ disk journal writes, K disk → f disk.journal = .ok journal →
      (∀ ok ∈ writes, ok = true) → K' (disk.saved journal writes))
    (hthrow : ∀ disk error, K disk → f disk.journal = .error error → disk.Kept none) :
    Triple (Quietly K) (journaled f) (fun _ => Quietly K') StoppedKept := by
  unfold journaled
  refine Triple.bind (Q := fun read world => Quietly K world ∧ read = world)
    (Triple.get fun world h => ⟨h, rfl⟩) fun read => ?_
  cases hf : f read.journal with
  | error error =>
    rintro world ⟨h, rfl⟩ hquiet
    exact hthrow _ _ (h hquiet) hf
  | ok journal =>
    cases hwrites : read.writes with
    | nil =>
      rintro world ⟨h, rfl⟩ hquiet
      exact hok _ _ _ (h hquiet) hf fun ok hmem => nomatch hmem
    | cons ok writes =>
      cases ok with
      | false =>
        rintro world ⟨h, rfl⟩ hquiet
        have hmem : false ∈ read.writes := hwrites ▸ List.mem_cons_self
        cases hK _ (h hquiet) false hmem
      | true =>
        rintro world ⟨h, rfl⟩ hquiet
        refine hok _ _ _ (h hquiet) hf fun ok hmem => hK _ (h hquiet) ok ?_
        show ok ∈ read.writes
        rw [hwrites]
        exact List.mem_cons_of_mem _ hmem

namespace PosterDisk

/-- What other coins have is not touched. -/
theorem LatestIs.saved {disk : PosterDisk} {journal' : PosterJournal} {writes : List Bool}
    {key other id : String} {before after : JournalCoin}
    (h : LatestIs other id disk) (hwrite : Rewrites disk.journal journal' key before after)
    (hne : other ≠ key) : LatestIs other id (disk.saved journal' writes) := by
  obtain ⟨coin, last, hfind, hlast⟩ := h
  exact ⟨coin, last, (hwrite.find_other hne).trans hfind, hlast⟩

theorem Offerable.saved {disk : PosterDisk} {journal' : PosterJournal} {writes : List Bool}
    {key other : String} {ids : List String} {before after : JournalCoin}
    (h : Offerable other ids disk) (hwrite : Rewrites disk.journal journal' key before after)
    (hne : other ≠ key) : Offerable other ids (disk.saved journal' writes) := by
  obtain ⟨coin, hfind, hrest⟩ := h
  exact ⟨coin, (hwrite.find_other hne).trans hfind, hrest⟩

theorem Unbuilt.saved {disk : PosterDisk} {journal' : PosterJournal} {writes : List Bool}
    {key : String} {ids : List String} {before after : JournalCoin} (h : Unbuilt ids disk)
    (hwrite : Rewrites disk.journal journal' key before after)
    (hearlier : after.offers.dropLast = before.offers.dropLast) :
    Unbuilt ids (disk.saved journal' writes) := by
  intro entry hentry
  rcases hwrite.mem hentry with rfl | ⟨hold, -⟩
  · show ∀ id ∈ ids, id ∉ after.offers.dropLast.map (·.offerId)
    rw [hearlier]
    exact h _ (PosterJournal.mem_of_find hwrite.here)
  · exact h entry hold

end PosterDisk

/-! ## Reconciliation -/

/-- What is left of the list of `reconcile`: the latest offers of different coins. -/
structure Reconciling (ids : List String) (offers : List (String × JournalOffer)) (disk : PosterDisk) :
    Prop extends disk.Kept none where
  latest : ∀ entry ∈ offers, LatestIs entry.1 entry.2.offerId disk
  distinct : (offers.map Prod.fst).Nodup
  unbuilt : Unbuilt ids disk

/-- The first offer of the list, under the coin it is recorded on. -/
theorem Reconciling.first {ids : List String} {nonce : String} {offer : JournalOffer}
    {offers : List (String × JournalOffer)} {disk : PosterDisk}
    (h : Reconciling ids ((nonce, offer) :: offers) disk) :
    normaliseNonce nonce = .ok nonce ∧ LatestIs nonce (toLowerCase offer.offerId) disk := by
  have hlatest := h.latest _ List.mem_cons_self
  obtain ⟨coin, last, hfind, hlast, hid⟩ := hlatest
  have hlower := h.lower_of_find hfind (List.mem_of_getLast? hlast)
  refine ⟨h.normal_of_find hfind, coin, last, hfind, hlast, ?_⟩
  dsimp only at hid
  rw [← hid, hlower]

/-- The rest of the list. -/
theorem Reconciling.rest {ids : List String} {entry : String × JournalOffer}
    {offers : List (String × JournalOffer)} {disk : PosterDisk}
    (h : Reconciling ids (entry :: offers) disk) :
    Reconciling ids offers disk ∧ ∀ other ∈ offers, other.1 ≠ entry.1 := by
  obtain ⟨hother, hdistinct⟩ := List.nodup_cons.mp h.distinct
  refine ⟨{ h.toKept with
    latest := fun other hmem => h.latest other (List.mem_cons_of_mem _ hmem)
    distinct := hdistinct
    unbuilt := h.unbuilt }, fun other hmem hsame => hother ?_⟩
  rw [← hsame]
  exact List.mem_map_of_mem hmem

/-- `reconcileOffer` keeps the journal: a consumed offer closes its coin. -/
theorem triple_reconcileOffer_kept {ids : List String} {nonce : String} {offer : JournalOffer}
    {offers : List (String × JournalOffer)} {move : StatusMove}
    (hlives : move.diesBeforeSpent = false) :
    Triple (Quietly (Reconciling ids ((nonce, offer) :: offers))) (reconcileOffer nonce offer move)
      (fun _ => Quietly (Reconciling ids offers)) StoppedKept := by
  unfold reconcileOffer
  refine Triple.bind (triple_framed (frames_answer _) fun _ h => h.toKept) fun reply => ?_
  refine Triple.bind (Q := fun _ => Quietly (Reconciling ids ((nonce, offer) :: offers)))
    (Triple.get fun _ h => h) fun read => ?_
  cases hread : reply.read offer.offerId read.kernel with
  | error message => exact Triple.pure fun _ h hquiet => (h hquiet).rest.1
  | ok raw =>
    dsimp only
    generalize mapKernelStatus raw = status
    refine Triple.ite (fun _ => Triple.pure fun _ h hquiet => (h hquiet).rest.1) fun _ => ?_
    -- between the two writes the coin is closing
    refine Triple.bind (Q := fun _ => Quietly fun disk =>
      disk.Kept (if status = .consumed then some nonce else none) ∧
        (∀ entry ∈ offers, LatestIs entry.1 entry.2.offerId disk ∧ entry.1 ≠ nonce) ∧
        (offers.map Prod.fst).Nodup ∧ Unbuilt ids disk ∧ (disk.journal.find nonce).isSome)
      (triple_saved (fun _ h => h.writable) ?_ fun _ _ h _ => h.toKept) fun _ => ?_
    · intro disk journal writes h hset hwrites
      obtain ⟨hkey, hlatest⟩ := h.first
      obtain ⟨hrest, hother⟩ := h.rest
      obtain ⟨before, last, hwrite, -, -, hkept⟩ := h.toKept.setLatest hkey hset hlatest hwrites
      refine ⟨hkept, fun entry hentry => ⟨(hrest.latest entry hentry).saved hwrite
        (hother entry hentry), hother entry hentry⟩, hrest.distinct,
        h.unbuilt.saved hwrite (by simp), ?_⟩
      exact Option.isSome_iff_exists.mpr ⟨_, hwrite.find_self⟩
    · refine Triple.ite (fun hconsumed => ?_) fun hother => Triple.pure fun _ h hquiet => ?_
      · rw [hlives, if_neg Bool.false_ne_true]
        refine triple_saved (fun _ h => h.1.writable) ?_ ?_
        · rintro disk journal writes ⟨hkept, hlatest, hdistinct, hunbuilt, hfound⟩ hspent hwrites
          obtain ⟨coin, hcoin⟩ := Option.isSome_iff_exists.mp hfound
          rw [if_pos hconsumed] at hkept
          obtain ⟨before, hwrite, hkept⟩ :=
            hkept.markSpent (.inr rfl) (hkept.normal_of_find hcoin) hspent hwrites
          exact { hkept with
            latest := fun entry hentry =>
              (hlatest entry hentry).1.saved hwrite (hlatest entry hentry).2
            distinct := hdistinct
            unbuilt := hunbuilt.saved hwrite rfl }
        · rintro disk error ⟨hkept, -, -, -, hfound⟩ hspent
          -- the coin is in the journal
          obtain ⟨coin, hcoin⟩ := Option.isSome_iff_exists.mp hfound
          unfold PosterJournal.markSpent at hspent
          rw [hkept.normal_of_find hcoin] at hspent
          dsimp only [bind, Except.bind] at hspent
          rw [requireCoin_eq_ok.mpr hcoin] at hspent
          cases hspent
      · obtain ⟨hkept, hlatest, hdistinct, hunbuilt, -⟩ := h hquiet
        rw [if_neg hother] at hkept
        exact { hkept with
          latest := fun entry hentry => (hlatest entry hentry).1
          distinct := hdistinct
          unbuilt := hunbuilt }

theorem triple_reconcileOffers_kept {ids : List String} (offers : List (String × JournalOffer))
    {moves : List StatusMove} (hlives : ∀ move ∈ moves, move.diesBeforeSpent = false) :
    Triple (Quietly (Reconciling ids offers)) (reconcileOffers offers moves)
      (fun _ => Quietly (Reconciling ids [])) StoppedKept := by
  induction offers generalizing moves with
  | nil =>
    unfold reconcileOffers
    exact Triple.pure fun _ h => h
  | cons entry offers ih =>
    obtain ⟨nonce, offer⟩ := entry
    cases moves with
    | nil => exact Triple.throw fun _ h hquiet => (h hquiet).toKept
    | cons move moves =>
      unfold reconcileOffers
      exact Triple.bind (triple_reconcileOffer_kept (hlives move List.mem_cons_self))
        fun _ => ih fun move hmove => hlives move (List.mem_cons_of_mem _ hmove)

/-- The list of `reconcile` has the latest offers of different coins: the others are over. -/
theorem PosterDisk.Kept.listed {disk : PosterDisk} (h : disk.Kept none) {ids : List String}
    (hunbuilt : Unbuilt ids disk) : Reconciling ids disk.journal.nonTerminalOffers disk := by
  refine { h with latest := fun entry hentry => ?_, distinct := ?_, unbuilt := hunbuilt }
  · obtain ⟨⟨nonce, coin⟩, hcoin, hentry⟩ := List.mem_flatMap.mp hentry
    dsimp only at hentry
    split at hentry
    · cases hentry
    · obtain ⟨offer, hoffer, rfl⟩ := List.mem_map.mp hentry
      have hlatest := (h.settled _ hcoin).open_sublist.subset hoffer
      exact ⟨coin, offer, PosterJournal.find_of_mem h.keys hcoin, Option.mem_toList.mp hlatest, rfl⟩
  · refine h.keys.sublist ?_
    unfold PosterJournal.nonTerminalOffers
    rw [List.map_flatMap]
    refine sublist_flatMap fun entry hentry => ?_
    obtain ⟨nonce, coin⟩ := entry
    dsimp only
    split
    · exact List.nil_sublist _
    · have hone := (h.settled _ hentry).open_length
      rw [List.map_map]
      show (List.map (fun _ => nonce) _).Sublist [nonce]
      rw [List.map_const']
      exact List.replicate_sublist_replicate nonce |>.mpr hone

/-- The coins to offer again: the latest offer of each is over. -/
structure PosterDisk.Ready (coins ids : List String) (disk : PosterDisk) : Prop
    extends disk.Kept none where
  offerable : ∀ key ∈ coins, Offerable key ids disk
  distinct : coins.Nodup

theorem Reconciling.candidates {ids : List String} {disk : PosterDisk}
    (h : Reconciling ids [] disk) (nonces : List String) :
    disk.Ready ((disk.journal.candidates nonces).map Prod.fst) ids := by
  refine { h.toKept with offerable := fun key hkey => ?_, distinct := ?_ }
  · obtain ⟨⟨nonce, coin⟩, hmem, rfl⟩ := List.mem_map.mp hkey
    unfold PosterJournal.candidates at hmem
    rw [List.mem_insertionSort, List.mem_filter] at hmem
    obtain ⟨hcoin, hfree⟩ := hmem
    simp only [Bool.and_eq_true, Bool.or_eq_true, decide_eq_true_eq] at hfree
    obtain ⟨⟨hstate, -⟩, hreleased⟩ := hfree
    refine ⟨coin, PosterJournal.find_of_mem h.keys hcoin, fun hspent => ?_, hreleased,
      h.unbuilt _ hcoin⟩
    rcases hstate with hstate | hstate
    · cases hstate.symm.trans hspent
    · cases hstate.symm.trans hspent
  · have hperm := List.perm_insertionSort PosterJournal.older
    unfold PosterJournal.candidates
    refine ((hperm _).map Prod.fst).nodup_iff.mpr ?_
    exact h.keys.sublist (List.Sublist.map _ List.filter_sublist)

/-- `reconcile` gives coins that may be offered, each once. -/
theorem triple_reconcile_kept {ids : List String} {statuses : List StatusMove}
    (hlives : ∀ move ∈ statuses, move.diesBeforeSpent = false)
    (nonces : Move (Option (List String))) :
    Triple (Quietly fun disk => disk.Kept none ∧ Unbuilt ids disk) (reconcile statuses nonces)
      (fun candidates => Quietly (PosterDisk.Ready (candidates.map Prod.fst) ids))
      StoppedKept := by
  unfold reconcile
  refine Triple.bind (Q := fun read world =>
      Quietly (fun disk => disk.Kept none ∧ Unbuilt ids disk) world ∧ read = world)
    (Triple.get fun _ h => ⟨h, rfl⟩) fun read => ?_
  refine Triple.bind (Q := fun _ => Quietly (Reconciling ids [])) ?_ fun _ => ?_
  · rintro world ⟨h, rfl⟩
    refine triple_reconcileOffers_kept _ hlives read fun hquiet => ?_
    exact (h hquiet).1.listed (h hquiet).2
  refine Triple.bind (triple_framed (frames_answer nonces) fun _ h => h.toKept) fun available => ?_
  refine Triple.bind (Q := fun read world => Quietly (Reconciling ids []) world ∧ read = world)
    (Triple.get fun _ h => ⟨h, rfl⟩) fun read => ?_
  refine Triple.pure fun world h hquiet => ?_
  obtain ⟨h, rfl⟩ := h
  exact (h hquiet).candidates _

/-! ## Offering one coin -/

/-- The offer at hand is the latest of its coin; the other coins may be offered yet. -/
structure PosterDisk.Following (key id : String) (coins ids : List String) (disk : PosterDisk) :
    Prop extends disk.Ready coins ids where
  latest : LatestIs key id disk
  other : key ∉ coins

namespace PosterDisk.Ready

variable {disk : PosterDisk} {key : String} {coins ids : List String}

theorem mono {coins' : List String} (h : disk.Ready coins ids) (hcoins : coins'.Sublist coins) :
    disk.Ready coins' ids :=
  { h.toKept with
    offerable := fun key hkey => h.offerable key (hcoins.subset hkey)
    distinct := h.distinct.sublist hcoins }

theorem tail (h : disk.Ready (key :: coins) ids) : disk.Ready coins ids :=
  h.mono (List.sublist_cons_self key coins)

/-- The record of one coin is written; the others may be offered as before. -/
theorem saved (h : disk.Ready (key :: coins) ids) {journal' : PosterJournal}
    {before after : JournalCoin} (hwrite : Rewrites disk.journal journal' key before after)
    {writes : List Bool} (hkept : (disk.saved journal' writes).Kept none) :
    (disk.saved journal' writes).Ready coins ids :=
  { hkept with
    offerable := fun other hother => (h.offerable other (List.mem_cons_of_mem _ hother)).saved
      hwrite fun hsame => (List.nodup_cons.mp h.distinct).1 (hsame ▸ hother)
    distinct := h.tail.distinct }

end PosterDisk.Ready

/-- What a nonce of the wallet is in the journal, for a journaled coin. -/
def NonceOf (nonce key : String) : Prop :=
  ∀ disk : PosterDisk, disk.Kept none → (disk.journal.find key).isSome →
    normaliseNonce nonce = .ok key

theorem NonceOf.self (key : String) : NonceOf key key := by
  intro disk h hfound
  obtain ⟨coin, hcoin⟩ := Option.isSome_iff_exists.mp hfound
  exact h.normal_of_find hcoin

variable {coins ids : List String} {nonce key : String}

theorem PosterDisk.Following.nonceOf {disk : PosterDisk} {id : String}
    (h : disk.Following key id coins ids) (hkey : NonceOf nonce key) :
    normaliseNonce nonce = .ok key := by
  obtain ⟨coin, -, hfind, -⟩ := h.latest
  exact hkey disk h.toKept (Option.isSome_iff_exists.mpr ⟨coin, hfind⟩)

theorem PosterDisk.Ready.nonceOf {disk : PosterDisk} (h : disk.Ready (key :: coins) ids)
    (hkey : NonceOf nonce key) : normaliseNonce nonce = .ok key := by
  obtain ⟨coin, hfind, -⟩ := h.offerable key List.mem_cons_self
  exact hkey disk h.toKept (Option.isSome_iff_exists.mpr ⟨coin, hfind⟩)

/-- A status other than `consumed`, of the offer at hand. -/
theorem triple_setStatus_kept (hkey : NonceOf nonce key) {offerId : String} {status : OfferStatus}
    (hstatus : status ≠ .consumed) :
    Triple (Quietly (Following key (toLowerCase offerId) coins ids))
      (journaled (·.setOfferStatus nonce offerId status)) (fun _ => Quietly (Ready coins ids))
      StoppedKept := by
  refine triple_saved (fun _ h => h.writable) ?_ fun _ _ h _ => h.toKept
  intro disk journal writes h hset hwrites
  obtain ⟨before, last, hwrite, -, -, hkept⟩ :=
    h.toKept.setLatest (h.nonceOf hkey) hset h.latest hwrites
  rw [if_neg hstatus] at hkept
  exact { hkept with
    offerable := fun other hother =>
      (h.offerable other hother).saved hwrite fun hsame => h.other (hsame ▸ hother)
    distinct := h.distinct }

/-- `pollLive` keeps the journal, if no poll reads `consumed`. -/
theorem triple_pollLive_kept (hkey : NonceOf nonce key) (offerId : String) (tries : Nat)
    (moves : List (Move PollAnswer)) :
    Triple (Quietly (Following key (toLowerCase offerId) coins ids))
      (pollLive nonce offerId tries moves) (fun _ => Quietly (Ready coins ids)) StoppedKept := by
  induction tries generalizing moves with
  | zero =>
    unfold pollLive
    exact Triple.bind (triple_setStatus_kept hkey (by decide)) fun _ => Triple.pure fun _ h => h
  | succ tries ih =>
    unfold pollLive
    refine Triple.bind (triple_framed (frames_answerNext moves) fun _ h => h.toKept) fun next => ?_
    obtain ⟨poll, rest⟩ := next
    refine Triple.bind (Q := fun _ => Quietly (Following key (toLowerCase offerId) coins ids))
      (Triple.get fun _ h => h) fun read => ?_
    split
    · exact ih rest
    · rename_i status _
      refine Triple.ite (fun _ => ?_) fun _ => ?_
      · exact Triple.bind (triple_setStatus_kept hkey (by decide)) fun _ => Triple.pure fun _ h => h
      -- from here on the status is on the record of polls
      refine Triple.bind (Q := fun _ world => Quietly
        (Following key (toLowerCase offerId) coins ids) world ∧
          (toLowerCase offerId, status) ∈ world.polled) (Triple.modify ?_) fun _ => ?_
      · intro world h
        refine ⟨fun hquiet => ?_, List.mem_append_right _ (List.mem_singleton.mpr rfl)⟩
        have hold := h fun poll hpoll => hquiet poll (List.mem_append_left _ hpoll)
        exact ⟨⟨⟨hold.keys, hold.normal, hold.lower, hold.settled, hold.closed, hold.stored,
          hold.writable⟩, hold.offerable, hold.distinct⟩, hold.latest, hold.other⟩
      refine Triple.ite (fun _ => ?_) fun _ => Triple.ite (fun hover => ?_) fun _ => ?_
      · exact Triple.pure fun _ h hquiet => (h.1 hquiet).toReady
      · by_cases hconsumed : status = "consumed"
        · refine Triple.bind (Q := fun _ => Quietly (Ready coins ids))
            ((triple_saved (K := fun _ => False) ?_ ?_ ?_).pre ?_) fun _ => Triple.pure fun _ h => h
          · exact fun _ h => h.elim
          · exact fun _ _ _ h => h.elim
          · exact fun _ _ h => h.elim
          · exact fun world h hquiet => hquiet _ h.2 hconsumed
        · have hstatus : mapKernelStatus status ≠ .consumed := by
            rcases hover with hover | rfl | rfl
            · exact absurd hover hconsumed
            · decide +kernel
            · decide +kernel
          refine Triple.bind ((triple_setStatus_kept hkey hstatus).pre fun _ h => h.1)
            fun _ => Triple.pure fun _ h => h
      · exact (ih rest).pre fun _ h => h.1

/-- An offer is journaled on a coin that may be offered, or its status is. -/
theorem triple_recordOrUpdateOffer_kept (hkey : NonceOf nonce key) {input : RecordOfferInput}
    (hid : toLowerCase input.offerId ∈ ids) (hstatus : input.status ≠ .consumed) :
    Triple (Quietly (Ready (key :: coins) ids)) (journaled (recordOrUpdateOffer nonce input))
      (fun _ => Quietly (Following key (toLowerCase input.offerId) coins ids)) StoppedKept := by
  refine triple_saved (fun _ h => h.writable) ?_ fun _ _ h _ => h.toKept
  intro disk journal writes h hwritten hwrites
  have hnonce := h.nonceOf hkey
  have hoffer := h.offerable key List.mem_cons_self
  have hother := (List.nodup_cons.mp h.distinct).1
  unfold recordOrUpdateOffer at hwritten
  cases hrecord : disk.journal.recordOffer nonce input with
  | ok recorded =>
    rw [hrecord] at hwritten
    cases hwritten
    obtain ⟨before, offer, state, hwrite, hofferId, hkept⟩ :=
      h.toKept.recordOffer hnonce hoffer hrecord hstatus hwrites
    exact { h.saved hwrite hkept with
      latest := ⟨_, offer, hwrite.find_self, List.getLast?_concat, hofferId⟩
      other := hother }
  | error error =>
    rw [hrecord] at hwritten
    dsimp only at hwritten
    split at hwritten
    · -- the offer is on record, and it is not one of the earlier offers of the coin
      have hlatest : LatestIs key (toLowerCase input.offerId) disk := by
        obtain ⟨before, index, hwrite, target, htarget, htargetId⟩ :=
          setOfferStatus_eq_ok hnonce hwritten
        obtain ⟨coin, hfind, -, -, hunbuilt⟩ := hoffer
        cases Option.some.inj (hfind.symm.trans hwrite.here)
        have hmem := List.mem_of_getElem? htarget
        rcases List.eq_nil_or_concat before.offers with hnil | ⟨earlier, last, hoffers⟩
        · rw [hnil] at hmem
          cases hmem
        · rw [List.concat_eq_append] at hoffers
          refine ⟨before, last, hfind, by rw [hoffers, List.getLast?_concat], ?_⟩
          have hearlier := hunbuilt _ hid
          rw [hoffers, List.dropLast_concat] at hearlier
          rw [hoffers] at hmem
          rcases List.mem_append.mp hmem with hold | hlast
          · exact absurd (htargetId ▸ List.mem_map_of_mem hold) hearlier
          · rw [← List.mem_singleton.mp hlast, htargetId]
      obtain ⟨before, last, hwrite, -, hlastId, hkept⟩ :=
        h.toKept.setLatest hnonce hwritten hlatest hwrites
      rw [if_neg hstatus] at hkept
      exact { h.saved hwrite hkept with
        latest := ⟨_, _, hwrite.find_self, List.getLast?_concat, hlastId⟩
        other := hother }
    · cases hwritten

theorem PosterDisk.Following.toReady_quietly {id : String} :
    ∀ world, Quietly (Following key id coins ids) world → Quietly (Ready coins ids) world :=
  fun _ h hquiet => (h hquiet).toReady

theorem triple_followOffer_kept {cfg : TickConfig} {coin : SpendableCoin} {built : BuiltOffer}
    (hkey : NonceOf coin.nonce key) (hid : toLowerCase built.offerId ∈ ids) (wantAmount : Nat)
    (sponsored : Bool) (moves : OfferMoves) :
    Triple (Quietly (Ready (key :: coins) ids))
      (followOffer cfg coin built wantAmount sponsored moves) (fun _ => Quietly (Ready coins ids))
      StoppedKept := by
  unfold followOffer
  refine Triple.bind (triple_recordOrUpdateOffer_kept hkey hid (by simp)) fun _ => ?_
  refine Triple.bind (triple_pollLive_kept hkey built.offerId cfg.liveTries moves.polls)
    fun live => ?_
  refine Triple.ite (fun _ => ?_) fun _ => Triple.pure fun _ h => h
  refine Triple.bind (triple_framed (frames_answer moves.view) fun _ h => h.toKept) fun view => ?_
  cases view with
  | none => exact Triple.pure fun _ h => h
  | some inputNullifiers =>
    exact Triple.ite (fun _ => Triple.pure fun _ h => h) fun _ => Triple.pure fun _ h => h

theorem triple_postOffer_kept {cfg : TickConfig} {coin : SpendableCoin} {built : BuiltOffer}
    (hkey : NonceOf coin.nonce key) (hid : toLowerCase built.offerId ∈ ids) (wantAmount : Nat)
    (sponsored : Bool) (moves : OfferMoves) :
    Triple (Quietly (Ready (key :: coins) ids))
      (postOffer cfg key coin built wantAmount sponsored moves)
      (fun _ => Quietly (Ready coins ids)) StoppedKept := by
  have hrest : ∀ world, Quietly (Ready (key :: coins) ids) world → Quietly (Ready coins ids) world :=
    fun _ h hquiet => (h hquiet).tail
  unfold postOffer
  generalize postAttempts cfg.postRetries moves.posts = loop
  obtain ⟨outcome, made⟩ := loop
  refine Triple.bind (triple_framed (frames_posts _ _ made) fun _ h => h.toKept) fun _ => ?_
  cases outcome with
  | accepted => exact triple_followOffer_kept hkey hid wantAmount sponsored moves
  | crashed => exact Triple.throw fun _ h hquiet => (h hquiet).toKept
  | unreachable => exact Triple.pure hrest
  | exhausted => exact Triple.pure hrest
  | refused code =>
    refine Triple.bind (triple_recordOrUpdateOffer_kept hkey hid (by simp)) fun _ => ?_
    exact Triple.pure PosterDisk.Following.toReady_quietly

theorem triple_offerCoin_kept {cfg : TickConfig} {coin : SpendableCoin}
    (hkey : NonceOf coin.nonce key) (moves : OfferMoves) (hids : ∀ id ∈ moves.builtIds, id ∈ ids) :
    Triple (Quietly (Ready (key :: coins) ids)) (offerCoin cfg key coin moves)
      (fun _ => Quietly (Ready coins ids)) StoppedKept := by
  have hrest : ∀ world, Quietly (Ready (key :: coins) ids) world → Quietly (Ready coins ids) world :=
    fun _ h hquiet => (h hquiet).tail
  unfold offerCoin
  refine Triple.bind (triple_framed (frames_answer moves.quote) fun _ h => h.toKept) fun quote => ?_
  cases quote with
  | notSponsored message => exact Triple.pure hrest
  | failed message => exact Triple.pure hrest
  | sized wantAmount sponsored =>
    refine Triple.bind_returns (triple_framed (frames_answer moves.build) fun _ h => h.toKept)
      (returns_answer moves.build) fun built hbuilt => ?_
    cases built with
    | error message => exact Triple.pure hrest
    | ok built =>
      have hid : toLowerCase built.offerId ∈ ids := by
        apply hids
        unfold OfferMoves.builtIds
        rw [hbuilt]
        exact List.mem_singleton.mpr rfl
      exact Triple.ite (fun _ => triple_postOffer_kept hkey hid wantAmount sponsored moves)
        fun _ => Triple.pure hrest

/-! ## The tick -/

theorem triple_reofferCoins_kept {cfg : TickConfig} (candidates : List (String × JournalCoin))
    (moves : List ReofferMoves) (posted : Option String)
    (hids : ∀ move ∈ moves, ∀ id ∈ move.offer.builtIds, id ∈ ids) :
    Triple (Quietly (Ready (candidates.map Prod.fst) ids))
      (reofferCoins cfg candidates moves posted) (fun _ => Quietly (Ready [] ids))
      StoppedKept := by
  induction candidates generalizing moves posted with
  | nil =>
    unfold reofferCoins
    exact Triple.pure fun _ h => h
  | cons candidate candidates ih =>
    obtain ⟨nonce, record⟩ := candidate
    cases moves with
    | nil => exact Triple.throw fun _ h hquiet => (h hquiet).toKept
    | cons move moves =>
      have hrest := fun posted =>
        ih moves posted fun other hmem => hids other (List.mem_cons_of_mem _ hmem)
      unfold reofferCoins
      refine Triple.bind (triple_framed (frames_answer move.find) fun _ h => h.toKept)
        fun found => ?_
      cases found with
      | none => exact (hrest posted).pre fun _ h hquiet => (h hquiet).tail
      | some coin =>
        refine Triple.bind (@triple_offerCoin_kept _ ids nonce cfg { coin with nonce }
          (NonceOf.self nonce) move.offer (hids move List.mem_cons_self)) fun result => ?_
        cases result with
        | failed failure =>
          exact Triple.pure fun _ h hquiet => (h hquiet).mono (List.nil_sublist _)
        | ok offerId wantAmount sponsored => exact hrest (some nonce)

theorem triple_offerInventory_kept {cfg : TickConfig} (moves : TickMoves)
    (hids : ∀ id ∈ moves.offer.builtIds, id ∈ ids) :
    Triple (Quietly (Ready [] ids)) (offerInventory cfg moves) (fun _ => Quietly (Kept none))
      StoppedKept := by
  have hdone : ∀ world, Quietly (Ready [] ids) world → Quietly (Kept none) world :=
    fun _ h hquiet => (h hquiet).toKept
  unfold offerInventory
  refine Triple.bind (triple_framed (frames_answer moves.coins) fun _ h => h.toKept)
    fun available => ?_
  cases available with
  | none => exact Triple.pure hdone
  | some coins =>
    refine Triple.bind (Q := fun _ => Quietly (Ready [] ids)) (Triple.get fun _ h => h)
      fun read => ?_
    cases hselect : selectInventoryCoin cfg read.journal coins with
    | error error => exact Triple.throw hdone
    | ok selected =>
      cases selected with
      | none => exact Triple.pure hdone
      | some coin =>
        obtain ⟨key, hkey, -⟩ := selectInventoryCoin_unjournaled hselect
        refine Triple.bind (Q := fun _ => Quietly (Ready [key] ids))
          (triple_saved (fun _ h => h.writable) ?_ fun _ _ h _ => h.toKept) fun _ => ?_
        · intro disk journal writes h hrecord hwrites
          obtain ⟨hkept, hoffer⟩ := h.toKept.recordInventory hkey hrecord hwrites ids
          refine { hkept with offerable := ?_, distinct := List.nodup_singleton key }
          intro other hother
          rwa [List.mem_singleton.mp hother]
        · rw [(normaliseNonce_iff.mp hkey).2]
          refine Triple.bind (triple_offerCoin_kept (fun _ _ _ => hkey) moves.offer hids)
            fun result => ?_
          exact Triple.pure hdone

/-- `runTick` keeps the journal. -/
theorem triple_runTick_kept {cfg : TickConfig} (moves : TickMoves)
    (hlives : ∀ move ∈ moves.statuses, move.diesBeforeSpent = false) :
    Triple (Quietly fun disk => disk.Kept none ∧ Unbuilt moves.builtIds disk) (runTick cfg moves)
      (fun _ => Quietly (Kept none)) StoppedKept := by
  unfold runTick
  refine Triple.bind (Q := fun candidates world => candidates.elim (Quietly (Kept none) world)
      fun candidates => Quietly (Ready (candidates.map Prod.fst) moves.builtIds) world)
    (Triple.catching (E := StoppedKept) ?_ ?_) ?_
  · exact Triple.bind (triple_reconcile_kept hlives moves.nonces) fun candidates =>
      Triple.pure fun _ h => h
  · intro stop
    cases stop with
    | crashed => exact Triple.throw fun _ h => h
    | writeFailed => exact Triple.pure fun _ h => h
    | threw error => exact Triple.pure fun _ h => h
  · intro candidates
    cases candidates with
    | none => exact Triple.pure fun _ h => h
    | some candidates =>
      have hbudget := (candidates.take_sublist (max 1 cfg.maxReoffersPerTick)).map Prod.fst
      refine Triple.bind ((triple_reofferCoins_kept _ moves.reoffers none ?_).pre
        fun _ h hquiet => (h hquiet).mono hbudget) fun reoffered => ?_
      · exact fun move hmove id hid =>
          List.mem_append_left _ (List.mem_flatMap.mpr ⟨move, hmove, hid⟩)
      cases reoffered with
      | some outcome => exact Triple.pure fun _ h hquiet => (h hquiet).toKept
      | none =>
        exact triple_offerInventory_kept moves fun id hid => List.mem_append_right _ hid

/-! ## Runs -/

/-- A tick, and which of its writes of the journal succeed. -/
structure JournalTick where
  moves : TickMoves
  writes : List Bool := []

/-- The tick with these writes. -/
def writtenTick (cfg : TickConfig) (world : PosterWorld) (t : JournalTick) : PosterWorld :=
  tick cfg { world with writes := t.writes } t.moves

/-- The condition of a tick: no write throws, the process does not die while a consumed offer is
noted, no poll reads `consumed`, and no build has the id of an offer before the latest of a coin. -/
structure JournalTick.Quiet (cfg : TickConfig) (world : PosterWorld) (t : JournalTick) : Prop where
  written : ∀ ok ∈ t.writes, ok = true
  lives : ∀ move ∈ t.moves.statuses, move.diesBeforeSpent = false
  unconsumed : ∀ poll ∈ (writtenTick cfg world t).polled, poll.2 ≠ "consumed"
  unbuilt : Unbuilt t.moves.builtIds world.disk

/-- The runs of the poster from an empty journal whose ticks all meet the condition. -/
inductive QuietRun (cfg : TickConfig) : PosterWorld → Prop
  | start : QuietRun cfg {}
  | step {world : PosterWorld} (t : JournalTick) (hrun : QuietRun cfg world)
      (hquiet : t.Quiet cfg world) : QuietRun cfg (writtenTick cfg world t)

/-- What the journal says at the end of a tick. -/
structure PosterWorld.Consistent (world : PosterWorld) : Prop where
  spent : ∀ entry ∈ world.journal.coins, ∀ offer ∈ entry.2.offers, offer.status = .consumed →
    entry.2.state = .spent
  single : ∀ entry ∈ world.journal.coins,
    (entry.2.offers.filter (·.status.nonTerminal)).length ≤ 1
  stored : world.file = world.journal

theorem PosterDisk.Kept.consistent {world : PosterWorld} (h : world.disk.Kept none) :
    world.Consistent where
  spent entry hentry := (h.closed entry hentry).resolve_left (by simp)
  single entry hentry := (h.settled entry hentry).open_length
  stored := h.stored

/-- A tick that meets the condition keeps the journal, also when it crashes. -/
theorem kept_writtenTick {cfg : TickConfig} {world : PosterWorld} {t : JournalTick}
    (h : world.disk.Kept none) (hquiet : t.Quiet cfg world) :
    (writtenTick cfg world t).disk.Kept none := by
  have hstart : PosterDisk.Kept none { world.disk with writes := t.writes } :=
    ⟨h.keys, h.normal, h.lower, h.settled, h.closed, h.stored, hquiet.written⟩
  have htick : Triple _ (runTick cfg t.moves) _ StoppedKept :=
    triple_runTick_kept t.moves hquiet.lives
  have hrun := htick { world with writes := t.writes } fun _ => ⟨hstart, hquiet.unbuilt⟩
  have hpolled := hquiet.unconsumed
  unfold writtenTick tick at hpolled ⊢
  cases hout : (runTick cfg t.moves).outcome { world with writes := t.writes } with
  | mk result world' =>
    rw [hout] at hrun hpolled
    cases result with
    | ok outcome => exact hrun hpolled
    | error stop =>
      cases stop with
      | crashed =>
        -- the next process starts from what is in memory
        have hkept := hrun hpolled
        have hfile : { world' with journal := world'.file } = world' :=
          congrArg (fun journal => { world' with journal }) hkept.stored
        show ({ world' with journal := world'.file } : PosterWorld).disk.Kept none
        rw [hfile]
        exact hkept
      | writeFailed => exact hrun hpolled
      | threw error => exact hrun hpolled

theorem QuietRun.kept {cfg : TickConfig} {world : PosterWorld} (h : QuietRun cfg world) :
    world.disk.Kept none := by
  induction h with
  | start =>
    refine ⟨List.nodup_nil, ?_, ?_, ?_, ?_, rfl, ?_⟩ <;> intro _ hmem <;> cases hmem
  | step t _ hquiet ih => exact kept_writtenTick ih hquiet

/-- A write that throws leaves the change of the journal in memory. -/
theorem journaled_writeFailed {f : PosterJournal → Except JournalError PosterJournal}
    {world : PosterWorld} {journal : PosterJournal} {writes : List Bool}
    (hf : f world.journal = .ok journal) (hwrites : world.writes = false :: writes) :
    (journaled f).outcome world = (.error .writeFailed, { world with journal, writes }) := by
  unfold journaled
  rw [outcome_bind_ok (outcome_get world)]
  rw [hf, hwrites]
  rfl

/-- **In every run in which no write of the journal throws, no poll of a new offer reads `consumed`,
no process dies while a consumed offer is noted and no build repeats an offer of its coin before the
latest, the journal is consistent after every tick. A write that throws leaves the journal in memory
as it was only where the call changes nothing.** -/
theorem journal_kept {cfg : TickConfig} :
    (∀ world, QuietRun cfg world → world.Consistent) ∧
      ∀ (f : PosterJournal → Except JournalError PosterJournal) (world : PosterWorld)
        (journal : PosterJournal) (writes : List Bool),
        f world.journal = .ok journal → world.writes = false :: writes →
          (((journaled f).outcome world).2.journal = world.journal ↔ journal = world.journal) := by
  refine ⟨fun world h => h.kept.consistent, fun f world journal writes hf hwrites => ?_⟩
  rw [journaled_writeFailed hf hwrites]

namespace CoinTicks

/-- The adopted coin's offer is consumed before the poll sees it live. -/
def adoptConsumed : TickMoves :=
  { adopt [taken] with
    offer := { offer "a" [taken] with
      polls := [⟨[("a", .consumed)], some ⟨none, .current⟩⟩] } }

/-- The coin is offered, the offer expires, and the coin is offered again. -/
theorem quietRun : QuietRun config
    (writtenTick config (writtenTick config {} ⟨adopt [taken], []⟩) ⟨again [expired], []⟩) := by
  refine .step _ (.step _ .start ⟨by decide, by decide, by decide +kernel, ?_⟩)
    ⟨by decide, by decide, by decide +kernel, ?_⟩
  · intro entry hentry
    cases hentry
  · unfold Unbuilt
    decide +kernel

end CoinTicks

open CoinTicks in
theorem journal_kept_reoffer :
    (writtenTick config (writtenTick config {} ⟨adopt [taken], []⟩)
      ⟨again [expired], []⟩).Consistent ∧
      ((journaled (·.recordInventory "c" "g" 1000 "n" 0)).outcome
        { writes := [false] }).2.journal ≠ {} := by
  have hkept := @journal_kept config
  refine ⟨hkept.1 _ quietRun, fun hsame => ?_⟩
  have hwritten := (hkept.2 (·.recordInventory "c" "g" 1000 "n" 0) { writes := [false] }
    ⟨[("c", ⟨"g", 1000, "n", 0, .available, []⟩)]⟩ [] (by decide +kernel) rfl).mp hsame
  exact absurd hwritten (by decide)

open CoinTicks in
/-- The poll of a new offer reads `consumed`, and its coin is not spent. -/
theorem consumed_poll_unspent : ¬ ∀ (cfg : TickConfig) (ticks : List JournalTick),
    (ticks.foldl (writtenTick cfg) {}).Consistent := by
  intro hall
  have hspent := (hall config [⟨adoptConsumed, []⟩]).spent
  revert hspent
  decide +kernel

end ZswapKernel
