import Mathlib.Data.List.DropRight
import ZswapKernel.Poster.PosterTick

/-!
# One live offer on a coin

The poster keeps a coin off its candidates while the kernel holds an offer of it, as long as every
offer the kernel accepts reaches the journal (`one_live_offer`). The last attempt to post decides:
when an attempt was accepted and its answer lost, a `409 DUPLICATE_OFFER` of the next one is
journaled as a rejection, and an exhausted loop or a crash is not journaled at all. Either way the
coin is a candidate while its offer is live.
-/

namespace ZswapKernel

open Program

/-! ## Nonces -/

theorem toList_trim (value : String) : (trim value).toList =
    (value.toList.dropWhile isBlank).rdropWhile isBlank := by
  unfold trim
  rw [String.toList_ofList]
  rfl

/-- A text without blanks around it is its own trim. -/
theorem trim_of_bare {value : String}
    (hleft : value.toList.dropWhile isBlank = value.toList)
    (hright : value.toList.rdropWhile isBlank = value.toList) : trim value = value := by
  rw [← String.toList_inj, toList_trim, hleft, hright]

theorem trim_bare (value : String) :
    (trim value).toList.dropWhile isBlank = (trim value).toList ∧
      (trim value).toList.rdropWhile isBlank = (trim value).toList := by
  rw [toList_trim]
  refine ⟨?_, List.rdropWhile_idempotent _ _⟩
  rw [List.dropWhile_eq_self_iff]
  intro hlength hblank
  have hbare := List.rdropWhile_prefix isBlank
    (l := value.toList.dropWhile isBlank)
  rw [hbare.getElem hlength] at hblank
  have hpos := hlength.trans_le hbare.length_le
  exact List.dropWhile_get_zero_not _ _ hpos hblank

theorem toLowerCase_bare {value : String}
    (h : value.toList.dropWhile isBlank = value.toList ∧
      value.toList.rdropWhile isBlank = value.toList) :
    (toLowerCase value).toList.dropWhile isBlank = (toLowerCase value).toList ∧
      (toLowerCase value).toList.rdropWhile isBlank = (toLowerCase value).toList := by
  have hcomp : isBlank ∘ Char.toLower = isBlank :=
    funext isBlank_toLower
  unfold toLowerCase
  rw [String.toList_ofList]
  constructor
  · rw [List.dropWhile_map, hcomp, h.1]
  · unfold List.rdropWhile
    rw [← List.map_reverse, List.dropWhile_map, hcomp, ← List.map_reverse]
    exact congrArg (List.map Char.toLower) h.2

theorem normaliseNonce_iff {nonce key : String} :
    normaliseNonce nonce = .ok key ↔ trim nonce ≠ "" ∧ toLowerCase (trim nonce) = key := by
  unfold normaliseNonce
  by_cases h : trim nonce = ""
  · rw [if_pos h]
    exact ⟨fun h' => absurd h' (by simp), fun h' => absurd h h'.1⟩
  · rw [if_neg h, Except.ok.injEq]
    exact ⟨fun h' => ⟨h, h'⟩, fun h' => h'.2⟩

/-- A normalised nonce is its own. -/
theorem normaliseNonce_idem {nonce key : String} (h : normaliseNonce nonce = .ok key) :
    normaliseNonce key = .ok key := by
  obtain ⟨hblank, hkey⟩ := normaliseNonce_iff.mp h
  have hbare := toLowerCase_bare (trim_bare nonce)
  rw [hkey] at hbare
  have htrim : trim key = key := trim_of_bare hbare.1 hbare.2
  rw [normaliseNonce_iff, htrim]
  constructor
  · intro hempty
    apply hblank
    rw [hempty, ← String.toList_inj] at hkey
    rw [← String.toList_inj]
    simpa [toLowerCase] using hkey
  · rw [← hkey, toLowerCase_toLowerCase]

/-! ## The journal -/

namespace PosterJournal

theorem find_cons (entry : String × JournalCoin) (coins : List (String × JournalCoin))
    (k : String) : find ⟨entry :: coins⟩ k = if k = entry.1 then some entry.2 else find ⟨coins⟩ k := by
  unfold find
  obtain ⟨key, coin⟩ := entry
  by_cases h : k = key
  · subst h
    rw [List.lookup_cons_self, if_pos rfl]
  · have hbeq : (k == key) = false := by simpa using h
    rw [List.lookup_cons, hbeq, if_neg h]

theorem find_replace (journal : PosterJournal) (key : String) (coin : JournalCoin) (k : String) :
    (journal.replace key coin).find k =
      if k = key then (journal.find key).map fun _ => coin else journal.find k := by
  obtain ⟨coins⟩ := journal
  unfold replace
  induction coins with
  | nil => by_cases h : k = key <;> simp [find, h]
  | cons entry coins ih =>
    simp only [List.map_cons]
    rw [find_cons, ih, find_cons, find_cons]
    by_cases hentry : entry.1 = key
    · rw [if_pos hentry]
      by_cases h : k = key
      · simp [h, hentry]
      · simp [h, hentry]
    · rw [if_neg hentry]
      by_cases h : k = key
      · subst h
        simp [Ne.symm hentry]
      · simp [h]

/-- Writing back a record that is there keeps the nonces. -/
theorem keys_replace (journal : PosterJournal) (key : String) (coin : JournalCoin) :
    (journal.replace key coin).coins.map Prod.fst = journal.coins.map Prod.fst := by
  unfold replace
  rw [List.map_map]
  refine List.map_congr_left fun entry _ => ?_
  by_cases h : entry.1 = key <;> simp [h]

theorem find_of_mem {journal : PosterJournal} (hkeys : (journal.coins.map Prod.fst).Nodup)
    {key : String} {coin : JournalCoin} (h : (key, coin) ∈ journal.coins) :
    journal.find key = some coin := by
  obtain ⟨coins⟩ := journal
  induction coins with
  | nil => cases h
  | cons entry coins ih =>
    obtain ⟨hfirst, hrest⟩ := List.nodup_cons.mp hkeys
    rw [find_cons]
    rcases List.mem_cons.mp h with rfl | hmem
    · rw [if_pos rfl]
    · rw [if_neg]
      · exact ih hrest hmem
      · intro hkey
        exact hfirst (hkey ▸ List.mem_map_of_mem hmem)

theorem mem_of_find {journal : PosterJournal} {key : String} {coin : JournalCoin}
    (h : journal.find key = some coin) : (key, coin) ∈ journal.coins := by
  obtain ⟨coins⟩ := journal
  induction coins with
  | nil => cases h
  | cons entry coins ih =>
    rw [find_cons] at h
    split at h
    · rename_i hkey
      cases h
      subst hkey
      exact List.mem_cons_self
    · exact List.mem_cons_of_mem _ (ih h)

/-- The ids of the offers a journal records. -/
def offerIds (journal : PosterJournal) : List String :=
  journal.coins.flatMap fun entry => entry.2.offers.map (·.offerId)

theorem mem_offerIds_of_find {journal : PosterJournal} {key : String} {coin : JournalCoin}
    (h : journal.find key = some coin) {offer : JournalOffer} (hoffer : offer ∈ coin.offers) :
    offer.offerId ∈ journal.offerIds :=
  List.mem_flatMap.mpr ⟨(key, coin), mem_of_find h, List.mem_map_of_mem hoffer⟩

end PosterJournal

/-- A journal call as it changes the record of one coin. -/
structure Rewrites (journal journal' : PosterJournal) (key : String) (before after : JournalCoin) :
    Prop where
  here : journal.find key = some before
  written : journal' = journal.replace key after

namespace Rewrites

variable {journal journal' : PosterJournal} {key : String} {before after : JournalCoin}

theorem find_self (h : Rewrites journal journal' key before after) :
    journal'.find key = some after := by
  rw [h.written, PosterJournal.find_replace, if_pos rfl, h.here]
  rfl

theorem find_other (h : Rewrites journal journal' key before after) {k : String} (hk : k ≠ key) :
    journal'.find k = journal.find k := by
  rw [h.written, PosterJournal.find_replace, if_neg hk]

theorem keys (h : Rewrites journal journal' key before after) :
    journal'.coins.map Prod.fst = journal.coins.map Prod.fst := by
  rw [h.written, PosterJournal.keys_replace]

/-- Its records are the one written and the others of before. -/
theorem mem (h : Rewrites journal journal' key before after) {entry : String × JournalCoin}
    (hentry : entry ∈ journal'.coins) :
    entry = (key, after) ∨ (entry ∈ journal.coins ∧ entry.1 ≠ key) := by
  rw [h.written] at hentry
  obtain ⟨old, hold, rfl⟩ := List.mem_map.mp hentry
  by_cases hkey : old.1 = key
  · rw [if_pos hkey]
    exact .inl rfl
  · rw [if_neg hkey]
    exact .inr ⟨hold, hkey⟩

/-- The ids it records are those of before and those of the record. -/
theorem offerIds (h : Rewrites journal journal' key before after) {id : String}
    (hid : id ∈ journal'.offerIds) :
    id ∈ journal.offerIds ∨ id ∈ after.offers.map (·.offerId) := by
  obtain ⟨entry, hentry, hid⟩ := List.mem_flatMap.mp hid
  rcases h.mem hentry with rfl | ⟨hold, -⟩
  · exact Or.inr hid
  · exact Or.inl (List.mem_flatMap.mpr ⟨entry, hold, hid⟩)

end Rewrites

theorem requireCoin_eq_ok {journal : PosterJournal} {key : String} {coin : JournalCoin} :
    journal.requireCoin key = .ok coin ↔ journal.find key = some coin := by
  unfold PosterJournal.requireCoin
  cases journal.find key <;> simp

/-- What `recordOffer` writes. -/
theorem recordOffer_eq_ok {journal journal' : PosterJournal} {nonce key : String}
    {input : RecordOfferInput} (hkey : normaliseNonce nonce = .ok key)
    (h : journal.recordOffer nonce input = .ok journal') :
    ∃ before offer state, Rewrites journal journal' key before { before with
        offers := before.offers ++ [offer], state } ∧
      offer.offerId = toLowerCase input.offerId ∧ offer.status = input.status ∧
      toLowerCase input.offerId ∉ before.offers.map (·.offerId) := by
  unfold PosterJournal.recordOffer at h
  rw [hkey] at h
  obtain ⟨_, hsome, h⟩ := Except.bind_eq_ok.mp h
  cases hsome
  obtain ⟨before, hbefore, h⟩ := Except.bind_eq_ok.mp h
  dsimp only at h
  split at h
  · cases h
  split at h
  · cases h
  rename_i hfresh
  refine ⟨before, _, _, ⟨requireCoin_eq_ok.mp hbefore, (Except.ok.inj h).symm⟩, rfl, rfl, ?_⟩
  rintro hmem
  obtain ⟨old, hold, hid⟩ := List.mem_map.mp hmem
  exact hfresh (List.any_eq_true.mpr ⟨old, hold, decide_eq_true hid⟩)

/-- When `recordOffer` writes. -/
theorem recordOffer_total {journal : PosterJournal} {nonce key : String}
    {input : RecordOfferInput} (hkey : normaliseNonce nonce = .ok key)
    (hknown : (journal.find key).isSome) (hid : toLowerCase input.offerId ≠ "")
    (hnew : toLowerCase input.offerId ∉ journal.offerIds) :
    ∃ journal', journal.recordOffer nonce input = .ok journal' := by
  obtain ⟨coin, hcoin⟩ := Option.isSome_iff_exists.mp hknown
  have hfresh : ¬ (coin.offers.any fun offer => offer.offerId = toLowerCase input.offerId) := by
    intro hany
    obtain ⟨offer, hoffer, hsame⟩ := List.any_eq_true.mp hany
    exact hnew (of_decide_eq_true hsame ▸ PosterJournal.mem_offerIds_of_find hcoin hoffer)
  unfold PosterJournal.recordOffer
  rw [hkey]
  dsimp only [bind, Except.bind]
  rw [requireCoin_eq_ok.mpr hcoin]
  dsimp only
  rw [if_neg hid, if_neg hfresh]
  exact ⟨_, rfl⟩

/-- What `setOfferStatus` writes: the status of an offer of this id. -/
theorem setOfferStatus_eq_ok {journal journal' : PosterJournal} {nonce key offerId : String}
    {status : OfferStatus} (hkey : normaliseNonce nonce = .ok key)
    (h : journal.setOfferStatus nonce offerId status = .ok journal') :
    ∃ before index, Rewrites journal journal' key before { before with
        offers := before.offers.modify index fun offer => { offer with status } } ∧
      ∃ offer, before.offers[index]? = some offer ∧ offer.offerId = toLowerCase offerId := by
  unfold PosterJournal.setOfferStatus at h
  rw [hkey] at h
  obtain ⟨_, hsome, h⟩ := Except.bind_eq_ok.mp h
  cases hsome
  obtain ⟨before, hbefore, h⟩ := Except.bind_eq_ok.mp h
  dsimp only at h
  split at h
  · cases h
  rename_i index hindex
  refine ⟨before, index, ⟨requireCoin_eq_ok.mp hbefore, (Except.ok.inj h).symm⟩, ?_⟩
  obtain ⟨hlt, hfound, -⟩ := List.findIdx?_eq_some_iff_getElem.mp hindex
  exact ⟨before.offers[index], List.getElem?_eq_getElem hlt, of_decide_eq_true hfound⟩

/-- What `markSpent` writes. -/
theorem markSpent_eq_ok {journal journal' : PosterJournal} {nonce key : String}
    (hkey : normaliseNonce nonce = .ok key) (h : journal.markSpent nonce = .ok journal') :
    ∃ before, Rewrites journal journal' key before { before with state := .spent } := by
  unfold PosterJournal.markSpent at h
  rw [hkey] at h
  obtain ⟨_, hsome, h⟩ := Except.bind_eq_ok.mp h
  cases hsome
  obtain ⟨before, hbefore, h⟩ := Except.bind_eq_ok.mp h
  exact ⟨before, requireCoin_eq_ok.mp hbefore, (Except.ok.inj h).symm⟩

/-- What `recordInventory` writes: a new record without offers. -/
theorem recordInventory_eq_ok {journal journal' : PosterJournal} {nonce key type nullifier : String}
    {value : Nat} {now : Int} (hkey : normaliseNonce nonce = .ok key)
    (h : journal.recordInventory nonce type value nullifier now = .ok journal') :
    journal.find key = none ∧ ∃ coin, coin.offers = [] ∧ coin.state = .available ∧
      journal' = ⟨journal.coins ++ [(key, coin)]⟩ := by
  unfold PosterJournal.recordInventory at h
  rw [hkey] at h
  obtain ⟨_, hsome, h⟩ := Except.bind_eq_ok.mp h
  cases hsome
  dsimp only at h
  split at h
  · cases h
  rename_i hnone
  split at h
  · cases h
  exact ⟨by simpa using hnone, _, rfl, rfl, (Except.ok.inj h).symm⟩

/-! ## The kernel -/

namespace Kernel

theorem ids_close (closes : List (String × KernelOfferStatus)) (kernel : Kernel) :
    (kernel.close closes).map (·.offerId) = kernel.map (·.offerId) := by
  unfold close
  rw [List.map_map]
  refine List.map_congr_left fun offer _ => ?_
  by_cases h : offer.status = .live <;> simp [h]

/-- An offer that is still live was live, and is as it was. -/
theorem mem_close_live {closes : List (String × KernelOfferStatus)} {kernel : Kernel}
    {offer : KernelOffer} (h : offer ∈ kernel.close closes) (hlive : offer.status = .live) :
    offer ∈ kernel := by
  obtain ⟨old, hold, rfl⟩ := List.mem_map.mp h
  by_cases hstatus : old.status = .live
  · rw [if_pos hstatus] at hlive ⊢
    dsimp only at hlive
    rw [hlive, ← hstatus]
    exact hold
  · rw [if_neg hstatus] at hlive
    exact absurd hlive hstatus

theorem mem_accept {id coin : String} {kernel : Kernel} {offer : KernelOffer}
    (h : offer ∈ kernel.accept id coin) : offer ∈ kernel ∨ offer = ⟨id, coin, .live⟩ := by
  unfold accept at h
  split at h
  · exact Or.inl h
  · exact (List.mem_cons.mp h).symm

theorem unique_accept {id coin : String} {kernel : Kernel}
    (h : (kernel.map (·.offerId)).Nodup) : ((kernel.accept id coin).map (·.offerId)).Nodup := by
  unfold accept
  split
  · exact h
  · rename_i hany
    refine List.nodup_cons.mpr ⟨fun hmem => hany ?_, h⟩
    obtain ⟨offer, hoffer, hid⟩ := List.mem_map.mp hmem
    exact List.any_eq_true.mpr ⟨offer, hoffer, decide_eq_true hid⟩

end Kernel

theorem mapKernelStatus_text (status : KernelOfferStatus) :
    (mapKernelStatus status.text).releasable = true → status ≠ .live := by
  cases status <;> decide +kernel

/-- A status that releases the coin is the kernel's own, of an offer that is over. -/
theorem StatusAnswer.over {id raw : String} {kernel : Kernel} {reply : StatusAnswer}
    (hunique : (kernel.map (·.offerId)).Nodup) (hread : reply.read id kernel = .ok raw)
    (hover : (mapKernelStatus raw).releasable = true) :
    ∀ offer ∈ kernel, offer.offerId = id → offer.status ≠ .live := by
  cases reply with
  | unreachable message => cases hread
  | notFound =>
    cases hread
    exact absurd hover (by decide +kernel)
  | other raw' hunknown =>
    cases hread
    rw [hunknown] at hover
    exact absurd hover (by decide)
  | current =>
    have hread : kernel.statusText id = raw := Except.ok.inj hread
    rintro offer hoffer rfl
    have hfound : kernel.find? (·.offerId = offer.offerId) = some offer := by
      cases h : kernel.find? (·.offerId = offer.offerId) with
      | none =>
        rw [List.find?_eq_none] at h
        exact absurd (h offer hoffer) (by simp)
      | some found =>
        have hid : found.offerId = offer.offerId := by simpa using List.find?_some h
        rw [List.inj_on_of_nodup_map hunique (List.mem_of_find?_eq_some h) hoffer hid]
    unfold Kernel.statusText at hread
    rw [hfound] at hread
    rw [← hread] at hover
    exact mapKernelStatus_text _ hover

/-! ## The invariant -/

/-- The journal knows of a live offer: it is the latest of its coin, and not taken for over. -/
def Claimed (journal : PosterJournal) (offer : KernelOffer) : Prop :=
  ∃ coin last, journal.find offer.coin = some coin ∧ coin.offers.getLast? = some last ∧
    last.offerId = offer.offerId ∧ last.status.releasable = false

/-- The coin carries no live offer. -/
def Free (world : PosterWorld) (key : String) : Prop :=
  ∀ offer ∈ world.kernel, offer.coin = key → offer.status ≠ .live

/-- The world after a journal call whose write succeeds. -/
def PosterWorld.wrote (world : PosterWorld) (journal : PosterJournal) : PosterWorld :=
  { world with journal, file := journal }

/-- What holds of the poster and the kernel between the calls of a tick. `pending` is an offer the
kernel may have and the journal has not yet. -/
structure PosterWorld.Sound (pending : Option (String × String)) (world : PosterWorld) : Prop where
  claimed : ∀ offer ∈ world.kernel, offer.status = .live →
    pending = some (offer.coin, offer.offerId) ∨ Claimed world.journal offer
  unique : (world.kernel.map (·.offerId)).Nodup
  keys : (world.journal.coins.map Prod.fst).Nodup
  normal : ∀ key ∈ world.journal.coins.map Prod.fst, normaliseNonce key = .ok key
  lower : ∀ id ∈ world.journal.offerIds, toLowerCase id = id
  clean : ∀ post ∈ world.posts, post.others = []
  stored : world.file = world.journal
  writable : world.writes = []

/-- What the rest of a tick needs: coins it may still offer, and ids its builds will have. -/
structure PosterWorld.Ready (pending : Option (String × String)) (coins ids : List String)
    (world : PosterWorld) : Prop extends world.Sound pending where
  free : ∀ key ∈ coins, Free world key ∧ key ∈ world.journal.coins.map Prod.fst
  fresh : ∀ id ∈ ids, id ∉ world.journal.offerIds

namespace PosterWorld.Ready

variable {world : PosterWorld} {pending : Option (String × String)} {coins ids : List String}

/-- Offers end. -/
theorem close (h : world.Ready pending coins ids) (closes : List (String × KernelOfferStatus)) :
    PosterWorld.Ready pending coins ids { world with kernel := world.kernel.close closes } where
  claimed offer hoffer hlive := h.claimed offer (Kernel.mem_close_live hoffer hlive) hlive
  unique := by
    rw [Kernel.ids_close]
    exact h.unique
  keys := h.keys
  normal := h.normal
  lower := h.lower
  clean := h.clean
  stored := h.stored
  writable := h.writable
  free key hkey := by
    obtain ⟨hfree, hknown⟩ := h.free key hkey
    exact ⟨fun offer hoffer hcoin hlive =>
      hfree offer (Kernel.mem_close_live hoffer hlive) hcoin hlive, hknown⟩
  fresh := h.fresh

/-- A poll is noted. -/
theorem polled (h : world.Ready pending coins ids) (polled : List (String × String)) :
    PosterWorld.Ready pending coins ids { world with polled } :=
  ⟨⟨h.claimed, h.unique, h.keys, h.normal, h.lower, h.clean, h.stored, h.writable⟩, h.free,
    h.fresh⟩

theorem of_sound (h : world.Sound pending) : world.Ready pending [] [] :=
  { h with
    free := fun _ hkey => absurd hkey List.not_mem_nil
    fresh := fun _ hid => absurd hid List.not_mem_nil }

theorem mono (h : world.Ready pending coins ids) {coins' ids' : List String}
    (hcoins : ∀ key ∈ coins', key ∈ coins) (hids : ∀ id ∈ ids', id ∈ ids) :
    world.Ready pending coins' ids' :=
  { h.toSound with
    free := fun key hkey => h.free key (hcoins key hkey)
    fresh := fun id hid => h.fresh id (hids id hid) }

/-- A record is written: what is live on its coin has to be its latest offer. -/
theorem rewrite (h : world.Ready pending coins ids) {journal' : PosterJournal} {key : String}
    {before after : JournalCoin} (hwrite : Rewrites world.journal journal' key before after)
    (hhere : ∀ offer ∈ world.kernel, offer.status = .live → offer.coin = key →
      ∃ last, after.offers.getLast? = some last ∧ last.offerId = offer.offerId ∧
        last.status.releasable = false)
    (hpending : ∀ offer ∈ world.kernel, pending = some (offer.coin, offer.offerId) →
      offer.coin = key)
    (hlower : ∀ offer ∈ after.offers, toLowerCase offer.offerId = offer.offerId)
    (hfresh : ∀ offer ∈ after.offers, offer.offerId ∉ ids) :
    PosterWorld.Ready none coins ids (world.wrote journal') where
  claimed offer hoffer hlive := by
    right
    by_cases hkey : offer.coin = key
    · obtain ⟨last, hlast, hclaim⟩ := hhere offer hoffer hlive hkey
      exact ⟨after, last, hkey ▸ hwrite.find_self, hlast, hclaim⟩
    · rcases h.claimed offer hoffer hlive with hpend | ⟨coin, last, hfind, hclaim⟩
      · exact absurd (hpending offer hoffer hpend) hkey
      · exact ⟨coin, last, (hwrite.find_other hkey).trans hfind, hclaim⟩
  unique := h.unique
  keys := by
    show (journal'.coins.map Prod.fst).Nodup
    rw [hwrite.keys]
    exact h.keys
  normal := by
    show ∀ key ∈ journal'.coins.map Prod.fst, _
    rw [hwrite.keys]
    exact h.normal
  lower id hid := by
    rcases hwrite.offerIds hid with hold | hnew
    · exact h.lower id hold
    · obtain ⟨offer, hoffer, rfl⟩ := List.mem_map.mp hnew
      exact hlower offer hoffer
  clean := h.clean
  stored := rfl
  writable := h.writable
  free key hkey := by
    refine ⟨(h.free key hkey).1, ?_⟩
    show key ∈ journal'.coins.map Prod.fst
    rw [hwrite.keys]
    exact (h.free key hkey).2
  fresh id hid hmem := by
    rcases hwrite.offerIds hmem with hold | hnew
    · exact h.fresh id hid hold
    · obtain ⟨offer, hoffer, rfl⟩ := List.mem_map.mp hnew
      exact hfresh offer hoffer hid

/-- What is live on a coin of the journal is its latest offer. -/
theorem latest (h : world.Ready none coins ids) {key : String} {coin : JournalCoin}
    (hfind : world.journal.find key = some coin) {offer : KernelOffer}
    (hoffer : offer ∈ world.kernel) (hlive : offer.status = .live) (hkey : offer.coin = key) :
    ∃ last, coin.offers.getLast? = some last ∧ last.offerId = offer.offerId ∧
      last.status.releasable = false := by
  rcases h.claimed offer hoffer hlive with hpend | ⟨coin', last, hfind', hclaim⟩
  · cases hpend
  · rw [hkey, hfind] at hfind'
    cases hfind'
    exact ⟨last, hclaim⟩

theorem lower_of_find (h : world.Ready pending coins ids) {key : String} {coin : JournalCoin}
    (hfind : world.journal.find key = some coin) {offer : JournalOffer}
    (hoffer : offer ∈ coin.offers) : toLowerCase offer.offerId = offer.offerId :=
  h.lower _ (PosterJournal.mem_offerIds_of_find hfind hoffer)

theorem fresh_of_find (h : world.Ready pending coins ids) {key : String} {coin : JournalCoin}
    (hfind : world.journal.find key = some coin) {offer : JournalOffer}
    (hoffer : offer ∈ coin.offers) : offer.offerId ∉ ids :=
  fun hid => h.fresh _ hid (PosterJournal.mem_offerIds_of_find hfind hoffer)

/-- A status may be written unless it takes a live offer for over. -/
theorem setOfferStatus (h : world.Ready none coins ids) {journal' : PosterJournal}
    {nonce key offerId : String} {status : OfferStatus} (hkey : normaliseNonce nonce = .ok key)
    (hset : world.journal.setOfferStatus nonce offerId status = .ok journal')
    (hstatus : status.releasable = true → ∀ offer ∈ world.kernel,
      offer.offerId = toLowerCase offerId → offer.status ≠ .live) :
    PosterWorld.Ready none coins ids (world.wrote journal') := by
  obtain ⟨before, index, hwrite, target, htarget, htargetId⟩ := setOfferStatus_eq_ok hkey hset
  have hmem : ∀ offer ∈ before.offers.modify index fun offer => { offer with status },
      ∃ old ∈ before.offers, offer.offerId = old.offerId := by
    intro offer hoffer
    obtain ⟨i, hi⟩ := List.mem_iff_getElem?.mp hoffer
    rw [List.getElem?_modify] at hi
    obtain ⟨old, hold, rfl⟩ := Option.map_eq_some_iff.mp hi
    refine ⟨old, List.mem_of_getElem? hold, ?_⟩
    split <;> rfl
  refine h.rewrite hwrite ?_ (fun _ _ hpend => by cases hpend) ?_ ?_
  · intro offer hoffer hlive hcoin
    obtain ⟨last, hlast, hid, hclaim⟩ := h.latest hwrite.here hoffer hlive hcoin
    rw [List.getLast?_eq_getElem?] at hlast
    by_cases hindex : index = before.offers.length - 1
    · rw [← hindex, htarget] at hlast
      cases hlast
      refine ⟨{ target with status }, ?_, hid, ?_⟩
      · rw [List.getLast?_eq_getElem?, List.length_modify, ← hindex, List.getElem?_modify,
          htarget]
        simp
      · cases hover : status.releasable with
        | false => rfl
        | true => exact absurd hlive (hstatus hover offer hoffer (hid.symm.trans htargetId))
    · refine ⟨last, ?_, hid, hclaim⟩
      rw [List.getLast?_eq_getElem?, List.length_modify, List.getElem?_modify, hlast]
      simp [hindex]
  · intro offer hoffer
    obtain ⟨old, hold, hid⟩ := hmem offer hoffer
    rw [hid]
    exact h.lower_of_find hwrite.here hold
  · intro offer hoffer
    obtain ⟨old, hold, hid⟩ := hmem offer hoffer
    rw [hid]
    exact h.fresh_of_find hwrite.here hold

theorem markSpent (h : world.Ready none coins ids) {journal' : PosterJournal} {nonce key : String}
    (hkey : normaliseNonce nonce = .ok key)
    (hspent : world.journal.markSpent nonce = .ok journal') :
    PosterWorld.Ready none coins ids (world.wrote journal') := by
  obtain ⟨before, hwrite⟩ := markSpent_eq_ok hkey hspent
  exact h.rewrite hwrite (fun offer hoffer hlive hcoin => h.latest hwrite.here hoffer hlive hcoin)
    (fun _ _ hpend => by cases hpend) (fun offer hoffer => h.lower_of_find hwrite.here hoffer)
    (fun offer hoffer => h.fresh_of_find hwrite.here hoffer)

/-- An offer is recorded on a coin that carries no other live offer. -/
theorem recordOffer (h : world.Ready pending coins ids) {journal' : PosterJournal}
    {nonce key : String} {input : RecordOfferInput} (hkey : normaliseNonce nonce = .ok key)
    (hrecord : world.journal.recordOffer nonce input = .ok journal')
    (hhere : ∀ offer ∈ world.kernel, offer.status = .live → offer.coin = key →
      toLowerCase input.offerId = offer.offerId ∧ input.status.releasable = false)
    (hpending : ∀ offer ∈ world.kernel, pending = some (offer.coin, offer.offerId) →
      offer.coin = key)
    (hnew : toLowerCase input.offerId ∉ ids) :
    PosterWorld.Ready none coins ids (world.wrote journal') := by
  obtain ⟨before, offer, state, hwrite, hid, hstatus, -⟩ := recordOffer_eq_ok hkey hrecord
  refine h.rewrite hwrite ?_ hpending ?_ ?_
  · intro live hlive hstatusLive hcoin
    obtain ⟨hsame, hclaim⟩ := hhere live hlive hstatusLive hcoin
    exact ⟨offer, by simp, hid.trans hsame, hstatus ▸ hclaim⟩
  · intro other hother
    rcases List.mem_append.mp hother with hold | hmem
    · exact h.lower_of_find hwrite.here hold
    · rw [List.mem_singleton.mp hmem, hid, toLowerCase_toLowerCase]
  · intro other hother
    rcases List.mem_append.mp hother with hold | hmem
    · exact h.fresh_of_find hwrite.here hold
    · rw [List.mem_singleton.mp hmem, hid]
      exact hnew

end PosterWorld.Ready

/-! ## The calls of a tick -/

variable {coins ids : List String}

/-- The invariant between the calls: where a tick stops, the world is sound. -/
def Stopped : PosterStop → PosterWorld → Prop := fun _ world => world.Sound none

abbrev Readies (coins ids : List String) : PosterWorld → Prop := fun world =>
  world.Ready none coins ids

theorem triple_answer {α : Type} (move : Move α) :
    Triple (Readies coins ids) (answer move) (fun _ => Readies coins ids) Stopped := by
  unfold answer
  refine Triple.bind (Q := fun _ => Readies coins ids)
    (Triple.modify fun world h => h.close move.closes) fun _ => ?_
  cases move.answer with
  | some value => exact Triple.pure fun _ h => h
  | none => exact Triple.throw fun _ h => h.toSound

theorem returns_answer {α : Type} (move : Move α) :
    Returns (answer move) fun value => move.answer = some value := by
  unfold answer
  refine Returns.bind (Returns.trivial _) fun _ _ => ?_
  cases move.answer with
  | some value => exact Returns.pure rfl
  | none => exact Returns.throw

theorem triple_answerNext {α : Type} (moves : List (Move α)) :
    Triple (Readies coins ids) (answerNext moves) (fun _ => Readies coins ids) Stopped := by
  cases moves with
  | nil => exact Triple.throw fun _ h => h.toSound
  | cons move rest =>
    exact Triple.bind (triple_answer move) fun value => Triple.pure fun _ h => h

/-- A journal call that is refused leaves the world as it is. -/
theorem triple_journaled {P : PosterWorld → Prop} {Q : Unit → PosterWorld → Prop}
    {f : PosterJournal → Except JournalError PosterJournal}
    (hok : ∀ world journal, P world → f world.journal = .ok journal →
      Q () (world.wrote journal))
    (hthrow : ∀ world error, P world → f world.journal = .error error → world.Sound none)
    (hwrites : ∀ world, P world → world.writes = []) :
    Triple P (journaled f) Q Stopped := by
  unfold journaled
  refine Triple.bind (Q := fun read world => P world ∧ read = world)
    (Triple.get fun world h => ⟨h, rfl⟩) fun read => ?_
  cases hf : f read.journal with
  | ok journal =>
    rintro world ⟨h, rfl⟩
    have hnext := hok _ _ h hf
    unfold PosterWorld.wrote at hnext
    rw [hwrites _ h] at hnext ⊢
    exact hnext
  | error error =>
    rintro world ⟨h, rfl⟩
    exact hthrow _ _ h hf

/-- A status the kernel may be read to have. -/
theorem triple_setOfferStatus {nonce key offerId : String} {status : OfferStatus}
    (hkey : normaliseNonce nonce = .ok key) (hstatus : status.releasable = false) :
    Triple (Readies coins ids) (journaled (·.setOfferStatus nonce offerId status))
      (fun _ => Readies coins ids) Stopped :=
  triple_journaled
    (fun _ _ h hset => h.setOfferStatus hkey hset fun hover =>
      absurd (hstatus.symm.trans hover) (by decide))
    (fun _ _ h _ => h.toSound) fun _ h => h.writable

/-- `pollLive` keeps the journal true of the kernel. -/
theorem triple_pollLive {nonce key : String} (hkey : normaliseNonce nonce = .ok key)
    (offerId : String) (tries : Nat) (moves : List (Move PollAnswer)) :
    Triple (Readies coins ids) (pollLive nonce offerId tries moves) (fun _ => Readies coins ids)
      Stopped := by
  induction tries generalizing moves with
  | zero =>
    unfold pollLive
    exact Triple.bind (triple_setOfferStatus hkey rfl) fun _ => Triple.pure fun _ h => h
  | succ tries ih =>
    unfold pollLive
    refine Triple.bind (triple_answerNext moves) fun next => ?_
    obtain ⟨poll, rest⟩ := next
    refine Triple.bind (Q := fun read world => Readies coins ids world ∧ read = world)
      (Triple.get fun _ h => ⟨h, rfl⟩) fun read => ?_
    split
    · exact (ih rest).conseq (fun _ h => h.1) (fun _ _ h => h) fun _ _ h => h
    · rename_i status hread
      refine Triple.ite (fun _ => ?_) fun _ => ?_
      · exact Triple.bind ((triple_setOfferStatus hkey rfl).conseq (fun _ h => h.1)
          (fun _ _ h => h) fun _ _ h => h) fun _ => Triple.pure fun _ h => h
      refine Triple.bind (Q := fun _ world => Readies coins ids world ∧
        world.kernel = read.kernel) (Triple.modify ?_) fun _ => ?_
      · rintro world ⟨h, rfl⟩
        exact ⟨h.polled _, rfl⟩
      refine Triple.ite (fun _ => ?_) fun _ => Triple.ite (fun _ => ?_) fun _ => ?_
      · exact Triple.pure fun _ h => h.1
      · refine Triple.bind (Q := fun _ => Readies coins ids) (triple_journaled ?_ ?_ ?_)
          fun _ => Triple.pure fun _ h => h
        · rintro world journal ⟨h, hkernel⟩ hset
          refine h.setOfferStatus hkey hset ?_
          rw [hkernel]
          exact poll.status.over (hkernel ▸ h.unique) hread
        · exact fun _ _ h _ => h.1.toSound
        · exact fun _ h => h.1.writable
      · exact (ih rest).conseq (fun _ h => h.1) (fun _ _ h => h) fun _ _ h => h

/-! ## Reconciliation -/

/-- `reconcileOffer` keeps the journal true of the kernel. -/
theorem triple_reconcileOffer {nonce : String} {offer : JournalOffer}
    (hkey : normaliseNonce nonce = .ok nonce) (hlower : toLowerCase offer.offerId = offer.offerId)
    (move : StatusMove) :
    Triple (Readies coins ids) (reconcileOffer nonce offer move) (fun _ => Readies coins ids)
      Stopped := by
  unfold reconcileOffer
  refine Triple.bind (triple_answer _) fun reply => ?_
  refine Triple.bind (Q := fun read world => Readies coins ids world ∧ read = world)
    (Triple.get fun _ h => ⟨h, rfl⟩) fun read => ?_
  cases hread : reply.read offer.offerId read.kernel with
  | error message => exact Triple.pure fun _ h => h.1
  | ok raw =>
    dsimp only
    generalize hstatus : mapKernelStatus raw = status
    refine Triple.ite (fun _ => Triple.pure fun _ h => h.1) fun _ => ?_
    refine Triple.bind (Q := fun _ => Readies coins ids) (triple_journaled ?_ ?_ ?_) fun _ => ?_
    · rintro world journal ⟨h, rfl⟩ hset
      refine h.setOfferStatus hkey hset fun hover => ?_
      rw [hlower]
      exact reply.over h.unique hread (hstatus ▸ hover)
    · rintro world error ⟨h, rfl⟩ _
      exact h.toSound
    · exact fun _ h => h.1.writable
    · refine Triple.ite (fun _ => Triple.ite (fun _ => Triple.throw fun _ h => h.toSound)
        fun _ => ?_) fun _ => Triple.pure fun _ h => h
      exact triple_journaled (fun _ _ h hspent => h.markSpent hkey hspent)
        (fun _ _ h _ => h.toSound) fun _ h => h.writable

theorem triple_reconcileOffers (offers : List (String × JournalOffer))
    (hoffers : ∀ entry ∈ offers, normaliseNonce entry.1 = .ok entry.1 ∧
      toLowerCase entry.2.offerId = entry.2.offerId) (moves : List StatusMove) :
    Triple (Readies coins ids) (reconcileOffers offers moves) (fun _ => Readies coins ids)
      Stopped := by
  induction offers generalizing moves with
  | nil =>
    unfold reconcileOffers
    exact Triple.pure fun _ h => h
  | cons entry offers ih =>
    obtain ⟨nonce, offer⟩ := entry
    cases moves with
    | nil => exact Triple.throw fun _ h => h.toSound
    | cons move moves =>
      unfold reconcileOffers
      obtain ⟨hkey, hlower⟩ := hoffers _ List.mem_cons_self
      exact Triple.bind (triple_reconcileOffer hkey hlower move) fun _ =>
        ih (fun entry hentry => hoffers entry (List.mem_cons_of_mem _ hentry)) moves

/-- What `nonTerminalOffers` lists is recorded. -/
theorem mem_nonTerminalOffers {journal : PosterJournal} {entry : String × JournalOffer}
    (h : entry ∈ journal.nonTerminalOffers) :
    entry.1 ∈ journal.coins.map Prod.fst ∧ entry.2.offerId ∈ journal.offerIds := by
  obtain ⟨⟨nonce, coin⟩, hcoin, hentry⟩ := List.mem_flatMap.mp h
  dsimp only at hentry
  split at hentry
  · cases hentry
  · obtain ⟨offer, hoffer, rfl⟩ := List.mem_map.mp hentry
    refine ⟨List.mem_map_of_mem hcoin, List.mem_flatMap.mpr ⟨_, hcoin, ?_⟩⟩
    exact List.mem_map_of_mem (List.mem_of_mem_filter hoffer)

/-- A candidate carries no live offer: its latest offer is over. -/
theorem PosterWorld.Ready.candidates {world : PosterWorld} (h : world.Ready none coins ids)
    (nonces : List String) :
    world.Ready none ((world.journal.candidates nonces).map Prod.fst) ids ∧
      ((world.journal.candidates nonces).map Prod.fst).Nodup := by
  have hperm := List.perm_insertionSort PosterJournal.older
  unfold PosterJournal.candidates
  constructor
  · refine { h with free := fun key hkey => ?_ }
    obtain ⟨⟨nonce, coin⟩, hmem, rfl⟩ := List.mem_map.mp hkey
    rw [List.mem_insertionSort, List.mem_filter] at hmem
    obtain ⟨hcoin, hreleased⟩ := hmem
    simp only [Bool.and_eq_true] at hreleased
    have hfind := PosterJournal.find_of_mem h.keys hcoin
    refine ⟨fun offer hoffer hkey hlive => ?_, List.mem_map_of_mem hcoin⟩
    obtain ⟨last, hlast, -, hclaim⟩ := h.latest hfind hoffer hlive hkey
    have hover := hreleased.2
    unfold PosterJournal.released at hover
    rw [hlast] at hover
    exact absurd (hclaim.symm.trans hover) (by decide)
  · refine ((hperm _).map Prod.fst).nodup_iff.mpr ?_
    exact h.keys.sublist (List.Sublist.map _ List.filter_sublist)

/-! ## Posts -/

/-- What is live on the coin is the offer at hand. -/
def Alone (key id : String) (world : PosterWorld) : Prop :=
  ∀ offer ∈ world.kernel, offer.coin = key → offer.status = .live → offer.offerId = id

namespace PosterWorld.Ready

variable {world : PosterWorld} {pending : Option (String × String)} {key id : String}

/-- A post finds no other offer live on the coin. -/
theorem posted (h : world.Ready pending coins ids) (halone : Alone key id world) :
    PosterWorld.Ready pending coins ids { world with
      posts := world.posts ++ [⟨id, key, (world.kernel.liveOn key).filter (· ≠ id)⟩] } :=
  { h with
    clean := by
      intro post hpost
      rcases List.mem_append.mp hpost with hold | hnew
      · exact h.clean post hold
      · rw [List.mem_singleton.mp hnew, List.filter_eq_nil_iff]
        intro other hother
        obtain ⟨offer, hoffer, rfl⟩ := List.mem_map.mp hother
        obtain ⟨hmem, hlive⟩ := List.mem_filter.mp hoffer
        obtain ⟨hcoin, hlive⟩ := of_decide_eq_true hlive
        simpa using halone offer hmem hcoin hlive }

/-- The kernel accepts the offer that is pending. -/
theorem accept (h : world.Ready (some (key, id)) coins ids) (hkey : key ∉ coins) :
    PosterWorld.Ready (some (key, id)) coins ids
      { world with kernel := world.kernel.accept id key } where
  claimed offer hoffer hlive := by
    rcases Kernel.mem_accept hoffer with hold | rfl
    · exact h.claimed offer hold hlive
    · exact Or.inl rfl
  unique := Kernel.unique_accept h.unique
  keys := h.keys
  normal := h.normal
  lower := h.lower
  clean := h.clean
  stored := h.stored
  writable := h.writable
  free coin hcoin := by
    refine ⟨fun offer hoffer hsame hlive => ?_, (h.free coin hcoin).2⟩
    rcases Kernel.mem_accept hoffer with hold | rfl
    · exact (h.free coin hcoin).1 offer hold hsame hlive
    · have hsame : key = coin := hsame
      exact hkey (hsame ▸ hcoin)
  fresh := h.fresh

/-- Nothing the journal lacks is pending yet. -/
theorem await (h : world.Ready none coins ids) : world.Ready (some (key, id)) coins ids :=
  { h with
    claimed := fun offer hoffer hlive => by
      rcases h.claimed offer hoffer hlive with hpend | hclaim
      · cases hpend
      · exact Or.inr hclaim }

end PosterWorld.Ready

theorem Alone.close {key id : String} {world : PosterWorld} (h : Alone key id world)
    (closes : List (String × KernelOfferStatus)) :
    Alone key id { world with kernel := world.kernel.close closes } :=
  fun offer hoffer hcoin hlive => h offer (Kernel.mem_close_live hoffer hlive) hcoin hlive

/-- The world while the loop of posts offers a coin: only this offer may be live on it. -/
structure PosterWorld.Posting (key id : String) (coins ids : List String) (world : PosterWorld) :
    Prop extends world.Ready (some (key, id)) coins ids where
  alone : Alone key id world
  known : key ∈ world.journal.coins.map Prod.fst

theorem PosterWorld.Ready.posting {world : PosterWorld} {key : String}
    (h : world.Ready none (key :: coins) ids) (id : String) : world.Posting key id coins ids :=
  { h.await.mono (fun _ => List.mem_cons_of_mem _) (fun _ hid => hid) with
    alone := fun offer hoffer hcoin hlive =>
      absurd hlive ((h.free key List.mem_cons_self).1 offer hoffer hcoin)
    known := (h.free key List.mem_cons_self).2 }

/-- Posts the kernel takes none of leave the coin free. -/
theorem triple_posts_untaken {key id : String} (moves : List PostMove)
    (hnone : ∀ move ∈ moves, move.accepts = false) :
    Triple (Readies (key :: coins) ids) (moves.forM (post key id))
      (fun _ => Readies (key :: coins) ids) Stopped := by
  refine Triple.forM (I := fun _ => Readies (key :: coins) ids) fun move rest hmove => ?_
  obtain ⟨done, rfl⟩ := hmove
  refine Triple.modify fun world h => ?_
  dsimp only
  rw [if_neg (by simp [hnone move (by simp)])]
  have hclosed := h.close move.closes
  exact hclosed.posted (hclosed.posting id).alone

/-- Posts of one offer find no other offer on the coin. -/
theorem triple_posts {key id : String} (hkey : key ∉ coins) (moves : List PostMove) :
    Triple (PosterWorld.Posting key id coins ids) (moves.forM (post key id))
      (fun _ => PosterWorld.Posting key id coins ids) Stopped := by
  refine Triple.forM (I := fun _ => PosterWorld.Posting key id coins ids) fun move rest _ => ?_
  refine Triple.modify fun world h => ?_
  have hclosed := h.toReady.close move.closes
  have halone := h.alone.close move.closes
  have hposted := hclosed.posted halone
  dsimp only
  by_cases haccepts : move.accepts = true
  · rw [if_pos haccepts]
    refine { hposted.accept hkey with alone := ?_, known := h.known }
    intro offer hoffer hcoin hlive
    rcases Kernel.mem_accept hoffer with hold | rfl
    · exact halone offer hold hcoin hlive
    · rfl
  · rw [if_neg haccepts]
    exact { hposted with alone := halone, known := h.known }

/-- An answer from which the poster knows that the kernel has the offer. -/
def PostMove.Acknowledges (move : PostMove) : Prop :=
  ∃ status errorText, move.answer = some (.answered status errorText) ∧
    (status = 200 ∨ status = 201)

/-- If the kernel takes the offer at one of the posts that are made, the last of them acknowledges
it. -/
def Acknowledged (attempts : Nat) (moves : List PostMove) : Prop :=
  ∀ move ∈ (postAttempts attempts moves).2, move.accepts = true →
    ∃ last ∈ (postAttempts attempts moves).2.getLast?, last.Acknowledges

/-- A loop that makes no post has not ended well; one that does ends as its last post says. -/
theorem postAttempts_of_acknowledges {attempts : Nat} {moves : List PostMove} {last : PostMove}
    (hlast : last ∈ (postAttempts attempts moves).2.getLast?) (hack : last.Acknowledges) :
    (postAttempts attempts moves).1 = .accepted := by
  obtain ⟨okStatus, text, hanswer, hok⟩ := hack
  induction attempts generalizing moves with
  | zero => cases hlast
  | succ attempts ih =>
    cases moves with
    | nil => cases hlast
    | cons move moves =>
      have hsingle : last ∈ [move].getLast? → move.answer = some (.answered okStatus text) := by
        intro hmem
        cases hmem
        exact hanswer
      have hmore : last ∈ (move :: (postAttempts attempts moves).2).getLast? →
          move.answer ≠ some (.answered okStatus text) →
          (postAttempts attempts moves).1 = .accepted := by
        intro hmem hne
        cases hmade : (postAttempts attempts moves).2 with
        | nil =>
          rw [hmade] at hmem
          exact absurd (hsingle hmem) hne
        | cons next rest =>
          rw [hmade, List.getLast?_cons_cons, ← hmade] at hmem
          exact ih hmem
      unfold postAttempts at hlast ⊢
      cases hmove : move.answer with
      | none =>
        simp only [hmove] at hlast
        rw [hsingle hlast] at hmove
        cases hmove
      | some reply =>
        rw [hmove] at hmore hsingle
        simp only [hmove] at hlast ⊢
        cases reply with
        | unreachable message =>
          by_cases hzero : attempts = 0
          · simp only [if_pos hzero] at hlast
            exact absurd (hsingle hlast) (by simp)
          · simp only [if_neg hzero] at hlast ⊢
            exact hmore hlast (by simp)
        | answered status errorText =>
          by_cases hstatus : status = 200 ∨ status = 201
          · simp only [if_pos hstatus]
          · have hne : some (PostAnswer.answered status errorText) ≠
                some (.answered okStatus text) := by
              rintro ⟨⟩
              exact hstatus hok
            simp only [if_neg hstatus] at hlast ⊢
            by_cases hretry : isRetryablePostError errorText
            · simp only [if_pos hretry] at hlast ⊢
              by_cases hzero : attempts = 0
              · simp only [if_pos hzero] at hlast
                exact absurd (hsingle hlast) hne
              · simp only [if_neg hzero] at hlast ⊢
                exact hmore hlast hne
            · simp only [if_neg hretry] at hlast
              exact absurd (hsingle hlast) hne

/-- A loop that ends otherwise made no post the kernel took. -/
theorem Acknowledged.untaken {attempts : Nat} {moves : List PostMove}
    (h : Acknowledged attempts moves) (hother : (postAttempts attempts moves).1 ≠ .accepted) :
    ∀ move ∈ (postAttempts attempts moves).2, move.accepts = false := by
  intro move hmove
  by_contra htaken
  obtain ⟨last, hlast, hack⟩ := h move hmove (by simpa using htaken)
  exact hother (postAttempts_of_acknowledges hlast hack)

/-! ## Offering one coin -/

theorem PosterJournal.find_isSome {journal : PosterJournal} {key : String}
    (h : key ∈ journal.coins.map Prod.fst) : (journal.find key).isSome := by
  obtain ⟨coins⟩ := journal
  induction coins with
  | nil => cases h
  | cons entry coins ih =>
    rw [find_cons]
    split
    · rfl
    · rename_i hother
      exact ih ((List.mem_cons.mp h).resolve_left hother)

/-- The record of the offer at hand: it is written, and what is live on the coin is its latest. -/
theorem triple_recordOrUpdateOffer {nonce key id : String} {input : RecordOfferInput}
    (hkey : normaliseNonce nonce = .ok key) (hid : toLowerCase input.offerId = id) (hne : id ≠ "")
    (hnew : id ∉ ids) {P : PosterWorld → Prop}
    (hP : ∀ world, P world → world.Posting key id coins (id :: ids) ∧
      (input.status.releasable = true → Free world key)) :
    Triple P (journaled (recordOrUpdateOffer nonce input)) (fun _ => Readies coins ids)
      Stopped := by
  subst hid
  have hrecorded : ∀ world, P world → ∃ journal,
      world.journal.recordOffer nonce input = .ok journal ∧
      recordOrUpdateOffer nonce input world.journal = .ok journal := by
    intro world hworld
    obtain ⟨hposting, -⟩ := hP world hworld
    obtain ⟨journal, hjournal⟩ := recordOffer_total hkey
      (PosterJournal.find_isSome hposting.known) hne (hposting.fresh _ List.mem_cons_self)
    refine ⟨journal, hjournal, ?_⟩
    unfold recordOrUpdateOffer
    rw [hjournal]
  refine triple_journaled (fun world journal hworld hok => ?_)
    (fun world error hworld herror => ?_) fun world hworld => (hP world hworld).1.writable
  · obtain ⟨hposting, hfree⟩ := hP world hworld
    obtain ⟨journal', hrecord, hwritten⟩ := hrecorded world hworld
    cases hwritten.symm.trans hok
    refine (hposting.toReady.mono (fun _ hcoin => hcoin)
      fun _ => List.mem_cons_of_mem _).recordOffer hkey hrecord ?_ ?_ hnew
    · intro offer hoffer hlive hcoin
      refine ⟨(hposting.alone offer hoffer hcoin hlive).symm, ?_⟩
      cases hover : input.status.releasable with
      | false => rfl
      | true => exact absurd hlive (hfree hover offer hoffer hcoin)
    · intro offer _ hpend
      exact (congrArg Prod.fst (Option.some.inj hpend)).symm
  · obtain ⟨journal, -, hwritten⟩ := hrecorded world hworld
    cases hwritten.symm.trans herror

theorem triple_followOffer {cfg : TickConfig} {coin : SpendableCoin} {built : BuiltOffer}
    {key id : String} (hkey : normaliseNonce coin.nonce = .ok key)
    (hid : toLowerCase built.offerId = id) (hne : id ≠ "") (hnew : id ∉ ids) (wantAmount : Nat)
    (sponsored : Bool) (moves : OfferMoves) :
    Triple (PosterWorld.Posting key id coins (id :: ids))
      (followOffer cfg coin built wantAmount sponsored moves) (fun _ => Readies coins ids)
      Stopped := by
  unfold followOffer
  refine Triple.bind (Q := fun _ => Readies coins ids)
    (triple_recordOrUpdateOffer hkey hid hne hnew fun world h => ⟨h, fun hover => ?_⟩)
    fun _ => ?_
  · cases hover
  refine Triple.bind (triple_pollLive hkey built.offerId cfg.liveTries moves.polls) fun live => ?_
  refine Triple.ite (fun _ => ?_) fun _ => Triple.pure fun _ h => h
  refine Triple.bind (triple_answer moves.view) fun view => ?_
  cases view with
  | none => exact Triple.pure fun _ h => h
  | some inputNullifiers =>
    exact Triple.ite (fun _ => Triple.pure fun _ h => h) fun _ => Triple.pure fun _ h => h

/-- An offer of a free coin. -/
theorem triple_postOffer {cfg : TickConfig} {coin : SpendableCoin} {built : BuiltOffer}
    {key id : String} (hkey : normaliseNonce coin.nonce = .ok key) (hother : key ∉ coins)
    (hid : toLowerCase built.offerId = id) (hne : id ≠ "") (hnew : id ∉ ids) (wantAmount : Nat)
    (sponsored : Bool) (moves : OfferMoves) (hack : Acknowledged cfg.postRetries moves.posts) :
    Triple (Readies (key :: coins) (id :: ids))
      (postOffer cfg key coin built wantAmount sponsored moves) (fun _ => Readies coins ids)
      Stopped := by
  have hrest : ∀ world : PosterWorld, world.Ready none (key :: coins) (id :: ids) →
      world.Ready none coins ids := fun world h =>
    h.mono (fun _ => List.mem_cons_of_mem _) fun _ => List.mem_cons_of_mem _
  have huntaken := hack.untaken
  unfold postOffer
  rw [hid]
  generalize postAttempts cfg.postRetries moves.posts = loop at huntaken ⊢
  obtain ⟨outcome, made⟩ := loop
  cases outcome with
  | accepted =>
    refine Triple.bind ((triple_posts hother made).conseq (fun world h => h.posting id)
      (fun _ _ h => h) fun _ _ h => h) fun _ => ?_
    exact triple_followOffer hkey hid hne hnew wantAmount sponsored moves
  | crashed =>
    exact Triple.bind (triple_posts_untaken made (huntaken (by simp))) fun _ =>
      Triple.throw fun _ h => h.toSound
  | unreachable =>
    exact Triple.bind (triple_posts_untaken made (huntaken (by simp))) fun _ =>
      Triple.pure fun _ h => hrest _ h
  | exhausted =>
    exact Triple.bind (triple_posts_untaken made (huntaken (by simp))) fun _ =>
      Triple.pure fun _ h => hrest _ h
  | refused code =>
    refine Triple.bind (triple_posts_untaken made (huntaken (by simp))) fun _ => ?_
    refine Triple.bind (Q := fun _ => Readies coins ids)
      (triple_recordOrUpdateOffer hkey hid hne hnew
        fun world h => ⟨h.posting id, fun _ => (h.free key List.mem_cons_self).1⟩) fun _ => ?_
    exact Triple.pure fun _ h => h

/-- The id of the offer that is built. -/
def OfferMoves.builtIds (moves : OfferMoves) : List String :=
  match moves.build.answer with
  | some (.ok built) => [toLowerCase built.offerId]
  | _ => []

theorem triple_offerCoin {cfg : TickConfig} {coin : SpendableCoin} {key : String}
    (hkey : normaliseNonce coin.nonce = .ok key) (hother : key ∉ coins) (moves : OfferMoves)
    (hids : (moves.builtIds ++ ids).Nodup) (hne : "" ∉ moves.builtIds)
    (hack : Acknowledged cfg.postRetries moves.posts) :
    Triple (Readies (key :: coins) (moves.builtIds ++ ids)) (offerCoin cfg key coin moves)
      (fun _ => Readies coins ids) Stopped := by
  have hrest : ∀ world : PosterWorld, world.Ready none (key :: coins) (moves.builtIds ++ ids) →
      world.Ready none coins ids := fun world h =>
    h.mono (fun _ => List.mem_cons_of_mem _) fun _ => List.mem_append_right _
  unfold offerCoin
  refine Triple.bind (triple_answer moves.quote) fun quote => ?_
  cases quote with
  | notSponsored message => exact Triple.pure fun _ h => hrest _ h
  | failed message => exact Triple.pure fun _ h => hrest _ h
  | sized wantAmount sponsored =>
    refine Triple.bind_returns (triple_answer moves.build) (returns_answer moves.build)
      fun built hbuilt => ?_
    cases built with
    | error message => exact Triple.pure fun _ h => hrest _ h
    | ok built =>
      have hbuiltIds : moves.builtIds = [toLowerCase built.offerId] := by
        unfold OfferMoves.builtIds
        rw [hbuilt]
      rw [hbuiltIds] at hids hne hrest ⊢
      refine Triple.ite (fun _ => ?_) fun _ => Triple.pure fun _ h => hrest _ h
      exact triple_postOffer hkey hother rfl (fun hblank => hne (by simp [hblank]))
        (List.nodup_cons.mp hids).1 wantAmount sponsored moves hack

/-! ## The tick -/

/-- The loop of re-offers posts offers of the candidates, which are free coins. -/
theorem triple_reofferCoins {cfg : TickConfig} (candidates : List (String × JournalCoin))
    (moves : List ReofferMoves) (posted : Option String)
    (hkeys : (candidates.map Prod.fst).Nodup)
    (hnormal : ∀ key ∈ candidates.map Prod.fst, normaliseNonce key = .ok key)
    (hids : (moves.flatMap (·.offer.builtIds) ++ ids).Nodup)
    (hne : "" ∉ moves.flatMap (·.offer.builtIds))
    (hack : ∀ move ∈ moves, Acknowledged cfg.postRetries move.offer.posts) :
    Triple (Readies (candidates.map Prod.fst) (moves.flatMap (·.offer.builtIds) ++ ids))
      (reofferCoins cfg candidates moves posted) (fun _ => Readies [] ids) Stopped := by
  induction candidates generalizing moves posted with
  | nil =>
    unfold reofferCoins
    exact Triple.pure fun _ h => h.mono (fun _ hcoin => hcoin) fun _ => List.mem_append_right _
  | cons candidate candidates ih =>
    obtain ⟨nonce, record⟩ := candidate
    cases moves with
    | nil => exact Triple.throw fun _ h => h.toSound
    | cons move moves =>
      rw [List.flatMap_cons, List.append_assoc] at hids
      rw [List.flatMap_cons, List.mem_append, not_or] at hne
      rw [List.flatMap_cons, List.append_assoc]
      obtain ⟨hother, hkeys⟩ := List.nodup_cons.mp hkeys
      have hnormalRest := fun key hkey => hnormal key (List.mem_cons_of_mem _ hkey)
      have hackRest := fun move hmove => hack move (List.mem_cons_of_mem _ hmove)
      have hrest := fun posted => ih moves posted hkeys hnormalRest
        (List.Nodup.of_append_right hids) hne.2 hackRest
      unfold reofferCoins
      refine Triple.bind (triple_answer move.find) fun found => ?_
      cases found with
      | none =>
        exact (hrest posted).conseq (fun world h => h.mono (fun _ => List.mem_cons_of_mem _)
          fun _ => List.mem_append_right _) (fun _ _ h => h) fun _ _ h => h
      | some coin =>
        have hkey : normaliseNonce { coin with nonce }.nonce = .ok nonce :=
          hnormal nonce List.mem_cons_self
        refine Triple.bind (triple_offerCoin hkey hother move.offer hids hne.1
          (hack move List.mem_cons_self)) fun result => ?_
        cases result with
        | failed failure =>
          exact Triple.pure fun world h => h.mono (fun _ hcoin => absurd hcoin List.not_mem_nil)
            fun _ => List.mem_append_right _
        | ok offerId wantAmount sponsored => exact hrest (some nonce)

/-- The inventory coin is not in the journal. -/
theorem selectInventoryCoin_unjournaled {cfg : TickConfig} {journal : PosterJournal}
    {coins : List SpendableCoin} {coin : SpendableCoin}
    (h : selectInventoryCoin cfg journal coins = .ok (some coin)) :
    ∃ key, normaliseNonce coin.nonce = .ok key ∧ journal.find key = none := by
  induction coins with
  | nil => cases h
  | cons first coins ih =>
    unfold selectInventoryCoin at h
    split at h
    · exact ih h
    obtain ⟨found, hfound, h⟩ := Except.bind_eq_ok.mp h
    dsimp only at h
    split at h
    · exact ih h
    rename_i hnone
    rcases ite_eq_iff.mp h with ⟨-, h⟩ | ⟨-, h⟩
    · cases h
      unfold PosterJournal.getCoin at hfound
      obtain ⟨key, hkey, hfound⟩ := Except.bind_eq_ok.mp hfound
      refine ⟨key, hkey, ?_⟩
      rw [Except.ok.inj hfound]
      simpa using hnone
    · exact ih h

/-- A coin the journal does not know carries no live offer. -/
theorem PosterWorld.Ready.recordInventory {world : PosterWorld} (h : world.Ready none [] ids)
    {journal' : PosterJournal} {nonce key type nullifier : String} {value : Nat} {now : Int}
    (hkey : normaliseNonce nonce = .ok key)
    (hrecord : world.journal.recordInventory nonce type value nullifier now = .ok journal') :
    PosterWorld.Ready none [key] ids (world.wrote journal') := by
  obtain ⟨hnone, coin, hoffers, -, rfl⟩ := recordInventory_eq_ok hkey hrecord
  have hfind : ∀ k record, world.journal.find k = some record →
      PosterJournal.find ⟨world.journal.coins ++ [(key, coin)]⟩ k = some record := by
    intro k record hfound
    unfold PosterJournal.find at hfound ⊢
    rw [List.lookup_append, hfound]
    rfl
  have hkeys : (world.journal.coins ++ [(key, coin)]).map Prod.fst =
      world.journal.coins.map Prod.fst ++ [key] := by simp
  have hids : PosterJournal.offerIds ⟨world.journal.coins ++ [(key, coin)]⟩ =
      world.journal.offerIds := by
    simp [PosterJournal.offerIds, hoffers]
  have hfresh : key ∉ world.journal.coins.map Prod.fst := by
    intro hmem
    rw [← Option.not_isSome_iff_eq_none] at hnone
    exact hnone (PosterJournal.find_isSome hmem)
  refine ⟨⟨?_, h.unique, ?_, ?_, ?_, h.clean, rfl, h.writable⟩, ?_, ?_⟩
  · intro offer hoffer hlive
    rcases h.claimed offer hoffer hlive with hpend | ⟨record, last, hfound, hclaim⟩
    · cases hpend
    · exact Or.inr ⟨record, last, hfind _ _ hfound, hclaim⟩
  · show ((world.journal.coins ++ [(key, coin)]).map Prod.fst).Nodup
    rw [hkeys]
    exact List.nodup_append.mpr ⟨h.keys, List.nodup_singleton key, fun a ha b hb => by
      rw [List.mem_singleton.mp hb]
      rintro rfl
      exact hfresh ha⟩
  · intro k hk
    have hk : k ∈ (world.journal.coins ++ [(key, coin)]).map Prod.fst := hk
    rw [hkeys] at hk
    rcases List.mem_append.mp hk with hold | hnew
    · exact h.normal k hold
    · rw [List.mem_singleton.mp hnew]
      exact normaliseNonce_idem hkey
  · show ∀ id ∈ PosterJournal.offerIds ⟨world.journal.coins ++ [(key, coin)]⟩, _
    rw [hids]
    exact h.lower
  · intro k hk
    rw [List.mem_singleton.mp hk]
    refine ⟨fun offer hoffer hcoin hlive => ?_, ?_⟩
    · rcases h.claimed offer hoffer hlive with hpend | ⟨record, last, hfound, -⟩
      · cases hpend
      · rw [hcoin, hnone] at hfound
        cases hfound
    · show key ∈ (world.journal.coins ++ [(key, coin)]).map Prod.fst
      rw [hkeys]
      exact List.mem_append_right _ List.mem_cons_self
  · show ∀ id ∈ ids, id ∉ PosterJournal.offerIds ⟨world.journal.coins ++ [(key, coin)]⟩
    rw [hids]
    exact h.fresh

theorem triple_offerInventory {cfg : TickConfig} (moves : TickMoves)
    (hids : moves.offer.builtIds.Nodup) (hne : "" ∉ moves.offer.builtIds)
    (hack : Acknowledged cfg.postRetries moves.offer.posts) :
    Triple (Readies [] moves.offer.builtIds) (offerInventory cfg moves)
      (fun _ => Readies [] []) Stopped := by
  have hdone : ∀ world : PosterWorld, world.Ready none [] moves.offer.builtIds →
      world.Ready none [] [] := fun world h => .of_sound h.toSound
  unfold offerInventory
  refine Triple.bind (triple_answer moves.coins) fun available => ?_
  cases available with
  | none => exact Triple.pure fun _ h => hdone _ h
  | some coins =>
    refine Triple.bind
      (Q := fun read world => Readies [] moves.offer.builtIds world ∧ read = world)
      (Triple.get fun _ h => ⟨h, rfl⟩) fun read => ?_
    cases hselect : selectInventoryCoin cfg read.journal coins with
    | error error => exact Triple.throw fun _ h => h.1.toSound
    | ok selected =>
      cases selected with
      | none => exact Triple.pure fun _ h => hdone _ h.1
      | some coin =>
        obtain ⟨key, hkey, -⟩ := selectInventoryCoin_unjournaled hselect
        refine Triple.bind (Q := fun _ => Readies [key] (moves.offer.builtIds ++ []))
          (triple_journaled ?_ (fun _ _ h _ => h.1.toSound) fun _ h => h.1.writable) fun _ => ?_
        · rintro world journal ⟨h, -⟩ hrecord
          rw [List.append_nil]
          exact h.recordInventory hkey hrecord
        · rw [(normaliseNonce_iff.mp hkey).2]
          refine Triple.bind (triple_offerCoin hkey List.not_mem_nil moves.offer
            (by rwa [List.append_nil]) hne hack) fun result => ?_
          exact Triple.pure fun _ h => h

/-- `reconcile` gives coins without a live offer, each once. -/
theorem triple_reconcile (statuses : List StatusMove) (nonces : Move (Option (List String))) :
    Triple (Readies [] ids) (reconcile statuses nonces)
      (fun candidates world => world.Ready none (candidates.map Prod.fst) ids ∧
        (candidates.map Prod.fst).Nodup) Stopped := by
  unfold reconcile
  refine Triple.bind (Q := fun read world => Readies [] ids world ∧ read = world)
    (Triple.get fun _ h => ⟨h, rfl⟩) fun read => ?_
  refine Triple.bind (Q := fun _ => Readies [] ids) ?_ fun _ => ?_
  · rintro world ⟨h, rfl⟩
    refine triple_reconcileOffers _ (fun entry hentry => ?_) statuses read h
    obtain ⟨hkey, hid⟩ := mem_nonTerminalOffers hentry
    exact ⟨h.normal _ hkey, h.lower _ hid⟩
  refine Triple.bind (triple_answer nonces) fun available => ?_
  refine Triple.bind (Q := fun read world => Readies [] ids world ∧ read = world)
    (Triple.get fun _ h => ⟨h, rfl⟩) fun read => ?_
  refine Triple.pure fun world h => ?_
  obtain ⟨h, rfl⟩ := h
  exact h.candidates _

/-- The ids of the offers that the builds of a tick make. -/
def TickMoves.builtIds (moves : TickMoves) : List String :=
  moves.reoffers.flatMap (·.offer.builtIds) ++ moves.offer.builtIds

/-- The condition of a tick: what the kernel takes is acknowledged, and every build has an id of its
own. -/
structure TickMoves.Fit (cfg : TickConfig) (world : PosterWorld) (moves : TickMoves) : Prop where
  acknowledged : ∀ offer ∈ moves.offer :: moves.reoffers.map (·.offer),
    Acknowledged cfg.postRetries offer.posts
  distinct : moves.builtIds.Nodup
  nonempty : "" ∉ moves.builtIds
  fresh : ∀ id ∈ moves.builtIds, id ∉ world.journal.offerIds

theorem triple_runTick {cfg : TickConfig} (moves : TickMoves)
    (hack : ∀ offer ∈ moves.offer :: moves.reoffers.map (·.offer),
      Acknowledged cfg.postRetries offer.posts)
    (hids : moves.builtIds.Nodup) (hne : "" ∉ moves.builtIds) :
    Triple (Readies [] moves.builtIds) (runTick cfg moves) (fun _ => Readies [] []) Stopped := by
  unfold runTick
  refine Triple.bind (Q := fun candidates world => candidates.elim (Readies [] [] world)
      fun candidates => world.Ready none (candidates.map Prod.fst) moves.builtIds ∧
        (candidates.map Prod.fst).Nodup) (Triple.catching (E := Stopped) ?_ ?_) ?_
  · exact Triple.bind (triple_reconcile moves.statuses moves.nonces) fun candidates =>
      Triple.pure fun _ h => h
  · intro stop
    cases stop with
    | crashed => exact Triple.throw fun _ h => h
    | writeFailed => exact Triple.pure fun _ h => .of_sound h
    | threw error => exact Triple.pure fun _ h => .of_sound h
  · intro candidates
    cases candidates with
    | none => exact Triple.pure fun _ h => h
    | some candidates =>
      rintro world ⟨h, hkeys⟩
      have hsub : ((candidates.take (max 1 cfg.maxReoffersPerTick)).map Prod.fst).Sublist
          (candidates.map Prod.fst) := (List.take_sublist _ _).map _
      have hstart : world.Ready none
          ((candidates.take (max 1 cfg.maxReoffersPerTick)).map Prod.fst) moves.builtIds :=
        h.mono (fun _ hcoin => hsub.subset hcoin) fun _ hid => hid
      refine Triple.bind (triple_reofferCoins _ moves.reoffers none (hkeys.sublist hsub)
        (fun key hkey => h.normal key (h.free key (hsub.subset hkey)).2) hids
        (fun hmem => hne (List.mem_append_left _ hmem))
        fun move hmove => hack _ (List.mem_cons_of_mem _ (List.mem_map_of_mem hmove)))
        (fun reoffered => ?_) world hstart
      cases reoffered with
      | some outcome => exact Triple.pure fun _ h => .of_sound h.toSound
      | none =>
        exact triple_offerInventory moves (List.Nodup.of_append_right hids)
          (fun hmem => hne (List.mem_append_right _ hmem)) (hack _ List.mem_cons_self)

/-! ## Runs -/

/-- A tick that meets the condition keeps the world sound, also when it crashes. -/
theorem sound_tick {cfg : TickConfig} {world : PosterWorld} {moves : TickMoves}
    (h : world.Sound none) (hfit : moves.Fit cfg world) : (tick cfg world moves).Sound none := by
  have hrun := triple_runTick moves hfit.acknowledged hfit.distinct hfit.nonempty world
    { PosterWorld.Ready.of_sound h with fresh := hfit.fresh }
  unfold tick
  cases hout : (runTick cfg moves).outcome world with
  | mk result world' =>
    rw [hout] at hrun
    cases result with
    | ok outcome => exact hrun.toSound
    | error stop =>
      cases stop with
      | crashed =>
        -- the next process starts from what is in memory
        have hfile : { world' with journal := world'.file } = world' :=
          congrArg (fun journal => { world' with journal }) hrun.stored
        show ({ world' with journal := world'.file } : PosterWorld).Sound none
        rw [hfile]
        exact hrun
      | writeFailed => exact hrun
      | threw error => exact hrun

/-- The runs of the poster from an empty journal whose ticks all meet the condition. -/
inductive FitRun (cfg : TickConfig) : PosterWorld → Prop
  | start : FitRun cfg {}
  | step {world : PosterWorld} (moves : TickMoves) (hrun : FitRun cfg world)
      (hfit : moves.Fit cfg world) : FitRun cfg (tick cfg world moves)

theorem FitRun.sound {cfg : TickConfig} {world : PosterWorld} (h : FitRun cfg world) :
    world.Sound none := by
  induction h with
  | start =>
    refine ⟨?_, List.nodup_nil, List.nodup_nil, ?_, ?_, ?_, rfl, rfl⟩ <;> intro _ hmem <;> cases hmem
  | step moves _ hfit ih => exact sound_tick ih hfit

namespace CoinTicks

def config : TickConfig :=
  { giveColour := "g", giveAmount := 1000, wantColour := "w", offerTtlMinutes := 60,
    maxReoffersPerTick := 1, postRetries := 3, liveTries := 2 }

def coin : SpendableCoin := ⟨"c", "g", 1000, "n"⟩

/-- The answers to an offer of the coin: the quote, the build, the posts, and one poll. -/
def offer (offerId : String) (posts : List PostMove) : OfferMoves :=
  { quote := ⟨[], some (.sized 900 true)⟩
    build := ⟨[], some (.ok ⟨["n"], 0, offerId, "blob"⟩)⟩
    posts
    polls := [⟨[], some ⟨none, .current⟩⟩]
    view := ⟨[], some none⟩ }

/-- The kernel takes the offer and says so. -/
def taken : PostMove := { answer := some (.answered 201 ""), accepts := true }

/-- The kernel takes the offer, but the answer is lost. -/
def lost : PostMove := { answer := some (.unreachable "timeout"), accepts := true }

/-- The kernel has the offer already. -/
def duplicate : PostMove :=
  { answer := some (.answered 409 "DUPLICATE_OFFER"), accepts := false }

/-- A tick that adopts the coin. -/
def adopt (posts : List PostMove) : TickMoves :=
  { statuses := [], nonces := ⟨[], some (some [])⟩, reoffers := []
    coins := ⟨[], some (some [coin])⟩, now := 0, offer := offer "a" posts }

/-- A tick that offers the coin again. -/
def again (statuses : List StatusMove) : TickMoves :=
  { statuses, nonces := ⟨[], some (some ["c"])⟩
    reoffers := [⟨⟨[], some (some coin)⟩, offer "b" [taken]⟩]
    coins := ⟨[], none⟩, now := 0, offer := { offer "" [] with build := ⟨[], none⟩ } }

/-- The status route reports that the first offer expired. -/
def expired : StatusMove := { closes := [("a", .expired)], answer := some .current }

end CoinTicks

end ZswapKernel
