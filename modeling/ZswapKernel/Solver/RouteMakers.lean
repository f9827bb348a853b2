import ZswapKernel.Solver.ExactFiles
import ZswapKernel.SolverCore.Receipts

/-!
# The makers behind a route

The executor meets a retained offer twice: as the book offer under its hash, and as the exact file
that is read for it. Both state its terms (`StatesTerms`), so their accounting and their merge
sources are those of the retained offer.

* `Book.offers_of_retained` — the book offer behind a retained offer.
* `exactSource_statesTerms` — an exact file that matches the book offer.
-/

namespace ZswapKernel

/-- `source` has the hash and the single legs of `maker`, in any case. -/
structure StatesTerms (source : WholeOfferMergeSource) (maker : Crossable) : Prop where
  hash : canonicalToken source.offerHash = .ok maker.offerHash
  gives : ∃ token, canonicalToken token = .ok maker.tokenOut ∧
    source.gives = [⟨token, maker.amountOut⟩]
  wants : ∃ token, canonicalToken token = .ok maker.tokenIn ∧
    source.wants = [⟨token, maker.amountIn⟩]

theorem canonicalToken_of_lower {token canonical : String} (h : CanonicalToken canonical)
    (hlower : toLowerCase token = canonical) : canonicalToken token = .ok canonical := by
  subst hlower
  exact canonicalToken_of_hex64 ((hex64_toLowerCase token).symm.trans h.hex)

/-! ## Accounting and planning -/

section Terms

variable {sources : List WholeOfferMergeSource} {makers : List Crossable}

theorem foldlM_addLeg_singleton (side : Side) (totals : List TokenTotal) (leg : WholeOfferBalanceLeg) :
    [leg].foldlM (addLeg side) totals = addLeg side totals leg := by
  rw [List.foldlM_cons]
  exact bind_pure _

theorem addLeg_congr (side : Side) (totals : List TokenTotal) {left right : String} (amount : Int)
    (h : canonicalToken left = canonicalToken right) :
    addLeg side totals ⟨left, amount⟩ = addLeg side totals ⟨right, amount⟩ := by
  unfold addLeg
  rw [h]

theorem StatesTerms.addSource_eq {source : WholeOfferMergeSource} {maker : Crossable}
    (h : StatesTerms source maker) (hvalid : maker.Valid) (totals : List TokenTotal) :
    addSource totals source.toWholeOfferBalanceSource =
      addSource totals maker.mergeSource.toWholeOfferBalanceSource := by
  obtain ⟨give, hgive, hgives⟩ := h.gives
  obtain ⟨want, hwant, hwants⟩ := h.wants
  unfold addSource Crossable.mergeSource
  rw [hgives, hwants, foldlM_addLeg_singleton, foldlM_addLeg_singleton,
    addLeg_congr .gives totals _ (hgive.trans hvalid.tokenOut.eq_ok.symm)]
  refine bind_congr fun middle => ?_
  rw [foldlM_addLeg_singleton, foldlM_addLeg_singleton,
    addLeg_congr .wants middle _ (hwant.trans hvalid.tokenIn.eq_ok.symm)]

/-- Sources that state the terms of makers are accounted for like them. -/
theorem accountWholeOfferBalances_congr (h : List.Forall₂ StatesTerms sources makers)
    (hvalid : ∀ offer ∈ makers, offer.Valid) :
    accountWholeOfferBalances (sources.map (·.toWholeOfferBalanceSource)) =
      accountWholeOfferBalances
        (makers.map fun offer => offer.mergeSource.toWholeOfferBalanceSource) := by
  have hfold : ∀ totals,
      (sources.map (·.toWholeOfferBalanceSource)).foldlM addSource totals =
        (makers.map fun offer => offer.mergeSource.toWholeOfferBalanceSource).foldlM addSource
          totals := by
    induction h with
    | nil => exact fun _ => rfl
    | cons hfirst _ ih =>
      intro totals
      rw [List.map_cons, List.map_cons, List.foldlM_cons, List.foldlM_cons,
        hfirst.addSource_eq (hvalid _ List.mem_cons_self)]
      exact bind_congr fun middle => ih (fun o ho => hvalid o (List.mem_cons_of_mem _ ho)) middle
  unfold accountWholeOfferBalances
  rw [hfold]

/-- They are ordered like them. -/
theorem mapM_orderedSource_congr (h : List.Forall₂ StatesTerms sources makers)
    (hvalid : ∀ offer ∈ makers, offer.Valid) :
    sources.mapM orderedSource = (makers.map (·.mergeSource)).mapM orderedSource := by
  induction h with
  | nil => rfl
  | cons hfirst _ ih =>
    rename_i source maker sources makers _
    have hmaker := hvalid maker List.mem_cons_self
    have hrows := accountWholeOfferBalances_congr (.cons hfirst .nil)
      (List.forall_mem_singleton.mpr hmaker)
    have hordered : orderedSource source = orderedSource maker.mergeSource := by
      unfold orderedSource
      rw [hfirst.hash, show maker.mergeSource.offerHash = maker.offerHash from rfl,
        hmaker.hash.eq_ok]
      have hrows : accountWholeOfferBalances [source.toWholeOfferBalanceSource] =
          accountWholeOfferBalances [maker.mergeSource.toWholeOfferBalanceSource] := hrows
      rw [hrows]
    rw [List.map_cons, List.mapM_cons, List.mapM_cons, hordered,
      ih fun o ho => hvalid o (List.mem_cons_of_mem _ ho)]

end Terms

/-! ## The book offer -/

/-- `offer` is the single shielded offer that was reduced to `maker`. -/
structure Offers (offer : BookOffer) (maker : Crossable) : Prop where
  hash : offer.offerHash = maker.offerHash
  gives : ∃ give, offer.gives = [give] ∧ give.kind = .shielded ∧ give.amount = maker.amountOut ∧
    toLowerCase give.token = maker.tokenOut
  wants : ∃ want, offer.wants = [want] ∧ want.kind = .shielded ∧ want.amount = maker.amountIn ∧
    toLowerCase want.token = maker.tokenIn

/-- A retained offer is found in the book under its hash. -/
theorem Book.offers_of_retained {book : Book} {options : DeriveLadderOptions} {maker : Crossable}
    (h : maker ∈ retainedOffers book.sources options) :
    ∃ offer, book.get maker.offerHash = some offer ∧ Offers offer maker := by
  obtain ⟨source, hsource, hreduced⟩ := mem_crossableOffers.mp (mem_crossableOffers_of_retained h)
  obtain ⟨offer, hoffer, rfl⟩ := List.mem_map.mp hsource
  have hreduced := toCrossable_ok hreduced
  have hhash : offer.offerHash = maker.offerHash :=
    (book.lower offer hoffer).symm.trans hreduced.hash.symm
  obtain ⟨give, want, hgives, hwants, hgive, hwant, hout, hamountOut, hin, hamountIn⟩ :=
    hreduced.legs
  refine ⟨offer, hhash ▸ book.get_of_mem hoffer, hhash, ?_, ?_⟩
  · exact ⟨give, hgives, hgive, hamountOut.symm, hout.symm⟩
  · exact ⟨want, hwants, hwant, hamountIn.symm, hin.symm⟩

theorem Offers.snapshot {offer : BookOffer} {maker : Crossable} (h : Offers offer maker) :
    Offers (snapshotOffer offer) maker := ⟨h.hash, h.gives, h.wants⟩

theorem Offers.statesTerms {offer : BookOffer} {maker : Crossable} (h : Offers offer maker)
    (hvalid : maker.Valid) : StatesTerms offer.mergeSource maker := by
  obtain ⟨give, hgives, -, hgive, hout⟩ := h.gives
  obtain ⟨want, hwants, -, hwant, hin⟩ := h.wants
  refine ⟨?_, ⟨give.token, canonicalToken_of_lower hvalid.tokenOut hout, ?_⟩,
    ⟨want.token, canonicalToken_of_lower hvalid.tokenIn hin, ?_⟩⟩
  · rw [show offer.mergeSource.offerHash = offer.offerHash from rfl, h.hash]
    exact hvalid.hash.eq_ok
  · unfold BookOffer.mergeSource
    rw [hgives, ← hgive]
    rfl
  · unfold BookOffer.mergeSource
    rw [hwants, ← hwant]
    rfl

theorem Offers.matchesWitnessTerms {offer : BookOffer} {maker : Crossable} (h : Offers offer maker)
    (hvalid : maker.Valid) : matchesWitnessTerms offer = true := by
  obtain ⟨give, hgives, hgiveKind, hgive, -⟩ := h.gives
  obtain ⟨want, hwants, hwantKind, hwant, -⟩ := h.wants
  unfold ZswapKernel.matchesWitnessTerms
  rw [hgives, hwants]
  simp [hgiveKind, hwantKind, hgive, hwant, hvalid.amountOut_pos, hvalid.amountIn_pos]

/-! ## The exact file -/

theorem colon_notMem_of_hex64 {token : String} (h : hex64 token = true) :
    ':' ∉ token.toList := by
  intro hmem
  unfold hex64 at h
  rw [Bool.and_eq_true, List.all_eq_true] at h
  exact absurd (h.2 ':' hmem) (by decide)

theorem colon_notMem_decimal (amount : Int) : ':' ∉ (decimal amount).toList := by
  have hdigits : ∀ n, ':' ∉ Nat.toDigits 10 n := fun n hmem =>
    absurd (Nat.isDigit_of_mem_toDigits (by decide) (by decide) hmem) (by decide)
  intro hmem
  unfold decimal at hmem
  cases amount with
  | ofNat n =>
    rw [Int.repr, Nat.toList_repr] at hmem
    exact hdigits n hmem
  | negSucc n =>
    rw [Int.repr, String.toList_append, Nat.toList_repr, List.mem_append] at hmem
    rcases hmem with hmem | hmem
    · exact absurd hmem (by decide)
    · exact hdigits _ hmem

/-- The text of a leg determines its token and its amount, whatever the kind of the other. -/
theorem legText_injective {kind kind' token token' : String} {amount amount' : Int}
    (hkind : ':' ∉ kind'.toList) (htoken : hex64 token' = true)
    (h : legText kind token amount = legText kind' token' amount') :
    toLowerCase token = toLowerCase token' ∧ amount = amount' := by
  have hcolon : (":" : String).toList = [':'] := rfl
  have hlower : ':' ∉ (toLowerCase token').toList :=
    colon_notMem_of_hex64 ((hex64_toLowerCase token').trans htoken)
  have hlist := congrArg String.toList h
  unfold legText at hlist
  simp only [String.toList_append, hcolon, List.append_assoc, List.singleton_append] at hlist
  -- both texts have two colons, so no part of the first one has any
  have hcount := congrArg (List.count ':') hlist
  simp only [List.count_append, List.count_cons_self, List.count_eq_zero_of_not_mem hkind,
    List.count_eq_zero_of_not_mem hlower,
    List.count_eq_zero_of_not_mem (colon_notMem_decimal _)] at hcount
  have hkindFree : ':' ∉ kind.toList := List.count_eq_zero.mp (by omega)
  have htokenFree : ':' ∉ (toLowerCase token).toList := List.count_eq_zero.mp (by omega)
  obtain ⟨-, hrest⟩ := Joined.append_cons_inj_of_notMem_left hkindFree hkind hlist
  obtain ⟨htokens, hamounts⟩ := Joined.append_cons_inj_of_notMem_left htokenFree hlower hrest
  exact ⟨String.toList_inj.mp htokens, decimal_injective (String.toList_inj.mp hamounts)⟩

theorem legsText_singleton (text : String) : legsText [text] = text := String.intercalate_singleton

/-- A matching leg of a single-leg offer. -/
theorem exactLeg_of_match {legs : List ExactLeg} {leg : LadderSourceLeg} {canonical : String}
    (hcanonical : CanonicalToken canonical) (hlower : toLowerCase leg.token = canonical)
    (hlength : legs.length = 1)
    (hmatch : legsText (legs.map (·.text)) = legsText ([leg].map (·.text))) :
    ∃ token, canonicalToken token = .ok canonical ∧
      legs.map (·.toBalanceLeg) = [⟨token, leg.amount⟩] := by
  obtain ⟨exact, rfl⟩ := List.length_eq_one_iff.mp hlength
  rw [List.map_singleton, List.map_singleton, legsText_singleton, legsText_singleton] at hmatch
  have hkind : ':' ∉ leg.kind.text.toList := by cases leg.kind <;> decide
  have htoken : hex64 leg.token = true :=
    (hex64_toLowerCase leg.token).symm.trans (hlower.symm ▸ hcanonical.hex)
  obtain ⟨htokens, hamount⟩ := legText_injective hkind htoken hmatch
  refine ⟨exact.token, canonicalToken_of_lower hcanonical (htokens.trans hlower), ?_⟩
  rw [List.map_singleton, ← hamount]
  rfl

/-- **An exact file that matches** the book offer of a maker states its terms. -/
theorem exactSource_statesTerms {offer : BookOffer} {maker : Crossable}
    {semantics : ExactOfferSemantics} (h : Offers offer maker) (hvalid : maker.Valid)
    (hmatch : exactSemanticsMatch offer semantics = true) :
    StatesTerms (exactSource offer semantics) maker := by
  obtain ⟨give, hgives, -, hgive, hout⟩ := h.gives
  obtain ⟨want, hwants, -, hwant, hin⟩ := h.wants
  unfold exactSemanticsMatch at hmatch
  rw [Bool.if_false_left, Bool.and_eq_true, Bool.not_eq_true', decide_eq_false_iff_not, not_or,
    not_not, not_not, Bool.and_eq_true, Bool.and_eq_true, decide_eq_true_eq, decide_eq_true_eq,
    hgives, hwants] at hmatch
  obtain ⟨⟨hlengthGives, hlengthWants⟩, ⟨hmatchGives, hmatchWants⟩, -⟩ := hmatch
  obtain ⟨giveToken, hgiveToken, hgiveLegs⟩ :=
    exactLeg_of_match hvalid.tokenOut hout hlengthGives hmatchGives
  obtain ⟨wantToken, hwantToken, hwantLegs⟩ :=
    exactLeg_of_match hvalid.tokenIn hin hlengthWants hmatchWants
  refine ⟨?_, ⟨giveToken, hgiveToken, ?_⟩, ⟨wantToken, hwantToken, ?_⟩⟩
  · rw [show (exactSource offer semantics).offerHash = offer.offerHash from rfl, h.hash]
    exact hvalid.hash.eq_ok
  · rw [← hgive]
    exact hgiveLegs
  · rw [← hwant]
    exact hwantLegs

end ZswapKernel
