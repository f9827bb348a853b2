import ZswapKernel.SolverCore.Receipts

/-!
# When receipts are built, and what they add up to

`buildWholeOfferReceipts` over the accounting of any list of offers. `FeasiblePair` says which pairs
a net vector trades, and `tradeSurplus` is what is left of the vector after the trade.

* `evaluateWholeOfferPair_iff` — the pair evaluates exactly when it is feasible, and
  `evaluateWholeOfferPair_refused` says why it does not.
* `buildWholeOfferReceipts_iff` — receipts are built exactly when the trade is covered; they are the
  positive part of the surplus, which is nowhere negative and nowhere beyond the bound.
-/

namespace ZswapKernel

/-! ## The net of a list of offers -/

/-- The net supply of a list of offers. -/
def sourcesNet (sources : List WholeOfferBalanceSource) : Deltas :=
  sourceGives sources - sourceWants sources

theorem legAmounts_cons (leg : WholeOfferBalanceLeg) (legs : List WholeOfferBalanceLeg) :
    legAmounts (leg :: legs) = Pi.single (toLowerCase leg.token) leg.amount + legAmounts legs := by
  unfold legAmounts
  rw [List.map_cons, List.sum_cons]

/-- The gross amounts of valid legs are not negative, and a token that has some is canonical. -/
structure CanonicalAmounts (amounts : Amounts) : Prop where
  nonneg : ∀ token, 0 ≤ amounts token
  canonical : ∀ token, amounts token ≠ 0 → CanonicalToken token

theorem CanonicalAmounts.zero : CanonicalAmounts 0 :=
  ⟨fun _ => le_rfl, fun _ h => absurd rfl h⟩

theorem CanonicalAmounts.add {amounts amounts' : Amounts} (h : CanonicalAmounts amounts)
    (h' : CanonicalAmounts amounts') : CanonicalAmounts (amounts + amounts') := by
  refine ⟨fun token => add_nonneg (h.nonneg token) (h'.nonneg token), fun token hne => ?_⟩
  by_cases hzero : amounts token = 0
  · exact h'.canonical token fun hzero' => hne (by rw [Pi.add_apply, hzero, hzero', add_zero])
  · exact h.canonical token hzero

theorem CanonicalAmounts.single {leg : WholeOfferBalanceLeg} (h : ValidLeg leg) :
    CanonicalAmounts (Pi.single (toLowerCase leg.token) leg.amount) := by
  refine ⟨fun token => ?_, fun token hne => ?_⟩
  · by_cases heq : token = toLowerCase leg.token
    · rw [heq, Pi.single_eq_same]
      exact h.pos.le
    · rw [Pi.single_eq_of_ne heq]
  · by_cases heq : token = toLowerCase leg.token
    · rw [heq]
      exact canonicalToken_toLowerCase h.hex
    · rw [Pi.single_eq_of_ne heq] at hne
      exact absurd rfl hne

theorem legAmounts_canonical {legs : List WholeOfferBalanceLeg}
    (hlegs : ∀ leg ∈ legs, ValidLeg leg) : CanonicalAmounts (legAmounts legs) := by
  induction legs with
  | nil => exact .zero
  | cons leg legs ih =>
    rw [legAmounts_cons]
    exact (CanonicalAmounts.single (hlegs leg List.mem_cons_self)).add
      (ih fun l hl => hlegs l (List.mem_cons_of_mem _ hl))

theorem sourceAmounts_canonical {sources : List WholeOfferBalanceSource}
    (hsources : ∀ source ∈ sources, ValidSource source) :
    CanonicalAmounts (sourceGives sources) ∧ CanonicalAmounts (sourceWants sources) := by
  induction sources with
  | nil => exact ⟨.zero, .zero⟩
  | cons source sources ih =>
    obtain ⟨hgives, hwants⟩ := ih fun s hs => hsources s (List.mem_cons_of_mem _ hs)
    have hsource := hsources source List.mem_cons_self
    unfold sourceGives sourceWants at *
    rw [List.map_cons, List.map_cons, List.sum_cons, List.sum_cons]
    exact ⟨(legAmounts_canonical hsource.gives).add hgives,
      (legAmounts_canonical hsource.wants).add hwants⟩

/-- Rows that account for canonical amounts. -/
structure CanonicalAccounts (rows : List WholeOfferTokenBalance) (net : Deltas) : Prop where
  sorted : rows.Pairwise (·.token < ·.token)
  canonical : ∀ row ∈ rows, CanonicalRow row
  net_eq : ∀ row ∈ rows, row.net = net row.token
  covers : ∀ token, net token ≠ 0 → ∃ row ∈ rows, row.token = token
  self : canonicalBalances rows = .ok rows

/-- **The rows of valid offers** account for their net. -/
theorem accountWholeOfferBalances_canonical {sources : List WholeOfferBalanceSource}
    (hsources : ∀ source ∈ sources, ValidSource source) :
    ∃ rows, accountWholeOfferBalances sources = .ok rows ∧
      CanonicalAccounts rows (sourcesNet sources) := by
  obtain ⟨rows, hrows, haccounts⟩ := accountWholeOfferBalances_ok hsources
  obtain ⟨hgives, hwants⟩ := sourceAmounts_canonical hsources
  have hcanonical : ∀ row ∈ rows, CanonicalRow row := by
    intro row hrow
    obtain ⟨token, hne, rfl⟩ := (haccounts.mem_iff row).mp hrow
    refine ⟨?_, hgives.nonneg token, hwants.nonneg token, rfl⟩
    rcases hne with hne | hne
    · exact hgives.canonical token hne
    · exact hwants.canonical token hne
  refine ⟨rows, hrows, haccounts.sorted, hcanonical, fun row hrow => ?_, fun token hne => ?_,
    canonicalBalances_of_accounts haccounts hcanonical⟩
  · obtain ⟨token, -, rfl⟩ := (haccounts.mem_iff row).mp hrow
    rfl
  · have hhas : sourceGives sources token ≠ 0 ∨ sourceWants sources token ≠ 0 := by
      by_contra hzero
      push Not at hzero
      exact hne (by unfold sourcesNet; rw [Pi.sub_apply, hzero.1, hzero.2, sub_self])
    exact ⟨_, (haccounts.mem_iff _).mpr ⟨token, hhas, rfl⟩, rfl⟩

/-! ## The pair -/

/-- The net vector trades the pair: one deficit, in the input token, a supply of the output token,
and no amount beyond the settlement domain. -/
structure FeasiblePair (net : Deltas) (tokenIn tokenOut : String) : Prop where
  distinct : tokenIn ≠ tokenOut
  input_neg : net tokenIn < 0
  output_pos : 0 < net tokenOut
  only_deficit : ∀ token, net token < 0 → token = tokenIn
  in_range : InRange maxSettlementAmount net

namespace CanonicalAccounts

variable {rows : List WholeOfferTokenBalance} {net : Deltas}

theorem net_of_find? (h : CanonicalAccounts rows net) {token : String}
    {row : WholeOfferTokenBalance} (hfind : rows.find? (·.token = token) = some row) :
    row.net = net token := by
  have htoken : row.token = token := by simpa using List.find?_some hfind
  rw [h.net_eq row (List.mem_of_find?_eq_some hfind), htoken]

theorem net_of_find?_none (h : CanonicalAccounts rows net) {token : String}
    (hfind : rows.find? (·.token = token) = none) : net token = 0 := by
  by_contra hne
  obtain ⟨row, hrow, htoken⟩ := h.covers token hne
  exact absurd (decide_eq_true htoken) (List.find?_eq_none.mp hfind row hrow)

/-- A bound on the rows is a bound on the vector. -/
theorem in_range_iff (h : CanonicalAccounts rows net) :
    (∀ row ∈ rows, -maxSettlementAmount ≤ row.net ∧ row.net ≤ maxSettlementAmount) ↔
      InRange maxSettlementAmount net := by
  constructor
  · intro hrows token
    by_cases hzero : net token = 0
    · rw [hzero]
      decide
    · obtain ⟨row, hrow, rfl⟩ := h.covers token hzero
      rw [← h.net_eq row hrow]
      exact hrows row hrow
  · intro hrange row hrow
    rw [h.net_eq row hrow]
    exact hrange row.token

/-- **The pair evaluates exactly when it is feasible.** -/
theorem evaluateWholeOfferPair_iff (h : CanonicalAccounts rows net) {tokenIn tokenOut : String}
    {pair : WholeOfferPairBalance} :
    evaluateWholeOfferPair rows tokenIn tokenOut = .ok (.ok pair) ↔
      (hex64 tokenIn = true ∧ hex64 tokenOut = true) ∧
        FeasiblePair net (toLowerCase tokenIn) (toLowerCase tokenOut) ∧
        pair = ⟨toLowerCase tokenIn, toLowerCase tokenOut, -net (toLowerCase tokenIn),
          net (toLowerCase tokenOut), rows⟩ := by
  unfold evaluateWholeOfferPair
  by_cases hin : hex64 tokenIn = true
  swap
  · have herror : canonicalToken tokenIn = .error s!"invalid token id: {tokenIn}" := if_neg hin
    rw [herror]
    exact ⟨nofun, fun h => absurd h.1.1 hin⟩
  by_cases hout : hex64 tokenOut = true
  swap
  · have herror : canonicalToken tokenOut = .error s!"invalid token id: {tokenOut}" := if_neg hout
    rw [canonicalToken_of_hex64 hin, herror]
    exact ⟨nofun, fun h => absurd h.1.2 hout⟩
  rw [canonicalToken_of_hex64 hin, canonicalToken_of_hex64 hout]
  generalize toLowerCase tokenIn = inputToken
  generalize toLowerCase tokenOut = outputToken
  simp only [bind, Except.bind, h.self, pure, Except.pure]
  by_cases hsame : inputToken = outputToken
  · rw [if_pos hsame]
    exact ⟨nofun, fun h => absurd hsame h.2.1.distinct⟩
  rw [if_neg hsame]
  cases hinput : rows.find? (·.token = inputToken) with
  | none =>
    have hnet := h.net_of_find?_none hinput
    exact ⟨nofun, fun hpair => absurd hpair.2.1.input_neg (by omega)⟩
  | some input =>
    have hnetIn := h.net_of_find? hinput
    dsimp only
    by_cases hneg : input.net ≥ 0
    · rw [if_pos hneg]
      exact ⟨nofun, fun hpair => absurd hpair.2.1.input_neg (by omega)⟩
    rw [if_neg hneg]
    cases houtput : rows.find? (·.token = outputToken) with
    | none =>
      have hnet := h.net_of_find?_none houtput
      exact ⟨nofun, fun hpair => absurd hpair.2.1.output_pos (by omega)⟩
    | some output =>
      have hnetOut := h.net_of_find? houtput
      dsimp only
      by_cases hpos : output.net ≤ 0
      · rw [if_pos hpos]
        exact ⟨nofun, fun hpair => absurd hpair.2.1.output_pos (by omega)⟩
      rw [if_neg hpos]
      cases hdeficit : rows.find? fun balance => balance.token ≠ inputToken ∧ balance.net < 0 with
      | some deficit =>
        have hfound : deficit.token ≠ inputToken ∧ deficit.net < 0 := by
          simpa using List.find?_some hdeficit
        have hnet := h.net_eq deficit (List.mem_of_find?_eq_some hdeficit)
        refine ⟨nofun, fun hpair => absurd (hpair.2.1.only_deficit deficit.token ?_) hfound.1⟩
        rw [← hnet]
        exact hfound.2
      | none =>
        dsimp only
        cases houtside : rows.find? fun balance =>
            balance.net > maxSettlementAmount ∨ balance.net < -maxSettlementAmount with
        | some outside =>
          have hfound : outside.net > maxSettlementAmount ∨ outside.net < -maxSettlementAmount := by
            simpa using List.find?_some houtside
          have hrow := List.mem_of_find?_eq_some houtside
          refine ⟨nofun, fun hpair => ?_⟩
          have := h.in_range_iff.mpr hpair.2.1.in_range outside hrow
          omega
        | none =>
          have hrange : InRange maxSettlementAmount net := by
            refine h.in_range_iff.mp fun row hrow => ?_
            have hinside := List.find?_eq_none.mp houtside row hrow
            rw [decide_eq_true_eq] at hinside
            omega
          have honly : ∀ token, net token < 0 → token = inputToken := by
            intro token hlt
            obtain ⟨row, hrow, rfl⟩ := h.covers token hlt.ne
            have hno := List.find?_eq_none.mp hdeficit row hrow
            rw [decide_eq_true_eq, not_and_or, not_not, h.net_eq row hrow] at hno
            exact hno.resolve_right (not_not.mpr hlt)
          have hfeasible : FeasiblePair net inputToken outputToken :=
            ⟨hsame, by omega, by omega, honly, hrange⟩
          rw [hnetIn, hnetOut]
          constructor
          · intro heq
            cases heq
            exact ⟨⟨hin, hout⟩, hfeasible, rfl⟩
          · rintro ⟨-, -, rfl⟩
            rfl

/-- The refusal of a pair: its amounts do not settle, or it is no trade at all. -/
theorem evaluateWholeOfferPair_refused (h : CanonicalAccounts rows net) {tokenIn tokenOut : String}
    (hin : CanonicalToken tokenIn) (hout : CanonicalToken tokenOut) (hne : tokenIn ≠ tokenOut)
    (hrefused : ¬ FeasiblePair net tokenIn tokenOut) :
    ∃ failure, evaluateWholeOfferPair rows tokenIn tokenOut = .ok (.error failure) ∧
      (failure.reason = .settlementAmountCap ↔
        net tokenIn < 0 ∧ 0 < net tokenOut ∧ ∀ token, net token < 0 → token = tokenIn) := by
  unfold evaluateWholeOfferPair
  rw [canonicalToken_of_hex64 hin.hex, canonicalToken_of_hex64 hout.hex, hin.lower, hout.lower]
  simp only [bind, Except.bind, h.self, pure, Except.pure]
  rw [if_neg hne]
  cases hinput : rows.find? (·.token = tokenIn) with
  | none =>
    have hnet := h.net_of_find?_none hinput
    exact ⟨_, rfl, nofun, fun htrade => absurd htrade.1 (by omega)⟩
  | some input =>
    have hnetIn := h.net_of_find? hinput
    dsimp only
    by_cases hneg : input.net ≥ 0
    · rw [if_pos hneg]
      exact ⟨_, rfl, nofun, fun htrade => absurd htrade.1 (by omega)⟩
    rw [if_neg hneg]
    cases houtput : rows.find? (·.token = tokenOut) with
    | none =>
      have hnet := h.net_of_find?_none houtput
      exact ⟨_, rfl, nofun, fun htrade => absurd htrade.2.1 (by omega)⟩
    | some output =>
      have hnetOut := h.net_of_find? houtput
      dsimp only
      by_cases hpos : output.net ≤ 0
      · rw [if_pos hpos]
        exact ⟨_, rfl, nofun, fun htrade => absurd htrade.2.1 (by omega)⟩
      rw [if_neg hpos]
      cases hdeficit : rows.find? fun balance => balance.token ≠ tokenIn ∧ balance.net < 0 with
      | some deficit =>
        have hfound : deficit.token ≠ tokenIn ∧ deficit.net < 0 := by
          simpa using List.find?_some hdeficit
        have hnet := h.net_eq deficit (List.mem_of_find?_eq_some hdeficit)
        refine ⟨_, rfl, nofun, fun htrade => absurd (htrade.2.2 deficit.token ?_) hfound.1⟩
        rw [← hnet]
        exact hfound.2
      | none =>
        have honly : ∀ token, net token < 0 → token = tokenIn := by
          intro token hlt
          obtain ⟨row, hrow, rfl⟩ := h.covers token hlt.ne
          have hno := List.find?_eq_none.mp hdeficit row hrow
          rw [decide_eq_true_eq, not_and_or, not_not, h.net_eq row hrow] at hno
          exact hno.resolve_right (not_not.mpr hlt)
        dsimp only
        cases houtside : rows.find? fun balance =>
            balance.net > maxSettlementAmount ∨ balance.net < -maxSettlementAmount with
        | some outside =>
          exact ⟨_, rfl, fun _ => ⟨by omega, by omega, honly⟩, fun _ => rfl⟩
        | none =>
          refine absurd ⟨hne, by omega, by omega, honly, ?_⟩ hrefused
          refine h.in_range_iff.mp fun row hrow => ?_
          have hinside := List.find?_eq_none.mp houtside row hrow
          rw [decide_eq_true_eq] at hinside
          omega

end CanonicalAccounts

/-! ## The receipts -/

/-- What is left of the net vector after the trade. -/
def tradeSurplus (net : Deltas) (trade : WholeOfferTrade) : Deltas := fun token =>
  net token + (if token = toLowerCase trade.tokenIn then trade.input else 0) -
    (if token = toLowerCase trade.tokenOut then trade.output else 0)

/-- The makers cover the trade. -/
structure CoveredTrade (net : Deltas) (trade : WholeOfferTrade) : Prop where
  input_pos : 0 < trade.input
  input_le : trade.input ≤ maxSettlementAmount
  output_pos : 0 < trade.output
  output_le : trade.output ≤ maxSettlementAmount
  hexIn : hex64 trade.tokenIn = true
  hexOut : hex64 trade.tokenOut = true
  feasible : FeasiblePair net (toLowerCase trade.tokenIn) (toLowerCase trade.tokenOut)
  required : -net (toLowerCase trade.tokenIn) ≤ trade.input
  supplied : trade.output ≤ net (toLowerCase trade.tokenOut)

/-- The surplus of a covered trade is nowhere negative and fits the bound. -/
theorem CoveredTrade.surplus {net : Deltas} {trade : WholeOfferTrade} (h : CoveredTrade net trade)
    (token : String) :
    0 ≤ tradeSurplus net trade token ∧ tradeSurplus net trade token ≤ maxSettlementAmount := by
  have hrequired := h.required
  have hsupplied := h.supplied
  have hinput := h.input_le
  have houtput := h.output_pos
  have hneg := h.feasible.input_neg
  obtain ⟨hlow, hhigh⟩ := h.feasible.in_range token
  unfold tradeSurplus
  by_cases hin : token = toLowerCase trade.tokenIn
  · have hout : token ≠ toLowerCase trade.tokenOut := fun heq =>
      h.feasible.distinct (hin.symm.trans heq)
    rw [if_pos hin, if_neg hout, hin]
    omega
  · have hnonneg : 0 ≤ net token := by
      by_contra hlt
      exact hin (h.feasible.only_deficit token (by omega))
    rw [if_neg hin]
    by_cases hout : token = toLowerCase trade.tokenOut
    · rw [if_pos hout]
      rw [hout] at hhigh ⊢
      omega
    · rw [if_neg hout]
      omega

/-- The receipts of a trade: the positive part of the surplus. -/
def surplusReceipts (rows : List WholeOfferTokenBalance) (net : Deltas) (trade : WholeOfferTrade) :
    List WholeOfferReceipt :=
  (rows.map fun row => ⟨row.token, tradeSurplus net trade row.token⟩).filter (·.amount > 0)

variable {rows : List WholeOfferTokenBalance} {net : Deltas} {trade : WholeOfferTrade}

/-- **Receipts are built exactly when the makers cover the trade.** -/
theorem buildWholeOfferReceipts_iff (h : CanonicalAccounts rows net)
    {result : WholeOfferReceiptResult} :
    buildWholeOfferReceipts rows trade = .ok (.ok result) ↔ CoveredTrade net trade ∧
      result = ⟨-net (toLowerCase trade.tokenIn), net (toLowerCase trade.tokenOut),
        surplusReceipts rows net trade⟩ := by
  unfold buildWholeOfferReceipts
  by_cases hin : trade.input ≤ 0
  · rw [if_pos hin]
    exact ⟨nofun, fun hc => absurd hc.1.input_pos (by omega)⟩
  by_cases hout : trade.output ≤ 0
  · rw [if_neg hin, if_pos hout]
    exact ⟨nofun, fun hc => absurd hc.1.output_pos (by omega)⟩
  by_cases hinMax : trade.input > maxSettlementAmount
  · rw [if_neg hin, if_neg hout, if_pos hinMax]
    refine ⟨fun heq => ?_, fun hc => absurd hc.1.input_le (by omega)⟩
    cases hcanonical : canonicalToken trade.tokenIn <;> rw [hcanonical] at heq <;> cases heq
  by_cases houtMax : trade.output > maxSettlementAmount
  · rw [if_neg hin, if_neg hout, if_neg hinMax, if_pos houtMax]
    refine ⟨fun heq => ?_, fun hc => absurd hc.1.output_le (by omega)⟩
    cases hcanonical : canonicalToken trade.tokenOut <;> rw [hcanonical] at heq <;> cases heq
  rw [if_neg hin, if_neg hout, if_neg hinMax, if_neg houtMax]
  cases heval : evaluateWholeOfferPair rows trade.tokenIn trade.tokenOut with
  | error message =>
    refine ⟨nofun, fun hc => ?_⟩
    have hok := h.evaluateWholeOfferPair_iff.mpr
      ⟨⟨hc.1.hexIn, hc.1.hexOut⟩, hc.1.feasible, rfl⟩
    rw [heval] at hok
    cases hok
  | ok evaluated =>
    cases evaluated with
    | error failure =>
      refine ⟨nofun, fun hc => ?_⟩
      have hok := h.evaluateWholeOfferPair_iff.mpr
        ⟨⟨hc.1.hexIn, hc.1.hexOut⟩, hc.1.feasible, rfl⟩
      rw [heval] at hok
      cases hok
    | ok pair =>
      obtain ⟨⟨hexIn, hexOut⟩, hfeasible, rfl⟩ := h.evaluateWholeOfferPair_iff.mp heval
      simp only [bind, Except.bind]
      by_cases hrequired : trade.input < -net (toLowerCase trade.tokenIn)
      · rw [if_pos hrequired]
        exact ⟨nofun, fun hc => absurd hc.1.required (by omega)⟩
      by_cases hsupplied : trade.output > net (toLowerCase trade.tokenOut)
      · rw [if_neg hrequired, if_pos hsupplied]
        exact ⟨nofun, fun hc => absurd hc.1.supplied (by omega)⟩
      rw [if_neg hrequired, if_neg hsupplied]
      have hcovered : CoveredTrade net trade := ⟨by omega, by omega, by omega, by omega, hexIn,
        hexOut, hfeasible, by omega, by omega⟩
      have hreceipts : (rows.map (receiptOf ⟨toLowerCase trade.tokenIn, toLowerCase trade.tokenOut,
          -net (toLowerCase trade.tokenIn), net (toLowerCase trade.tokenOut), rows⟩ trade)).filter
          (·.amount > 0) = surplusReceipts rows net trade := by
        unfold surplusReceipts
        congr 1
        refine List.map_congr_left fun row hrow => ?_
        unfold receiptOf tradeSurplus
        rw [h.net_eq row hrow]
      have hcap : (surplusReceipts rows net trade).find? (·.amount > maxSettlementAmount) =
          none := by
        refine List.find?_eq_none.mpr fun receipt hreceipt => ?_
        obtain ⟨row, -, rfl⟩ := List.mem_map.mp (List.mem_filter.mp hreceipt).1
        rw [decide_eq_true_eq]
        exact not_lt.mpr (hcovered.surplus row.token).2
      rw [hreceipts, hcap]
      constructor
      · intro heq
        cases heq
        exact ⟨hcovered, rfl⟩
      · rintro ⟨-, rfl⟩
        rfl

/-- The receipts of a covered trade, entry by entry. -/
theorem mem_surplusReceipts (h : CanonicalAccounts rows net) (hcovered : CoveredTrade net trade)
    (receipt : WholeOfferReceipt) : receipt ∈ surplusReceipts rows net trade ↔
      receipt.amount = tradeSurplus net trade receipt.token ∧ 0 < receipt.amount := by
  unfold surplusReceipts
  rw [List.mem_filter, List.mem_map, decide_eq_true_eq]
  constructor
  · rintro ⟨⟨row, -, rfl⟩, hpos⟩
    exact ⟨rfl, hpos⟩
  · rintro ⟨hamount, hpos⟩
    have hnet : net receipt.token ≠ 0 := by
      intro hzero
      have hin : receipt.token ≠ toLowerCase trade.tokenIn := fun heq =>
        absurd hcovered.feasible.input_neg (by rw [← heq, hzero]; omega)
      rw [hamount, tradeSurplus, hzero, if_neg hin] at hpos
      have := hcovered.output_pos
      split at hpos <;> omega
    obtain ⟨row, hrow, htoken⟩ := h.covers receipt.token hnet
    exact ⟨⟨row, hrow, by rw [htoken, ← hamount]⟩, hpos⟩

end ZswapKernel
