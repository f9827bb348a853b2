import ZswapKernel.SolverCore.LadderExact

/-!
# The receipts of a feasible set

A feasible set of makers backs every trade of its pair whose input covers the requirement and whose
output is at most the supply: its accounting evaluates to the pair, and the solver's receipts are
built (`buildWholeOfferReceipts_ok`).
-/

namespace ZswapKernel

open SafeOrder

/-- The row found under a token. -/
theorem Accounts.find?_token {rows : List WholeOfferTokenBalance} {gives wants : Amounts}
    (h : Accounts rows gives wants) {token : String} (hne : gives token ≠ 0 ∨ wants token ≠ 0) :
    rows.find? (·.token = token) = some (rowAt gives wants token) := by
  have hmem : rowAt gives wants token ∈ rows := (h.mem_iff _).mpr ⟨token, hne, rfl⟩
  cases hfind : rows.find? (·.token = token) with
  | none =>
    have hnone := List.find?_eq_none.mp hfind _ hmem
    simp [rowAt] at hnone
  | some row =>
    have hrow := h.eq_rowAt (List.mem_of_find?_eq_some hfind)
    have htoken : row.token = token := by simpa using List.find?_some hfind
    rw [hrow, htoken]

section Makers

variable {makers : List Crossable} {rows : List WholeOfferTokenBalance} {maxMakers : Nat}
  {tokenIn tokenOut : String}

/-- The rows of valid makers are canonical. -/
theorem Accounts.canonical (h : Accounts rows (makerGives makers) (makerWants makers))
    (hvalid : ∀ offer ∈ makers, offer.Valid) : ∀ row ∈ rows, CanonicalRow row := by
  intro row hrow
  obtain ⟨token, hne, rfl⟩ := (h.mem_iff row).mp hrow
  exact ⟨hasAmount_canonical hvalid hne, makerGives_nonneg hvalid token,
    makerWants_nonneg hvalid token, rfl⟩

/-- The net of a row is the supply of its token. -/
theorem rowAt_net (makers : List Crossable) (token : String) :
    (rowAt (makerGives makers) (makerWants makers) token).net = netSupply makers token := by
  rw [netSupply_eq]
  rfl

theorem Accounts.net (h : Accounts rows (makerGives makers) (makerWants makers))
    {row : WholeOfferTokenBalance} (hrow : row ∈ rows) : row.net = netSupply makers row.token := by
  have := congrArg (·.net) (h.eq_rowAt hrow)
  exact this.trans (rowAt_net makers row.token)

/-- A token with a net amount has a row. -/
theorem hasAmount_of_net {token : String} (h : netSupply makers token ≠ 0) :
    makerGives makers token ≠ 0 ∨ makerWants makers token ≠ 0 := by
  by_contra hzero
  push Not at hzero
  rw [netSupply_eq] at h
  exact h (by rw [Pi.sub_apply, hzero.1, hzero.2, sub_self])

/-- **The pair** a feasible set trades. -/
theorem evaluateWholeOfferPair_ok (h : Accounts rows (makerGives makers) (makerWants makers))
    (hvalid : ∀ offer ∈ makers, offer.Valid) (hset : Candidate maxMakers tokenIn tokenOut makers)
    (hin : CanonicalToken tokenIn) (hout : CanonicalToken tokenOut) (hdistinct : tokenIn ≠ tokenOut) :
    evaluateWholeOfferPair rows tokenIn tokenOut = .ok (.ok ⟨tokenIn, tokenOut,
      -netSupply makers tokenIn, netSupply makers tokenOut, rows⟩) := by
  have hinput := h.find?_token (hasAmount_of_net hset.input_neg.ne)
  have houtput := h.find?_token (hasAmount_of_net hset.output_pos.ne')
  have hdeficit : (rows.find? fun balance => balance.token ≠ tokenIn ∧ balance.net < 0) = none := by
    refine List.find?_eq_none.mpr fun row hrow => ?_
    rw [decide_eq_true_eq, h.net hrow]
    rintro ⟨hne, hneg⟩
    exact hne (hset.only_deficit _ hneg)
  have hcap : (rows.find? fun balance =>
      balance.net > maxSettlementAmount ∨ balance.net < -maxSettlementAmount) = none := by
    refine List.find?_eq_none.mpr fun row hrow => ?_
    rw [decide_eq_true_eq, h.net hrow]
    have := hset.in_range row.token
    omega
  unfold evaluateWholeOfferPair
  simp only [hin.eq_ok, hout.eq_ok, bind, Except.bind, hdistinct, if_false,
    canonicalBalances_of_accounts h (h.canonical hvalid), hinput, houtput, hdeficit, hcap]
  rw [rowAt_net, rowAt_net, if_neg (not_le.mpr hset.input_neg), if_neg (not_le.mpr hset.output_pos)]
  rfl

/-- **The receipts** of a trade a feasible set backs. -/
theorem buildWholeOfferReceipts_ok (h : Accounts rows (makerGives makers) (makerWants makers))
    (hvalid : ∀ offer ∈ makers, offer.Valid) {trade : WholeOfferTrade}
    (hset : Candidate maxMakers trade.tokenIn trade.tokenOut makers)
    (hin : CanonicalToken trade.tokenIn) (hout : CanonicalToken trade.tokenOut)
    (hdistinct : trade.tokenIn ≠ trade.tokenOut)
    (hrequired : -netSupply makers trade.tokenIn ≤ trade.input)
    (hsettles : trade.input ≤ maxSettlementAmount) (hpos : 0 < trade.output)
    (hsupplied : trade.output ≤ netSupply makers trade.tokenOut) :
    ∃ receipts, buildWholeOfferReceipts rows trade = .ok (.ok ⟨-netSupply makers trade.tokenIn,
      netSupply makers trade.tokenOut, receipts⟩) := by
  have hneg := hset.input_neg
  have hrange := hset.in_range trade.tokenOut
  have hpair := evaluateWholeOfferPair_ok h hvalid hset hin hout hdistinct
  let pair : WholeOfferPairBalance := ⟨trade.tokenIn, trade.tokenOut,
    -netSupply makers trade.tokenIn, netSupply makers trade.tokenOut, rows⟩
  have hcap : ((rows.map (receiptOf pair trade)).filter (·.amount > 0)).find?
      (·.amount > maxSettlementAmount) = none := by
    refine List.find?_eq_none.mpr fun receipt hreceipt => ?_
    obtain ⟨row, hrow, rfl⟩ := List.mem_map.mp (List.mem_filter.mp hreceipt).1
    have hnet := h.net hrow
    have hrow := hset.in_range row.token
    rw [decide_eq_true_eq]
    unfold receiptOf
    simp only [pair]
    by_cases hrowIn : row.token = trade.tokenIn
    · rw [hrowIn] at hnet
      rw [if_pos hrowIn, if_neg (by rw [hrowIn]; exact hdistinct), hnet]
      omega
    · rw [if_neg hrowIn, hnet]
      split
      · omega
      · omega
  refine ⟨(rows.map (receiptOf pair trade)).filter (·.amount > 0), ?_⟩
  unfold buildWholeOfferReceipts
  rw [if_neg (by omega), if_neg (by omega), if_neg (by omega), if_neg (by omega), hpair]
  simp only [bind, Except.bind]
  rw [if_neg (by omega), if_neg (by omega)]
  simp only [pair] at hcap
  rw [hcap]
  rfl

end Makers

end ZswapKernel
