import ZswapKernel.SolverCore.ReceiptsExact
import ZswapKernel.Solver.ExactFiles

/-!
# The half that is checked is what the receipts leave

`buildHalf` and `assertInverseHalf` of `packages/solver/src/swap-job-executor.ts`. The makers and
the receipts merge to a base, whose expected delta is the net of the makers less the receipts; the
proved half must then be the numeric inverse of the job.

* `Represents map net` — a `Map<string, bigint>` that holds the nonzero entries of a vector.
* `represents_expectedBase` — what the base is expected to be: `-amountIn` of the input token and
  `amountOut` of the output token.
* `receipts_conserve` — the receipts, with both checks.
-/

namespace ZswapKernel

open Stock

/-! ## The checks -/

/-- One step of the loop over `route.receipts`. -/
def settleReceipt (expectedBase : TokenAmounts) (receipt : WholeOfferReceipt) : TokenAmounts :=
  let next := amountOf expectedBase receipt.token - receipt.amount
  if next = 0 then expectedBase.filter (·.1 ≠ receipt.token)
  else BestByKey.replace (·.1) (receipt.token, next) expectedBase

/-- `expectedBase`. -/
def expectedBase (tokenBalances : List WholeOfferTokenBalance)
    (receipts : List WholeOfferReceipt) : TokenAmounts :=
  receipts.foldl settleReceipt (balanceNetMap tokenBalances)

/-- `expected` of `assertInverseHalf`. -/
def inverseJob (job : SwapMessage) : TokenAmounts :=
  toTokenAmounts [(toLowerCase job.tokenOut, bigInt job.amountOut),
    (toLowerCase job.tokenIn, -bigInt job.amountIn)]

/-- `assertInverseHalf`. -/
def assertInverseHalf (job : SwapMessage) (imbalances : Except String (List Imbalance)) :
    Refusable Unit :=
  match readTotals imbalances with
  | .error (.refusal reason detail) => .error (.refusal reason detail)
  | .error (.thrown message) =>
    refuse .walletFailed s!"could not inspect solver-half imbalance: {message}"
  | .ok actual =>
    if ¬ sameAmounts actual (inverseJob job) then
      refuse .walletFailed "proved half does not equal the numeric inverse job"
    else .ok ()

/-! ## Maps and vectors -/

/-- The map holds the nonzero entries of the vector. -/
structure Represents (map : TokenAmounts) (net : Deltas) : Prop where
  distinct : map.Pairwise (·.1 ≠ ·.1)
  mem_iff : ∀ entry, entry ∈ map ↔ entry.2 = net entry.1 ∧ entry.2 ≠ 0

namespace Represents

variable {map map' : TokenAmounts} {net net' : Deltas}

theorem nodup (h : Represents map net) : map.Nodup :=
  h.distinct.imp fun hne heq => hne (congrArg _ heq)

theorem mem_of_ne (h : Represents map net) {token : String} (hne : net token ≠ 0) :
    (token, net token) ∈ map := (h.mem_iff _).mpr ⟨rfl, hne⟩

/-- `map.get(token)`. -/
theorem find? (h : Represents map net) (token : String) :
    (map.find? (·.1 = token)).map (·.2) = if net token = 0 then none else some (net token) := by
  cases hfind : map.find? (·.1 = token) with
  | none =>
    have hzero : net token = 0 := by
      by_contra hne
      exact absurd (decide_eq_true rfl) (List.find?_eq_none.mp hfind _ (h.mem_of_ne hne))
    rw [if_pos hzero]
    rfl
  | some entry =>
    have hkey : entry.1 = token := by simpa using List.find?_some hfind
    obtain ⟨hamount, hne⟩ := (h.mem_iff entry).mp (List.mem_of_find?_eq_some hfind)
    rw [hkey] at hamount
    rw [if_neg (hamount ▸ hne), ← hamount]
    rfl

theorem amountOf (h : Represents map net) (token : String) : amountOf map token = net token := by
  unfold Stock.amountOf
  rw [h.find?]
  split
  · rename_i hzero
    rw [hzero]
    rfl
  · rfl

theorem unique (h : Represents map net) (h' : Represents map' net) : map.Perm map' :=
  (List.perm_ext_iff_of_nodup h.nodup h'.nodup).mpr fun entry =>
    (h.mem_iff entry).trans (h'.mem_iff entry).symm

/-- `map.set(token, amount)`, with an amount that is not zero. -/
theorem replace (h : Represents map net) {token : String} {amount : Int} (hne : amount ≠ 0) :
    Represents (BestByKey.replace (·.1) (token, amount) map)
      (Function.update net token amount) := by
  refine ⟨BestByKey.pairwise_replace h.distinct _, fun entry => ?_⟩
  rw [BestByKey.mem_replace h.distinct, h.mem_iff]
  by_cases hkey : entry.1 = token
  · rw [hkey, Function.update_self]
    constructor
    · rintro (rfl | ⟨-, habs⟩)
      · exact ⟨rfl, hne⟩
      · exact absurd rfl habs
    · rintro ⟨hamount, -⟩
      exact .inl (Prod.ext hkey hamount)
  · rw [Function.update_of_ne hkey]
    constructor
    · rintro (rfl | ⟨hentry, -⟩)
      · exact absurd rfl hkey
      · exact hentry
    · exact fun hentry => .inr ⟨hentry, hkey⟩

/-- `map.delete(token)`. -/
theorem delete (h : Represents map net) (token : String) :
    Represents (map.filter (·.1 ≠ token)) (Function.update net token 0) := by
  refine ⟨h.distinct.filter _, fun entry => ?_⟩
  rw [List.mem_filter, h.mem_iff, decide_eq_true_eq]
  by_cases hkey : entry.1 = token
  · rw [hkey, Function.update_self]
    exact ⟨fun hentry => absurd rfl hentry.2, fun hentry => absurd hentry.1 hentry.2⟩
  · rw [Function.update_of_ne hkey]
    exact ⟨fun hentry => hentry.1, fun hentry => ⟨hentry, hkey⟩⟩

/-- A map with different tokens and nonzero amounts is that of its own lookups. -/
theorem of_distinct (hdistinct : map.Pairwise (·.1 ≠ ·.1)) (hne : ∀ entry ∈ map, entry.2 ≠ 0) :
    Represents map (Stock.amountOf map) := by
  have hlookup : ∀ entry ∈ map, Stock.amountOf map entry.1 = entry.2 := by
    intro entry hentry
    unfold Stock.amountOf
    cases hfind : map.find? (·.1 = entry.1) with
    | none => exact absurd (decide_eq_true rfl) (List.find?_eq_none.mp hfind entry hentry)
    | some found =>
      have hkey : found.1 = entry.1 := by simpa using List.find?_some hfind
      have hsame : found = entry := by
        by_contra hother
        have : Std.Symm fun a b : String × Int => a.1 ≠ b.1 := ⟨fun _ _ h => h.symm⟩
        exact hdistinct.forall (List.mem_of_find?_eq_some hfind) hentry hother hkey
      rw [hsame]
      rfl
  refine ⟨hdistinct, fun entry => ⟨fun hentry => ?_, fun ⟨hamount, hnonzero⟩ => ?_⟩⟩
  · exact ⟨(hlookup entry hentry).symm, hne entry hentry⟩
  · rw [hamount] at hnonzero
    unfold Stock.amountOf at hamount hnonzero
    cases hfind : map.find? (·.1 = entry.1) with
    | none =>
      rw [hfind] at hnonzero
      exact absurd rfl hnonzero
    | some found =>
      have hkey : found.1 = entry.1 := by simpa using List.find?_some hfind
      rw [hfind] at hamount
      have hsame : found = entry := Prod.ext hkey hamount.symm
      exact hsame ▸ List.mem_of_find?_eq_some hfind

/-- A map built from entries with different tokens and nonzero amounts. -/
theorem toTokenAmounts {entries : List (String × Int)} (hdistinct : entries.Pairwise (·.1 ≠ ·.1))
    (hentries : ∀ entry, entry ∈ entries ↔ entry.2 = net entry.1 ∧ entry.2 ≠ 0) :
    Represents (toTokenAmounts entries) net := by
  have hkeep : ∀ (rest kept : TokenAmounts), (kept ++ rest).Pairwise (·.1 ≠ ·.1) →
      rest.foldl (fun result entry => BestByKey.replace (·.1) entry result) kept =
        kept ++ rest := by
    intro rest
    induction rest with
    | nil => exact fun kept _ => (List.append_nil kept).symm
    | cons entry rest ih =>
      intro kept hpairwise
      have hnew : ∀ a ∈ kept, a.1 ≠ entry.1 := fun a ha =>
        (List.pairwise_append.mp hpairwise).2.2 a ha entry List.mem_cons_self
      rw [List.foldl_cons, BestByKey.replace_of_forall_ne hnew, ih _ (by rwa [List.append_assoc]),
        List.append_assoc]
      rfl
  have heq : ZswapKernel.toTokenAmounts entries = entries := hkeep entries [] hdistinct
  rw [heq]
  exact ⟨hdistinct, hentries⟩

/-- `sameAmounts` compares the vectors. -/
theorem sameAmounts_iff (h : Represents map net) (h' : Represents map' net') :
    sameAmounts map map' = true ↔ net = net' := by
  unfold sameAmounts
  rw [Bool.and_eq_true, decide_eq_true_eq, List.all_eq_true]
  constructor
  · rintro ⟨hlength, hall⟩
    have hsub : map' ⊆ map := by
      intro entry hentry
      have hfound := of_decide_eq_true (hall entry hentry)
      obtain ⟨-, hne⟩ := (h'.mem_iff entry).mp hentry
      rw [h.find?] at hfound
      split at hfound
      · cases hfound
      · exact (h.mem_iff entry).mpr ⟨(Option.some.inj hfound).symm, hne⟩
    have hperm : map'.Perm map :=
      (List.subperm_of_subset h'.nodup hsub).perm_of_length_le hlength.le
    funext token
    by_cases hzero : net' token = 0
    · by_contra hne
      have hmem := hperm.mem_iff.mpr (h.mem_of_ne fun hzero' => hne (hzero'.trans hzero.symm))
      exact hne ((h'.mem_iff _).mp hmem).1
    · exact ((h.mem_iff _).mp (hperm.mem_iff.mp (h'.mem_of_ne hzero))).1.symm
  · rintro rfl
    refine ⟨(h.unique h').length_eq, fun entry hentry => ?_⟩
    obtain ⟨hamount, hne⟩ := (h'.mem_iff entry).mp hentry
    rw [decide_eq_true_eq, h.find?, if_neg (hamount ▸ hne), ← hamount]

end Represents

/-! ## The totals of a transaction -/

theorem aggregateFrom_distinct {result actual : TokenAmounts} {imbalances : List Imbalance}
    (hdistinct : result.Pairwise (·.1 ≠ ·.1)) (h : aggregateFrom result imbalances = .ok actual) :
    actual.Pairwise (·.1 ≠ ·.1) := by
  induction imbalances generalizing result with
  | nil =>
    cases h
    exact hdistinct
  | cons imbalance imbalances ih =>
    unfold aggregateFrom at h
    split at h
    · exact ih hdistinct h
    · cases h
    · exact ih (BestByKey.pairwise_replace hdistinct _) h

/-- The totals read off a transaction are those of a vector. -/
theorem readTotals_represents {imbalances : Except String (List Imbalance)} {actual : TokenAmounts}
    (h : readTotals imbalances = .ok actual) : ∃ net, Represents actual net := by
  unfold readTotals at h
  split at h
  · cases h
  · unfold aggregateTokenImbalances at h
    obtain ⟨totals, htotals, h⟩ := Except.bind_eq_ok.mp h
    cases h
    exact ⟨_, .of_distinct ((aggregateFrom_distinct List.Pairwise.nil htotals).filter _)
      fun entry hentry => of_decide_eq_true (List.mem_filter.mp hentry).2⟩

/-! ## The expected base -/

variable {rows : List WholeOfferTokenBalance} {net : Deltas}

theorem represents_balanceNetMap (h : CanonicalAccounts rows net) :
    Represents (balanceNetMap rows) net := by
  have hlower : ∀ row ∈ rows, toLowerCase row.token = row.token := fun row hrow =>
    (h.canonical row hrow).token.lower
  unfold balanceNetMap
  refine Represents.toTokenAmounts ?_ fun entry => ?_
  · refine List.pairwise_map.mpr ((h.sorted.filter _).imp_of_mem fun ha hb hlt heq => ?_)
    rw [hlower _ (List.mem_of_mem_filter ha), hlower _ (List.mem_of_mem_filter hb)] at heq
    exact absurd heq hlt.ne
  · rw [List.mem_map]
    constructor
    · rintro ⟨row, hrow, rfl⟩
      obtain ⟨hrow, hne⟩ := List.mem_filter.mp hrow
      rw [hlower row hrow]
      exact ⟨h.net_eq row hrow, of_decide_eq_true hne⟩
    · rintro ⟨hamount, hne⟩
      obtain ⟨row, hrow, htoken⟩ := h.covers entry.1 (hamount ▸ hne)
      have hnet : row.net = entry.2 := by rw [h.net_eq row hrow, htoken, hamount]
      refine ⟨row, List.mem_filter.mpr ⟨hrow, by rw [hnet]; exact decide_eq_true hne⟩, ?_⟩
      rw [hlower row hrow]
      exact Prod.ext htoken hnet

theorem represents_settleReceipt {map : TokenAmounts} (h : Represents map net)
    (receipt : WholeOfferReceipt) : Represents (settleReceipt map receipt)
      (Function.update net receipt.token (net receipt.token - receipt.amount)) := by
  unfold settleReceipt
  rw [h.amountOf]
  dsimp only
  split
  · rename_i hzero
    rw [hzero]
    exact h.delete receipt.token
  · rename_i hne
    exact h.replace hne

/-- What the receipts take of each token. -/
def receiptsTotal (receipts : List WholeOfferReceipt) : Deltas :=
  (receipts.map fun receipt => (Pi.single receipt.token receipt.amount : Deltas)).sum

theorem receiptsTotal_cons (receipt : WholeOfferReceipt) (receipts : List WholeOfferReceipt) :
    receiptsTotal (receipt :: receipts) =
      Pi.single receipt.token receipt.amount + receiptsTotal receipts := by
  unfold receiptsTotal
  rw [List.map_cons, List.sum_cons]

theorem update_sub_eq (net : Deltas) (token : String) (amount : Int) :
    Function.update net token (net token - amount) = net - Pi.single token amount := by
  funext other
  by_cases heq : other = token
  · rw [heq, Function.update_self, Pi.sub_apply, Pi.single_eq_same]
  · rw [Function.update_of_ne heq, Pi.sub_apply, Pi.single_eq_of_ne heq, sub_zero]

/-- The loop over the receipts takes them off. -/
theorem represents_foldl_settleReceipt {map : TokenAmounts} (h : Represents map net)
    (receipts : List WholeOfferReceipt) :
    Represents (receipts.foldl settleReceipt map) (net - receiptsTotal receipts) := by
  induction receipts generalizing map net with
  | nil =>
    have hzero : net - receiptsTotal [] = net := sub_zero net
    rw [hzero]
    exact h
  | cons receipt receipts ih =>
    rw [receiptsTotal_cons, ← sub_sub, ← update_sub_eq]
    exact ih (represents_settleReceipt h receipt)

theorem receiptsTotal_of_not_mem {receipts : List WholeOfferReceipt} {token : String}
    (h : ∀ receipt ∈ receipts, receipt.token ≠ token) : receiptsTotal receipts token = 0 := by
  induction receipts with
  | nil => rfl
  | cons receipt receipts ih =>
    rw [receiptsTotal_cons, Pi.add_apply, ih fun r hr => h r (List.mem_cons_of_mem _ hr),
      Pi.single_eq_of_ne (h receipt List.mem_cons_self).symm, add_zero]

/-- With one receipt for each token, the total of a token is its receipt. -/
theorem receiptsTotal_of_mem {receipts : List WholeOfferReceipt}
    (hdistinct : receipts.Pairwise (·.token ≠ ·.token)) {receipt : WholeOfferReceipt}
    (h : receipt ∈ receipts) : receiptsTotal receipts receipt.token = receipt.amount := by
  induction receipts with
  | nil => cases h
  | cons first receipts ih =>
    obtain ⟨hfirst, hdistinct⟩ := List.pairwise_cons.mp hdistinct
    rw [receiptsTotal_cons, Pi.add_apply]
    rcases List.mem_cons.mp h with rfl | h
    · rw [Pi.single_eq_same, receiptsTotal_of_not_mem fun r hr heq => hfirst r hr heq.symm,
        add_zero]
    · rw [Pi.single_eq_of_ne (hfirst receipt h).symm, ih hdistinct h, zero_add]

theorem surplusReceipts_distinct {trade : WholeOfferTrade} (h : CanonicalAccounts rows net) :
    (surplusReceipts rows net trade).Pairwise (·.token ≠ ·.token) :=
  (List.pairwise_map.mpr (h.sorted.imp fun hlt => hlt.ne)).filter _

theorem receiptsTotal_surplusReceipts {trade : WholeOfferTrade} (h : CanonicalAccounts rows net)
    (hcovered : CoveredTrade net trade) :
    receiptsTotal (surplusReceipts rows net trade) = tradeSurplus net trade := by
  funext token
  have hmem := mem_surplusReceipts h hcovered
  by_cases hpos : 0 < tradeSurplus net trade token
  · exact receiptsTotal_of_mem (surplusReceipts_distinct h)
      ((hmem ⟨token, tradeSurplus net trade token⟩).mpr ⟨rfl, hpos⟩)
  · have hzero : tradeSurplus net trade token = 0 := by
      have := (hcovered.surplus token).1
      omega
    rw [hzero]
    refine receiptsTotal_of_not_mem fun receipt hreceipt heq => ?_
    obtain ⟨hamount, hpos'⟩ := (hmem receipt).mp hreceipt
    rw [heq, hzero] at hamount
    omega

/-! ## The inverse of the job -/

/-- What the makers less the receipts amount to. -/
def tradeDelta (trade : WholeOfferTrade) : Deltas := fun token =>
  (if token = toLowerCase trade.tokenOut then trade.output else 0) -
    (if token = toLowerCase trade.tokenIn then trade.input else 0)

theorem sub_tradeSurplus (net : Deltas) (trade : WholeOfferTrade) :
    net - tradeSurplus net trade = tradeDelta trade := by
  funext token
  rw [Pi.sub_apply]
  unfold tradeSurplus tradeDelta
  omega

/-- **The expected base** is `amountOut` of the output token and `-amountIn` of the input token. -/
theorem represents_expectedBase {trade : WholeOfferTrade} (h : CanonicalAccounts rows net)
    (hcovered : CoveredTrade net trade) :
    Represents (expectedBase rows (surplusReceipts rows net trade)) (tradeDelta trade) := by
  have hbase := represents_foldl_settleReceipt (represents_balanceNetMap h)
    (surplusReceipts rows net trade)
  rw [receiptsTotal_surplusReceipts h hcovered, sub_tradeSurplus] at hbase
  exact hbase

theorem represents_inverseJob {job : SwapMessage} (hcovered : CoveredTrade net job.trade) :
    Represents (inverseJob job) (tradeDelta job.trade) := by
  have hin : toLowerCase job.trade.tokenIn = toLowerCase job.tokenIn := toLowerCase_toLowerCase _
  have hout : toLowerCase job.trade.tokenOut = toLowerCase job.tokenOut := toLowerCase_toLowerCase _
  have hdistinct : toLowerCase job.tokenIn ≠ toLowerCase job.tokenOut := by
    rw [← hin, ← hout]
    exact hcovered.feasible.distinct
  have hinput : 0 < bigInt job.amountIn := hcovered.input_pos
  have houtput : 0 < bigInt job.amountOut := hcovered.output_pos
  refine Represents.toTokenAmounts (List.pairwise_pair.mpr hdistinct.symm) fun entry => ?_
  unfold tradeDelta
  rw [hin, hout]
  have hentries : entry ∈ [(toLowerCase job.tokenOut, bigInt job.amountOut),
        (toLowerCase job.tokenIn, -bigInt job.amountIn)] ↔
      entry = (toLowerCase job.tokenOut, bigInt job.amountOut) ∨
        entry = (toLowerCase job.tokenIn, -bigInt job.amountIn) := by
    rw [List.mem_cons, List.mem_singleton]
  rw [hentries]
  have hoff : job.trade.output = bigInt job.amountOut ∧ job.trade.input = bigInt job.amountIn :=
    ⟨rfl, rfl⟩
  rw [hoff.1, hoff.2]
  constructor
  · rintro (rfl | rfl)
    · rw [if_pos rfl, if_neg hdistinct.symm]
      exact ⟨(sub_zero _).symm, houtput.ne'⟩
    · rw [if_neg hdistinct, if_pos rfl]
      exact ⟨(zero_sub _).symm, (neg_neg_of_pos hinput).ne⟩
  · rintro ⟨hamount, hne⟩
    by_cases houtToken : entry.1 = toLowerCase job.tokenOut
    · rw [houtToken, if_pos rfl, if_neg hdistinct.symm, sub_zero] at hamount
      exact .inl (Prod.ext houtToken hamount)
    · by_cases hinToken : entry.1 = toLowerCase job.tokenIn
      · rw [if_neg houtToken, if_pos hinToken, zero_sub] at hamount
        exact .inr (Prod.ext hinToken hamount)
      · rw [if_neg houtToken, if_neg hinToken, sub_zero] at hamount
        exact absurd hamount hne

/-! ## What the checks accept -/

variable {imbalances : Except String (List Imbalance)}

theorem assertInverseHalf_iff {job : SwapMessage} {delta : Deltas}
    (h : Represents (inverseJob job) delta) : assertInverseHalf job imbalances = .ok () ↔
      ∃ actual, readTotals imbalances = .ok actual ∧ Represents actual delta := by
  unfold assertInverseHalf
  cases hread : readTotals imbalances with
  | error error =>
    refine ⟨fun heq => ?_, nofun⟩
    cases error <;> cases heq
  | ok actual =>
    obtain ⟨total, htotal⟩ := readTotals_represents hread
    dsimp only
    by_cases hsame : sameAmounts actual (inverseJob job) = true
    · rw [if_neg (not_not.mpr hsame)]
      rw [(htotal.sameAmounts_iff h).mp hsame] at htotal
      exact ⟨fun _ => ⟨actual, rfl, htotal⟩, fun _ => rfl⟩
    · rw [if_pos hsame]
      refine ⟨nofun, ?_⟩
      rintro ⟨_, hactual, hdelta⟩
      cases hactual
      exact absurd ((hdelta.sameAmounts_iff h).mpr rfl) hsame

/-- The vector check is on the totals only, where what is expected is in the settlement domain. -/
theorem assertTransactionNet_iff {expected : TokenAmounts} {delta : Deltas}
    (h : Represents expected delta) (hrange : InRange maxSettlementAmount delta)
    (reason : JobErrorReason) (label : String) :
    assertTransactionNet imbalances expected reason label = .ok () ↔
      ∃ actual, readTotals imbalances = .ok actual ∧ Represents actual delta := by
  unfold assertTransactionNet
  cases hread : readTotals imbalances with
  | error error => exact ⟨nofun, nofun⟩
  | ok actual =>
    obtain ⟨total, htotal⟩ := readTotals_represents hread
    dsimp only
    by_cases hsame : sameAmounts actual expected = true
    · rw [(htotal.sameAmounts_iff h).mp hsame] at htotal
      have hinside : (actual ++ expected).any (fun entry =>
          entry.2 < -maxSettlementAmount ∨ entry.2 > maxSettlementAmount) = false := by
        rw [List.any_eq_false]
        intro entry hentry
        have hamount : entry.2 = delta entry.1 := by
          rcases List.mem_append.mp hentry with hentry | hentry
          · exact ((htotal.mem_iff entry).mp hentry).1
          · exact ((h.mem_iff entry).mp hentry).1
        have := hrange entry.1
        rw [decide_eq_true_eq, hamount]
        omega
      rw [if_neg (by rw [hinside, not_or]; exact ⟨nofun, not_not.mpr hsame⟩)]
      exact ⟨fun _ => ⟨actual, rfl, htotal⟩, fun _ => rfl⟩
    · rw [if_pos (.inr hsame)]
      refine ⟨nofun, ?_⟩
      rintro ⟨_, hactual, hdelta⟩
      cases hactual
      exact absurd ((hdelta.sameAmounts_iff h).mpr rfl) hsame

theorem CoveredTrade.delta_in_range {trade : WholeOfferTrade} (h : CoveredTrade net trade) :
    InRange maxSettlementAmount (tradeDelta trade) := by
  intro token
  have := h.input_pos
  have := h.input_le
  have := h.output_pos
  have := h.output_le
  unfold tradeDelta
  split <;> split <;> omega

/-- **Receipts conserve value.** Over any list of valid offers, receipts are built exactly when the
makers cover the trade. They are the positive entries of the surplus, which is nowhere negative and
fits the bound; the makers less the receipts are `-amountIn` of the input token and `amountOut` of
the output token, and a transaction passes the check of the base exactly when it passes the check of
the proved half. -/
theorem receipts_conserve {sources : List WholeOfferBalanceSource}
    (hsources : ∀ source ∈ sources, ValidSource source) :
    ∃ rows, accountWholeOfferBalances sources = .ok rows ∧ ∀ trade,
      ((∃ result, buildWholeOfferReceipts rows trade = .ok (.ok result)) ↔
        CoveredTrade (sourcesNet sources) trade) ∧
      ∀ result, buildWholeOfferReceipts rows trade = .ok (.ok result) →
        (∀ receipt, receipt ∈ result.receipts ↔
          receipt.amount = tradeSurplus (sourcesNet sources) trade receipt.token ∧
            0 < receipt.amount) ∧
        result.receipts.Pairwise (·.token ≠ ·.token) ∧
        (∀ token, 0 ≤ tradeSurplus (sourcesNet sources) trade token ∧
          tradeSurplus (sourcesNet sources) trade token ≤ maxSettlementAmount) ∧
        sourcesNet sources - receiptsTotal result.receipts = tradeDelta trade ∧
        Represents (expectedBase rows result.receipts) (tradeDelta trade) ∧
        ∀ job : SwapMessage, job.trade = trade → ∀ imbalances reason label,
          (assertTransactionNet imbalances (expectedBase rows result.receipts) reason label =
            .ok () ↔ assertInverseHalf job imbalances = .ok ()) := by
  obtain ⟨rows, hrows, haccounts⟩ := accountWholeOfferBalances_canonical hsources
  refine ⟨rows, hrows, fun trade => ⟨?_, fun result hresult => ?_⟩⟩
  · constructor
    · rintro ⟨result, hresult⟩
      exact ((buildWholeOfferReceipts_iff haccounts).mp hresult).1
    · exact fun hcovered => ⟨_, (buildWholeOfferReceipts_iff haccounts).mpr ⟨hcovered, rfl⟩⟩
  · obtain ⟨hcovered, rfl⟩ := (buildWholeOfferReceipts_iff haccounts).mp hresult
    have hbase := represents_expectedBase haccounts hcovered
    refine ⟨mem_surplusReceipts haccounts hcovered, surplusReceipts_distinct haccounts,
      hcovered.surplus, ?_, hbase, ?_⟩
    · rw [receiptsTotal_surplusReceipts haccounts hcovered, sub_tradeSurplus]
    · rintro job rfl imbalances reason label
      rw [assertTransactionNet_iff hbase hcovered.delta_in_range,
        assertInverseHalf_iff (represents_inverseJob hcovered)]

namespace OneReceiptEach

def tokenA : String := "0000000000000000000000000000000000000000000000000000000000000001"
def tokenB : String := "0000000000000000000000000000000000000000000000000000000000000002"

/-- A maker that gives 5 `B` for 3 `A`. -/
def sources : List WholeOfferBalanceSource := [⟨[⟨tokenB, 5⟩], [⟨tokenA, 3⟩]⟩]

def trade : WholeOfferTrade := ⟨tokenA, tokenB, 4, 4⟩

theorem sources_valid : ∀ source ∈ sources, ValidSource source := by
  intro source hsource
  cases List.mem_singleton.mp hsource
  refine ⟨fun leg hleg => ?_, fun leg hleg => ?_⟩
  · cases List.mem_singleton.mp hleg
    exact ⟨by decide +kernel, by decide⟩
  · cases List.mem_singleton.mp hleg
    exact ⟨by decide +kernel, by decide⟩

end OneReceiptEach

open OneReceiptEach in
theorem receipts_conserve_oneReceiptEach :
    (do buildWholeOfferReceipts (← accountWholeOfferBalances sources) trade) =
        .ok (.ok ⟨3, 5, [⟨tokenA, 1⟩, ⟨tokenB, 1⟩]⟩) ∧
      ∃ rows, accountWholeOfferBalances sources = .ok rows ∧
        ∀ result, buildWholeOfferReceipts rows trade = .ok (.ok result) →
          sourcesNet sources - receiptsTotal result.receipts = tradeDelta trade := by
  obtain ⟨rows, hrows, hall⟩ := receipts_conserve sources_valid
  exact ⟨by decide +kernel, rows, hrows, fun result hresult =>
    ((hall trade).2 result hresult).2.2.2.1⟩

end ZswapKernel
