import Mathlib.Data.List.Sort
import ZswapKernel.SolverCore.Text

/-!
# Token accounting of indivisible maker offers

`packages/solver-core/whole-offer-balance.ts`: the gross and net rows of a set of maker offers
(`accountWholeOfferBalances`), their evaluation against one external pair
(`evaluateWholeOfferPair`) and the solver's receipts for one trade (`buildWholeOfferReceipts`).

* A `Map<string, …>` with insertion order is an association list; `sort` is the stable insertion
  sort.
* A `TypeError` is an `Except.error` carrying its message.
-/

namespace ZswapKernel

/-- `MAX_COIN_AMOUNT`: coin serialization accepts u128. -/
def maxCoinAmount : Int := 2 ^ 128 - 1

/-- `MAX_SETTLEMENT_AMOUNT`: ledger-v8 deltas are i128 and reject `i128::MIN`. -/
def maxSettlementAmount : Int := 2 ^ 127 - 1

structure WholeOfferBalanceLeg where
  token : String
  amount : Int
  deriving DecidableEq, Repr

structure WholeOfferBalanceSource where
  gives : List WholeOfferBalanceLeg
  wants : List WholeOfferBalanceLeg
  deriving DecidableEq, Repr

/-- Gross maker terms and their signed net supply for one canonical token. -/
structure WholeOfferTokenBalance where
  token : String
  gives : Int
  wants : Int
  net : Int
  deriving DecidableEq, Repr

/-- The JSON-safe form of a row. -/
structure SerializedWholeOfferTokenBalance where
  token : String
  gives : String
  wants : String
  net : String
  deriving DecidableEq, Repr

structure WholeOfferPairBalance where
  tokenIn : String
  tokenOut : String
  input : Int
  output : Int
  tokenBalances : List WholeOfferTokenBalance
  deriving DecidableEq, Repr

inductive WholeOfferPairFailureReason
  | sameToken
  | inputNotNegative
  | outputNotPositive
  | additionalDeficit
  | settlementAmountCap
  deriving DecidableEq, Repr

/-- A refused evaluation: its reason and the token it names. -/
structure WholeOfferPairFailure where
  reason : WholeOfferPairFailureReason
  token : Option String
  deriving DecidableEq, Repr

structure WholeOfferTrade where
  tokenIn : String
  tokenOut : String
  input : Int
  output : Int
  deriving DecidableEq, Repr

structure WholeOfferReceipt where
  token : String
  amount : Int
  deriving DecidableEq, Repr

inductive WholeOfferReceiptFailureReason
  | pair (reason : WholeOfferPairFailureReason)
  | nonPositiveInput
  | nonPositiveOutput
  | insufficientInput
  | excessOutput
  deriving DecidableEq, Repr

structure WholeOfferReceiptFailure where
  reason : WholeOfferReceiptFailureReason
  token : Option String
  deriving DecidableEq, Repr

structure WholeOfferReceiptResult where
  requiredInput : Int
  availableOutput : Int
  receipts : List WholeOfferReceipt
  deriving DecidableEq, Repr

/-- `canonicalToken`. -/
def canonicalToken (token : String) : Except String String :=
  if hex64 token then .ok (toLowerCase token) else .error s!"invalid token id: {token}"

/-! ### The totals map -/

/-- One entry of `totals`: a token and its gross terms. -/
structure TokenTotal where
  token : String
  gives : Int
  wants : Int
  deriving DecidableEq, Repr

/-- `totals.set(token, current)` after adding `gives` and `wants` to the entry of `token`. -/
def addTotal (token : String) (gives wants : Int) : List TokenTotal → List TokenTotal
  | [] => [⟨token, gives, wants⟩]
  | total :: totals =>
    if total.token = token then ⟨token, total.gives + gives, total.wants + wants⟩ :: totals
    else total :: addTotal token gives wants totals

/-- `left < right ? -1 : left > right ? 1 : 0` on the tokens of two entries. -/
def byToken (left right : TokenTotal) : Prop := left.token ≤ right.token

instance : DecidableRel byToken := fun left right =>
  inferInstanceAs (Decidable (left.token ≤ right.token))

/-- `.map(([token, total]) => …)`: a row of a sorted total. -/
def TokenTotal.row (total : TokenTotal) : WholeOfferTokenBalance :=
  ⟨total.token, total.gives, total.wants, total.gives - total.wants⟩

/-- `[...totals.entries()].sort(…).map(…)`. -/
def sortedRows (totals : List TokenTotal) : List WholeOfferTokenBalance :=
  (totals.insertionSort byToken).map TokenTotal.row

/-- One step of `canonicalBalances`: validate a row and add it to its token's total. -/
def addBalance (totals : List TokenTotal) (balance : WholeOfferTokenBalance) :
    Except String (List TokenTotal) := do
  let token ← canonicalToken balance.token
  if balance.gives < 0 ∨ balance.wants < 0 ∨ balance.net ≠ balance.gives - balance.wants then
    throw s!"invalid token balance for {token}"
  return addTotal token balance.gives balance.wants totals

/-- `canonicalBalances`. -/
def canonicalBalances (balances : List WholeOfferTokenBalance) :
    Except String (List WholeOfferTokenBalance) := do
  return sortedRows (← balances.foldlM addBalance [])

inductive Side
  | gives
  | wants
  deriving DecidableEq, Repr

def Side.text : Side → String
  | .gives => "gives"
  | .wants => "wants"

/-- `add` of `accountWholeOfferBalances`. -/
def addLeg (side : Side) (totals : List TokenTotal) (leg : WholeOfferBalanceLeg) :
    Except String (List TokenTotal) := do
  let token ← canonicalToken leg.token
  if leg.amount ≤ 0 then throw s!"invalid {side.text} amount for {token}"
  return match side with
    | .gives => addTotal token leg.amount 0 totals
    | .wants => addTotal token 0 leg.amount totals

def addSource (totals : List TokenTotal) (source : WholeOfferBalanceSource) :
    Except String (List TokenTotal) := do
  source.wants.foldlM (addLeg .wants) (← source.gives.foldlM (addLeg .gives) totals)

/-- `accountWholeOfferBalances`: exact rows of the sources, with no settlement cap. -/
def accountWholeOfferBalances (sources : List WholeOfferBalanceSource) :
    Except String (List WholeOfferTokenBalance) := do
  return sortedRows (← sources.foldlM addSource [])

/-- `serializeWholeOfferTokenBalances`. -/
def serializeWholeOfferTokenBalances (balances : List WholeOfferTokenBalance) :
    Except String (List SerializedWholeOfferTokenBalance) := do
  return (← canonicalBalances balances).map fun balance =>
    ⟨balance.token, decimal balance.gives, decimal balance.wants, decimal balance.net⟩

/-! ### One external pair -/

/-- `evaluateWholeOfferPair`: the outer `Except` is a thrown `TypeError`. -/
def evaluateWholeOfferPair (balances : List WholeOfferTokenBalance) (tokenIn tokenOut : String) :
    Except String (Except WholeOfferPairFailure WholeOfferPairBalance) := do
  let inputToken ← canonicalToken tokenIn
  let outputToken ← canonicalToken tokenOut
  if inputToken = outputToken then return .error ⟨.sameToken, none⟩
  let rows ← canonicalBalances balances
  match rows.find? (·.token = inputToken) with
  | none => return .error ⟨.inputNotNegative, some inputToken⟩
  | some input =>
    if input.net ≥ 0 then return .error ⟨.inputNotNegative, some inputToken⟩
    match rows.find? (·.token = outputToken) with
    | none => return .error ⟨.outputNotPositive, some outputToken⟩
    | some output =>
      if output.net ≤ 0 then return .error ⟨.outputNotPositive, some outputToken⟩
      match rows.find? fun balance => balance.token ≠ inputToken ∧ balance.net < 0 with
      | some deficit => return .error ⟨.additionalDeficit, some deficit.token⟩
      | none =>
        match rows.find? fun balance =>
          balance.net > maxSettlementAmount ∨ balance.net < -maxSettlementAmount with
        | some outside => return .error ⟨.settlementAmountCap, some outside.token⟩
        | none => return .ok ⟨inputToken, outputToken, -input.net, output.net, rows⟩

/-- The receipt of one row: the net supply, plus the trade's input on its own token and minus the
trade's output on its own. -/
def receiptOf (pair : WholeOfferPairBalance) (trade : WholeOfferTrade)
    (balance : WholeOfferTokenBalance) : WholeOfferReceipt :=
  ⟨balance.token, balance.net + (if balance.token = pair.tokenIn then trade.input else 0) -
    (if balance.token = pair.tokenOut then trade.output else 0)⟩

/-- `buildWholeOfferReceipts`: every positive solver receipt of one admitted trade. -/
def buildWholeOfferReceipts (balances : List WholeOfferTokenBalance) (trade : WholeOfferTrade) :
    Except String (Except WholeOfferReceiptFailure WholeOfferReceiptResult) := do
  if trade.input ≤ 0 then return .error ⟨.nonPositiveInput, none⟩
  if trade.output ≤ 0 then return .error ⟨.nonPositiveOutput, none⟩
  if trade.input > maxSettlementAmount then
    return .error ⟨.pair .settlementAmountCap, some (← canonicalToken trade.tokenIn)⟩
  if trade.output > maxSettlementAmount then
    return .error ⟨.pair .settlementAmountCap, some (← canonicalToken trade.tokenOut)⟩
  match ← evaluateWholeOfferPair balances trade.tokenIn trade.tokenOut with
  | .error failure => return .error ⟨.pair failure.reason, failure.token⟩
  | .ok pair =>
    if trade.input < pair.input then return .error ⟨.insufficientInput, some pair.tokenIn⟩
    if trade.output > pair.output then return .error ⟨.excessOutput, some pair.tokenOut⟩
    let receipts := (pair.tokenBalances.map (receiptOf pair trade)).filter (·.amount > 0)
    match receipts.find? (·.amount > maxSettlementAmount) with
    | some receipt => return .error ⟨.pair .settlementAmountCap, some receipt.token⟩
    | none => return .ok ⟨pair.input, pair.output, receipts⟩

end ZswapKernel
