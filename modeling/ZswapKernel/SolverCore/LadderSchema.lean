import ZswapKernel.SolverCore.Text

/-!
# The price-ladder wire schema

`packages/solver-core/ladder-schema.ts` (`rejectLevels`, `rejectPair`, `interpolateQuote`) and the
predicates `packages/solver-core/relay-ws-contract.ts` ports from the relay (`isPriceLevelsPair`,
its own `interpolateQuote`). Both read a ladder of decimal strings.
-/

namespace ZswapKernel

structure PriceLevel where
  input : String
  output : String
  deriving DecidableEq, Repr

structure PriceLevelsPair where
  tokenIn : String
  tokenOut : String
  levels : List PriceLevel
  deriving DecidableEq, Repr

def maxPairsPerPush : Nat := 64
def maxRungsPerPair : Nat := 64

inductive LadderRejection
  | empty
  | tooManyRungs
  | malformedRung
  | nonPositive
  | inputNotAscending
  | outputDecreasing
  | badTokens
  deriving DecidableEq, Repr

def isDecimalDigit (c : Char) : Bool := '0' ≤ c && c ≤ '9'

namespace LadderSchema

def maxU256 : Int := 2 ^ 256 - 1

/-- `/^(?:0|[1-9][0-9]{0,77})$/` and at most `MAX_U256`. -/
def isAmountString (value : String) : Bool :=
  (match value.toList with
    | [] => false
    | ['0'] => true
    | first :: rest =>
      ('1' ≤ first && first ≤ '9') && rest.all isDecimalDigit && rest.length ≤ 77) &&
    bigInt value ≤ maxU256

/-- The checks of one rung against the one before it. -/
def rejectRung (previous : Option PriceLevel) (rung : PriceLevel) : Option LadderRejection :=
  if !isAmountString rung.input || !isAmountString rung.output then some .malformedRung
  else if bigInt rung.input ≤ 0 ∨ bigInt rung.output ≤ 0 then some .nonPositive
  else
    match previous with
    | none => none
    | some previous =>
      if bigInt previous.input ≥ bigInt rung.input then some .inputNotAscending
      else if bigInt previous.output > bigInt rung.output then some .outputDecreasing
      else none

/-- The loop of `rejectLevels`. -/
def rejectRungs : Option PriceLevel → List PriceLevel → Option LadderRejection
  | _, [] => none
  | previous, rung :: rungs =>
    match rejectRung previous rung with
    | some rejection => some rejection
    | none => rejectRungs (some rung) rungs

def rejectLevels (levels : List PriceLevel) : Option LadderRejection :=
  if levels.isEmpty then some .empty
  else if levels.length > maxRungsPerPair then some .tooManyRungs
  else rejectRungs none levels

def rejectPair (pair : PriceLevelsPair) : Option LadderRejection :=
  if !hex64 pair.tokenIn || !hex64 pair.tokenOut then some .badTokens
  else if toLowerCase pair.tokenIn = toLowerCase pair.tokenOut then some .badTokens
  else rejectLevels pair.levels

/-- The loop of `interpolateQuote` over adjacent rungs; the last rung when none brackets. -/
def interpolateRungs (amountIn : Int) : List PriceLevel → Option Int
  | [] => none
  | [rung] => some (bigInt rung.output)
  | low :: high :: rungs =>
    if amountIn > bigInt high.input then interpolateRungs amountIn (high :: rungs)
    else if bigInt high.input ≤ bigInt low.input then some (bigInt low.output)
    else some (bigInt low.output +
      ((bigInt high.output - bigInt low.output) * (amountIn - bigInt low.input)).tdiv
        (bigInt high.input - bigInt low.input))

/-- `interpolateQuote`: `none` outside the ladder. -/
def interpolateQuote (levels : List PriceLevel) (amountIn : Int) : Option Int :=
  match levels.head?, levels.getLast? with
  | some first, some last =>
    if amountIn < bigInt first.input then none
    else if amountIn > bigInt last.input then none
    else interpolateRungs amountIn levels
  | _, _ => none

end LadderSchema

namespace RelayWsContract

/-- `/^[0-9]+$/`. -/
def isAmountString (value : String) : Bool :=
  !value.toList.isEmpty && value.toList.all isDecimalDigit

/-- `pair.levels.every(…)`: decimal rungs, strictly ascending inputs. -/
def isPriceLevels : Option PriceLevel → List PriceLevel → Bool
  | _, [] => true
  | previous, level :: levels =>
    isAmountString level.input && isAmountString level.output &&
      (match previous with
        | none => true
        | some previous => bigInt previous.input < bigInt level.input) &&
      isPriceLevels (some level) levels

def isPriceLevelsPair (pair : PriceLevelsPair) : Bool := isPriceLevels none pair.levels

/-- The relay's `interpolateQuote`, the same loop. -/
def interpolateQuote (levels : List PriceLevel) (amountIn : Int) : Option Int :=
  match levels.head?, levels.getLast? with
  | some first, some last =>
    if amountIn < bigInt first.input then none
    else if amountIn > bigInt last.input then none
    else LadderSchema.interpolateRungs amountIn levels
  | _, _ => none

end RelayWsContract

end ZswapKernel
