import Mathlib.Tactic.SplitIfs
import ZswapKernel.Lib.Double

/-!
# JSON values

What `JSON.parse` gives, and what `JSON.stringify` writes. The keys of an object come in order.
-/

namespace ZswapKernel

/-- A JSON value. -/
inductive Json
  | null
  | bool (value : Bool)
  | number (value : Double)
  | string (value : String)
  | array (values : List Json)
  | object (fields : List (String × Json))

/-- `value[name]`: a missing field is none, of anything but an object too. -/
def Json.field (name : String) : Json → Option Json
  | object fields => fields.lookup name
  | _ => none

/-- A text, or none. -/
def Json.str : Option Json → Option String
  | some (.string value) => some value
  | _ => none

/-- `Number.isSafeInteger(value)`, with the integer. -/
def Json.safeInteger : Option Json → Option Int
  | some (.number (.finite value)) =>
    if value.den = 1 ∧ value.num.natAbs ≤ 2 ^ 53 - 1 then some value.num else none
  | _ => none

end ZswapKernel
