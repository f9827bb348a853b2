import ZswapKernel.Lib.Double
import ZswapKernel.SolverCore.Text

/-!
# Prices as text

`packages/database/price-map.ts`: which asset stands behind a token, and the exact decimal
arithmetic that turns the price of a coin of the asset into the price of a base unit of the token;
and `Number(text)`, which the sponsorship rule reads prices and amounts with.
-/

namespace ZswapKernel

/-- `value.toUpperCase()`. -/
def toUpperCase (value : String) : String :=
  String.ofList (value.toList.map Char.toUpper)

/-! ## The asset of a token -/

structure PriceMapEntry where
  assetId : String
  decimals : Option Nat := none
  deriving DecidableEq, Repr

/-- `DEFAULT_NAME_ASSET_MAP`. -/
def defaultNameAssetMap : List (String × String) :=
  [("WBTC", "bitcoin"), ("WSBTC", "bitcoin"), ("BTC", "bitcoin"), ("WETH", "ethereum"),
    ("WSETH", "ethereum"), ("ETH", "ethereum"), ("USDC", "usd-coin"), ("USDM", "usdm-2"),
    ("NIGHT", "midnight-3"), ("SNIGHT", "midnight-3")]

/-- `priceMapKey`: colors in lower case, names in upper case. -/
def priceMapKey (nameOrColor : String) : String :=
  let trimmed := trim nameOrColor
  if hex64 trimmed then toLowerCase trimmed else toUpperCase trimmed

/-- A row of `known_tokens`. -/
structure KnownToken where
  tokenColor : String
  name : String
  kind : String
  decimals : Nat
  assetId : Option String
  deriving DecidableEq, Repr

/-- `resolveAssetId` of a whole row: the asset, and the decimals to price the token with. -/
def resolveAssetId (token : KnownToken) (overrides : List (String × PriceMapEntry)) :
    Option (String × Nat) :=
  let override := (overrides.lookup (priceMapKey token.tokenColor)).or
    (overrides.lookup (priceMapKey token.name))
  let assetId := (token.assetId.or (override.map (·.assetId))).or
    (defaultNameAssetMap.lookup (priceMapKey token.name))
  match assetId with
  | none | some "" => none
  | some assetId => some (assetId, (override.bind (·.decimals)).getD token.decimals)

/-! ## Decimal text -/

/-- `Decimal`: the value is `digits × 10 ^ exponent`. -/
structure Decimal where
  negative : Bool
  digits : List Char
  exponent : Int
  deriving DecidableEq, Repr

/-- A sign at the start of a text. -/
def takeSign : List Char → Bool × List Char
  | '-' :: rest => (true, rest)
  | '+' :: rest => (false, rest)
  | rest => (false, rest)

/-- The `[eE]([+-]?\d+)` at the end of `DECIMAL_RE`. -/
def takeExponent : List Char → Option Int
  | [] => some 0
  | c :: rest =>
    let (negative, digits) := takeSign rest
    if (c = 'e' ∨ c = 'E') ∧ digits ≠ [] ∧ digits.all Char.isDigit then
      let value : Int := Nat.ofDigitChars 10 digits 0
      some (if negative then -value else value)
    else none

/-- `DECIMAL_RE.exec`, when there is a digit. -/
def matchDecimal (raw : List Char) : Option Decimal :=
  let (negative, unsigned) := takeSign raw
  let whole := unsigned.takeWhile Char.isDigit
  let (fraction, rest) := match unsigned.dropWhile Char.isDigit with
    | '.' :: rest => (rest.takeWhile Char.isDigit, rest.dropWhile Char.isDigit)
    | rest => ([], rest)
  if whole = [] ∧ fraction = [] then none
  else (takeExponent rest).map fun exponent =>
    ⟨negative, whole ++ fraction, exponent - fraction.length⟩

/-- `parseDecimal` of a text. -/
def parseDecimal (input : String) : Except String Decimal :=
  match matchDecimal (trim input).toList with
  | some parsed => .ok parsed
  | none => .error s!"not a decimal number: {input}"

/-- `renderDecimal`. -/
def renderDecimal (value : Decimal) : String :=
  let significant := value.digits.dropWhile (· == '0')
  if significant = [] then "0"
  else
    let sign := if value.negative then ['-'] else []
    let whole (text : List Char) := String.ofList (sign ++ text)
    if 0 ≤ value.exponent then
      whole (significant ++ List.replicate value.exponent.toNat '0')
    else
      let shift := (-value.exponent).toNat
      let (before, after) :=
        if shift < significant.length then significant.splitAt (significant.length - shift)
        else (['0'], List.replicate (shift - significant.length) '0' ++ significant)
      let trimmed := (after.reverse.dropWhile (· == '0')).reverse
      whole (if trimmed = [] then before else before ++ '.' :: trimmed)

/-- `tokenPriceFromAsset`. -/
def tokenPriceFromAsset (assetPriceUsd : String) (decimals : Nat) : Except String String := do
  if 38 < decimals then
    throw s!"decimals must be an integer in [0, 38], got {decimals}"
  let parsed ← parseDecimal assetPriceUsd
  return renderDecimal { parsed with exponent := parsed.exponent - decimals }

/-! ## Numbers -/

/-- The value of a decimal. -/
def Decimal.value (parsed : Decimal) : ℚ :=
  let magnitude := Nat.ofDigitChars 10 parsed.digits 0 * (10 : ℚ) ^ parsed.exponent
  if parsed.negative then -magnitude else magnitude

/-- `Number(text)`. -/
def numberOf (text : String) : Double :=
  match trim text with
  | "" => 0
  | "Infinity" | "+Infinity" => .infinity false
  | "-Infinity" => .infinity true
  | trimmed =>
    match matchDecimal trimmed.toList with
    | some parsed => .ofRat parsed.value
    | none => .nan

example : tokenPriceFromAsset "77387" 8 = .ok "0.00077387" := by decide +kernel

end ZswapKernel
