import Mathlib.Data.List.Sort
import ZswapKernel.Lib.Json
import ZswapKernel.OfferGuard.Sponsorship

/-!
# Where a price comes from

`packages/node/prices.ts`: the price tables, the resolution order of a token's price, the price rows
of the node's own check (`pricesForColors`) and the body of `GET /v1/prices`
(`listPricesForTokens`).

Times are texts a column holds and the API repeats.
-/

namespace ZswapKernel

/-- `source` of `asset_prices`. -/
inductive AssetSource
  | seed
  | feed
  deriving DecidableEq, Repr

def AssetSource.priceSource : AssetSource → PriceSource
  | .seed => .seed
  | .feed => .feed

structure AssetPrice where
  assetId : String
  priceUsd : String
  source : AssetSource
  providerUpdatedAt : Option String
  updatedAt : String
  deriving DecidableEq, Repr

/-- A row of `token_prices`: an override of an operator, or the demo price. -/
structure TokenPrice where
  tokenColor : String
  priceUsd : String
  manual : Bool
  updatedAt : String
  deriving DecidableEq, Repr

structure PriceFeedStatus where
  provider : String
  lastRunAt : Option String
  lastOkAt : Option String
  lastError : Option String
  deriving DecidableEq, Repr

/-- The price tables, with the keys their migration declares. -/
structure PriceTables where
  assetPrices : List AssetPrice
  knownTokens : List KnownToken
  tokenPrices : List TokenPrice
  priceFeedStatus : Option PriceFeedStatus
  assetKeys : (assetPrices.map (·.assetId)).Nodup
  tokenKeys : (knownTokens.map (·.tokenColor)).Nodup
  nameKeys : (knownTokens.map (·.name)).Nodup
  priceKeys : (tokenPrices.map (·.tokenColor)).Nodup

/-- The configuration the price code reads: `PRICE_FEED_MAP`, parsed, and the text of
`SPONSOR_DISCOUNT_BPS`. -/
structure PriceEnv where
  priceMapOverrides : List (String × PriceMapEntry)
  sponsorDiscountText : Option String

/-- `DEFAULT_SPONSOR_DISCOUNT_BPS`. -/
def defaultSponsorDiscountBps : Nat := 250

/-- `sponsorDiscountBps`. -/
def PriceEnv.sponsorDiscountBps (env : PriceEnv) : Nat :=
  let raw := env.sponsorDiscountText.getD (toString defaultSponsorDiscountBps)
  if 1 ≤ raw.length ∧ raw.length ≤ 4 ∧ raw.toList.all Char.isDigit then
    let parsed := Nat.ofDigitChars 10 raw.toList 0
    if parsed < 10000 then parsed else defaultSponsorDiscountBps
  else defaultSponsorDiscountBps

theorem PriceEnv.sponsorDiscountBps_lt (env : PriceEnv) : env.sponsorDiscountBps < 10000 := by
  unfold sponsorDiscountBps
  dsimp only
  split_ifs with _ hparsed
  · exact hparsed
  · decide
  · decide

/-! ## Queries -/

namespace PriceTables

/-- `getTokenPriceRow`. -/
def getTokenPriceRow (db : PriceTables) (color : String) : Option TokenPrice :=
  db.tokenPrices.find? (·.tokenColor = color)

/-- `getTokenPriceRows`. -/
def getTokenPriceRows (db : PriceTables) (colors : List String) : List TokenPrice :=
  db.tokenPrices.filter (·.tokenColor ∈ colors)

/-- `getKnownTokenByColor`. -/
def getKnownTokenByColor (db : PriceTables) (color : String) : Option KnownToken :=
  db.knownTokens.find? (·.tokenColor = color)

/-- `getKnownTokensByColors`, in the order of the names. -/
def getKnownTokensByColors (db : PriceTables) (colors : List String) : List KnownToken :=
  (db.knownTokens.filter (·.tokenColor ∈ colors)).insertionSort fun a b => a.name ≤ b.name

end PriceTables

/-! ## Resolution -/

structure ResolvedTokenPrice where
  priceUsd : String
  source : PriceSource
  updatedAt : String
  assetUsed : Option String
  deriving DecidableEq, Repr

/-- `resolveWithoutWriting`: an override, else the asset, else the demo price. -/
def resolveWithoutWriting (env : PriceEnv) (db : PriceTables) (token : Option KnownToken)
    (existing : Option TokenPrice) : Except String (Option ResolvedTokenPrice) :=
  let demo := existing.map fun row => ⟨row.priceUsd, .fallback, row.updatedAt, none⟩
  match existing.filter (·.manual) with
  | some row => .ok (some ⟨row.priceUsd, .manual, row.updatedAt, none⟩)
  | none =>
    match token.bind (resolveAssetId · env.priceMapOverrides) with
    | none => .ok demo
    | some (assetId, decimals) =>
      match db.assetPrices.find? (·.assetId = assetId) with
      | none => .ok demo
      | some asset => (tokenPriceFromAsset asset.priceUsd decimals).map fun price =>
          some ⟨price, asset.source.priceSource, asset.updatedAt, some asset.assetId⟩

/-- `resolveTokenPriceReadOnly`. -/
def resolveTokenPriceReadOnly (env : PriceEnv) (db : PriceTables) (color : String) :
    Except String (Option ResolvedTokenPrice) :=
  resolveWithoutWriting env db (db.getKnownTokenByColor color) (db.getTokenPriceRow color)

/-- `pricesForColors`. -/
def pricesForColors (env : PriceEnv) (db : PriceTables) (colors : List String) :
    Except String PriceTable :=
  (colors.map toLowerCase).eraseDups.foldlM (fun prices color => do
    match ← resolveTokenPriceReadOnly env db color with
    | none => return prices
    | some resolved => return (color, ⟨.text resolved.priceUsd, resolved.source⟩) :: prices) []

/-! ## The body of the price list -/

structure PriceFeed where
  provider : String
  lastRunAt : Option String
  lastOkAt : Option String
  lastError : Option String
  deriving DecidableEq, Repr

/-- An entry of `tokens`. -/
structure PricedToken where
  token : KnownToken
  priceUsd : String
  source : PriceSource
  updatedAt : String
  deriving DecidableEq, Repr

structure PricesResponse where
  sponsorDiscount : Double
  feed : PriceFeed
  assets : List AssetPrice
  tokens : List PricedToken
  deriving DecidableEq, Repr

/-- `DEFAULT_PROVIDER`. -/
def defaultProvider : String := "coingecko"

/-- The entry of a registered token, with the asset that backs it. -/
def listToken (env : PriceEnv) (db : PriceTables) (rows : List TokenPrice) (token : KnownToken) :
    Except String (Option (PricedToken × Option String)) := do
  -- A `Map` of the rows: of two for one color the last counts.
  let existing := rows.reverse.find? (·.tokenColor = token.tokenColor)
  let resolved ← resolveWithoutWriting env db (some token) existing
  return resolved.map fun price =>
    (⟨token, price.priceUsd, price.source, price.updatedAt⟩, price.assetUsed)

/-- `listPricesForTokens`. -/
def listPricesForTokens (env : PriceEnv) (db : PriceTables) (colors : List String) :
    Except String PricesResponse := do
  let rows := db.getTokenPriceRows colors
  let listed ← (db.getKnownTokensByColors colors).mapM (listToken env db rows)
  let listed := listed.filterMap id
  let assetsUsed := listed.filterMap (·.2)
  let discount ← sponsorDiscountFromBps env.sponsorDiscountBps
  return {
    sponsorDiscount := discount
    feed := match db.priceFeedStatus with
      | some status => ⟨status.provider, status.lastRunAt, status.lastOkAt, status.lastError⟩
      | none => ⟨defaultProvider, none, none, none⟩
    assets := (db.assetPrices.insertionSort fun a b => a.assetId ≤ b.assetId).filter
      (·.assetId ∈ assetsUsed)
    tokens := listed.map (·.1) }

/-! ## On the wire -/

def jsonText : Option String → Json
  | none => .null
  | some value => .string value

def AssetPrice.toJson (asset : AssetPrice) : Json :=
  .object [("asset_id", .string asset.assetId), ("price_usd", .string asset.priceUsd),
    ("source", .string asset.source.priceSource.text),
    ("provider_updated_at", jsonText asset.providerUpdatedAt),
    ("updated_at", .string asset.updatedAt)]

def PricedToken.toJson (entry : PricedToken) : Json :=
  .object [("token_color", .string entry.token.tokenColor), ("name", .string entry.token.name),
    ("kind", .string entry.token.kind), ("decimals", .number (.ofRat entry.token.decimals)),
    ("asset_id", jsonText entry.token.assetId), ("price_usd", .string entry.priceUsd),
    ("source", .string entry.source.text), ("updated_at", .string entry.updatedAt)]

/-- The body as the batcher receives it. -/
def PricesResponse.toJson (body : PricesResponse) : Json :=
  .object [("sponsor_discount", .number body.sponsorDiscount),
    ("feed", .object [("provider", .string body.feed.provider),
      ("last_run_at", jsonText body.feed.lastRunAt), ("last_ok_at", jsonText body.feed.lastOkAt),
      ("last_error", jsonText body.feed.lastError)]),
    ("assets", .array (body.assets.map AssetPrice.toJson)),
    ("tokens", .array (body.tokens.map PricedToken.toJson))]

end ZswapKernel
