import ZswapKernel.Node.Prices

/-!
# The batcher's view of the prices

`packages/batcher/price-lookup.ts`: the batcher has no database and reads the prices of the legs of
an offer from `GET /v1/prices`. `parsePricesBody` turns the body into a price table.

Both sides evaluate the same rule (`nodeVerdict`, `batcherVerdict`). Their verdicts agree exactly
when the price list shows every market price the node's own check uses (`verdicts_agree_iff`): it
lists registered tokens only, and the parser takes no price that is not a finite number.
-/

namespace ZswapKernel

structure FeedStatus where
  provider : Option String
  lastRunAt : Option String
  lastOkAt : Option String
  lastError : Option String
  deriving DecidableEq, Repr

structure ParsedPrices where
  prices : PriceTable
  sponsorDiscount : Double
  downgraded : Nat
  feed : Option FeedStatus

/-- `Number(value)` of a JSON value, undefined when it is missing. An array is not converted. -/
def Json.toNumber : Option Json → Double
  | some (.number value) => value
  | some (.string value) => numberOf value
  | some (.bool value) => if value then 1 else 0
  | some .null => 0
  | some (.array _) | some (.object _) | none => .nan

/-- `MARKET_SOURCES`. -/
def marketSource : Option String → Option PriceSource
  | some "feed" => some .feed
  | some "seed" => some .seed
  | some "manual" => some .manual
  | _ => none

/-- `entry.price_usd` when it is a text or a number, and a finite one. -/
def finitePrice : Option Json → Option PriceValue
  | some (.string value) => if (numberOf value).isFinite then some (.text value) else none
  | some (.number value) => if value.isFinite then some (.number value) else none
  | _ => none

/-- One entry of `tokens`: a price this build cannot vouch for is kept as the demo price. -/
def parseEntry (parsed : PriceTable × Nat) (entry : Json) : PriceTable × Nat :=
  match (Json.str (entry.field "token_color")).map toLowerCase with
  | none => (parsed.1, parsed.2 + 1)
  | some color =>
    if color = "" then (parsed.1, parsed.2 + 1)
    else
      let source := Json.str (entry.field "source")
      match finitePrice (entry.field "price_usd"), marketSource source with
      | some price, some market => ((color, ⟨price, market⟩) :: parsed.1, parsed.2)
      | price, _ =>
        ((color, ⟨price.getD (.text "0"), .fallback⟩) :: parsed.1,
          if source = some "fallback" then parsed.2 else parsed.2 + 1)

/-- `parsePricesBody`. -/
def parsePricesBody (body : Json) (fallbackDiscount : Double) : Except String ParsedPrices :=
  match body with
  | .object fields =>
    match fields.lookup "tokens" with
    | some (.array tokens) =>
      let rawDiscount := Json.toNumber (fields.lookup "sponsor_discount")
      let (prices, downgraded) := tokens.foldl parseEntry ([], 0)
      .ok {
        prices
        sponsorDiscount :=
          if rawDiscount.isFinite && Double.le 0 rawDiscount && rawDiscount.lt 1 then rawDiscount
          else fallbackDiscount
        downgraded
        feed := match fields.lookup "feed" with
          | some (.object feed) => some ⟨Json.str (feed.lookup "provider"),
              Json.str (feed.lookup "last_run_at"), Json.str (feed.lookup "last_ok_at"),
              Json.str (feed.lookup "last_error")⟩
          | _ => none }
    | _ => .error "prices body has no `tokens` array"
  | _ => .error "prices body is not an object"

/-! ## The two verdicts -/

/-- `checkOfferSponsorship` up to the verdict. -/
def nodeVerdict (env : PriceEnv) (db : PriceTables) (legs : SponsorshipLegs) :
    Except String SponsorshipVerdict := do
  let discount ← sponsorDiscountFromBps env.sponsorDiscountBps
  let prices ← pricesForColors env db (legs.all.map (·.token))
  evaluateSponsorship legs prices discount

/-- The batcher's verdict over the body the node answers for the colors of the legs. -/
def batcherVerdict (env : PriceEnv) (db : PriceTables) (legs : SponsorshipLegs)
    (fallbackDiscount : Double) : Except String SponsorshipVerdict := do
  let body ← listPricesForTokens env db (legColors legs.all).eraseDups
  let parsed ← parsePricesBody body.toJson fallbackDiscount
  evaluateSponsorship legs parsed.prices parsed.sponsorDiscount

/-! ## Keys and loops -/

/-- A row is found under its key. -/
theorem find_key {α : Type} {key : α → String} {rows : List α} (hkeys : (rows.map key).Nodup)
    {row : α} (hrow : row ∈ rows) : rows.find? (fun r => key r = key row) = some row := by
  cases h : rows.find? (fun r => key r = key row) with
  | none =>
    rw [List.find?_eq_none] at h
    exact absurd (h row hrow) (by simp)
  | some found =>
    have hkey : key found = key row := by simpa using List.find?_some h
    rw [List.inj_on_of_nodup_map hkeys (List.mem_of_find?_eq_some h) hrow hkey]

theorem find_key_iff {α : Type} {key : α → String} {rows : List α} (hkeys : (rows.map key).Nodup)
    {k : String} {row : α} :
    rows.find? (fun r => key r = k) = some row ↔ row ∈ rows ∧ key row = k := by
  constructor
  · intro h
    exact ⟨List.mem_of_find?_eq_some h, by simpa using List.find?_some h⟩
  · rintro ⟨hrow, rfl⟩
    exact find_key hkeys hrow

theorem lookup_cons_of_ne {table : PriceTable} {color other : String} {row : PriceRow}
    (h : color ≠ other) : List.lookup color ((other, row) :: table) = table.lookup color := by
  have hbeq : (color == other) = false := by simpa using h
  rw [List.lookup_cons, hbeq]

theorem lookup_iff {table : PriceTable} (hkeys : (table.map Prod.fst).Nodup) {color : String}
    {row : PriceRow} : table.lookup color = some row ↔ (color, row) ∈ table := by
  induction table with
  | nil => simp
  | cons entry table ih =>
    obtain ⟨other, value⟩ := entry
    obtain ⟨hother, htable⟩ := List.nodup_cons.mp hkeys
    rw [List.mem_cons]
    by_cases h : color = other
    · subst h
      rw [List.lookup_cons_self, Option.some.injEq, Prod.mk.injEq]
      constructor
      · exact fun h => Or.inl ⟨rfl, h.symm⟩
      · rintro (h | h)
        · exact h.2.symm
        · exact absurd (List.mem_map_of_mem h) hother
    · rw [lookup_cons_of_ne h, ih htable]
      simp [h]

/-- A loop in `Except` fails when one of its elements does. -/
theorem mapM_error {α β : Type} {f : α → Except String β} {l : List α} {x : α} (hx : x ∈ l)
    {e : String} (he : f x = .error e) : (l.mapM f).toOption = none := by
  induction l with
  | nil => cases hx
  | cons y l ih =>
    rw [List.mapM_cons]
    cases hy : f y with
    | error e => rfl
    | ok value =>
      rcases List.mem_cons.mp hx with rfl | hmem
      · rw [he] at hy
        cases hy
      · have ih := ih hmem
        cases hl : l.mapM f with
        | error e => rfl
        | ok values =>
          rw [hl] at ih
          cases ih

theorem mapM_total {α β : Type} {f : α → Except String β} {g : α → β} {l : List α}
    (h : ∀ x ∈ l, f x = .ok (g x)) : l.mapM f = .ok (l.map g) := by
  induction l with
  | nil => rfl
  | cons x l ih =>
    rw [List.mapM_cons, h x List.mem_cons_self, ih fun y hy => h y (List.mem_cons_of_mem _ hy)]
    rfl

/-! ## The node's table -/

variable {env : PriceEnv} {db : PriceTables}

/-- The row `pricesForColors` sets for a resolved color. -/
def resolvedRow (resolved : ResolvedTokenPrice) : PriceRow :=
  ⟨.text resolved.priceUsd, resolved.source⟩

/-- The body of the loop of `pricesForColors`. -/
def priceColor (env : PriceEnv) (db : PriceTables) (prices : PriceTable) (color : String) :
    Except String PriceTable := do
  match ← resolveTokenPriceReadOnly env db color with
  | none => return prices
  | some resolved => return (color, resolvedRow resolved) :: prices

theorem foldlM_priceColor_error {colors : List String} {color : String} (hcolor : color ∈ colors)
    {e : String} (he : resolveTokenPriceReadOnly env db color = .error e) (prices : PriceTable) :
    (colors.foldlM (priceColor env db) prices).toOption = none := by
  induction colors generalizing prices with
  | nil => cases hcolor
  | cons first colors ih =>
    rw [List.foldlM_cons]
    rcases List.mem_cons.mp hcolor with rfl | hmem
    · unfold priceColor
      rw [he]
      rfl
    · cases hfirst : priceColor env db prices first with
      | error e => rfl
      | ok prices => exact ih hmem prices

/-- The table holds the resolved price of every color of the loop. -/
theorem foldlM_priceColor {price : String → Option ResolvedTokenPrice} {colors : List String}
    (h : ∀ color ∈ colors, resolveTokenPriceReadOnly env db color = .ok (price color))
    (prices : PriceTable) :
    ∃ prices', colors.foldlM (priceColor env db) prices = .ok prices' ∧
      ∀ color, prices'.lookup color =
        if color ∈ colors then ((price color).map resolvedRow).or (prices.lookup color)
        else prices.lookup color := by
  induction colors generalizing prices with
  | nil => exact ⟨prices, rfl, fun color => by simp⟩
  | cons first colors ih =>
    have hfirst := h first List.mem_cons_self
    obtain ⟨next, hnext, hlookup⟩ : ∃ next, priceColor env db prices first = .ok next ∧
        ∀ color, next.lookup color =
          if color = first then ((price color).map resolvedRow).or (prices.lookup color)
          else prices.lookup color := by
      unfold priceColor
      rw [hfirst]
      cases hprice : price first with
      | none =>
        refine ⟨prices, rfl, fun color => ?_⟩
        by_cases hcolor : color = first
        · simp [hcolor, hprice]
        · simp [hcolor]
      | some resolved =>
        refine ⟨(first, resolvedRow resolved) :: prices, rfl, fun color => ?_⟩
        by_cases hcolor : color = first
        · simp [hcolor, hprice]
        · rw [lookup_cons_of_ne hcolor, if_neg hcolor]
    obtain ⟨prices', hfold, hall⟩ := ih (fun c hc => h c (List.mem_cons_of_mem _ hc)) next
    refine ⟨prices', ?_, fun color => ?_⟩
    · rw [List.foldlM_cons, hnext]
      exact hfold
    · rw [hall, hlookup]
      by_cases hmem : color ∈ colors
      · by_cases hcolor : color = first
        · subst hcolor
          cases price color <;> simp [hmem]
        · simp [hmem, hcolor]
      · simp [hmem]

/-- The market price of a resolved price. -/
def marketPrice (resolved : ResolvedTokenPrice) : Option PriceValue :=
  if resolved.source = .fallback then none else some (.text resolved.priceUsd)

/-- **What the node takes from its tables**: every market price of a leg color. -/
theorem pricesForColors_market {legs : SponsorshipLegs}
    {price : String → Option ResolvedTokenPrice}
    (h : ∀ color ∈ legColors legs.all, resolveTokenPriceReadOnly env db color = .ok (price color)) :
    ∃ prices, pricesForColors env db (legs.all.map (·.token)) = .ok prices ∧
      ∀ color ∈ legColors legs.all, prices.market color = (price color).bind marketPrice := by
  have hwanted : ∀ color, color ∈ ((legs.all.map (·.token)).map toLowerCase).eraseDups ↔
      color ∈ legColors legs.all := by
    intro color
    rw [List.mem_eraseDups, List.map_map]
    rfl
  obtain ⟨prices, hprices, hlookup⟩ := foldlM_priceColor
    (fun color hcolor => h color ((hwanted color).mp hcolor)) []
  refine ⟨prices, hprices, fun color hcolor => ?_⟩
  unfold PriceTable.market
  rw [hlookup color, if_pos ((hwanted color).mpr hcolor)]
  cases price color <;> rfl

/-! ## The batcher's table -/

/-- The row `parsePricesBody` sets for an entry of the list. -/
def wireRow (entry : PricedToken) : Option (String × PriceRow) :=
  if toLowerCase entry.token.tokenColor = "" then none
  else
    let finite := (numberOf entry.priceUsd).isFinite
    some (toLowerCase entry.token.tokenColor,
      if finite = true ∧ entry.source ≠ .fallback then ⟨.text entry.priceUsd, entry.source⟩
      else ⟨.text (if finite then entry.priceUsd else "0"), .fallback⟩)

theorem wireRow_key {entry : PricedToken} {row : String × PriceRow} (h : wireRow entry = some row) :
    row.1 = toLowerCase entry.token.tokenColor := by
  unfold wireRow at h
  split at h
  · cases h
  · exact (Option.some.inj h) ▸ rfl

theorem marketSource_text (source : PriceSource) :
    marketSource (some source.text) = if source = .fallback then none else some source := by
  cases source <;> rfl

theorem parseEntry_toJson (parsed : PriceTable × Nat) (entry : PricedToken) :
    (parseEntry parsed entry.toJson).1 = (wireRow entry).toList ++ parsed.1 := by
  have hcolor : entry.toJson.field "token_color" = some (.string entry.token.tokenColor) := rfl
  have hprice : entry.toJson.field "price_usd" = some (.string entry.priceUsd) := rfl
  have hsource : entry.toJson.field "source" = some (.string entry.source.text) := rfl
  unfold parseEntry wireRow
  rw [hcolor, hprice, hsource]
  simp only [Json.str, Option.map_some, finitePrice, marketSource_text]
  by_cases hempty : toLowerCase entry.token.tokenColor = ""
  · rw [if_pos hempty, if_pos hempty]
    rfl
  rw [if_neg hempty, if_neg hempty]
  cases hfinite : (numberOf entry.priceUsd).isFinite with
  | false => simp
  | true =>
    by_cases hdemo : entry.source = .fallback
    · simp [hdemo]
    · simp [hdemo]

theorem foldl_parseEntry (entries : List PricedToken) (parsed : PriceTable × Nat) :
    ((entries.map PricedToken.toJson).foldl parseEntry parsed).1 =
      (entries.filterMap wireRow).reverse ++ parsed.1 := by
  induction entries generalizing parsed with
  | nil => rfl
  | cons entry entries ih =>
    rw [List.map_cons, List.foldl_cons, ih, parseEntry_toJson, List.filterMap_cons]
    cases wireRow entry <;> simp

/-- The entry `listPricesForTokens` makes of a resolved price. -/
def listedEntry (token : KnownToken) (resolved : ResolvedTokenPrice) : PricedToken :=
  ⟨token, resolved.priceUsd, resolved.source, resolved.updatedAt⟩

/-- The list resolves a registered color as the node's own check does. -/
theorem listToken_eq {colors : List String} {token : KnownToken}
    (htoken : token ∈ db.getKnownTokensByColors colors) :
    listToken env db (db.getTokenPriceRows colors) token =
      (resolveTokenPriceReadOnly env db token.tokenColor).map fun resolved =>
        resolved.map fun price => (listedEntry token price, price.assetUsed) := by
  rw [PriceTables.getKnownTokensByColors, List.mem_insertionSort, List.mem_filter] at htoken
  have hcolor : token.tokenColor ∈ colors := by simpa using htoken.2
  have hknown : db.getKnownTokenByColor token.tokenColor = some token :=
    find_key db.tokenKeys htoken.1
  have hsub : ((db.getTokenPriceRows colors).reverse.map (·.tokenColor)).Nodup := by
    rw [List.map_reverse, List.nodup_reverse]
    exact db.priceKeys.sublist (List.Sublist.map _ List.filter_sublist)
  have hexisting : (db.getTokenPriceRows colors).reverse.find?
      (·.tokenColor = token.tokenColor) = db.getTokenPriceRow token.tokenColor := by
    refine Option.ext fun row => ?_
    rw [PriceTables.getTokenPriceRow, find_key_iff hsub, find_key_iff db.priceKeys,
      List.mem_reverse, PriceTables.getTokenPriceRows, List.mem_filter]
    constructor
    · exact fun h => ⟨h.1.1, h.2⟩
    · exact fun h => ⟨⟨h.1, by simpa [h.2] using hcolor⟩, h.2⟩
  unfold listToken resolveTokenPriceReadOnly
  rw [hexisting, hknown]
  rfl

/-- The rows of the batcher's table, in the order of the list. -/
def listedRows (db : PriceTables) (colors : List String)
    (price : String → Option ResolvedTokenPrice) : PriceTable :=
  (db.getKnownTokensByColors colors).filterMap fun token =>
    (price token.tokenColor).bind fun resolved => wireRow (listedEntry token resolved)

/-- The list, parsed. -/
theorem parse_list {colors : List String} {price : String → Option ResolvedTokenPrice}
    (h : ∀ color ∈ colors, resolveTokenPriceReadOnly env db color = .ok (price color))
    {value : ℚ} (hdiscount : sponsorDiscountFromBps env.sponsorDiscountBps = .ok (.finite value))
    (hnonneg : 0 ≤ value) (hlt : value < 1) (fallbackDiscount : Double) :
    ∃ body parsed, listPricesForTokens env db colors = .ok body ∧
      parsePricesBody body.toJson fallbackDiscount = .ok parsed ∧
      parsed.sponsorDiscount = .finite value ∧
      parsed.prices = (listedRows db colors price).reverse := by
  have hlist : (db.getKnownTokensByColors colors).mapM
      (listToken env db (db.getTokenPriceRows colors)) =
        .ok ((db.getKnownTokensByColors colors).map fun token => (price token.tokenColor).map
          fun resolved => (listedEntry token resolved, resolved.assetUsed)) := by
    refine mapM_total fun token htoken => ?_
    have hcolor : token.tokenColor ∈ colors := by
      rw [PriceTables.getKnownTokensByColors, List.mem_insertionSort, List.mem_filter] at htoken
      simpa using htoken.2
    rw [listToken_eq htoken, h _ hcolor]
    rfl
  have hvalid : (Double.isFinite (.finite value) && Double.le 0 (.finite value) &&
      Double.lt (.finite value) 1) = true := by
    rw [Double.zero_eq, Double.one_eq]
    simp [Double.isFinite, Double.lt, Double.le, hnonneg, hlt]
  unfold listPricesForTokens
  dsimp only
  rw [hlist, hdiscount]
  refine ⟨_, _, rfl, rfl, if_pos hvalid, ?_⟩
  refine (foldl_parseEntry _ _).trans ?_
  rw [List.append_nil, listedRows]
  congr 1
  simp only [List.filterMap_map, List.filterMap_filterMap]
  refine List.filterMap_congr fun token _ => ?_
  cases h : price token.tokenColor <;> simp [h]

/-- The keys of the batcher's table are distinct. -/
theorem listedRows_keys {colors : List String} (hlower : ∀ color ∈ colors, toLowerCase color = color)
    (price : String → Option ResolvedTokenPrice) :
    ((listedRows db colors price).map Prod.fst).Nodup := by
  have hkeys : (db.getKnownTokensByColors colors).Pairwise fun a b =>
      a.tokenColor ≠ b.tokenColor ∧ a.tokenColor ∈ colors ∧ b.tokenColor ∈ colors := by
    have hnodup : ((db.getKnownTokensByColors colors).map (·.tokenColor)).Nodup := by
      refine ((List.perm_insertionSort _ _).map _).nodup_iff.mpr ?_
      exact db.tokenKeys.sublist (List.Sublist.map _ List.filter_sublist)
    refine (List.pairwise_map.mp hnodup).imp_of_mem fun ha hb hne => ⟨hne, ?_, ?_⟩
    all_goals
      rw [PriceTables.getKnownTokensByColors, List.mem_insertionSort, List.mem_filter] at ha hb
    · simpa using ha.2
    · simpa using hb.2
  have hrow : ∀ token (row : String × PriceRow), ((price token.tokenColor).bind fun resolved =>
      wireRow (listedEntry token resolved)) = some row → row.1 = toLowerCase token.tokenColor := by
    intro token row h
    obtain ⟨resolved, -, h⟩ := Option.bind_eq_some_iff.mp h
    exact wireRow_key h
  unfold List.Nodup
  rw [List.pairwise_map]
  refine hkeys.filterMap _ fun a b hab row hrowa row' hrowb => ?_
  rw [hrow a row hrowa, hrow b row' hrowb, hlower _ hab.2.1, hlower _ hab.2.2]
  exact hab.1

/-- **What the batcher takes from the list**: the market prices of registered colors that are finite
numbers. -/
theorem market_listedRows {colors : List String}
    (hlower : ∀ color ∈ colors, toLowerCase color = color)
    (price : String → Option ResolvedTokenPrice) {color : String} (hcolor : color ∈ colors)
    (value : PriceValue) :
    PriceTable.market (listedRows db colors price).reverse color = some value ↔
      (db.getKnownTokenByColor color).isSome ∧ color ≠ "" ∧ ∃ resolved, price color = some resolved ∧
        marketPrice resolved = some value ∧ (numberOf resolved.priceUsd).isFinite := by
  have hkeys : ((listedRows db colors price).reverse.map Prod.fst).Nodup := by
    rw [List.map_reverse, List.nodup_reverse]
    exact listedRows_keys hlower price
  have hmem : ∀ row, (listedRows db colors price).reverse.lookup color = some row ↔
      ∃ token resolved, db.getKnownTokenByColor color = some token ∧ price color = some resolved ∧
        wireRow (listedEntry token resolved) = some (color, row) := by
    intro row
    rw [lookup_iff hkeys, List.mem_reverse, listedRows, List.mem_filterMap]
    constructor
    · rintro ⟨token, htoken, hrow⟩
      rw [PriceTables.getKnownTokensByColors, List.mem_insertionSort, List.mem_filter] at htoken
      have hin : token.tokenColor ∈ colors := by simpa using htoken.2
      obtain ⟨resolved, hprice, hrow⟩ := Option.bind_eq_some_iff.mp hrow
      have hsame : color = token.tokenColor := (wireRow_key hrow).trans (hlower _ hin)
      subst hsame
      exact ⟨token, resolved, find_key db.tokenKeys htoken.1, hprice, hrow⟩
    · rintro ⟨token, resolved, hknown, hprice, hrow⟩
      obtain ⟨hin, hsame⟩ := (find_key_iff db.tokenKeys).mp hknown
      refine ⟨token, ?_, ?_⟩
      · rw [PriceTables.getKnownTokensByColors, List.mem_insertionSort, List.mem_filter]
        exact ⟨hin, by simpa [hsame] using hcolor⟩
      · rw [hsame, hprice]
        exact hrow
  have hwire : ∀ token resolved, token.tokenColor = color →
      wireRow (listedEntry token resolved) = if color = "" then none else some (color,
        if (numberOf resolved.priceUsd).isFinite = true ∧ resolved.source ≠ .fallback then
          ⟨.text resolved.priceUsd, resolved.source⟩
        else ⟨.text (if (numberOf resolved.priceUsd).isFinite then resolved.priceUsd else "0"),
          .fallback⟩) := by
    rintro token resolved rfl
    unfold wireRow listedEntry
    rw [hlower _ hcolor]
  constructor
  · intro h
    unfold PriceTable.market at h
    cases hlookup : (listedRows db colors price).reverse.lookup color with
    | none =>
      rw [hlookup] at h
      cases h
    | some row =>
      rw [hlookup] at h
      obtain ⟨token, resolved, hknown, hprice, hrow⟩ := (hmem row).mp hlookup
      rw [hwire token resolved ((find_key_iff db.tokenKeys).mp hknown).2] at hrow
      split at hrow
      · cases hrow
      rename_i hempty
      have hrow := (Prod.mk.inj (Option.some.inj hrow)).2
      split at hrow
      · rename_i hmarket
        subst hrow
        refine ⟨by rw [hknown]; rfl, hempty, resolved, hprice, ?_, hmarket.1⟩
        simpa [marketPrice, hmarket.2] using h
      · subst hrow
        simp at h
  · rintro ⟨hknown, hempty, resolved, hprice, hmarket, hfinite⟩
    obtain ⟨token, hknown⟩ := Option.isSome_iff_exists.mp hknown
    have hsource : resolved.source ≠ .fallback := by
      intro h
      simp [marketPrice, h] at hmarket
    have hlookup := (hmem ⟨.text resolved.priceUsd, resolved.source⟩).mpr
      ⟨token, resolved, hknown, hprice, by
        rw [hwire token resolved ((find_key_iff db.tokenKeys).mp hknown).2, if_neg hempty,
          if_pos ⟨hfinite, hsource⟩]⟩
    unfold PriceTable.market
    rw [hlookup]
    simpa [marketPrice, hsource] using hmarket

/-- The price list shows the market price the node's own check has for a color: the color is
registered and not empty, and the price is a finite number. -/
def MarketListed (env : PriceEnv) (db : PriceTables) (color : String) : Prop :=
  ∀ resolved, resolveTokenPriceReadOnly env db color = .ok (some resolved) →
    resolved.source ≠ .fallback →
      (db.getKnownTokenByColor color).isSome ∧ color ≠ "" ∧ (numberOf resolved.priceUsd).isFinite

/-- A price that cannot be computed leaves the node without a verdict. -/
theorem nodeVerdict_error {legs : SponsorshipLegs} (h : ∃ color ∈ legColors legs.all,
    ∃ e, resolveTokenPriceReadOnly env db color = .error e) :
    (nodeVerdict env db legs).toOption = none := by
  obtain ⟨color, hcolor, e, he⟩ := h
  have hwanted : color ∈ ((legs.all.map (·.token)).map toLowerCase).eraseDups := by
    rw [List.mem_eraseDups, List.map_map]
    exact hcolor
  have hprices : (pricesForColors env db (legs.all.map (·.token))).toOption = none :=
    foldlM_priceColor_error hwanted he []
  unfold nodeVerdict
  cases sponsorDiscountFromBps env.sponsorDiscountBps with
  | error e => rfl
  | ok discount =>
    cases hok : pricesForColors env db (legs.all.map (·.token)) with
    | error e => rfl
    | ok prices =>
      rw [hok] at hprices
      cases hprices

/-- Only a registered color has an asset whose price can fail to parse. -/
theorem registered_of_error {color : String} {e : String}
    (h : resolveTokenPriceReadOnly env db color = .error e) :
    ∃ token, db.getKnownTokenByColor color = some token := by
  cases hknown : db.getKnownTokenByColor color with
  | some token => exact ⟨token, rfl⟩
  | none =>
    unfold resolveTokenPriceReadOnly resolveWithoutWriting at h
    rw [hknown] at h
    split at h <;> cases h

/-- And the batcher without a body. -/
theorem batcherVerdict_error {legs : SponsorshipLegs} (h : ∃ color ∈ legColors legs.all,
    ∃ e, resolveTokenPriceReadOnly env db color = .error e) (fallbackDiscount : Double) :
    (batcherVerdict env db legs fallbackDiscount).toOption = none := by
  obtain ⟨color, hcolor, e, he⟩ := h
  obtain ⟨token, hknown⟩ := registered_of_error he
  obtain ⟨hin, hsame⟩ := (find_key_iff db.tokenKeys).mp hknown
  have hlisted : token ∈ db.getKnownTokensByColors (legColors legs.all).eraseDups := by
    rw [PriceTables.getKnownTokensByColors, List.mem_insertionSort, List.mem_filter]
    exact ⟨hin, by simpa [hsame] using hcolor⟩
  have hentry : listToken env db (db.getTokenPriceRows (legColors legs.all).eraseDups) token =
      .error e := by
    rw [listToken_eq hlisted, hsame, he]
    rfl
  have hlist := mapM_error hlisted hentry
  unfold batcherVerdict listPricesForTokens
  dsimp only
  cases hok : (db.getKnownTokensByColors (legColors legs.all).eraseDups).mapM
      (listToken env db (db.getTokenPriceRows (legColors legs.all).eraseDups)) with
  | error e => rfl
  | ok listed =>
    rw [hok] at hlist
    cases hlist

/-- **The two verdicts agree** iff the price list shows every market price of a leg color, or the
price of one cannot be computed and both sides throw. -/
theorem verdicts_agree_iff (env : PriceEnv) (db : PriceTables) (legs : SponsorshipLegs)
    (fallbackDiscount : Double) :
    (nodeVerdict env db legs).toOption = (batcherVerdict env db legs fallbackDiscount).toOption ↔
      (∃ color ∈ legColors legs.all, ∃ e, resolveTokenPriceReadOnly env db color = .error e) ∨
        ∀ color ∈ legColors legs.all, MarketListed env db color := by
  obtain ⟨value, hdiscount, hnonneg, hlt⟩ :=
    sponsorDiscountFromBps_fraction env.sponsorDiscountBps_lt
  by_cases herror : ∃ color ∈ legColors legs.all,
      ∃ e, resolveTokenPriceReadOnly env db color = .error e
  · refine iff_of_true ?_ (Or.inl herror)
    rw [nodeVerdict_error herror, batcherVerdict_error herror fallbackDiscount]
  have hresolve : ∀ color ∈ legColors legs.all, ∃ price,
      resolveTokenPriceReadOnly env db color = .ok price := by
    intro color hcolor
    cases h : resolveTokenPriceReadOnly env db color with
    | ok price => exact ⟨price, rfl⟩
    | error e => exact absurd ⟨color, hcolor, e, h⟩ herror
  choose! price hprice using hresolve
  obtain ⟨prices, hprices, hlookup⟩ := pricesForColors_market hprice
  have hlower : ∀ color ∈ (legColors legs.all).eraseDups, toLowerCase color = color := by
    intro color hcolor
    obtain ⟨leg, -, rfl⟩ := List.mem_map.mp (List.mem_eraseDups.mp hcolor)
    exact toLowerCase_toLowerCase leg.token
  obtain ⟨body, parsed, hbody, hparsed, hparsedDiscount, htable⟩ := parse_list
    (fun color hcolor => hprice color (List.mem_eraseDups.mp hcolor)) hdiscount hnonneg hlt
    fallbackDiscount
  obtain ⟨nodeSide, hnode⟩ := evaluateSponsorship_ok legs prices hnonneg hlt
  obtain ⟨batcherSide, hbatcher⟩ := evaluateSponsorship_ok legs parsed.prices hnonneg hlt
  have hnodeVerdict : nodeVerdict env db legs = .ok nodeSide := by
    unfold nodeVerdict
    rw [hdiscount, hprices]
    exact hnode
  have hbatcherVerdict : batcherVerdict env db legs fallbackDiscount = .ok batcherSide := by
    unfold batcherVerdict
    rw [hbody]
    dsimp only [bind, Except.bind]
    rw [hparsed]
    dsimp only
    rw [hparsedDiscount]
    exact hbatcher
  have hmarket : ∀ color ∈ legColors legs.all, ∀ v, parsed.prices.market color = some v ↔
      (db.getKnownTokenByColor color).isSome ∧ color ≠ "" ∧ ∃ resolved,
        price color = some resolved ∧ marketPrice resolved = some v ∧
          (numberOf resolved.priceUsd).isFinite := by
    intro color hcolor v
    rw [htable]
    exact market_listedRows hlower price (List.mem_eraseDups.mpr hcolor) v
  rw [hnodeVerdict, hbatcherVerdict]
  refine ⟨fun hsame => Or.inr fun color hcolor resolved hresolved hsource => ?_, fun hlisted => ?_⟩
  · -- An equal list of unpriced colors: what the node prices the batcher prices.
    have hsome : price color = some resolved := Except.ok.inj ((hprice color hcolor).symm.trans hresolved)
    have hnodePrice : prices.market color = some (.text resolved.priceUsd) := by
      rw [hlookup color hcolor, hsome]
      simp [marketPrice, hsource]
    cases hbatcherPrice : parsed.prices.market color with
    | none =>
      have hunpriced := (evaluateSponsorship_unpriced hbatcher color).mpr ⟨hcolor, hbatcherPrice⟩
      have hverdict : nodeSide = batcherSide := Option.some.inj hsame
      rw [← hverdict] at hunpriced
      have hnone := ((evaluateSponsorship_unpriced hnode color).mp hunpriced).2
      rw [hnodePrice] at hnone
      cases hnone
    | some v =>
      obtain ⟨hknown, hempty, found, hfound, -, hfinite⟩ :=
        (hmarket color hcolor v).mp hbatcherPrice
      rw [hsome] at hfound
      cases hfound
      exact ⟨hknown, hempty, hfinite⟩
  · have hlisted := hlisted.resolve_left herror
    have hsame : ∀ color ∈ legColors legs.all,
        prices.market color = parsed.prices.market color := by
      intro color hcolor
      refine Option.ext fun v => ?_
      rw [hlookup color hcolor, hmarket color hcolor v]
      constructor
      · intro h
        obtain ⟨resolved, hsome, hv⟩ := Option.bind_eq_some_iff.mp h
        have hsource : resolved.source ≠ .fallback := by
          intro hdemo
          simp [marketPrice, hdemo] at hv
        have hresolved := (hprice color hcolor).trans (congrArg Except.ok hsome)
        obtain ⟨hknown, hempty, hfinite⟩ := hlisted color hcolor resolved hresolved hsource
        exact ⟨hknown, hempty, resolved, hsome, hv, hfinite⟩
      · rintro ⟨-, -, resolved, hsome, hv, -⟩
        exact Option.bind_eq_some_iff.mpr ⟨resolved, hsome, hv⟩
    rw [evaluateSponsorship_congr hsame, hbatcher] at hnode
    rw [Except.ok.inj hnode]

/-- A color an operator priced by hand and nobody registered, against one that both sides price. -/
def handPriced : PriceTables where
  assetPrices := [⟨"usd-coin", "1", .seed, none, "2026-09-02T00:00:00.000Z"⟩]
  knownTokens := [⟨String.ofList (List.replicate 64 'b'), "USDC", "shielded", 6, some "usd-coin"⟩]
  tokenPrices := [⟨String.ofList (List.replicate 64 'a'), "0.5", true, "2026-09-02T00:00:00.000Z"⟩]
  priceFeedStatus := none
  assetKeys := by simp
  tokenKeys := by simp
  nameKeys := by simp
  priceKeys := by simp

/-- The node sponsors an offer that gives it, the batcher finds no price. -/
theorem handPriced_verdicts_differ :
    ¬ ∀ (env : PriceEnv) (db : PriceTables) (legs : SponsorshipLegs) (fallbackDiscount : Double),
      (nodeVerdict env db legs).toOption =
        (batcherVerdict env db legs fallbackDiscount).toOption := by
  intro h
  have hdiffer := h ⟨[], none⟩ handPriced
    ⟨[⟨String.ofList (List.replicate 64 'a'), "100", .shielded⟩],
      [⟨String.ofList (List.replicate 64 'b'), "1000000", .shielded⟩]⟩ 0
  exact absurd hdiffer (by decide +kernel)

end ZswapKernel
