import ZswapKernel.Lib.NumberText
import ZswapKernel.Node.TokenPrices

/-!
# One request to the price provider

`fetchAssetPrices` (`coingecko.ts`): a chunk of ids, one reply, a quote or a failure for each id.
The URL of the request and its headers are left out.

An entry is read on its own (`readEntry`), but a provider timestamp that no `Date` can hold makes
`toISOString` throw out of the loop, and the whole chunk with it.

* `numberToDecimal_ok`: the price of an entry always converts.
* `readEntry_spec`: what an entry comes to.
* `readEntries_ok`, `readEntries_error`: what the loop makes of a chunk.
-/

namespace ZswapKernel

/-- What the provider says about the remaining budget. -/
structure RateLimit where
  limit : Option Double := none
  remaining : Option Double := none
  reset : Option String := none
  deriving DecidableEq, Repr

structure AssetQuote where
  assetId : String
  usd : String
  /-- The milliseconds of the provider's timestamp. -/
  providerUpdatedAt : Option Int
  rateLimit : RateLimit
  deriving DecidableEq, Repr

/-- `CoinGeckoErrorKind`. -/
inductive CoinGeckoErrorKind
  | rateLimit
  | http
  | malformed
  | missing
  | network
  deriving DecidableEq, Repr

def CoinGeckoErrorKind.text : CoinGeckoErrorKind → String
  | .rateLimit => "rate_limit"
  | .http => "http"
  | .malformed => "malformed"
  | .missing => "missing"
  | .network => "network"

/-- What `fetchAssetPrices` throws: a failure of the request, or anything else. -/
inductive FetchError
  | coinGecko (message : String) (kind : CoinGeckoErrorKind) (assetIds : List String)
    (status : Option Nat) (rateLimit : Option RateLimit)
  | other (message : String)
  deriving DecidableEq, Repr

structure AssetFailure where
  assetId : String
  kind : CoinGeckoErrorKind
  message : String
  deriving DecidableEq, Repr

structure BatchResult where
  quotes : List AssetQuote
  failures : List AssetFailure
  rateLimit : RateLimit
  deriving DecidableEq, Repr

/-- The answer of the provider; `body` is none when it is not JSON. -/
structure HttpReply where
  status : Nat
  limitHeader : Option String := none
  remainingHeader : Option String := none
  resetHeader : Option String := none
  body : Option Json

/-- A request that failed, or its answer. -/
inductive ProviderReply
  | failed (reason : String)
  | answered (reply : HttpReply)

/-- Short label for a chunk. -/
def describeIds (assetIds : List String) : String :=
  if assetIds.length ≤ 3 then String.intercalate "," assetIds
  else String.intercalate "," (assetIds.take 3) ++ s!"+{assetIds.length - 3} more"

/-- A header that is a finite number. -/
def headerNumber (header : Option String) : Option Double :=
  header.bind fun raw =>
    let parsed := numberOf raw
    if parsed.isFinite then some parsed else none

def readRateLimit (reply : HttpReply) : RateLimit where
  limit := headerNumber reply.limitHeader
  remaining := headerNumber reply.remainingHeader
  reset := reply.resetHeader

def formatRateLimit (rateLimit : RateLimit) : Option String :=
  let parts := (rateLimit.remaining.map fun n => "remaining=" ++ numberText n).toList ++
    (rateLimit.limit.map fun n => "limit=" ++ numberText n).toList ++
    (rateLimit.reset.map fun text => "reset=" ++ text).toList
  if parts = [] then none else some (String.intercalate " " parts)

/-- The properties that every object has. -/
def inheritedMethods : List String :=
  ["constructor", "__defineGetter__", "__defineSetter__", "hasOwnProperty", "__lookupGetter__",
    "__lookupSetter__", "isPrototypeOf", "propertyIsEnumerable", "toString", "valueOf",
    "toLocaleString"]

/-- `body[assetId]` as the loop sees it. -/
inductive BodyEntry
  | undefined
  /-- Null, or no object. -/
  | plain
  | object (value : Json)

def entryOf (fields : List (String × Json)) (assetId : String) : BodyEntry :=
  match fields.lookup assetId with
  | some (.object own) => .object (.object own)
  | some (.array values) => .object (.array values)
  | some _ => .plain
  | none =>
    if assetId = "__proto__" then .object (.object [])
    else if assetId ∈ inheritedMethods then .plain
    else .undefined

/-- `toDecimalString` of a number. -/
def numberToDecimal (value : Double) : Except String String :=
  match matchDecimal (numberText value).toList with
  | some parsed => .ok (renderDecimal parsed)
  | none => .error s!"not a decimal number: {numberText value}"

/-- The milliseconds of `new Date(value)`, none for an invalid date. -/
def timeClip : Double → Option Int
  | .finite t => if |t| ≤ 8640000000000000 then some (if t < 0 then ⌈t⌉ else ⌊t⌋) else none
  | _ => none

/-- `providerUpdatedAt` of an entry; `toISOString` of an invalid date throws. -/
def readUpdatedAt (updatedRaw : Option Json) : Except String (Option Int) :=
  match updatedRaw with
  | some (.number value) =>
    if value.isFinite then
      match timeClip (value * 1000) with
      | some time => .ok (some time)
      | none => .error "Invalid Date"
    else .ok none
  | _ => .ok none

/-- A price the feed takes: a positive finite number. -/
def readUsd (usdRaw : Option Json) : Option Double :=
  match usdRaw with
  | some (.number value) => if value.isFinite ∧ ¬ value.le 0 then some value else none
  | _ => none

/-- One round of the loop: a quote, a failure, or an exception. -/
def readEntry (rateLimit : RateLimit) (assetId : String) :
    BodyEntry → Except String (AssetFailure ⊕ AssetQuote)
  | .undefined =>
    .ok (.inl ⟨assetId, .missing, s!"{assetId}: not present in the response (unknown id?)"⟩)
  | .plain => .ok (.inl ⟨assetId, .malformed, s!"{assetId}: entry is not an object"⟩)
  | .object entry =>
    match readUsd (entry.field "usd") with
    | none =>
      let shown := ((entry.field "usd").map Json.stringify).getD "undefined"
      .ok (.inl ⟨assetId, .malformed,
        s!"{assetId}: usd is {shown}, expected a positive finite number"⟩)
    | some usdRaw => do
      let providerUpdatedAt ← readUpdatedAt (entry.field "last_updated_at")
      let usd ← numberToDecimal usdRaw
      return .inr ⟨assetId, usd, providerUpdatedAt, rateLimit⟩

/-- The loop over the chunk. -/
def readEntries (rateLimit : RateLimit) (fields : List (String × Json)) :
    List String → BatchResult → Except String BatchResult
  | [], batch => .ok batch
  | assetId :: assetIds, batch => do
    match ← readEntry rateLimit assetId (entryOf fields assetId) with
    | .inl failure =>
      readEntries rateLimit fields assetIds { batch with failures := batch.failures ++ [failure] }
    | .inr quote =>
      readEntries rateLimit fields assetIds { batch with quotes := batch.quotes ++ [quote] }

/-- `fetchAssetPrices`. -/
def fetchAssetPrices (assetIds : List String) (reply : ProviderReply) :
    Except FetchError BatchResult :=
  if assetIds = [] then .ok ⟨[], [], {}⟩
  else
    let label := describeIds assetIds
    match reply with
    | .failed reason =>
      .error (.coinGecko s!"{label}: request failed ({reason})" .network assetIds none none)
    | .answered reply =>
      let rateLimit := readRateLimit reply
      if reply.status = 429 then
        let told := ((formatRateLimit rateLimit).map (" — " ++ ·)).getD ""
        .error (.coinGecko s!"{label}: rate limited (429){told}" .rateLimit assetIds (some 429)
          (some rateLimit))
      else if ¬ (200 ≤ reply.status ∧ reply.status ≤ 299) then
        .error (.coinGecko s!"{label}: HTTP {reply.status}" .http assetIds (some reply.status)
          (some rateLimit))
      else
        match reply.body with
        | none =>
          .error (.coinGecko s!"{label}: response body is not JSON" .malformed assetIds
            (some reply.status) (some rateLimit))
        | some (.object fields) =>
          match readEntries rateLimit fields assetIds ⟨[], [], rateLimit⟩ with
          | .ok batch => .ok batch
          | .error message => .error (.other message)
        | some _ =>
          .error (.coinGecko s!"{label}: response is not an object" .malformed assetIds
            (some reply.status) (some rateLimit))

/-! ## Numbers always convert -/

theorem takeExponent_exponentText (e : Int) : (takeExponent (exponentText e)).isSome = true := by
  have hdigits : (Nat.toDigits 10 e.natAbs).all Char.isDigit = true :=
    List.all_eq_true.2 fun c hc => Nat.isDigit_of_mem_toDigits (by decide) (by decide) hc
  unfold exponentText takeExponent takeSign
  by_cases he : e < 0 <;> simp [he, hdigits, Nat.toDigits_ne_nil]

/-- What follows the digits and the point of a numeral is an exponent. -/
theorem takeExponent_tail {tail : List Char} (h : tail = [] ∨ ∃ e, tail = exponentText e) :
    (takeExponent tail).isSome = true := by
  rcases h with rfl | ⟨e, rfl⟩
  · rfl
  · exact takeExponent_exponentText e

/-- Digits end where the exponent starts. -/
theorem span_digits {digits tail : List Char} (hdigits : ∀ c ∈ digits, c.isDigit = true)
    (htail : tail = [] ∨ ∃ c rest, tail = c :: rest ∧ c.isDigit = false) :
    (digits ++ tail).takeWhile Char.isDigit = digits ∧
      (digits ++ tail).dropWhile Char.isDigit = tail := by
  rw [List.takeWhile_append_of_pos hdigits, List.dropWhile_append_of_pos hdigits]
  rcases htail with rfl | ⟨c, rest, rfl, hc⟩
  · simp
  · have hnot : ¬ c.isDigit = true := by simp [hc]
    rw [List.takeWhile_cons_of_neg hnot, List.dropWhile_cons_of_neg hnot, List.append_nil]
    exact ⟨rfl, rfl⟩

/-- **A numeral is a decimal.** -/
theorem matchDecimal_numeral {text : List Char} (h : Numeral text) :
    (matchDecimal text).isSome = true := by
  obtain ⟨whole, point, tail, rfl, hne, hwhole, hpoint, htail⟩ := h
  have hsign : takeSign (whole ++ (point ++ tail)) = (false, whole ++ (point ++ tail)) := by
    obtain ⟨c, rest, rfl⟩ := List.exists_cons_of_ne_nil hne
    exact takeSign_of_isDigit (hwhole c List.mem_cons_self)
  have htail' : tail = [] ∨ ∃ c rest, tail = c :: rest ∧ c.isDigit = false := by
    rcases htail with rfl | ⟨e, rfl⟩
    · exact .inl rfl
    · exact .inr ⟨'e', _, rfl, by decide⟩
  have hexponent := takeExponent_tail htail
  unfold matchDecimal
  rw [hsign]
  rcases hpoint with rfl | ⟨fraction, rfl, hfraction⟩
  · rw [List.nil_append]
    obtain ⟨htake, hdrop⟩ := span_digits hwhole htail'
    simp only [htake, hdrop]
    split
    · rcases htail with h | ⟨e, h⟩
      · cases h
      · exact absurd (List.cons.inj h).1 (by decide)
    · simp [hne, hexponent]
  · have hpoint : '.' :: fraction ++ tail = [] ∨
        ∃ c rest, '.' :: fraction ++ tail = c :: rest ∧ c.isDigit = false :=
      .inr ⟨'.', _, rfl, by decide⟩
    obtain ⟨htake, hdrop⟩ := span_digits hwhole hpoint
    obtain ⟨htake', hdrop'⟩ := span_digits hfraction htail'
    simp only [htake, hdrop]
    simp only [List.cons_append, htake', hdrop']
    simp [hne, hexponent]

theorem numberToDecimal_ok {x : ℚ} (h : 0 < x) :
    ∃ text, numberToDecimal (.finite x) = .ok text := by
  obtain ⟨parsed, hparsed⟩ := Option.isSome_iff_exists.1
    (matchDecimal_numeral (numberText_numeral h))
  unfold numberToDecimal
  rw [hparsed]
  exact ⟨_, rfl⟩

/-- A price that the feed takes is a positive number. -/
theorem readUsd_eq_some {usdRaw : Option Json} {value : Double} (h : readUsd usdRaw = some value) :
    ∃ x, value = .finite x ∧ 0 < x := by
  unfold readUsd at h
  split at h
  · rename_i number
    split at h
    · rename_i hgood
      obtain rfl := Option.some.inj h
      cases number with
      | nan => cases hgood.1
      | infinity s => cases hgood.1
      | finite x =>
        refine ⟨x, rfl, ?_⟩
        have := hgood.2
        rw [Double.zero_eq] at this
        simpa [Double.le] using this
    · cases h
  · cases h

/-! ## What an entry comes to -/

/-- The entry has a price that the feed takes. -/
def BodyEntry.priced : BodyEntry → Bool
  | .object entry => (readUsd (entry.field "usd")).isSome
  | _ => false

/-- A finite timestamp that no `Date` holds. -/
def undatable : Option Json → Bool
  | some (.number t) => t.isFinite && (timeClip (t * 1000)).isNone
  | _ => false

/-- The entry is priced, and its timestamp is such a one. -/
def BodyEntry.overflows (entry : BodyEntry) : Bool :=
  entry.priced && match entry with
    | .object value => undatable (value.field "last_updated_at")
    | _ => false

/-- The entry is priced, and its timestamp is a date or none. -/
def BodyEntry.good (entry : BodyEntry) : Bool := entry.priced && !entry.overflows

theorem readUpdatedAt_spec (updatedRaw : Option Json) :
    undatable updatedRaw = true ∧ (∃ message, readUpdatedAt updatedRaw = .error message) ∨
      undatable updatedRaw = false ∧ ∃ time, readUpdatedAt updatedRaw = .ok time := by
  unfold readUpdatedAt undatable
  split
  · rename_i value
    cases hfinite : value.isFinite with
    | false => exact .inr ⟨rfl, _, rfl⟩
    | true =>
      cases hclip : timeClip (value * 1000) with
      | none => exact .inl ⟨rfl, _, rfl⟩
      | some time => exact .inr ⟨rfl, _, rfl⟩
  · exact .inr ⟨rfl, _, rfl⟩

/-- **What an entry comes to**: a failure unless it is priced, an exception if its timestamp is no
date, else a quote. -/
theorem readEntry_spec (rateLimit : RateLimit) (assetId : String) (entry : BodyEntry) :
    (entry.priced = false ∧ ∃ failure, readEntry rateLimit assetId entry = .ok (.inl failure) ∧
        failure.assetId = assetId) ∨
      (entry.overflows = true ∧ ∃ message, readEntry rateLimit assetId entry = .error message) ∨
      (entry.good = true ∧ ∃ quote, readEntry rateLimit assetId entry = .ok (.inr quote) ∧
          quote.assetId = assetId) := by
  cases entry with
  | undefined => exact .inl ⟨rfl, _, rfl, rfl⟩
  | plain => exact .inl ⟨rfl, _, rfl, rfl⟩
  | object value =>
    unfold readEntry BodyEntry.good BodyEntry.overflows BodyEntry.priced
    simp only
    cases husd : readUsd (value.field "usd") with
    | none => exact .inl ⟨rfl, _, rfl, rfl⟩
    | some usdRaw =>
      right
      obtain ⟨x, rfl, hx⟩ := readUsd_eq_some husd
      obtain ⟨text, htext⟩ := numberToDecimal_ok hx
      rcases readUpdatedAt_spec (value.field "last_updated_at") with
        ⟨hundatable, message, hmessage⟩ | ⟨hdatable, time, htime⟩
      · rw [hundatable, hmessage]
        exact .inl ⟨rfl, message, rfl⟩
      · rw [hdatable, htime]
        refine .inr ⟨rfl, ⟨assetId, text, time, rateLimit⟩, ?_, rfl⟩
        simp only [htext]
        rfl

theorem good_of_priced {entry : BodyEntry} (h : entry.priced = true)
    (hover : entry.overflows = false) : entry.good = true := by
  unfold BodyEntry.good
  rw [h, hover]
  rfl

theorem priced_of_good {entry : BodyEntry} (h : entry.good = true) : entry.priced = true :=
  (Bool.and_eq_true_iff.1 h).1

/-! ## What a chunk comes to -/

section Loop

variable (rateLimit : RateLimit) (fields : List (String × Json))

/-- **A chunk without an overflow**: each id ends as a quote or as a failure of its own entry. -/
theorem readEntries_ok :
    ∀ (assetIds : List String) (batch : BatchResult),
      (∀ assetId ∈ assetIds, (entryOf fields assetId).overflows = false) →
      ∃ quotes failures, readEntries rateLimit fields assetIds batch =
          .ok ⟨batch.quotes ++ quotes, batch.failures ++ failures, batch.rateLimit⟩ ∧
        quotes.map (·.assetId) = assetIds.filter (fun id => (entryOf fields id).good) ∧
        (quotes.map (·.assetId) ++ failures.map (·.assetId)).Perm assetIds ∧
        ∀ failure ∈ failures, failure.assetId ∈ assetIds ∧
          (entryOf fields failure.assetId).good = false
  | [], batch, _ => by
    refine ⟨[], [], ?_, rfl, List.Perm.refl _, nofun⟩
    rw [List.append_nil, List.append_nil]
    rfl
  | assetId :: assetIds, batch, h => by
    have hrest := fun batch => readEntries_ok assetIds batch
      fun id hid => h id (List.mem_cons_of_mem _ hid)
    unfold readEntries
    rcases readEntry_spec rateLimit assetId (entryOf fields assetId) with
      ⟨hpriced, failure, hread, hid⟩ | ⟨hover, -⟩ | ⟨hgood, quote, hread, hid⟩
    · obtain ⟨quotes, failures, hresult, hquotes, hperm, hown⟩ :=
        hrest { batch with failures := batch.failures ++ [failure] }
      have hgood : (entryOf fields assetId).good = false := by
        unfold BodyEntry.good
        rw [hpriced]
        rfl
      refine ⟨quotes, failure :: failures, ?_, ?_, ?_, ?_⟩
      · rw [hread]
        refine hresult.trans ?_
        rw [List.append_assoc]
        rfl
      · rw [hquotes, List.filter_cons_of_neg (by simp [hgood])]
      · rw [List.map_cons, hid]
        exact List.perm_middle.trans (hperm.cons _)
      · intro f hf
        rcases List.mem_cons.1 hf with rfl | hf
        · rw [hid]
          exact ⟨List.mem_cons_self, hgood⟩
        · exact ⟨List.mem_cons_of_mem _ (hown f hf).1, (hown f hf).2⟩
    · rw [h assetId List.mem_cons_self] at hover
      cases hover
    · obtain ⟨quotes, failures, hresult, hquotes, hperm, hown⟩ :=
        hrest { batch with quotes := batch.quotes ++ [quote] }
      refine ⟨quote :: quotes, failures, ?_, ?_, ?_, fun f hf =>
        ⟨List.mem_cons_of_mem _ (hown f hf).1, (hown f hf).2⟩⟩
      · rw [hread]
        refine hresult.trans ?_
        rw [List.append_assoc]
        rfl
      · have hfilter : (assetId :: assetIds).filter (fun id => (entryOf fields id).good) =
            assetId :: assetIds.filter (fun id => (entryOf fields id).good) :=
          List.filter_cons_of_pos hgood
        rw [List.map_cons, hid, hquotes, hfilter]
      · rw [List.map_cons, hid]
        exact hperm.cons _

/-- **A chunk with an overflow** throws, whatever the other entries are. -/
theorem readEntries_error :
    ∀ (assetIds : List String) (batch : BatchResult),
      (∃ assetId ∈ assetIds, (entryOf fields assetId).overflows = true) →
      ∃ message, readEntries rateLimit fields assetIds batch = .error message
  | [], _, h => by
    obtain ⟨_, hmem, -⟩ := h
    exact absurd hmem List.not_mem_nil
  | assetId :: assetIds, batch, h => by
    unfold readEntries
    have hrest : ∀ batch, (entryOf fields assetId).overflows = false →
        ∃ message, readEntries rateLimit fields assetIds batch = .error message := by
      intro batch hfirst
      refine readEntries_error assetIds batch ?_
      obtain ⟨id, hmem, hover⟩ := h
      rcases List.mem_cons.1 hmem with rfl | hmem
      · rw [hfirst] at hover
        cases hover
      · exact ⟨id, hmem, hover⟩
    rcases readEntry_spec rateLimit assetId (entryOf fields assetId) with
      ⟨hpriced, failure, hread, -⟩ | ⟨-, message, hread⟩ | ⟨hgood, quote, hread, -⟩
    · rw [hread]
      refine hrest _ ?_
      unfold BodyEntry.overflows
      rw [hpriced]
      rfl
    · rw [hread]
      exact ⟨message, rfl⟩
    · rw [hread]
      refine hrest _ ?_
      have := (Bool.and_eq_true_iff.1 hgood).2
      simpa using this

end Loop

end ZswapKernel
