import ZswapKernel.Node.FillVerdict
import ZswapKernel.Node.OfferIntake
import ZswapKernel.Node.Prices

/-!
# The API gate

`POST /v1/offers` of `packages/node/api.ts`: the checks an offer passes before it is forwarded for
publication. They are those of intake, on the decoded blob, with one more: the sponsorship of its
fee (`checkOfferSponsorship`).

Left out: the texts and rounded numbers of a sponsorship refusal, the hint and diagnostics of an
unknown root, and the answer of the batcher.

* `checkOfferSponsorship_ok` — the sponsorship check answers.
* `postOffers_forwards_iff` — what the gate forwards, in terms of the checks.
* `gate_agrees` — it forwards what intake indexes, if the fee is sponsored.
-/

namespace ZswapKernel

/-! ## Sponsorship -/

inductive SponsorPolicy
  | off
  | warn
  | enforce
  deriving DecidableEq, Repr

inductive UnpricedPolicy
  | allow
  | reject
  deriving DecidableEq, Repr

/-- The configuration of the gate. -/
structure GateEnv where
  node : NodeEnv
  prices : PriceEnv
  sponsorPolicy : SponsorPolicy
  sponsorUnpriced : UnpricedPolicy

inductive SponsorshipError
  | notSponsored
  | unpricedToken
  deriving DecidableEq, Repr

def SponsorshipError.text : SponsorshipError → String
  | .notSponsored => "NOT_SPONSORED"
  | .unpricedToken => "UNPRICED_TOKEN"

/-- The 422 body. -/
structure SponsorshipRefusal where
  error : SponsorshipError
  verdict : SponsorshipVerdict
  sponsorDiscount : Double

/-- `checkOfferSponsorship`: `none` means to carry on. -/
def checkOfferSponsorship (env : GateEnv) (db : PriceTables) (legs : SponsorshipLegs) :
    Except String (Option SponsorshipRefusal) :=
  if env.sponsorPolicy = .off then .ok none
  else do
    let discount ← sponsorDiscountFromBps env.prices.sponsorDiscountBps
    let prices ← pricesForColors env.prices db (legs.all.map (·.token))
    let verdict ← evaluateSponsorship legs prices discount
    let refusal := fun error =>
      if env.sponsorPolicy = .warn then none else some ⟨error, verdict, discount⟩
    return match verdict.verdict with
      | .sponsored => none
      | .unpriced => if env.sponsorUnpriced = .allow then none else refusal .unpricedToken
      | .notSponsored => refusal .notSponsored

/-! ## The gate -/

/-- `OFFER_HRP`. -/
def offerHrp : String := "swapoffer"

/-- `maxEncodedChars`. -/
def maxEncodedChars (maxBytes : Nat) : Nat := (maxBytes * 8 + 4) / 5 + offerHrp.length + 7

/-- A rejection of a blob: `error` and `reason`. -/
structure BlobRejection where
  error : String
  reason : String
  deriving DecidableEq, Repr

def OfferRejection.body (rejection : OfferRejection) : BlobRejection :=
  ⟨rejection.code.text, rejection.reason⟩

/-- `validateZswapOffer` with `crypto: "defer"`; `decode` is that of the offer codec. -/
def validateZswapOffer (ledger : Ledger) (decode : String → Except String (List UInt8))
    (maxBytes : Nat) (blob : String) : Except BlobRejection OfferValidation :=
  if !(offerHrp ++ "1").toList.isPrefixOf blob.toList then
    .error ⟨"BAD_ENCODING", "not a swapoffer bech32m string"⟩
  else if utf16Length blob > maxEncodedChars maxBytes then
    .error ⟨"TOO_LARGE", s!"encoded offer is {utf16Length blob} chars > max " ++
      s!"{maxEncodedChars maxBytes} (cannot decode to <= {maxBytes} bytes)"⟩
  else
    match decode blob with
    | .error e => .error ⟨"BAD_ENCODING", s!"bech32m decode failed: {e}"⟩
    | .ok rawTx => (validateZswapOfferBytes ledger maxBytes rawTx).mapError OfferRejection.body

/-- `offerHashFromBlob`. -/
def offerHashFromBlob (ledger : Ledger) (decode : String → Except String (List UInt8))
    (blob : String) : Except String String :=
  (decode blob).map ledger.sha256

/-- `duplicateMarkerReason`. -/
def duplicateMarkerReason (marker : DeclaredMarker) (incumbentHash : String) : String :=
  s!"declared {marker.label} is already claimed by the active offer {incumbentHash}; " ++
    "re-wrapping or re-proving one intent does not create a second offer"

inductive GateReply
  /-- The blob goes to the batcher. -/
  | forwarded (offerId : String)
  /-- 400. -/
  | rejected (body : BlobRejection)
  /-- 409. -/
  | duplicateOffer (reason offerId : String) (status : FillStatus)
  /-- 422. -/
  | notSponsored (refusal : SponsorshipRefusal)
  /-- 409. -/
  | duplicateMarkers (reason offerId activeOfferId : String)

/-- `POST /v1/offers`; an error is a failed request. -/
def postOffers (env : GateEnv) (ledger : Ledger) (decode : String → Except String (List UInt8))
    (prices : PriceTables) (nowMs : Int) (db : Db) (blob : String) : Except String GateReply :=
  match validateZswapOffer ledger decode env.node.offerMaxBytes blob with
  | .error body => .ok (.rejected body)
  | .ok validation => do
    let offerHash ← offerHashFromBlob ledger decode blob
    match db.getOfferStatusByHash offerHash with
    | status :: _ =>
      let reason := s!"offer already indexed with status '{status.text}'"
      return .duplicateOffer reason offerHash status
    | [] => do
      let refusal ← checkOfferSponsorship env prices ⟨validation.gives, validation.wants⟩
      match refusal with
      | some refusal => return .notSponsored refusal
      | none => do
        let liveness ← db.probeLiveness validation (nowMs - env.node.rootWindowMs)
        match liveness with
        | .error rejection => return .rejected rejection.body
        | .ok () =>
          match verifyOfferCrypto ledger validation.tx nowMs with
          | .error rejection => return .rejected rejection.body
          | .ok () => do
            let claimed ← db.probeMarkers (declaredMarkers validation.tx)
            match claimed with
            | some marker =>
              let incumbent := (db.claimedBy marker).getD "(hash unavailable)"
              return .duplicateMarkers (duplicateMarkerReason marker incumbent) offerHash incumbent
            | none => return .forwarded offerHash

/-! ## The sponsorship check answers -/

section Sponsorship

variable {env : PriceEnv} {prices : PriceTables}

/-- The price columns hold decimals, and no token or override has more than 38 decimals. -/
structure DecimalPrices (env : PriceEnv) (prices : PriceTables) : Prop where
  assets : ∀ asset ∈ prices.assetPrices, ∃ value, parseDecimal asset.priceUsd = .ok value
  tokens : ∀ token ∈ prices.knownTokens, token.decimals ≤ 38
  overrides : ∀ entry ∈ env.priceMapOverrides, ∀ decimals ∈ entry.2.decimals, decimals ≤ 38

theorem mem_of_lookup {α β : Type} [BEq α] [LawfulBEq α] {key : α} {value : β} {l : List (α × β)}
    (h : l.lookup key = some value) : (key, value) ∈ l := by
  induction l with
  | nil => cases h
  | cons entry l ih =>
    rw [List.lookup_cons] at h
    split at h
    · rename_i heq
      cases h
      exact eq_of_beq heq ▸ List.mem_cons_self
    · exact List.mem_cons_of_mem _ (ih h)

/-- The decimals a token is priced with. -/
theorem resolveAssetId_decimals (h : DecimalPrices env prices) {token : KnownToken}
    (htoken : token ∈ prices.knownTokens) {assetId : String} {decimals : Nat}
    (hasset : resolveAssetId token env.priceMapOverrides = some (assetId, decimals)) :
    decimals ≤ 38 := by
  have hdecimals : decimals =
      ((((env.priceMapOverrides.lookup (priceMapKey token.tokenColor)).or
        (env.priceMapOverrides.lookup (priceMapKey token.name))).bind (·.decimals)).getD
          token.decimals) := by
    unfold resolveAssetId at hasset
    dsimp only at hasset
    split at hasset
    · cases hasset
    · cases hasset
    · exact (Prod.mk.inj (Option.some.inj hasset)).2.symm
  rw [hdecimals]
  cases hentry : (env.priceMapOverrides.lookup (priceMapKey token.tokenColor)).or
      (env.priceMapOverrides.lookup (priceMapKey token.name)) with
  | none => exact h.tokens token htoken
  | some entry =>
    cases hsome : entry.decimals with
    | none => simpa [hsome] using h.tokens token htoken
    | some value =>
      have hmem : ∃ key, (key, entry) ∈ env.priceMapOverrides := by
        rcases Option.or_eq_some_iff.mp hentry with hcolor | ⟨-, hname⟩
        · exact ⟨_, mem_of_lookup hcolor⟩
        · exact ⟨_, mem_of_lookup hname⟩
      obtain ⟨key, hkey⟩ := hmem
      simpa [hsome] using h.overrides _ hkey value hsome

theorem resolveTokenPriceReadOnly_isOk (h : DecimalPrices env prices) (color : String) :
    ∃ resolved, resolveTokenPriceReadOnly env prices color = .ok resolved := by
  unfold resolveTokenPriceReadOnly resolveWithoutWriting
  dsimp only
  split
  · exact ⟨_, rfl⟩
  split
  · exact ⟨_, rfl⟩
  rename_i assetId decimals hasset
  split
  · exact ⟨_, rfl⟩
  rename_i asset hfind
  obtain ⟨token, htoken, hasset⟩ := Option.bind_eq_some_iff.mp hasset
  have hdecimals := resolveAssetId_decimals h (List.mem_of_find?_eq_some htoken) hasset
  obtain ⟨value, hvalue⟩ := h.assets asset (List.mem_of_find?_eq_some hfind)
  unfold tokenPriceFromAsset
  rw [if_neg (Nat.not_lt.mpr hdecimals)]
  simp only [hvalue]
  exact ⟨_, rfl⟩

theorem pricesForColors_isOk (h : DecimalPrices env prices) (colors : List String) :
    ∃ table, pricesForColors env prices colors = .ok table := by
  unfold pricesForColors
  generalize (colors.map toLowerCase).eraseDups = colors
  generalize ([] : PriceTable) = table
  induction colors generalizing table with
  | nil => exact ⟨table, rfl⟩
  | cons color colors ih =>
    obtain ⟨resolved, hresolved⟩ := resolveTokenPriceReadOnly_isOk h color
    rw [List.foldlM_cons, hresolved]
    cases resolved with
    | none => exact ih table
    | some resolved => exact ih _

/-- **The sponsorship check answers**, when the price columns hold decimals. -/
theorem checkOfferSponsorship_ok {gate : GateEnv} (h : DecimalPrices gate.prices prices)
    (legs : SponsorshipLegs) : ∃ refusal, checkOfferSponsorship gate prices legs = .ok refusal := by
  unfold checkOfferSponsorship
  split
  · exact ⟨none, rfl⟩
  obtain ⟨discount, hdiscount, hlow, hhigh⟩ :=
    sponsorDiscountFromBps_fraction gate.prices.sponsorDiscountBps_lt
  obtain ⟨table, htable⟩ := pricesForColors_isOk h (legs.all.map (·.token))
  obtain ⟨verdict, hverdict⟩ := evaluateSponsorship_ok legs table hlow hhigh
  rw [hdiscount, htable]
  simp only [bind, Except.bind]
  rw [hverdict]
  exact ⟨_, rfl⟩

end Sponsorship

/-! ## Agreement -/

/-- What the source relies on of the offer codec. -/
structure CodecRules (decode : String → Except String (List UInt8)) : Prop where
  /-- A blob that decodes is a `swapoffer1…` string. -/
  hrp : ∀ blob rawTx, decode blob = .ok rawTx →
    (offerHrp ++ "1").toList.isPrefixOf blob.toList = true
  /-- 8 bits go into every 5-bit character, with the HRP, its separator and a checksum of 6. -/
  length : ∀ blob rawTx, decode blob = .ok rawTx →
    utf16Length blob = (rawTx.length * 8 + 4) / 5 + offerHrp.length + 7

/-- The checks that the gate and intake share. -/
structure PassesChecks (env : NodeEnv) (ledger : Ledger) (nowMs : Int) (db : Db)
    (rawBytes : List UInt8) (result : OfferValidation) : Prop where
  validated : validateZswapOfferBytes ledger env.offerMaxBytes rawBytes = .ok result
  fresh : db.hasOfferHash (ledger.sha256 rawBytes) = false
  live : db.probeLiveness result (nowMs - env.rootWindowMs) = .ok (.ok ())
  crypto : verifyOfferCrypto ledger result.tx nowMs = .ok ()
  unclaimed : db.probeMarkers (declaredMarkers result.tx) = .ok none

section Agreement

variable {ledger : Ledger} {decode : String → Except String (List UInt8)} {globalTtlMs : Int}
  {ctx : BlockContext} {db : Db} {rawBytes : List UInt8}

theorem getOfferStatusByHash_eq_nil {offerHash : String} :
    db.getOfferStatusByHash offerHash = [] ↔ db.hasOfferHash offerHash = false := by
  unfold Db.getOfferStatusByHash Db.hasOfferHash
  rw [List.append_eq_nil_iff, List.map_eq_nil_iff, List.map_eq_nil_iff, List.filter_eq_nil_iff,
    List.filter_eq_nil_iff, Bool.or_eq_false_iff, List.any_eq_false, List.any_eq_false]

/-- The entry of the gate lets through what decodes and validates. -/
theorem validateZswapOffer_ok (hcodec : CodecRules decode) {maxBytes : Nat} {blob : String}
    {result : OfferValidation} :
    validateZswapOffer ledger decode maxBytes blob = .ok result ↔
      ∃ rawBytes, decode blob = .ok rawBytes ∧
        validateZswapOfferBytes ledger maxBytes rawBytes = .ok result := by
  unfold validateZswapOffer
  constructor
  · intro h
    split at h
    · cases h
    split at h
    · cases h
    split at h
    · cases h
    rename_i rawBytes hdecode
    refine ⟨rawBytes, hdecode, ?_⟩
    cases hvalid : validateZswapOfferBytes ledger maxBytes rawBytes with
    | error rejection =>
      rw [hvalid] at h
      cases h
    | ok validation =>
      rw [hvalid] at h
      have heq : validation = result := Except.ok.inj h
      rw [heq]
  · rintro ⟨rawBytes, hdecode, hvalid⟩
    have hsize : rawBytes.length ≤ maxBytes := by
      unfold validateZswapOfferBytes at hvalid
      split at hvalid
      · cases hvalid
      · omega
    have hchars : ¬ utf16Length blob > maxEncodedChars maxBytes := by
      rw [hcodec.length blob rawBytes hdecode]
      unfold maxEncodedChars
      omega
    rw [hcodec.hrp blob rawBytes hdecode, if_neg (by decide), if_neg hchars, hdecode]
    simp only [hvalid]
    rfl

/-- **What the gate forwards**: the blobs that decode, pass the checks and are sponsored. -/
theorem postOffers_forwards_iff {env : GateEnv} {prices : PriceTables} {nowMs : Int}
    {blob : String} (hcodec : CodecRules decode) :
    (∃ offerId, postOffers env ledger decode prices nowMs db blob = .ok (.forwarded offerId)) ↔
      ∃ rawBytes result, decode blob = .ok rawBytes ∧
        PassesChecks env.node ledger nowMs db rawBytes result ∧
        checkOfferSponsorship env prices ⟨result.gives, result.wants⟩ = .ok none := by
  unfold postOffers
  constructor
  · rintro ⟨offerId, h⟩
    split at h
    · cases h
    rename_i result hvalid
    obtain ⟨rawBytes, hdecode, hvalidated⟩ := (validateZswapOffer_ok hcodec).mp hvalid
    unfold offerHashFromBlob at h
    rw [hdecode] at h
    obtain ⟨offerHash, hhash, h⟩ := Except.bind_eq_ok.mp h
    cases hhash
    split at h
    · cases h
    rename_i hnone
    obtain ⟨refusal, hrefusal, h⟩ := Except.bind_eq_ok.mp h
    split at h
    · cases h
    obtain ⟨liveness, hlive, h⟩ := Except.bind_eq_ok.mp h
    split at h
    · cases h
    split at h
    · cases h
    rename_i hcrypto
    obtain ⟨claimed, hclaimed, h⟩ := Except.bind_eq_ok.mp h
    split at h
    · cases h
    exact ⟨rawBytes, result, hdecode,
      ⟨hvalidated, getOfferStatusByHash_eq_nil.mp hnone, hlive, hcrypto, hclaimed⟩, hrefusal⟩
  · rintro ⟨rawBytes, result, hdecode, hpasses, hsponsored⟩
    have hvalid := (validateZswapOffer_ok hcodec).mpr ⟨rawBytes, hdecode, hpasses.validated⟩
    have hnone := getOfferStatusByHash_eq_nil.mpr hpasses.fresh
    refine ⟨ledger.sha256 rawBytes, ?_⟩
    unfold offerHashFromBlob
    simp only [hvalid, hdecode, Except.map, bind, Except.bind, hnone, hsponsored, hpasses.live,
      hpasses.crypto, hpasses.unclaimed]
    rfl

/-- **What intake indexes**: the blobs that pass the checks. -/
theorem celestiaZswap_indexes_iff {env : NodeEnv} {start : BlockContext}
    (hrules : LedgerRules ledger globalTtlMs) (hclock : ClockInRange env globalTtlMs ctx)
    (hstart : 0 ≤ start.blockTimestamp) (hrun : NodeSteps env ledger start {} ctx db) :
    (∃ db', celestiaZswap env ledger ctx rawBytes db = .ok db' ∧ db.Indexes ledger rawBytes db') ↔
      ∃ result, PassesChecks env ledger ctx.blockTimestamp db rawBytes result := by
  constructor
  · rintro ⟨db', hanswer, hindexes⟩
    rcases celestiaZswap_cases hanswer with ⟨code, rfl⟩ |
      ⟨result, _, _, _, haccepts, hcrypto, hfree, -⟩
    · exact absurd (hindexes.1.symm.trans hindexes.2) (by decide)
    have hfits : ¬ ProbesOutOfRange env ledger ctx rawBytes db :=
      fun hrange => celestiaZswap_error hrange ⟨db', hanswer⟩
    obtain ⟨verdict, hprobe⟩ := (@probeLiveness_isOk env ctx db result).mpr fun hrange =>
      hfits ⟨result, haccepts.validated, haccepts.fresh, .inl hrange⟩
    obtain ⟨claimed, hclaimed⟩ := probeMarkers_isOk.mpr fun hrange =>
      hfits ⟨result, haccepts.validated, haccepts.fresh, .inr ⟨haccepts.live, hcrypto, hrange⟩⟩
    have hverdict : verdict = .ok () := (probeLiveness_ok hprobe).symm.trans haccepts.live
    have hnone : claimed = none := by
      rw [Except.findM?_ok hclaimed, List.find?_eq_none]
      intro marker hmarker
      rw [hfree marker hmarker]
      decide
    exact ⟨result, haccepts.validated, haccepts.fresh, hverdict ▸ hprobe, hcrypto,
      hnone ▸ hclaimed⟩
  · rintro ⟨result, hpasses⟩
    exact celestiaZswap_passed hrules hclock hstart hrun.dated hpasses.validated hpasses.fresh
      hpasses.live hpasses.crypto hpasses.unclaimed

/-- **The gate and intake agree.** With the clock of the block, the gate forwards a blob exactly
when it decodes to bytes that intake indexes in the same state and the sponsorship check lets them
pass; and where the price columns hold decimals, that check gives a verdict on every offer. -/
theorem gate_agrees {env : GateEnv} {prices : PriceTables} {start : BlockContext}
    (hrules : LedgerRules ledger globalTtlMs) (hcodec : CodecRules decode)
    (hclock : ClockInRange env.node globalTtlMs ctx) (hstart : 0 ≤ start.blockTimestamp)
    (hrun : NodeSteps env.node ledger start {} ctx db) (blob : String) :
    ((∃ offerId, postOffers env ledger decode prices ctx.blockTimestamp db blob =
        .ok (.forwarded offerId)) ↔
      ∃ rawBytes, decode blob = .ok rawBytes ∧
        (∃ db', celestiaZswap env.node ledger ctx rawBytes db = .ok db' ∧
          db.Indexes ledger rawBytes db') ∧
        ∀ result, validateZswapOfferBytes ledger env.node.offerMaxBytes rawBytes = .ok result →
          checkOfferSponsorship env prices ⟨result.gives, result.wants⟩ = .ok none) ∧
    (DecimalPrices env.prices prices → ∀ legs, ∃ refusal,
      checkOfferSponsorship env prices legs = .ok refusal) := by
  refine ⟨?_, fun hprices legs => checkOfferSponsorship_ok hprices legs⟩
  rw [postOffers_forwards_iff hcodec]
  constructor
  · rintro ⟨rawBytes, result, hdecode, hpasses, hsponsored⟩
    refine ⟨rawBytes, hdecode,
      (celestiaZswap_indexes_iff hrules hclock hstart hrun).mpr ⟨result, hpasses⟩, ?_⟩
    intro other hother
    cases Except.ok.inj (hother.symm.trans hpasses.validated)
    exact hsponsored
  · rintro ⟨rawBytes, hdecode, hindexed, hsponsored⟩
    obtain ⟨result, hpasses⟩ := (celestiaZswap_indexes_iff hrules hclock hstart hrun).mp hindexed
    exact ⟨rawBytes, result, hdecode, hpasses, hsponsored result hpasses.validated⟩

end Agreement

namespace RuledOffer

/-- The encoding of the byte 1. -/
def blob : String := "swapoffer1qykchngj"

def decode (text : String) : Except String (List UInt8) :=
  if text = blob then .ok [1] else .error "Invalid checksum"

theorem codec : CodecRules decode := by
  constructor
  all_goals
    intro text rawTx hdecode
    unfold decode at hdecode
    split at hdecode
    · rename_i heq
      cases hdecode
      rw [heq]
      decide +kernel
    · cases hdecode

/-- A gate that asks for no sponsorship. -/
def gate : GateEnv := ⟨OneOffer.env, ⟨[], none⟩, .off, .allow⟩

def prices : PriceTables := ⟨[], [], [], none, .nil, .nil, .nil, .nil⟩

end RuledOffer

open OneOffer RuledOffer in
/-- The gate forwards the blob of the one offer, and intake indexes it. -/
theorem gate_agrees_forwarded :
    ∃ db', celestiaZswap env RuledOffer.ledger block.toBlockContext [1] created = .ok db' ∧
      created.Indexes RuledOffer.ledger [1] db' := by
  have hforwarded : ((postOffers gate RuledOffer.ledger decode prices 1000 created
      blob).toOption.map fun reply => match reply with
        | .forwarded offerId => offerId
        | _ => "") = some "01" := by
    decide +kernel
  obtain ⟨reply, hreply, hid⟩ := Option.map_eq_some_iff.mp hforwarded
  cases reply with
  | forwarded offerId =>
    obtain ⟨rawBytes, hdecode, hindexed, -⟩ := (gate_agrees rules codec
      (show ClockInRange gate.node 7200000 block.toBlockContext from clock) (by decide)
      created_steps blob).1.mp ⟨offerId, Except.eq_ok_of_toOption hreply⟩
    cases (Except.ok.inj hdecode : [1] = rawBytes)
    exact hindexed
  | _ => exact absurd (show "" = "01" from hid) (by decide)

end ZswapKernel
