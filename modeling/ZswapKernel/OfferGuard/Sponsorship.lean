import ZswapKernel.Node.PriceMap
import ZswapKernel.Validator.Validate

/-!
# The sponsorship rule

`packages/offer-guard/sponsorship.ts`: is an offer a good enough trade to pay its fee for? The node
asks before it forwards an offer, and the batcher before it pays.

The rule reads a price table only through the market prices of the colors of the legs:
`evaluateSponsorship_congr`, and `evaluateSponsorship_unpriced` for the colors without one.
-/

namespace ZswapKernel

inductive PriceSource
  | feed
  | seed
  | manual
  | fallback
  deriving DecidableEq, Repr

def PriceSource.text : PriceSource → String
  | .feed => "feed"
  | .seed => "seed"
  | .manual => "manual"
  | .fallback => "fallback"

/-- A price, a text or a number. -/
inductive PriceValue
  | text (value : String)
  | number (value : Double)
  deriving DecidableEq, Repr

/-- `Number(price)`. -/
def PriceValue.number? : PriceValue → Double
  | .text value => numberOf value
  | .number value => value

structure PriceRow where
  priceUsd : PriceValue
  source : PriceSource
  deriving DecidableEq, Repr

/-- A `Map<string, PriceRow>`, the entry set last first. -/
abbrev PriceTable := List (String × PriceRow)

structure SponsorshipLegs where
  gives : List OfferLeg
  wants : List OfferLeg

/-- The legs of both sides. -/
def SponsorshipLegs.all (legs : SponsorshipLegs) : List OfferLeg := legs.gives ++ legs.wants

inductive Sponsorship
  | sponsored
  | notSponsored
  | unpriced
  deriving DecidableEq, Repr

structure SponsorshipVerdict where
  verdict : Sponsorship
  giveUsd : Double
  wantUsd : Double
  impliedDiscount : Option Double
  unpriced : List String
  deriving DecidableEq, Repr

/-- `SPONSORSHIP_EPSILON_USD`. -/
def sponsorshipEpsilonUsd : Double := .ofRat (10 ^ (-9 : ℤ))

/-- `sponsorDiscountFromBps`. -/
def sponsorDiscountFromBps (bps : Nat) : Except String Double :=
  if bps ≥ 10000 then .error s!"sponsor discount must be in [0, 10000) bps, got {bps}"
  else .ok (.ofRat (bps / 10000))

/-- `toUsd`. -/
def toUsd (amount : String) (price : PriceValue) : Double := numberOf amount * price.number?

/-- The price the rule counts with: none, or the demo price, leaves a color unpriced. -/
def PriceTable.market (prices : PriceTable) (color : String) : Option PriceValue :=
  match prices.lookup color with
  | none => none
  | some row => if row.source = .fallback then none else some row.priceUsd

/-- One leg of `sum`: the total so far and the colors found without a price. -/
def sumLeg (prices : PriceTable) : Double × List String → OfferLeg → Double × List String
  | (total, unpriced), leg =>
    let color := toLowerCase leg.token
    match prices.market color with
    | none => (total, if color ∈ unpriced then unpriced else unpriced ++ [color])
    | some price => (total + toUsd leg.amount price, unpriced)

/-- `sum` of a side. -/
def sumSide (prices : PriceTable) (unpriced : List String) (side : List OfferLeg) :
    Double × List String :=
  side.foldl (sumLeg prices) (0, unpriced)

/-- `evaluateSponsorship`. -/
def evaluateSponsorship (legs : SponsorshipLegs) (prices : PriceTable) (discount : Double) :
    Except String SponsorshipVerdict :=
  if !discount.isFinite || discount.lt 0 || Double.le 1 discount then
    .error "sponsor discount must be a fraction in [0, 1)"
  else
    let (giveUsd, unpriced) := sumSide prices [] legs.gives
    let (wantUsd, unpriced) := sumSide prices unpriced legs.wants
    if unpriced ≠ [] then .ok ⟨.unpriced, giveUsd, wantUsd, none, unpriced⟩
    else if !Double.lt 0 giveUsd then .ok ⟨.notSponsored, giveUsd, wantUsd, none, unpriced⟩
    else
      let threshold := giveUsd * (1 - discount)
      let sponsored := wantUsd.le (threshold + sponsorshipEpsilonUsd)
      .ok ⟨if sponsored then .sponsored else .notSponsored, giveUsd, wantUsd,
        some (1 - wantUsd / giveUsd), unpriced⟩

/-! ## What the rule reads -/

/-- The colors of a side. -/
def legColors (side : List OfferLeg) : List String := side.map fun leg => toLowerCase leg.token

theorem sumSide_congr {prices prices' : PriceTable} {side : List OfferLeg}
    (h : ∀ color ∈ legColors side, prices.market color = prices'.market color)
    (unpriced : List String) : sumSide prices unpriced side = sumSide prices' unpriced side := by
  unfold sumSide
  refine List.foldl_ext _ _ _ fun sums leg hleg => ?_
  simp only [sumLeg, h _ (List.mem_map_of_mem hleg)]

/-- **The verdict depends on the market prices of the leg colors only.** -/
theorem evaluateSponsorship_congr {legs : SponsorshipLegs} {prices prices' : PriceTable}
    (h : ∀ color ∈ legColors legs.all, prices.market color = prices'.market color)
    (discount : Double) :
    evaluateSponsorship legs prices discount = evaluateSponsorship legs prices' discount := by
  have hgives : ∀ color ∈ legColors legs.gives, prices.market color = prices'.market color :=
    fun color hcolor => h color (by
      unfold legColors SponsorshipLegs.all
      rw [List.map_append]
      exact List.mem_append_left _ hcolor)
  have hwants : ∀ color ∈ legColors legs.wants, prices.market color = prices'.market color :=
    fun color hcolor => h color (by
      unfold legColors SponsorshipLegs.all
      rw [List.map_append]
      exact List.mem_append_right _ hcolor)
  unfold evaluateSponsorship
  simp only [sumSide_congr hgives, sumSide_congr hwants]

/-- A side adds the colors it finds no price for. -/
theorem mem_sumSide (prices : PriceTable) (side : List OfferLeg) (unpriced : List String)
    (color : String) : color ∈ (sumSide prices unpriced side).2 ↔
      color ∈ unpriced ∨ color ∈ legColors side ∧ prices.market color = none := by
  unfold sumSide
  generalize (0 : Double) = total
  induction side generalizing total unpriced with
  | nil => simp [legColors]
  | cons leg side ih =>
    rw [List.foldl_cons, sumLeg]
    simp only [legColors, List.map_cons, List.mem_cons] at ih ⊢
    cases hmarket : prices.market (toLowerCase leg.token) with
    | some price =>
      rw [ih]
      constructor
      · rintro (h | h)
        · exact Or.inl h
        · exact Or.inr ⟨Or.inr h.1, h.2⟩
      · rintro (h | ⟨rfl | h, hnone⟩)
        · exact Or.inl h
        · rw [hmarket] at hnone
          cases hnone
        · exact Or.inr ⟨h, hnone⟩
    | none =>
      rw [ih]
      by_cases hseen : toLowerCase leg.token ∈ unpriced
      · rw [if_pos hseen]
        constructor
        · rintro (h | h)
          · exact Or.inl h
          · exact Or.inr ⟨Or.inr h.1, h.2⟩
        · rintro (h | ⟨rfl | h, hnone⟩)
          · exact Or.inl h
          · exact Or.inl hseen
          · exact Or.inr ⟨h, hnone⟩
      · rw [if_neg hseen, List.mem_append, List.mem_singleton]
        constructor
        · rintro ((h | rfl) | h)
          · exact Or.inl h
          · exact Or.inr ⟨Or.inl rfl, hmarket⟩
          · exact Or.inr ⟨Or.inr h.1, h.2⟩
        · rintro (h | ⟨rfl | h, hnone⟩)
          · exact Or.inl (Or.inl h)
          · exact Or.inl (Or.inr rfl)
          · exact Or.inr ⟨h, hnone⟩

/-- **The unpriced colors of a verdict** are the leg colors without a market price. -/
theorem evaluateSponsorship_unpriced {legs : SponsorshipLegs} {prices : PriceTable}
    {discount : Double} {verdict : SponsorshipVerdict}
    (h : evaluateSponsorship legs prices discount = .ok verdict) (color : String) :
    color ∈ verdict.unpriced ↔ color ∈ legColors legs.all ∧ prices.market color = none := by
  have hsum : verdict.unpriced =
      (sumSide prices (sumSide prices [] legs.gives).2 legs.wants).2 := by
    unfold evaluateSponsorship at h
    split at h
    · cases h
    · dsimp only at h
      split at h
      · exact Except.ok.inj h ▸ rfl
      · split at h <;> exact Except.ok.inj h ▸ rfl
  rw [hsum, mem_sumSide, mem_sumSide]
  simp only [List.not_mem_nil, false_or, legColors, SponsorshipLegs.all, List.map_append,
    List.mem_append, or_and_right]

/-- A discount of basis points is a fraction. -/
theorem sponsorDiscountFromBps_fraction {bps : Nat} (hbps : bps < 10000) :
    ∃ value, sponsorDiscountFromBps bps = .ok (.finite value) ∧ 0 ≤ value ∧ value < 1 := by
  have hle : (bps : ℚ) + 1 ≤ 10000 := by exact_mod_cast hbps
  obtain ⟨value, hvalue, hfraction⟩ := Double.ofRat_fraction (q := bps / 10000)
    (by positivity) (by
      rw [div_le_iff₀ (by norm_num)]
      norm_num
      linarith)
  refine ⟨value, ?_, hfraction⟩
  rw [sponsorDiscountFromBps, if_neg (Nat.not_le.mpr hbps), hvalue]

/-- The rule takes every fraction. -/
theorem evaluateSponsorship_ok (legs : SponsorshipLegs) (prices : PriceTable) {value : ℚ}
    (hnonneg : 0 ≤ value) (hlt : value < 1) :
    ∃ verdict, evaluateSponsorship legs prices (.finite value) = .ok verdict := by
  have hvalid : (!Double.isFinite (.finite value) || Double.lt (.finite value) 0 ||
      Double.le 1 (.finite value)) = false := by
    rw [Double.zero_eq, Double.one_eq]
    simp [Double.isFinite, Double.lt, Double.le, hnonneg, hlt]
  unfold evaluateSponsorship
  rw [hvalid]
  simp only [Bool.false_eq_true, if_false]
  split
  · exact ⟨_, rfl⟩
  · split <;> exact ⟨_, rfl⟩

end ZswapKernel
