import Mathlib.Order.Bounds.Defs
import ZswapKernel.SolverCore.LadderPublished

/-!
# The quotes of a published ladder

What a published pair promises, in terms of the whole retained book: the quote at an amount is the
most any feasible set of makers pays for it, and the recorded combination behind the quote is the
set the tie order prefers among all of them.

* `Prices.quote` — the quote and its step.
* `published_staircase_exact` — every published pair of a derivation.
-/

namespace ZswapKernel

open Program

/-- A set of makers that may fill an order of `x`: feasible, within the amount, and at least the
configured minimum. -/
structure Fills (retained : List Crossable) (maxMakers : Nat) (minimum : Option Int)
    (tokenIn tokenOut : String) (x : Int) (makers : Finset Crossable) : Prop extends
    Admissible retained maxMakers tokenIn tokenOut makers where
  within : requiredInput tokenIn makers ≤ x
  reaches : Reaches minimum (setNet makers tokenOut)

/-- The combination of the highest threshold within `x`. -/
structure LastCombination (combinations : List LadderCombinationProvenance) (x : Int)
    (combination : LadderCombinationProvenance) : Prop where
  mem : combination ∈ combinations
  input_le : bigInt combination.input ≤ x
  last : ∀ other ∈ combinations, bigInt other.input ≤ x →
    bigInt other.input ≤ bigInt combination.input

/-- `combination` records the makers. -/
structure Records (tokenIn tokenOut : String) (combination : LadderCombinationProvenance)
    (makers : Finset Crossable) : Prop where
  input : combination.input = decimal (requiredInput tokenIn makers)
  output : combination.output = decimal (setNet makers tokenOut)
  offerHashes : combination.offerHashes = setHashes makers

/-! ## Steps and sets -/

section Steps

variable {limits : LadderResourceLimits} {minimum : Option Int} {tokenIn tokenOut : String}
  {retained makers : List Crossable} {step : CombinationState}

/-- The set behind a step. -/
theorem StepOf.fills (h : StepOf limits minimum tokenIn tokenOut retained step makers)
    (hsorted : retained.Pairwise (·.offerHash < ·.offerHash)) {x : Int} (hle : step.input ≤ x) :
    Fills retained limits.maxMakersPerCombination minimum tokenIn tokenOut x makers.toFinset := by
  have hnodup := nodup_of_sorted (hsorted.sublist h.sublist)
  have hnet := setNet_toFinset hnodup
  refine ⟨h.candidate.admissible h.sublist hnodup, ?_, ?_⟩
  · unfold requiredInput
    rw [hnet, ← h.witness.input]
    exact hle
  · rw [hnet, ← h.witness.output]
    exact h.reaches

theorem StepOf.setNet_eq (h : StepOf limits minimum tokenIn tokenOut retained step makers)
    (hsorted : retained.Pairwise (·.offerHash < ·.offerHash)) :
    requiredInput tokenIn makers.toFinset = step.input ∧
      setNet makers.toFinset tokenOut = step.output := by
  have hnet := setNet_toFinset (nodup_of_sorted (hsorted.sublist h.sublist))
  unfold requiredInput
  rw [hnet]
  exact ⟨h.witness.input.symm, h.witness.output.symm⟩

theorem StepOf.setHashes_eq (h : StepOf limits minimum tokenIn tokenOut retained step makers)
    (hsorted : retained.Pairwise (·.offerHash < ·.offerHash)) :
    setHashes makers.toFinset = step.offerHashes := by
  rw [setHashes_toFinset (hsorted.sublist h.sublist), h.witness.offerHashes]

/-- A step that is at least as good as a list of makers: so is the set behind it. -/
theorem StepPreferred.preferred {other : Finset Crossable}
    (hstep : StepOf limits minimum tokenIn tokenOut retained step makers)
    (hsorted : retained.Pairwise (·.offerHash < ·.offerHash))
    (hother : ∀ offer ∈ other, offer ∈ retained)
    (h : StepPreferred tokenIn tokenOut step (selectMakers retained other)) :
    Preferred tokenIn tokenOut makers.toFinset other := by
  have hselect : (selectMakers retained other).Sublist retained := List.filter_sublist
  have hsortedOther := hsorted.sublist hselect
  have hset := toFinset_selectMakers hother
  have hnet : netSupply (selectMakers retained other) = setNet other := by
    rw [← setNet_toFinset (nodup_of_sorted hsortedOther), hset]
  have hcard : (selectMakers retained other).length = other.card := by
    rw [← List.toFinset_card_of_nodup (nodup_of_sorted hsortedOther), hset]
  have hhashes : (selectMakers retained other).map (·.offerHash) = setHashes other := by
    rw [← setHashes_toFinset hsortedOther, hset]
  have hlength : step.offerHashes.length = makers.toFinset.card := by
    rw [List.toFinset_card_of_nodup (nodup_of_sorted (hsorted.sublist hstep.sublist)),
      hstep.witness.offerHashes, List.length_map]
  unfold StepPreferred at h
  rw [hnet, hcard, hhashes, hlength, ← hstep.setHashes_eq hsorted,
    ← (hstep.setNet_eq hsorted).1, ← (hstep.setNet_eq hsorted).2] at h
  unfold Preferred
  rcases h with hmore | ⟨hsame, hrest⟩
  · exact Or.inl hmore
  · exact Or.inr ⟨hsame, hrest⟩

end Steps

/-! ## The quote -/

section Quote

variable {limits : LadderResourceLimits} {policy : JobAdmissionPolicy}
  {retained : List Crossable} {publication : Publication} {steps : List CombinationState}
  {final : CombinationState} {terminal : Int}

theorem Prices.head (h : Prices limits policy retained publication steps final terminal) :
    ∃ head, steps.head? = some head ∧
      publication.pair.levels.head? = some (priceLevel head.input head.output) := by
  cases hsteps : steps with
  | nil =>
    have hlast := h.last
    rw [hsteps] at hlast
    cases hlast
  | cons head rest =>
    refine ⟨head, rfl, ?_⟩
    rw [h.levels, hsteps, head?_ladderOf rfl]

/-- Every recorded combination is that of a step. -/
theorem Prices.combination (h : Prices limits policy retained publication steps final terminal) :
    List.Forall₂ (fun step combination => combinationOf publication.pair.tokenIn
      publication.pair.tokenOut step = .ok combination) steps
      publication.provenance.combinations :=
  Except.forall₂_of_mapM h.combinations

theorem combinationOf_ok {tokenIn tokenOut : String} {step : CombinationState}
    {combination : LadderCombinationProvenance}
    (h : combinationOf tokenIn tokenOut step = .ok combination) :
    combination.input = decimal step.input ∧ combination.output = decimal step.output ∧
      combination.offerHashes = step.offerHashes := by
  unfold combinationOf at h
  simp only [Except.bind_eq_ok] at h
  obtain ⟨balances, -, h⟩ := h
  cases h
  exact ⟨rfl, rfl, rfl⟩

/-- The step a set within the terminal is compared with is at most the last one within `x`. -/
theorem Prices.preferred (h : Prices limits policy retained publication steps final terminal)
    (hsorted : retained.Pairwise (·.offerHash < ·.offerHash)) {x : Int} (hx : x ≤ terminal)
    {step : CombinationState} (hstep : LastWithin steps x step) {makers : List Crossable}
    (hmakers : StepOf limits (policy.minimum publication.pair.tokenOut) publication.pair.tokenIn
      publication.pair.tokenOut retained step makers) {other : Finset Crossable}
    (hother : Fills retained limits.maxMakersPerCombination
      (policy.minimum publication.pair.tokenOut) publication.pair.tokenIn publication.pair.tokenOut
      x other) :
    Preferred publication.pair.tokenIn publication.pair.tokenOut makers.toFinset other := by
  have hselect : (selectMakers retained other).Sublist retained := List.filter_sublist
  have hnet : netSupply (selectMakers retained other) = setNet other := by
    rw [← setNet_toFinset (nodup_of_sorted (hsorted.sublist hselect)),
      toFinset_selectMakers hother.retained]
  have hinput : -netSupply (selectMakers retained other) publication.pair.tokenIn ≤ x := by
    rw [hnet]
    exact hother.within
  obtain ⟨found, hfound, hle, hpreferred⟩ := h.dominant (selectMakers retained other) hselect
    (hother.toAdmissible.candidate hsorted) (by rw [hnet]; exact hother.reaches)
    (hinput.trans hx)
  have hbelow := hstep.last found hfound (hle.trans hinput)
  by_cases heq : found = step
  · subst heq
    exact hpreferred.preferred hmakers hsorted hother.retained
  · -- a later step pays strictly more than the one that matches the set
    obtain ⟨hlt, hmore⟩ : found.input < step.input ∧ found.output < step.output := by
      have hclimbs := h.climbs
      obtain ⟨i, hi, rfl⟩ := List.mem_iff_getElem.mp hfound
      obtain ⟨j, hj, rfl⟩ := List.mem_iff_getElem.mp hstep.mem
      rcases lt_trichotomy i j with hij | hij | hij
      · exact List.pairwise_iff_getElem.mp hclimbs i j hi hj hij
      · exact absurd (by subst hij; rfl) heq
      · have := (List.pairwise_iff_getElem.mp hclimbs j i hj hi hij).1
        omega
    refine Or.inl ?_
    rw [← hnet, (hmakers.setNet_eq hsorted).2]
    rcases hpreferred with hout | ⟨hout, -⟩
    · omega
    · omega

/-- The combinations and the steps are selected together. -/
theorem Prices.last_step (h : Prices limits policy retained publication steps final terminal)
    {x : Int} {combination : LadderCombinationProvenance}
    (hlast : LastCombination publication.provenance.combinations x combination) :
    ∃ step, LastWithin steps x step ∧ combinationOf publication.pair.tokenIn
      publication.pair.tokenOut step = .ok combination := by
  obtain ⟨step, hstep, hof⟩ := exists_of_forall2 h.combination.flip hlast.mem
  have hinput : bigInt combination.input = step.input := by
    rw [(combinationOf_ok hof).1, bigInt_decimal]
  refine ⟨step, ⟨hstep, hinput ▸ hlast.input_le, fun other hother hle => ?_⟩, hof⟩
  obtain ⟨recorded, hrecorded, hofOther⟩ := exists_of_forall2 h.combination hother
  have hother : bigInt recorded.input = other.input := by
    rw [(combinationOf_ok hofOther).1, bigInt_decimal]
  have := hlast.last recorded hrecorded (by rw [hother]; exact hle)
  omega

theorem Prices.last_combination
    (h : Prices limits policy retained publication steps final terminal) {x : Int}
    {step : CombinationState} (hstep : LastWithin steps x step) :
    ∃ combination, LastCombination publication.provenance.combinations x combination := by
  obtain ⟨combination, hmem, hof⟩ := exists_of_forall2 h.combination hstep.mem
  have hinput : bigInt combination.input = step.input := by
    rw [(combinationOf_ok hof).1, bigInt_decimal]
  refine ⟨combination, hmem, hinput ▸ hstep.input_le, fun other hother hle => ?_⟩
  obtain ⟨otherStep, hotherStep, hofOther⟩ := exists_of_forall2 h.combination.flip hother
  have hotherInput : bigInt other.input = otherStep.input := by
    rw [(combinationOf_ok hofOther).1, bigInt_decimal]
  have := hstep.last otherStep hotherStep (by rw [← hotherInput]; exact hle)
  omega

/-- Two last steps within one amount are the same step. -/
theorem LastWithin.unique (hclimbs : Climbs steps) {x : Int} {step other : CombinationState}
    (h : LastWithin steps x step) (h' : LastWithin steps x other) : step = other := by
  have hle := h.last other h'.mem h'.input_le
  have hge := h'.last step h.mem h.input_le
  obtain ⟨i, hi, rfl⟩ := List.mem_iff_getElem.mp h.mem
  obtain ⟨j, hj, rfl⟩ := List.mem_iff_getElem.mp h'.mem
  rcases lt_trichotomy i j with hij | hij | hij
  · have := (List.pairwise_iff_getElem.mp hclimbs i j hi hj hij).1
    omega
  · subst hij
    rfl
  · have := (List.pairwise_iff_getElem.mp hclimbs j i hj hi hij).1
    omega

/-- **The quote** at an amount inside a published ladder: the most a feasible set pays. -/
theorem Prices.quote (h : Prices limits policy retained publication steps final terminal)
    (hsorted : retained.Pairwise (·.offerHash < ·.offerHash)) {first : PriceLevel}
    (hfirst : publication.pair.levels.head? = some first) {x : Int} (hlow : bigInt first.input ≤ x)
    (hhigh : x ≤ bigInt publication.provenance.terminalInput) :
    ∃ step makers, LastWithin steps x step ∧
      StepOf limits (policy.minimum publication.pair.tokenOut) publication.pair.tokenIn
        publication.pair.tokenOut retained step makers ∧
      LadderSchema.interpolateQuote publication.pair.levels x = some step.output ∧
      RelayWsContract.interpolateQuote publication.pair.levels x = some step.output ∧
      IsGreatest {out | ∃ makers, Fills retained limits.maxMakersPerCombination
        (policy.minimum publication.pair.tokenOut) publication.pair.tokenIn
        publication.pair.tokenOut x makers ∧ setNet makers publication.pair.tokenOut = out}
        step.output := by
  obtain ⟨head, hhead, hlevel⟩ := h.head
  obtain rfl : priceLevel head.input head.output = first := Option.some.inj (hlevel ▸ hfirst)
  rw [priceLevel, bigInt_decimal] at hlow
  rw [h.terminalInput, bigInt_decimal] at hhigh
  obtain ⟨step, hstep, hquote, hrelay⟩ :=
    interpolateQuote_ladderOf hhead h.last h.climbs h.final_lt hlow hhigh
  obtain ⟨makers, hmakers⟩ := h.witnessed step hstep.mem
  rw [← h.levels] at hquote hrelay
  refine ⟨step, makers, hstep, hmakers, hquote, hrelay, ?_, ?_⟩
  · exact ⟨makers.toFinset, hmakers.fills hsorted hstep.input_le, (hmakers.setNet_eq hsorted).2⟩
  · rintro out ⟨other, hother, rfl⟩
    have hpreferred := h.preferred hsorted hhigh hstep hmakers hother
    rw [← (hmakers.setNet_eq hsorted).2]
    rcases hpreferred with hmore | ⟨hsame, -⟩
    · exact hmore.le
    · exact hsame.le

end Quote

/-- **The published staircase is exact.** For every pair a derivation publishes and every amount
from its first level to its terminal, the quote is the most that a feasible set of retained offers
within the amount pays, and the recorded combination of the highest threshold within the amount
pays that and is preferred to every other such set. -/
theorem published_staircase_exact {comparisons : List CombinationState → Nat}
    {offers : List LadderSourceOffer} {options : DeriveLadderOptions} {derived : DerivedLadder}
    (hderived : deriveLadder comparisons offers options = .ok derived) :
    derived.levels.length = derived.provenance.length ∧
    ∀ entry ∈ derived.levels.zip derived.provenance,
      entry.2.tokenIn = entry.1.tokenIn ∧ entry.2.tokenOut = entry.1.tokenOut ∧
      ∀ first, entry.1.levels.head? = some first → ∀ x, bigInt first.input ≤ x →
        x ≤ bigInt entry.2.terminalInput →
        ∃ quote, LadderSchema.interpolateQuote entry.1.levels x = some quote ∧
          RelayWsContract.interpolateQuote entry.1.levels x = some quote ∧
          IsGreatest {out | ∃ makers, Fills (retainedOffers offers options)
            derived.limits.maxMakersPerCombination (options.minimum entry.1.tokenOut)
            entry.1.tokenIn entry.1.tokenOut x makers ∧ setNet makers entry.1.tokenOut = out}
            quote ∧
          (∃ combination, LastCombination entry.2.combinations x combination) ∧
          ∀ combination, LastCombination entry.2.combinations x combination →
            bigInt combination.output = quote ∧
            ∃ makers, Records entry.1.tokenIn entry.1.tokenOut combination makers ∧
              Fills (retainedOffers offers options) derived.limits.maxMakersPerCombination
                (options.minimum entry.1.tokenOut) entry.1.tokenIn entry.1.tokenOut x makers ∧
              ∀ other, Fills (retainedOffers offers options)
                derived.limits.maxMakersPerCombination (options.minimum entry.1.tokenOut)
                entry.1.tokenIn entry.1.tokenOut x other →
                  Preferred entry.1.tokenIn entry.1.tokenOut makers other := by
  obtain ⟨published, hpublished⟩ := deriveLadder_published hderived
  have hsorted := retainedOffers_sorted offers options
  rw [hpublished.levels, hpublished.provenance]
  refine ⟨by rw [List.length_map, List.length_map], fun entry hentry => ?_⟩
  rw [List.zip_map', List.mem_map] at hentry
  obtain ⟨publication, hmem, rfl⟩ := hentry
  obtain ⟨steps, final, terminal, hprices⟩ := hpublished.holds.priced publication hmem
  refine ⟨hprices.tokenIn, hprices.tokenOut, fun first hfirst x hlow hhigh => ?_⟩
  obtain ⟨step, makers, hstep, hmakers, hquote, hrelay, hgreatest⟩ :=
    hprices.quote hsorted hfirst hlow hhigh
  refine ⟨step.output, hquote, hrelay, hgreatest, hprices.last_combination hstep,
    fun combination hlast => ?_⟩
  obtain ⟨found, hfound, hof⟩ := hprices.last_step hlast
  obtain rfl := hfound.unique hprices.climbs hstep
  obtain ⟨hinput, houtput, hhashes⟩ := combinationOf_ok hof
  refine ⟨by rw [houtput, bigInt_decimal], makers.toFinset, ⟨?_, ?_, ?_⟩,
    hmakers.fills hsorted hstep.input_le, fun other hother => ?_⟩
  · rw [hinput, (hmakers.setNet_eq hsorted).1]
  · rw [houtput, (hmakers.setNet_eq hsorted).2]
  · rw [hhashes, hmakers.setHashes_eq hsorted]
  · refine hprices.preferred hsorted ?_ hstep hmakers hother
    rwa [hprices.terminalInput, bigInt_decimal] at hhigh

/-! ## A book of two offers -/

/-- The one published pair of a derivation, from its evaluation. -/
theorem published_of_pairs {comparisons : List CombinationState → Nat}
    {sources : List LadderSourceOffer} {options : DeriveLadderOptions} {pair : PriceLevelsPair}
    {terminal : String}
    (h : ((deriveLadder comparisons sources options).toOption.map fun derived =>
      (derived.levels.zip derived.provenance).map fun entry => (entry.1, entry.2.terminalInput)) =
        some [(pair, terminal)]) :
    ∃ derived provenance, deriveLadder comparisons sources options = .ok derived ∧
      (pair, provenance) ∈ derived.levels.zip derived.provenance ∧
        provenance.terminalInput = terminal := by
  cases hderived : deriveLadder comparisons sources options with
  | error message =>
    rw [hderived] at h
    cases h
  | ok derived =>
    rw [hderived] at h
    have hzip : ((derived.levels.zip derived.provenance).map fun entry =>
        (entry.1, entry.2.terminalInput)) = [(pair, terminal)] := Option.some.inj h
    obtain ⟨⟨found, provenance⟩, hmem, hentry⟩ : ∃ entry ∈ derived.levels.zip derived.provenance,
        (entry.1, entry.2.terminalInput) = (pair, terminal) := by
      refine List.mem_map.mp ?_
      rw [hzip]
      exact List.mem_cons_self
    obtain ⟨rfl, hterminal⟩ := Prod.mk.inj hentry
    exact ⟨derived, provenance, rfl, hmem, hterminal⟩

namespace TwoOffers

def tokenA : String := "0000000000000000000000000000000000000000000000000000000000000001"
def tokenB : String := "0000000000000000000000000000000000000000000000000000000000000002"

/-- A maker that takes one `A` for `amountOut` of `B`. -/
def maker (offerHash nullifier : String) (amountOut : Int) : LadderSourceOffer :=
  ⟨offerHash, [⟨tokenB, amountOut, .shielded⟩], [⟨tokenA, 1, .shielded⟩], some 1700003600000,
    [nullifier]⟩

def book : List LadderSourceOffer := [
  maker "0000000000000000000000000000000000000000000000000000000000002725"
    "00000000000000000000000000000000000000000000000000000000000f4255" 1,
  maker "0000000000000000000000000000000000000000000000000000000000002726"
    "00000000000000000000000000000000000000000000000000000000000f4256" 2]

def options : DeriveLadderOptions where
  nowMs := 1700000000000
  expiryMarginSeconds := 60
  shouldAbort := some fun _ => .ok false

/-- The published pair: the better maker at 1, both from 2 on. -/
def pair : PriceLevelsPair := ⟨tokenA, tokenB, [⟨"1", "2"⟩, ⟨"2", "3"⟩, ⟨"20", "3"⟩]⟩

theorem derived_pairs : ((deriveLadder (fun _ => 0) book options).toOption.map fun derived =>
    (derived.levels.zip derived.provenance).map fun entry => (entry.1, entry.2.terminalInput)) =
      some [(pair, "20")] := by
  decide +kernel

/-- The derivation and its one entry. -/
theorem derived_entry : ∃ derived provenance, deriveLadder (fun _ => 0) book options = .ok derived ∧
    (pair, provenance) ∈ derived.levels.zip derived.provenance ∧
      provenance.terminalInput = "20" :=
  published_of_pairs derived_pairs

end TwoOffers

open TwoOffers in
/-- Of the two offers no set pays more than 3 `B` for 7 `A`. -/
theorem published_staircase_exact_two_offers : ∃ maxMakers,
    IsGreatest {out | ∃ makers, Fills (retainedOffers book options) maxMakers
      (options.minimum tokenB) tokenA tokenB 7 makers ∧ setNet makers tokenB = out} 3 := by
  obtain ⟨derived, provenance, hderived, hmem, hterminal⟩ := derived_entry
  obtain ⟨-, -, hquote⟩ := (published_staircase_exact hderived).2 _ hmem
  have hhigh : 7 ≤ bigInt provenance.terminalInput := by
    rw [hterminal]
    decide
  obtain ⟨quote, hschema, -, hgreatest, -⟩ := hquote ⟨"1", "2"⟩ rfl 7 (by decide) hhigh
  have hthree : LadderSchema.interpolateQuote pair.levels 7 = some 3 := by decide
  obtain rfl : quote = 3 := Option.some.inj (hschema.symm.trans hthree)
  exact ⟨derived.limits.maxMakersPerCombination, hgreatest⟩

end ZswapKernel
