import ZswapKernel.SolverCore.Frontier
import ZswapKernel.SolverCore.PairWitness

/-!
# The staircase of a frontier

The frontier keeps the witnesses that improve the output, by ascending input; a prefix of it is
encoded as a ladder whose interpolation is constant between two thresholds.

* `Climbs`, `improving_climbs`, `improving_dominates` — inputs and outputs ascend along the
  frontier, and every witness is matched by a frontier step with no more input and no less output.
* `interpolateRungs_staircase` — the ladder of the steps quotes the output of the last step within
  the amount.
* `encodePrefix_ok`, `longestEncodableFrontier_best` — what an encoding consists of.
-/

namespace ZswapKernel

open Program

/-! ## The improving states -/

/-- The scan of `bestOutputFrontier` without its polls. -/
def improving : Int → List CombinationState → List CombinationState
  | _, [] => []
  | bestOutput, candidate :: ordered =>
    if candidate.output ≤ bestOutput then improving bestOutput ordered
    else candidate :: improving candidate.output ordered

theorem improvingStates_returns (budget : Budget) (index : Nat) (bestOutput : Int)
    (ordered : List CombinationState) :
    Returns (improvingStates budget index bestOutput ordered)
      (· = improving bestOutput ordered) := by
  induction ordered generalizing index bestOutput with
  | nil => exact Returns.pure rfl
  | cons candidate ordered ih =>
    unfold improvingStates improving
    refine Returns.bind (Returns.trivial _) fun _ _ => ?_
    by_cases hle : candidate.output ≤ bestOutput
    · rw [if_pos hle, if_pos hle]
      exact ih (index + 1) bestOutput
    · rw [if_neg hle, if_neg hle]
      refine Returns.bind (ih (index + 1) candidate.output) fun rest hrest => ?_
      exact Returns.pure (by rw [hrest])

/-- A frontier computed to its end is the list of improving states. -/
theorem bestOutputFrontier_returns (budget : Budget) (comparisons : List CombinationState → Nat)
    (exact : List CombinationState) :
    Returns (bestOutputFrontier budget comparisons exact)
      (· = improving 0 (exact.insertionSort byInput)) :=
  Returns.bind (Returns.trivial _) fun _ _ => improvingStates_returns budget 0 0 _

/-- Inputs and outputs both ascend. -/
def Climbs (steps : List CombinationState) : Prop :=
  steps.Pairwise fun low high => low.input < high.input ∧ low.output < high.output

theorem improving_sublist (bestOutput : Int) (ordered : List CombinationState) :
    (improving bestOutput ordered).Sublist ordered := by
  induction ordered generalizing bestOutput with
  | nil => exact List.Sublist.refl []
  | cons candidate ordered ih =>
    unfold improving
    split
    · exact (ih bestOutput).cons candidate
    · exact (ih candidate.output).cons_cons candidate

theorem improving_above (bestOutput : Int) (ordered : List CombinationState) :
    ∀ step ∈ improving bestOutput ordered, bestOutput < step.output := by
  induction ordered generalizing bestOutput with
  | nil => exact fun _ h => absurd h List.not_mem_nil
  | cons candidate ordered ih =>
    intro step hstep
    unfold improving at hstep
    split at hstep
    · exact ih bestOutput step hstep
    · rename_i hgt
      rcases List.mem_cons.mp hstep with rfl | hmem
      · exact not_le.mp hgt
      · exact (not_le.mp hgt).trans (ih candidate.output step hmem)

theorem improving_climbs {ordered : List CombinationState}
    (hsorted : ordered.Pairwise fun low high => low.input < high.input) (bestOutput : Int) :
    Climbs (improving bestOutput ordered) := by
  induction ordered generalizing bestOutput with
  | nil => exact List.Pairwise.nil
  | cons candidate ordered ih =>
    obtain ⟨hhead, htail⟩ := List.pairwise_cons.mp hsorted
    unfold improving
    split
    · exact ih htail bestOutput
    · refine List.pairwise_cons.mpr ⟨fun step hstep => ⟨?_, ?_⟩, ih htail candidate.output⟩
      · exact hhead step ((improving_sublist _ _).subset hstep)
      · exact improving_above _ _ step hstep

/-- Every state that beats the bound is matched by a step with no more input and no less output. -/
theorem improving_dominates {ordered : List CombinationState}
    (hsorted : ordered.Pairwise fun low high => low.input < high.input) {bestOutput : Int} :
    ∀ state ∈ ordered, bestOutput < state.output → ∃ step ∈ improving bestOutput ordered,
      step.input ≤ state.input ∧ state.output ≤ step.output := by
  induction ordered generalizing bestOutput with
  | nil => exact fun _ h => absurd h List.not_mem_nil
  | cons candidate ordered ih =>
    obtain ⟨hhead, htail⟩ := List.pairwise_cons.mp hsorted
    intro state hstate hbest
    unfold improving
    by_cases hle : candidate.output ≤ bestOutput
    · rw [if_pos hle]
      rcases List.mem_cons.mp hstate with rfl | hmem
      · omega
      · exact ih htail state hmem hbest
    · rw [if_neg hle]
      rcases List.mem_cons.mp hstate with rfl | hmem
      · exact ⟨state, List.mem_cons_self, le_rfl, le_rfl⟩
      · by_cases hmore : candidate.output < state.output
        · obtain ⟨step, hstep, hdom⟩ := ih htail state hmem hmore
          exact ⟨step, List.mem_cons_of_mem _ hstep, hdom⟩
        · exact ⟨candidate, List.mem_cons_self, (hhead state hmem).le, not_lt.mp hmore⟩

/-! ## The sorted witnesses -/

theorem hashesLE_total (left right : List String) :
    hashesLE left right = true ∨ hashesLE right left = true := by
  induction left generalizing right with
  | nil => exact Or.inl (by simp [hashesLE])
  | cons a left ih =>
    cases right with
    | nil => exact Or.inr (by simp [hashesLE])
    | cons b right =>
      rcases lt_trichotomy a b with hlt | rfl | hgt
      · exact Or.inl (by simp [hashesLE, hlt])
      · rcases ih right with h | h
        · exact Or.inl (by simp [hashesLE, h])
        · exact Or.inr (by simp [hashesLE, h])
      · exact Or.inr (by simp [hashesLE, hgt])

theorem hashesLE_trans {left middle right : List String} (h : hashesLE left middle = true)
    (h' : hashesLE middle right = true) : hashesLE left right = true := by
  induction left generalizing middle right with
  | nil => simp [hashesLE]
  | cons a left ih =>
    cases middle with
    | nil => simp [hashesLE] at h
    | cons b middle =>
      cases right with
      | nil => simp [hashesLE] at h'
      | cons c right =>
        unfold hashesLE at h h' ⊢
        rcases lt_trichotomy a b with hab | rfl | hab
        · rcases lt_trichotomy b c with hbc | rfl | hbc
          · rw [if_pos (hab.trans hbc)]
          · rw [if_pos hab]
          · rw [if_neg hbc.not_gt, if_pos hbc] at h'
            cases h'
        · rcases lt_trichotomy a c with hbc | rfl | hbc
          · rw [if_pos hbc]
          · rw [if_neg (lt_irrefl a), if_neg (lt_irrefl a)] at *
            exact ih h h'
          · rw [if_neg hbc.not_gt, if_pos hbc] at h'
            cases h'
        · rw [if_neg hab.not_gt, if_pos hab] at h
          cases h

instance : Std.Total byInput := ⟨fun left right => by
  rcases lt_trichotomy left.input right.input with hlt | heq | hgt
  · exact Or.inl (Or.inl hlt)
  · rcases hashesLE_total left.offerHashes right.offerHashes with h | h
    · exact Or.inl (Or.inr ⟨heq, h⟩)
    · exact Or.inr (Or.inr ⟨heq.symm, h⟩)
  · exact Or.inr (Or.inl hgt)⟩

instance : IsTrans CombinationState byInput := ⟨fun a b c hab hbc => by
  rcases hab with hab | ⟨hab, hhash⟩
  · rcases hbc with hbc | ⟨hbc, -⟩
    · exact Or.inl (hab.trans hbc)
    · exact Or.inl (hbc ▸ hab)
  · rcases hbc with hbc | ⟨hbc, hhash'⟩
    · exact Or.inl (hab ▸ hbc)
    · exact Or.inr ⟨hab.trans hbc, hashesLE_trans hhash hhash'⟩⟩

/-- Witnesses at distinct inputs are sorted by input. -/
theorem sorted_byInput {exact : List CombinationState}
    (hdistinct : exact.Pairwise fun left right => left.input ≠ right.input) :
    (exact.insertionSort byInput).Pairwise fun low high => low.input < high.input := by
  have hsorted := List.pairwise_insertionSort byInput exact
  have hne : (exact.insertionSort byInput).Pairwise fun left right => left.input ≠ right.input :=
    List.Pairwise.perm hdistinct (List.perm_insertionSort byInput exact).symm Ne.symm
  refine (hsorted.and hne).imp fun hab => ?_
  rcases hab.1 with hlt | ⟨heq, -⟩
  · exact hlt
  · exact absurd heq hab.2

/-! ## Interpolation -/

open LadderSchema in
/-- One pass of the interpolation loop, on levels with known amounts. -/
theorem interpolateRungs_cons (x a b c d : Int) (rungs : List PriceLevel) :
    interpolateRungs x (priceLevel a b :: priceLevel c d :: rungs) =
      if x > c then interpolateRungs x (priceLevel c d :: rungs)
      else if c ≤ a then some b else some (b + ((d - b) * (x - a)).tdiv (c - a)) := by
  simp [interpolateRungs, priceLevel]

theorem thresholdLevels_cons (step : CombinationState) (steps : List CombinationState) :
    ∃ levels, thresholdLevels (step :: steps) = priceLevel step.input step.output :: levels := by
  cases steps with
  | nil => exact ⟨[], rfl⟩
  | cons next steps => exact ⟨_, rfl⟩

/-- The last step within `x`. -/
structure LastWithin (steps : List CombinationState) (x : Int) (step : CombinationState) : Prop where
  mem : step ∈ steps
  input_le : step.input ≤ x
  last : ∀ other ∈ steps, other.input ≤ x → other.input ≤ step.input

theorem LastWithin.cons {steps : List CombinationState} {x : Int} {step head : CombinationState}
    (h : LastWithin steps x step) (hhead : head.input ≤ step.input) :
    LastWithin (head :: steps) x step where
  mem := List.mem_cons_of_mem _ h.mem
  input_le := h.input_le
  last := fun other hother hle => by
    rcases List.mem_cons.mp hother with rfl | hmem
    · exact hhead
    · exact h.last other hmem hle

theorem LastWithin.head {steps : List CombinationState} {x : Int} {head : CombinationState}
    (hle : head.input ≤ x) (habove : ∀ step ∈ steps, x < step.input) :
    LastWithin (head :: steps) x head where
  mem := List.mem_cons_self
  input_le := hle
  last := fun other hother hother' => by
    rcases List.mem_cons.mp hother with rfl | hmem
    · exact le_rfl
    · exact absurd (habove other hmem) (not_lt.mpr hother')

/-- The ladder of `steps` up to `terminal`. -/
def ladderOf (steps : List CombinationState) (terminal : Int) (final : CombinationState) :
    List PriceLevel :=
  thresholdLevels steps ++ [priceLevel terminal final.output]

theorem ladderOf_cons_cons (step next : CombinationState) (steps : List CombinationState)
    (terminal : Int) (final : CombinationState) :
    ladderOf (step :: next :: steps) terminal final = priceLevel step.input step.output ::
      (if next.input - 1 > step.input then
        priceLevel (next.input - 1) step.output :: ladderOf (next :: steps) terminal final
      else ladderOf (next :: steps) terminal final) := by
  unfold ladderOf
  rw [thresholdLevels]
  split <;> rfl

theorem ladderOf_cons (step : CombinationState) (steps : List CombinationState) (terminal : Int)
    (final : CombinationState) : ∃ levels,
      ladderOf (step :: steps) terminal final = priceLevel step.input step.output :: levels := by
  obtain ⟨levels, hlevels⟩ := thresholdLevels_cons step steps
  exact ⟨levels ++ [priceLevel terminal final.output], by rw [ladderOf, hlevels]; rfl⟩

open LadderSchema in
/-- **The ladder is a staircase**: at `x` it quotes the output of the last step within `x`. -/
theorem interpolateRungs_staircase {final : CombinationState} {terminal x : Int}
    (hterminal : final.input < terminal) (hx : x ≤ terminal) :
    ∀ {steps : List CombinationState} {head : CombinationState}, steps.head? = some head →
      steps.getLast? = some final → Climbs steps → head.input ≤ x →
      ∃ step, LastWithin steps x step ∧
        interpolateRungs x (ladderOf steps terminal final) = some step.output := by
  intro steps
  induction steps with
  | nil => exact fun h => absurd h (by simp)
  | cons step steps ih =>
    intro head hhead hlast hclimbs hle
    obtain rfl : step = head := Option.some.inj hhead
    obtain ⟨habove, hrest⟩ := List.pairwise_cons.mp hclimbs
    cases steps with
    | nil =>
      obtain rfl : step = final := by simpa using hlast
      refine ⟨step, LastWithin.head hle (by simp), ?_⟩
      show interpolateRungs x
        (priceLevel step.input step.output :: priceLevel terminal step.output :: []) = _
      rw [interpolateRungs_cons, if_neg (not_lt.mpr hx), if_neg (by omega)]
      simp
    | cons next steps =>
      have hnext := (habove next List.mem_cons_self).1
      have hfar : ∀ other ∈ next :: steps, next.input ≤ other.input := by
        intro other hother
        rcases List.mem_cons.mp hother with rfl | hmem
        · exact le_rfl
        · exact ((List.pairwise_cons.mp hrest).1 other hmem).1.le
      obtain ⟨levels, hlevels⟩ := ladderOf_cons next steps terminal final
      rw [ladderOf_cons_cons]
      rcases lt_trichotomy x next.input with hbefore | hat | hafter
      · -- on the plateau of `step`
        refine ⟨step, LastWithin.head hle fun other hother => hbefore.trans_le (hfar other hother),
          ?_⟩
        by_cases hwide : next.input - 1 > step.input
        · rw [if_pos hwide, interpolateRungs_cons, if_neg (by omega), if_neg (by omega)]
          simp
        · have hx' : x = step.input := by omega
          rw [if_neg hwide, hlevels, interpolateRungs_cons, if_neg (by omega), if_neg (by omega),
            hx']
          simp
      · -- at the threshold of `next`
        have hwithin : LastWithin (next :: steps) x next := LastWithin.head hat.ge fun other hother =>
          hat.trans_lt ((List.pairwise_cons.mp hrest).1 other hother).1
        refine ⟨next, hwithin.cons hnext.le, ?_⟩
        by_cases hwide : next.input - 1 > step.input
        · rw [if_pos hwide, interpolateRungs_cons, if_pos (by omega), hlevels,
            interpolateRungs_cons, if_neg (by omega), if_neg (by omega), hat]
          have hone : next.input - (next.input - 1) = 1 := by omega
          rw [hone, Int.tdiv_one, mul_one]
          congr 1
          omega
        · have hone : next.input - step.input = 1 := by omega
          rw [if_neg hwide, hlevels, interpolateRungs_cons, if_neg (by omega), if_neg (by omega),
            hat, hone, Int.tdiv_one, mul_one]
          congr 1
          omega
      · -- past the threshold of `next`
        obtain ⟨found, hfound, hquote⟩ := ih rfl (by simpa using hlast) hrest hafter.le
        refine ⟨found, hfound.cons (hnext.le.trans (hfar found hfound.mem)), ?_⟩
        rw [← hquote]
        by_cases hwide : next.input - 1 > step.input
        · rw [if_pos hwide, interpolateRungs_cons, if_pos (by omega), hlevels,
            interpolateRungs_cons, if_pos hafter]
        · rw [if_neg hwide, hlevels, interpolateRungs_cons, if_pos hafter]

theorem head?_ladderOf {steps : List CombinationState} {head final : CombinationState}
    (h : steps.head? = some head) (terminal : Int) :
    (ladderOf steps terminal final).head? = some (priceLevel head.input head.output) := by
  cases steps with
  | nil => cases h
  | cons step steps =>
    obtain rfl : step = head := Option.some.inj h
    obtain ⟨levels, hlevels⟩ := ladderOf_cons step steps terminal final
    rw [hlevels]
    rfl

theorem getLast?_ladderOf (steps : List CombinationState) (terminal : Int)
    (final : CombinationState) :
    (ladderOf steps terminal final).getLast? = some (priceLevel terminal final.output) := by
  unfold ladderOf
  rw [List.getLast?_append]
  rfl

/-- The quote of a ladder inside its range, by the schema's function and by the relay's. -/
theorem interpolateQuote_ladderOf {steps : List CombinationState} {head final : CombinationState}
    {terminal x : Int} (hhead : steps.head? = some head) (hlast : steps.getLast? = some final)
    (hclimbs : Climbs steps) (hterminal : final.input < terminal) (hlow : head.input ≤ x)
    (hhigh : x ≤ terminal) : ∃ step, LastWithin steps x step ∧
      LadderSchema.interpolateQuote (ladderOf steps terminal final) x = some step.output ∧
      RelayWsContract.interpolateQuote (ladderOf steps terminal final) x = some step.output := by
  obtain ⟨step, hstep, hquote⟩ :=
    interpolateRungs_staircase hterminal hhigh hhead hlast hclimbs hlow
  refine ⟨step, hstep, ?_, ?_⟩
  · unfold LadderSchema.interpolateQuote
    rw [head?_ladderOf hhead, getLast?_ladderOf]
    simp only [priceLevel, bigInt_decimal]
    rw [if_neg (not_lt.mpr hlow), if_neg (not_lt.mpr hhigh)]
    exact hquote
  · unfold RelayWsContract.interpolateQuote
    rw [head?_ladderOf hhead, getLast?_ladderOf]
    simp only [priceLevel, bigInt_decimal]
    rw [if_neg (not_lt.mpr hlow), if_neg (not_lt.mpr hhigh)]
    exact hquote

/-! ## Encoding -/

/-- The terminal of an encoding stays below the first omitted improvement and settles. -/
theorem terminalOf_le (final : CombinationState) (nextOmitted : Option CombinationState) :
    (terminalOf final nextOmitted).1 ≤ maxSettlementAmount ∧
      ∀ next, nextOmitted = some next → (terminalOf final nextOmitted).1 < next.input := by
  unfold terminalOf
  by_cases hcap : final.input * 10 > maxSettlementAmount
  · simp only [if_pos hcap]
    cases nextOmitted with
    | none => exact ⟨le_rfl, fun _ h => by cases h⟩
    | some next =>
      simp only
      split
      · refine ⟨by simp only; omega, fun _ h => ?_⟩
        cases h
        simp only
        omega
      · refine ⟨le_rfl, fun _ h => ?_⟩
        cases h
        simp only
        omega
  · simp only [if_neg hcap]
    cases nextOmitted with
    | none => exact ⟨not_lt.mp hcap, fun _ h => by cases h⟩
    | some next =>
      simp only
      split
      · refine ⟨by simp only; omega, fun _ h => ?_⟩
        cases h
        simp only
        omega
      · refine ⟨not_lt.mp hcap, fun _ h => ?_⟩
        cases h
        simp only
        omega

/-- An encoded prefix: the ladder of its steps up to a terminal below the next omitted step, with
the combination of each step. -/
structure EncodesPrefix (frontier : List CombinationState) (retainedCount maxWirePoints : Nat)
    (tokenIn tokenOut : String) (encoded : EncodedFrontier) : Prop where
  final : ∃ final, (frontier.take retainedCount).getLast? = some final ∧
    final.input < encoded.terminalInput ∧
    encoded.levels = ladderOf (frontier.take retainedCount) encoded.terminalInput final ∧
    encoded.nominalTerminalInput = final.input * 10
  settles : encoded.terminalInput ≤ maxSettlementAmount
  omitted : ∀ next, frontier[retainedCount]? = some next → encoded.terminalInput < next.input
  fits : encoded.levels.length ≤ maxWirePoints
  combinations : (frontier.take retainedCount).mapM (combinationOf tokenIn tokenOut) =
    .ok encoded.combinations

theorem failureReasons_eq_nil {points maxWirePoints : Nat} {terminalInput : Int}
    {final : CombinationState} : failureReasons points maxWirePoints terminalInput final = [] ↔
      points ≤ maxWirePoints ∧ final.input < terminalInput := by
  unfold failureReasons
  rw [List.append_eq_nil_iff]
  refine and_congr ?_ ?_
  · split <;> simp <;> omega
  · split <;> simp <;> omega

theorem encodePrefix_ok {frontier : List CombinationState} {retainedCount maxWirePoints : Nat}
    {tokenIn tokenOut : String} {encoded : EncodedFrontier}
    (h : encodePrefix frontier retainedCount maxWirePoints tokenIn tokenOut = .ok (.ok encoded)) :
    EncodesPrefix frontier retainedCount maxWirePoints tokenIn tokenOut encoded := by
  unfold encodePrefix at h
  simp only at h
  split at h
  · cases h
  rename_i final hfinal
  obtain ⟨hsettles, homitted⟩ := terminalOf_le final frontier[retainedCount]?
  split at h
  · cases h
  rename_i hreasons
  obtain ⟨hfits, hgt⟩ := failureReasons_eq_nil.mp (not_not.mp hreasons)
  cases hmap : (frontier.take retainedCount).mapM (combinationOf tokenIn tokenOut) with
  | error message =>
    rw [hmap] at h
    cases h
  | ok combinations =>
    rw [hmap] at h
    cases h
    exact ⟨⟨final, hfinal, hgt, rfl, rfl⟩, hsettles, homitted, hfits, hmap⟩

/-- An encoding found on the way is the encoding of some nonempty prefix. -/
def ScanHolds (frontier : List CombinationState) (maxWirePoints : Nat) (tokenIn tokenOut : String)
    (best : Option EncodedFrontier) : Prop :=
  ∀ encoded, best = some encoded → ∃ retainedCount,
    EncodesPrefix frontier retainedCount maxWirePoints tokenIn tokenOut encoded

theorem tryPrefix_holds {frontier : List CombinationState} {maxWirePoints : Nat}
    {tokenIn tokenOut : String} {scan scan' : PrefixScan} {retained : Nat}
    (h : tryPrefix frontier maxWirePoints tokenIn tokenOut scan retained = .ok scan')
    (hscan : ScanHolds frontier maxWirePoints tokenIn tokenOut scan.best) :
    ScanHolds frontier maxWirePoints tokenIn tokenOut scan'.best := by
  unfold tryPrefix at h
  cases hencode : encodePrefix frontier retained maxWirePoints tokenIn tokenOut with
  | error message =>
    rw [hencode] at h
    cases h
  | ok result =>
    rw [hencode] at h
    cases result with
    | error reasons =>
      cases h
      exact hscan
    | ok encoded =>
      cases h
      intro encoded' h'
      cases h'
      exact ⟨retained, encodePrefix_ok hencode⟩

theorem foldlM_tryPrefix_holds {frontier : List CombinationState} {maxWirePoints : Nat}
    {tokenIn tokenOut : String} {counts : List Nat} {scan scan' : PrefixScan}
    (h : counts.foldlM (tryPrefix frontier maxWirePoints tokenIn tokenOut) scan = .ok scan')
    (hscan : ScanHolds frontier maxWirePoints tokenIn tokenOut scan.best) :
    ScanHolds frontier maxWirePoints tokenIn tokenOut scan'.best := by
  induction counts generalizing scan with
  | nil =>
    cases h
    exact hscan
  | cons count counts ih =>
    rw [List.foldlM_cons] at h
    cases hstep : tryPrefix frontier maxWirePoints tokenIn tokenOut scan count with
    | error message =>
      rw [hstep] at h
      cases h
    | ok middle =>
      rw [hstep] at h
      exact ih h (tryPrefix_holds hstep hscan)

/-- **The published encoding** is the encoding of a prefix, with more cap reasons. -/
theorem longestEncodableFrontier_best {frontier : List CombinationState} {maxWirePoints : Nat}
    {tokenIn tokenOut : String} {encoded : EncodedFrontier}
    {truncationReasons : List LadderTerminalCapReason}
    (h : longestEncodableFrontier frontier maxWirePoints tokenIn tokenOut =
      .ok ⟨some encoded, truncationReasons⟩) :
    ∃ retainedCount, EncodesPrefix frontier retainedCount maxWirePoints tokenIn tokenOut encoded := by
  unfold longestEncodableFrontier at h
  simp only at h
  cases hfold : (List.range' 1 (min frontier.length (maxWirePoints - 1))).foldlM
    (tryPrefix frontier maxWirePoints tokenIn tokenOut) ⟨none, []⟩ with
  | error message =>
    rw [hfold] at h
    cases h
  | ok scan =>
    have hscan := foldlM_tryPrefix_holds hfold (fun _ h => by cases h)
    rw [hfold] at h
    simp only [bind, Except.bind, pure, Except.pure, Except.ok.injEq, PrefixScan.mk.injEq,
      Option.map_eq_some_iff] at h
    obtain ⟨⟨best, hbest, rfl⟩, -⟩ := h
    obtain ⟨retainedCount, hpre⟩ := hscan best hbest
    exact ⟨retainedCount, hpre.final, hpre.settles, hpre.omitted, hpre.fits,
      hpre.combinations⟩

end ZswapKernel
