import ZswapKernel.SolverCore.LadderPublished

/-!
# A derived pair is a valid frame

The staircase of a frontier passes both validators before they are asked: its amounts are written
in plain decimal, its inputs ascend and its outputs never decrease, and the limit on wire points is
at most the schema's. A prefix that leaves part of the frontier out says which cap stopped it.

* `decimal_accepted`, `decimal_relayed` — the text of an amount passes both grammars.
* `WireLadder` — levels that both validators accept; `ladderOf_wire` — the staircase is one.
* `longestEncodableFrontier_truncated` — a frontier that is not wholly encoded has a reason.
-/

namespace ZswapKernel

open Program

/-! ## Decimal text -/

theorem isDecimalDigit_digitChar {digit : Nat} (h : digit < 10) :
    isDecimalDigit digit.digitChar = true := by
  revert digit
  decide

theorem isDecimalDigit_of_mem_toDigits {n : Nat} {c : Char} (hc : c ∈ Nat.toDigits 10 n) :
    isDecimalDigit c = true := by
  induction n using Nat.strong_induction_on with
  | _ n ih =>
    rw [Nat.toDigits_eq_if (by omega)] at hc
    split at hc
    · rw [List.mem_singleton.mp hc]
      exact isDecimalDigit_digitChar ‹_›
    · rcases List.mem_append.mp hc with hmem | hmem
      · exact ih (n / 10) (by omega) hmem
      · rw [List.mem_singleton.mp hmem]
        exact isDecimalDigit_digitChar (by omega)

theorem one_le_digitChar : ∀ digit < 10, 0 < digit →
    '1' ≤ digit.digitChar ∧ digit.digitChar ≤ '9' := by
  decide

/-- The first digit of a positive number is not zero. -/
theorem toDigits_head {n : Nat} (hpos : 0 < n) :
    ∃ first rest, Nat.toDigits 10 n = first :: rest ∧ '1' ≤ first ∧ first ≤ '9' := by
  induction n using Nat.strong_induction_on with
  | _ n ih =>
    rw [Nat.toDigits_eq_if (by omega)]
    split
    · exact ⟨_, [], rfl, one_le_digitChar n ‹_› hpos⟩
    · obtain ⟨first, rest, hdigits, hfirst⟩ := ih (n / 10) (by omega) (by omega)
      exact ⟨first, rest ++ [(n % 10).digitChar], by rw [hdigits, List.cons_append], hfirst⟩

theorem toList_decimal {amount : Int} (h : 0 ≤ amount) :
    (decimal amount).toList = Nat.toDigits 10 amount.toNat := by
  obtain ⟨n, rfl⟩ := Int.eq_ofNat_of_zero_le h
  exact Nat.toList_repr

/-- The relay's grammar takes every natural number. -/
theorem decimal_relayed {amount : Int} (h : 0 ≤ amount) :
    RelayWsContract.isAmountString (decimal amount) = true := by
  unfold RelayWsContract.isAmountString
  rw [toList_decimal h, Bool.and_eq_true, Bool.not_eq_true', List.isEmpty_eq_false_iff,
    List.all_eq_true]
  exact ⟨Nat.toDigits_ne_nil, fun c hc => isDecimalDigit_of_mem_toDigits hc⟩

/-- The schema's grammar takes the positive amounts below its bound. -/
theorem decimal_accepted {amount : Int} (hpos : 0 < amount) (hle : amount ≤ maxSettlementAmount) :
    LadderSchema.isAmountString (decimal amount) = true := by
  obtain ⟨first, rest, hdigits, hlow, hhigh⟩ := toDigits_head (n := amount.toNat) (by omega)
  have hall : ∀ c ∈ rest, isDecimalDigit c = true := fun c hc =>
    isDecimalDigit_of_mem_toDigits (by rw [hdigits]; exact List.mem_cons_of_mem _ hc)
  have hlength : rest.length ≤ 77 := by
    have hcount : (Nat.toDigits 10 amount.toNat).length ≤ 78 := by
      rw [Nat.length_toDigits_le_iff (by decide) (by decide)]
      unfold maxSettlementAmount at hle
      omega
    rw [hdigits, List.length_cons] at hcount
    omega
  have hbound : amount ≤ LadderSchema.maxU256 := by
    unfold maxSettlementAmount at hle
    unfold LadderSchema.maxU256
    omega
  unfold LadderSchema.isAmountString
  rw [bigInt_decimal, toList_decimal hpos.le, hdigits]
  split
  · rename_i hnil
    cases hnil
  · rename_i hzero
    cases hzero
    exact absurd hlow (by decide)
  · rename_i first' rest' _ heq
    obtain ⟨rfl, rfl⟩ := List.cons.inj heq
    simp [hlow, hhigh, hlength, hbound, List.all_eq_true.mpr hall]

/-! ## Levels that both validators accept -/

/-- An amount that is positive and settles. -/
def Settles (amount : Int) : Prop := 0 < amount ∧ amount ≤ maxSettlementAmount

/-- `level` writes two amounts that settle. -/
structure PriceLevel.Written (level : PriceLevel) : Prop where
  eq : level = priceLevel (bigInt level.input) (bigInt level.output)
  input : Settles (bigInt level.input)
  output : Settles (bigInt level.output)

/-- Inputs ascend strictly, outputs weakly. -/
def PriceLevel.Below (low high : PriceLevel) : Prop :=
  bigInt low.input < bigInt high.input ∧ bigInt low.output ≤ bigInt high.output

/-- Levels of a frame: written amounts, in order, as many as a pair may have. -/
structure WireLadder (levels : List PriceLevel) : Prop where
  nonempty : levels ≠ []
  fits : levels.length ≤ maxRungsPerPair
  written : ∀ level ∈ levels, level.Written
  ascends : levels.Pairwise PriceLevel.Below

theorem written_priceLevel {input output : Int} (hin : Settles input) (hout : Settles output) :
    (priceLevel input output).Written := by
  have hinput : bigInt (priceLevel input output).input = input := bigInt_decimal input
  have houtput : bigInt (priceLevel input output).output = output := bigInt_decimal output
  exact ⟨by rw [hinput, houtput], by rwa [hinput], by rwa [houtput]⟩

theorem PriceLevel.Written.accepted {level : PriceLevel} (h : level.Written) :
    LadderSchema.isAmountString level.input = true ∧
      LadderSchema.isAmountString level.output = true := by
  rw [h.eq]
  exact ⟨decimal_accepted h.input.1 h.input.2, decimal_accepted h.output.1 h.output.2⟩

theorem PriceLevel.Written.relayed {level : PriceLevel} (h : level.Written) :
    RelayWsContract.isAmountString level.input = true ∧
      RelayWsContract.isAmountString level.output = true := by
  rw [h.eq]
  exact ⟨decimal_relayed h.input.1.le, decimal_relayed h.output.1.le⟩

theorem rejectRung_eq_none {previous : Option PriceLevel} {level : PriceLevel}
    (h : level.Written) (hbelow : ∀ low, previous = some low → low.Below level) :
    LadderSchema.rejectRung previous level = none := by
  unfold LadderSchema.rejectRung
  rw [h.accepted.1, h.accepted.2]
  simp only [Bool.not_true, Bool.or_self, Bool.false_eq_true, if_false]
  rw [if_neg (not_or.mpr ⟨not_le.mpr h.input.1, not_le.mpr h.output.1⟩)]
  cases previous with
  | none => rfl
  | some low =>
    obtain ⟨hinput, houtput⟩ := hbelow low rfl
    simp only
    rw [if_neg (not_le.mpr hinput), if_neg (not_lt.mpr houtput)]

/-- Both loops over written levels in order run to their end. -/
theorem validators_accept {levels : List PriceLevel} (hwritten : ∀ level ∈ levels, level.Written)
    (hascends : levels.Pairwise PriceLevel.Below) {previous : Option PriceLevel}
    (hbelow : ∀ low, previous = some low → ∀ level ∈ levels, low.Below level) :
    LadderSchema.rejectRungs previous levels = none ∧
      RelayWsContract.isPriceLevels previous levels = true := by
  induction levels generalizing previous with
  | nil => exact ⟨rfl, rfl⟩
  | cons level levels ih =>
    obtain ⟨hhead, htail⟩ := List.pairwise_cons.mp hascends
    have hlevel := hwritten level List.mem_cons_self
    have hprevious : ∀ low, previous = some low → low.Below level := fun low hlow =>
      hbelow low hlow level List.mem_cons_self
    have hnext : ∀ low, some level = some low → ∀ l ∈ levels, low.Below l := fun low hlow l hl => by
      cases hlow
      exact hhead l hl
    obtain ⟨hrejects, hrelays⟩ := ih (fun l hl => hwritten l (List.mem_cons_of_mem _ hl)) htail hnext
    refine ⟨?_, ?_⟩
    · unfold LadderSchema.rejectRungs
      rw [rejectRung_eq_none hlevel hprevious]
      exact hrejects
    · unfold RelayWsContract.isPriceLevels
      rw [hlevel.relayed.1, hlevel.relayed.2, hrelays]
      cases previous with
      | none => rfl
      | some low => simpa using (hprevious low rfl).1

theorem WireLadder.rejectLevels_eq {levels : List PriceLevel} (h : WireLadder levels) :
    LadderSchema.rejectLevels levels = none := by
  unfold LadderSchema.rejectLevels
  rw [if_neg (by simpa using h.nonempty), if_neg (not_lt.mpr h.fits)]
  exact (validators_accept h.written h.ascends fun _ h => by cases h).1

/-- Both validators accept a wire ladder between two different tokens. -/
theorem WireLadder.valid {levels : List PriceLevel} (h : WireLadder levels)
    {tokenIn tokenOut : String} (hin : CanonicalToken tokenIn) (hout : CanonicalToken tokenOut)
    (hdistinct : tokenIn ≠ tokenOut) :
    LadderSchema.rejectPair ⟨tokenIn, tokenOut, levels⟩ = none ∧
      RelayWsContract.isPriceLevelsPair ⟨tokenIn, tokenOut, levels⟩ = true := by
  refine ⟨?_, (validators_accept h.written h.ascends fun _ h => by cases h).2⟩
  unfold LadderSchema.rejectPair
  simp only [hin.hex, hout.hex, hin.lower, hout.lower, Bool.not_true, Bool.or_self,
    Bool.false_eq_true, if_false, if_neg hdistinct]
  exact h.rejectLevels_eq

/-! ## The staircase -/

/-- A step whose input and output settle. -/
def CombinationState.Settles (step : CombinationState) : Prop :=
  ZswapKernel.Settles step.input ∧ ZswapKernel.Settles step.output

/-- Every level of a staircase is written, at or above the first step, and they ascend. -/
theorem ladderOf_ascends {final : CombinationState} {terminal : Int}
    (hterminal : final.input < terminal) (hsettles : terminal ≤ maxSettlementAmount) :
    ∀ {steps : List CombinationState} {head : CombinationState}, steps.head? = some head →
      steps.getLast? = some final → Climbs steps → (∀ step ∈ steps, step.Settles) →
      (∀ level ∈ ladderOf steps terminal final, level.Written ∧
        head.input ≤ bigInt level.input ∧ head.output ≤ bigInt level.output) ∧
      (ladderOf steps terminal final).Pairwise PriceLevel.Below := by
  intro steps
  induction steps with
  | nil => exact fun h => by cases h
  | cons step steps ih =>
    intro head hhead hlast hclimbs hsteps
    obtain rfl : step = head := Option.some.inj hhead
    obtain ⟨habove, hrest⟩ := List.pairwise_cons.mp hclimbs
    obtain ⟨hinput, houtput⟩ := hsteps step List.mem_cons_self
    have hwritten := written_priceLevel hinput houtput
    cases steps with
    | nil =>
      obtain rfl : step = final := by simpa using hlast
      have hend := @written_priceLevel terminal _ ⟨hinput.1.trans hterminal, hsettles⟩ houtput
      refine ⟨fun level hlevel => ?_, List.pairwise_pair.mpr ?_⟩
      · rcases List.mem_pair.mp hlevel with rfl | rfl
        · exact ⟨hwritten, by simp [priceLevel], by simp [priceLevel]⟩
        · exact ⟨hend, by simpa [priceLevel] using hterminal.le, by simp [priceLevel]⟩
      · exact ⟨by simpa [priceLevel] using hterminal, by simp [priceLevel]⟩
    | cons next steps =>
      obtain ⟨hnextIn, hnextOut⟩ := habove next List.mem_cons_self
      obtain ⟨hlevels, hpairwise⟩ := ih rfl (by simpa using hlast) hrest
        fun s hs => hsteps s (List.mem_cons_of_mem _ hs)
      have hbelow : ∀ input, step.input ≤ input → input < next.input →
          ∀ level ∈ ladderOf (next :: steps) terminal final,
            (priceLevel input step.output).Below level := fun input _ hlt level hlevel =>
        ⟨by simp only [priceLevel, bigInt_decimal]; exact hlt.trans_le (hlevels level hlevel).2.1,
          by simp only [priceLevel, bigInt_decimal]
             exact hnextOut.le.trans (hlevels level hlevel).2.2⟩
      have hlater : ∀ level ∈ ladderOf (next :: steps) terminal final, level.Written ∧
          step.input ≤ bigInt level.input ∧ step.output ≤ bigInt level.output :=
        fun level hlevel => by
          obtain ⟨hw, hin, hout⟩ := hlevels level hlevel
          exact ⟨hw, hnextIn.le.trans hin, hnextOut.le.trans hout⟩
      rw [ladderOf_cons_cons]
      by_cases hwide : next.input - 1 > step.input
      · -- the plateau of `step` ends one unit below `next`
        rw [if_pos hwide]
        have hplateau : (priceLevel (next.input - 1) step.output).Written := by
          have hbound := (hsteps next (by simp)).1.2
          exact written_priceLevel ⟨by have := hinput.1; omega, by omega⟩ houtput
        refine ⟨fun level hlevel => ?_, List.pairwise_cons.mpr ⟨fun level hlevel => ?_,
          List.pairwise_cons.mpr ⟨hbelow _ hwide.le (by omega), hpairwise⟩⟩⟩
        · rcases List.mem_cons.mp hlevel with rfl | hlevel
          · exact ⟨hwritten, by simp [priceLevel], by simp [priceLevel]⟩
          · rcases List.mem_cons.mp hlevel with rfl | hlevel
            · exact ⟨hplateau, by simp only [priceLevel, bigInt_decimal]; exact hwide.le,
                by simp [priceLevel]⟩
            · exact hlater level hlevel
        · rcases List.mem_cons.mp hlevel with rfl | hlevel
          · exact ⟨by simpa [priceLevel] using hwide, by simp [priceLevel]⟩
          · exact hbelow _ le_rfl hnextIn level hlevel
      · rw [if_neg hwide]
        refine ⟨fun level hlevel => ?_,
          List.pairwise_cons.mpr ⟨hbelow _ le_rfl hnextIn, hpairwise⟩⟩
        rcases List.mem_cons.mp hlevel with rfl | hlevel
        · exact ⟨hwritten, by simp [priceLevel], by simp [priceLevel]⟩
        · exact hlater level hlevel

/-- **An encoded prefix is a wire ladder.** -/
theorem EncodesPrefix.wire {frontier : List CombinationState} {count maxWirePoints : Nat}
    {tokenIn tokenOut : String} {encoded : EncodedFrontier}
    (h : EncodesPrefix frontier count maxWirePoints tokenIn tokenOut encoded)
    (hclimbs : Climbs frontier) (hsettles : ∀ step ∈ frontier, step.Settles)
    (hmost : maxWirePoints ≤ maxRungsPerPair) : WireLadder encoded.levels := by
  obtain ⟨final, hlast, hterminal, hlevels, -⟩ := h.final
  cases hhead : (frontier.take count).head? with
  | none =>
    rw [List.head?_eq_none_iff.mp hhead] at hlast
    cases hlast
  | some head =>
    obtain ⟨hwritten, hascends⟩ := ladderOf_ascends hterminal h.settles hhead hlast
      (hclimbs.sublist (List.take_sublist _ _)) fun s hs => hsettles s (List.mem_of_mem_take hs)
    rw [← hlevels] at hwritten hascends
    refine ⟨fun hnil => ?_, h.fits.trans hmost, fun level hlevel => (hwritten level hlevel).1,
      hascends⟩
    rw [hnil] at hlevels
    exact absurd hlevels.symm (by simp [ladderOf])

/-- The steps of a frontier settle. -/
theorem StepOf.settles {limits : LadderResourceLimits} {minimum : Option Int}
    {tokenIn tokenOut : String} {bucket makers : List Crossable} {step : CombinationState}
    (h : StepOf limits minimum tokenIn tokenOut bucket step makers) : step.Settles := by
  have hinput := h.candidate.input_neg
  have hpositive := h.candidate.output_pos
  have hin := h.candidate.in_range tokenIn
  have hout := h.candidate.in_range tokenOut
  unfold CombinationState.Settles ZswapKernel.Settles
  rw [h.witness.input, h.witness.output]
  omega

/-! ## Truncation -/

/-- A reason that truncates a frontier: a resource cap. -/
def LadderTerminalCapReason.Truncates (reason : LadderTerminalCapReason) : Prop :=
  reason ≠ .nextOmittedImprovement

theorem mem_addReason {reasons : List LadderTerminalCapReason}
    {reason added : LadderTerminalCapReason} :
    reason ∈ addReason reasons added ↔ reason ∈ reasons ∨ reason = added := by
  unfold addReason
  split
  · refine ⟨Or.inl, fun h => ?_⟩
    rcases h with hold | rfl
    · exact hold
    · assumption
  · rw [List.mem_append, List.mem_singleton]

theorem mem_foldl_addReason {reasons added : List LadderTerminalCapReason}
    {reason : LadderTerminalCapReason} :
    reason ∈ added.foldl addReason reasons ↔ reason ∈ reasons ∨ reason ∈ added := by
  induction added generalizing reasons with
  | nil => simp
  | cons first added ih =>
    rw [List.foldl_cons, ih, mem_addReason, List.mem_cons, or_assoc]

/-- Without an omitted improvement the terminal is above the last threshold, unless that has
reached the settlement bound. -/
theorem lt_terminalOf_none {final : CombinationState} (hpos : 0 < final.input)
    (hlt : final.input < maxSettlementAmount) : final.input < (terminalOf final none).1 := by
  unfold terminalOf
  by_cases hcap : final.input * 10 > maxSettlementAmount
  · simp only [if_pos hcap]
    exact hlt
  · simp only [if_neg hcap]
    omega

/-- The whole frontier fails only on a resource cap. -/
theorem encodePrefix_whole_error {frontier : List CombinationState} {maxWirePoints : Nat}
    {tokenIn tokenOut : String} {reasons : List LadderTerminalCapReason}
    (hsettles : ∀ step ∈ frontier, step.Settles)
    (h : encodePrefix frontier frontier.length maxWirePoints tokenIn tokenOut =
      .ok (.error reasons)) : ∃ reason ∈ reasons, reason.Truncates := by
  unfold encodePrefix at h
  rw [List.take_length, List.getElem?_eq_none le_rfl] at h
  simp only at h
  split at h
  · cases h
  rename_i final hfinal
  have hpos := (hsettles final (List.mem_of_getLast? hfinal)).1.1
  split at h
  · rename_i hreasons
    obtain rfl : _ = reasons := Except.error.inj (Except.ok.inj h)
    unfold failureReasons at hreasons ⊢
    by_cases hpoints : (thresholdLevels frontier ++
        [priceLevel (terminalOf final none).1 final.output]).length > maxWirePoints
    · exact ⟨.wirePointCap, by rw [if_pos hpoints]; exact List.mem_append_left _ (by simp), nofun⟩
    · by_cases hcap : final.input ≥ maxSettlementAmount
      · refine ⟨.settlementAmountCap, ?_, nofun⟩
        rw [if_neg hpoints, List.nil_append] at hreasons ⊢
        split at hreasons
        · rw [if_pos ‹_›, if_pos hcap]
          exact List.mem_singleton.mpr rfl
        · exact absurd rfl hreasons
      · have hroom := lt_terminalOf_none hpos (not_le.mp hcap)
        rw [if_neg hpoints, if_neg (not_le.mpr hroom)] at hreasons
        exact absurd rfl hreasons
  · simp only [Except.bind_eq_ok] at h
    obtain ⟨_, -, h⟩ := h
    cases h

/-- What a scan of prefix lengths knows of its truncation reasons. -/
theorem tryPrefix_reasons {frontier : List CombinationState} {maxWirePoints : Nat}
    {tokenIn tokenOut : String} {scan scan' : PrefixScan} {retained : Nat}
    (h : tryPrefix frontier maxWirePoints tokenIn tokenOut scan retained = .ok scan')
    (hscan : ∀ reason ∈ scan.truncationReasons, reason.Truncates) :
    ∀ reason ∈ scan'.truncationReasons, reason.Truncates := by
  unfold tryPrefix at h
  cases hencode : encodePrefix frontier retained maxWirePoints tokenIn tokenOut with
  | error message =>
    rw [hencode] at h
    cases h
  | ok result =>
    rw [hencode] at h
    cases result with
    | error reasons =>
      cases h
      intro reason hreason
      rcases mem_foldl_addReason.mp hreason with hold | hnew
      · exact hscan reason hold
      · simpa [LadderTerminalCapReason.Truncates] using (List.mem_filter.mp hnew).2
    | ok encoded =>
      cases h
      exact fun _ h => absurd h List.not_mem_nil

theorem foldlM_tryPrefix_reasons {frontier : List CombinationState} {maxWirePoints : Nat}
    {tokenIn tokenOut : String} {counts : List Nat} {scan scan' : PrefixScan}
    (h : counts.foldlM (tryPrefix frontier maxWirePoints tokenIn tokenOut) scan = .ok scan')
    (hscan : ∀ reason ∈ scan.truncationReasons, reason.Truncates) :
    ∀ reason ∈ scan'.truncationReasons, reason.Truncates := by
  induction counts generalizing scan with
  | nil =>
    cases h
    exact hscan
  | cons count counts ih =>
    rw [List.foldlM_cons, Except.bind_eq_ok] at h
    obtain ⟨middle, hstep, h⟩ := h
    exact ih h (tryPrefix_reasons hstep hscan)

/-- The last prefix is the whole frontier: it is encoded, or a cap is noted. -/
theorem tryPrefix_whole {frontier : List CombinationState} {maxWirePoints : Nat}
    {tokenIn tokenOut : String} {scan scan' : PrefixScan}
    (hsettles : ∀ step ∈ frontier, step.Settles)
    (h : tryPrefix frontier maxWirePoints tokenIn tokenOut scan frontier.length = .ok scan') :
    (∃ encoded, scan'.best = some encoded ∧ encoded.combinations.length = frontier.length) ∨
      scan'.truncationReasons ≠ [] := by
  unfold tryPrefix at h
  cases hencode : encodePrefix frontier frontier.length maxWirePoints tokenIn tokenOut with
  | error message =>
    rw [hencode] at h
    cases h
  | ok result =>
    rw [hencode] at h
    cases result with
    | error reasons =>
      cases h
      obtain ⟨reason, hmem, htruncates⟩ := encodePrefix_whole_error hsettles hencode
      refine Or.inr (List.ne_nil_of_mem (a := reason) (mem_foldl_addReason.mpr (Or.inr ?_)))
      exact List.mem_filter.mpr ⟨hmem, decide_eq_true htruncates⟩
    | ok encoded =>
      cases h
      refine Or.inl ⟨encoded, rfl, ?_⟩
      have hcombinations := (encodePrefix_ok hencode).combinations
      rw [List.take_length] at hcombinations
      exact (Except.forall₂_of_mapM hcombinations).length_eq.symm

/-- How the longest encodable prefix is cut: by resource caps only, named in the encoding, and never
without a reason. -/
structure Truncation (frontier : List CombinationState) (encoded : Option EncodedFrontier)
    (truncationReasons : List LadderTerminalCapReason) : Prop where
  truncates : ∀ reason ∈ truncationReasons, reason.Truncates
  named : ∀ best, encoded = some best → ∀ reason ∈ truncationReasons, reason ∈ best.capReasons
  explained : (∀ best, encoded = some best → best.combinations.length ≠ frontier.length) →
    truncationReasons ≠ []

/-- **A frontier that is not wholly encoded has a truncation reason.** -/
theorem longestEncodableFrontier_truncation {frontier : List CombinationState} {maxWirePoints : Nat}
    {tokenIn tokenOut : String} {encoded : Option EncodedFrontier}
    {truncationReasons : List LadderTerminalCapReason} (hne : frontier ≠ [])
    (hsettles : ∀ step ∈ frontier, step.Settles)
    (h : longestEncodableFrontier frontier maxWirePoints tokenIn tokenOut =
      .ok ⟨encoded, truncationReasons⟩) : Truncation frontier encoded truncationReasons := by
  unfold longestEncodableFrontier at h
  simp only [Except.bind_eq_ok] at h
  obtain ⟨scan, hfold, h⟩ := h
  obtain ⟨hbest, hreasons⟩ := PrefixScan.mk.inj (Except.ok.inj h)
  have hscan := foldlM_tryPrefix_reasons hfold fun _ h => absurd h List.not_mem_nil
  have hpos := List.length_pos_iff.mpr hne
  refine ⟨fun reason hreason => ?_, fun best heq reason hreason => ?_, fun hshort => ?_⟩
  · rw [← hreasons] at hreason
    split at hreason
    · rcases mem_addReason.mp hreason with hold | rfl
      · exact hscan reason hold
      · exact nofun
    · exact hscan reason hreason
  · rw [heq] at hbest
    obtain ⟨found, -, rfl⟩ := Option.map_eq_some_iff.mp hbest
    rw [hreasons]
    exact List.mem_eraseDups.mpr (List.mem_append_left _ hreason)
  · by_cases hmore : frontier.length > min frontier.length (maxWirePoints - 1)
    · rw [← hreasons, if_pos hmore]
      exact List.ne_nil_of_mem (mem_addReason.mpr (Or.inr rfl))
    · rw [if_neg hmore] at hreasons
      -- the last length tried is the whole frontier
      obtain ⟨n, hn⟩ : ∃ n, frontier.length = n + 1 := ⟨frontier.length - 1, by omega⟩
      rw [show min frontier.length (maxWirePoints - 1) = n + 1 by omega, List.range'_1_concat,
        List.foldlM_append, Except.bind_eq_ok] at hfold
      obtain ⟨before, -, hlast⟩ := hfold
      rw [List.foldlM_cons, Except.bind_eq_ok] at hlast
      obtain ⟨after, hlast, hscan'⟩ := hlast
      obtain rfl : after = scan := Except.ok.inj hscan'
      rw [show 1 + n = frontier.length by omega] at hlast
      rcases tryPrefix_whole hsettles hlast with ⟨whole, hwhole, hlength⟩ | hnoted
      · rw [hwhole] at hbest
        exact (hshort _ (hbest.symm.trans (Option.map_some _ _)) hlength).elim
      · rw [← hreasons]
        exact hnoted

end ZswapKernel
