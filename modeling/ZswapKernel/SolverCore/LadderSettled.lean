import ZswapKernel.SolverCore.LadderCancelled
import ZswapKernel.SolverCore.LadderValid

/-!
# What a pass leaves of its pair

A pass pushes one diagnostic. When it is over the pair is published or says why not, and never with
the reason `invalid-pair`: the staircase of a frontier passes both validators before they are asked.
Unless the derivation has a global stop or a cap withheld the pair, what an unstopped search of its
universe encodes is published.

* `addPairExclusions_ledger` — what an exclusion scan leaves alone.
* `pass_settles` — one pass.
-/

namespace ZswapKernel

open Program

/-! ## The ledger of a derivation -/

/-- The verdict and the publications: what an exclusion scan that ends leaves alone. -/
abbrev DerivationLedger := (Option GlobalStop × Option LadderDerivationStopReason ×
  List LadderPairDiagnostic) × List Publication

def Derivation.ledger (s : Derivation) : DerivationLedger := (s.work.verdict, s.published)

/-- The derivation has a global stop and says why. -/
def Derivation.Stopped (s : Derivation) : Prop :=
  s.work.globalStop ≠ none ∧ s.work.diagnostics.stopReason ≠ none

/-- A scan that stops leaves the pairs and the publications, under a global stop. -/
structure Derivation.StoppedWith (pairs : List LadderPairDiagnostic) (published : List Publication)
    (s : Derivation) : Prop where
  stopped : s.Stopped
  pairs_eq : s.work.diagnostics.pairs = pairs
  published_eq : s.published = published

theorem stopped_setStop (stop : GlobalStop) (s : Derivation) :
    Derivation.Stopped { s with work := s.work.stopped stop } := ⟨nofun, nofun⟩

section Ledger

variable {budget : Budget}

theorem metered_charge_ledger {ledger : DerivationLedger} {E : DerivationExit → Derivation → Prop} :
    Triple (fun s : Derivation => s.ledger = ledger) (Derive.metered (budget.charge 1))
      (fun _ s => s.ledger = ledger) E := by
  have hverdict := @metered_charge_verdict budget ledger.1 E
  have hpublished : Frames (fun s : Derivation => s.published) (Derive.metered (budget.charge 1)) :=
    fun _ => rfl
  refine (hverdict.and (hpublished.triple (· = ledger.2))).conseq (fun s h => ?_)
    (fun _ s h => Prod.ext h.1 h.2) fun _ _ h => h.1
  exact ⟨congrArg Prod.fst h, congrArg Prod.snd h⟩

/-- An exclusion scan ends with the ledger as it was, or stops the derivation. -/
theorem addPairExclusions_ledger (id : BucketId) (bucket : List Crossable)
    (reason : LadderExclusionReason) (detail : Option LadderRejection) {ledger : DerivationLedger}
    (hstopped : isAbort ledger.1.1 = true → ledger.1.2.1 ≠ none) :
    Triple (fun s : Derivation => s.ledger = ledger)
      (addPairExclusions budget id bucket reason detail) (fun _ s => s.ledger = ledger)
      (fun _ s => s.StoppedWith ledger.1.2.2 ledger.2) := by
  have hscan : Triple (fun s : Derivation => s.ledger = ledger)
      (scanExclusions budget reason detail bucket) (fun _ s => s.ledger = ledger)
      (fun _ s => s.StoppedWith ledger.1.2.2 ledger.2) := by
    induction bucket with
    | nil => exact Triple.pure fun _ h => h
    | cons offer bucket ih =>
      unfold scanExclusions
      refine Triple.bind metered_charge_ledger fun charged => ?_
      cases charged with
      | ok _ =>
        refine Triple.bind (Q := fun _ s => s.ledger = ledger) (Triple.modify fun s h => ?_)
          fun _ => ih
        rw [← h]
        exact congrArg (·, s.published) (Work.addExclusion_verdict _ _)
      | error stop =>
        refine Triple.bind (Q := fun before s => before = s ∧ s.ledger = ledger)
          (Triple.get fun s h => ⟨rfl, h⟩) fun before => ?_
        refine Triple.ite (fun _ => ?_) fun hnoted => ?_
        · refine Triple.bind (Q := fun _ s => s.StoppedWith ledger.1.2.2 ledger.2)
            (Triple.modify fun s h => ?_) fun _ => Triple.throw fun _ h => h
          exact ⟨stopped_setStop _ s, congrArg (·.1.2.2) h.2, congrArg (·.2) h.2⟩
        · rintro s ⟨rfl, h⟩
          have habort : isAbort before.work.globalStop = true := not_not.mp hnoted
          refine ⟨⟨fun hnone => ?_, ?_⟩, congrArg (·.1.2.2) h, congrArg (·.2) h⟩
          · rw [hnone] at habort
            cases habort
          · rw [← h] at hstopped
            exact hstopped habort
  unfold addPairExclusions
  refine Triple.bind (Q := fun _ s => s.ledger = ledger) (Triple.get fun _ h => h) fun before => ?_
  refine Triple.ite (fun _ => Triple.pure fun _ h => h) fun _ => ?_
  exact Triple.bind hscan fun _ => Triple.modify fun _ h => h

theorem updateLast_append (f : LadderPairDiagnostic → LadderPairDiagnostic)
    (pairs : List LadderPairDiagnostic) (last : LadderPairDiagnostic) :
    updateLast f (pairs ++ [last]) = pairs ++ [f last] := by
  induction pairs with
  | nil => rfl
  | cons pair pairs ih =>
    cases pairs with
    | nil => rfl
    | cons next pairs =>
      show pair :: updateLast f (next :: pairs ++ [last]) = _
      rw [ih]
      rfl

end Ledger

/-! ## One pair -/

/-- A cap that withholds one pair. -/
def LadderExclusionReason.CapsPair (reason : LadderExclusionReason) : Prop :=
  reason = .pairCap ∨ reason = .pairSearchCap ∨ reason = .mergeOrderWorkCap

/-- The pair says why it is not published, and never that it is invalid. -/
structure LadderPairDiagnostic.Reasoned (diagnostic : LadderPairDiagnostic) : Prop where
  valid : diagnostic.reason ≠ some .invalidPair
  reasoned : diagnostic.published = false → diagnostic.reason ≠ none

/-- A cap withheld the pair. -/
def LadderPairDiagnostic.Capped (diagnostic : LadderPairDiagnostic) : Prop :=
  ∃ reason, diagnostic.reason = some reason ∧ reason.CapsPair

namespace PairContext

/-- The pair is not offered at all, or `publications` has what an unstopped search of its universe
encodes. -/
def Complete (ctx : PairContext) (publications : List Publication) : Prop :=
  ¬ ctx.Admitted ∨ ∃ exact, PairSearched ctx.budget.limits ctx.tokenIn ctx.tokenOut
    ctx.cachedUniverse.offers exact ∧ ∀ publication, ctx.Encodes exact publication →
      publication ∈ publications

/-- After a pass: its diagnostic, and what it published. -/
structure Settled (ctx : PairContext) (pairs : List LadderPairDiagnostic)
    (published : List Publication) (s : Derivation) (diagnostic : LadderPairDiagnostic)
    (publications : List Publication) : Prop where
  pairs_eq : s.work.diagnostics.pairs = pairs ++ [diagnostic]
  published_eq : s.published = published ++ publications
  reasoned : diagnostic.Reasoned
  complete : s.Stopped ∨ diagnostic.Capped ∨ ctx.Complete publications

/-- A pass leaves its pair settled. -/
def Settles (ctx : PairContext) (pairs : List LadderPairDiagnostic) (published : List Publication)
    (s : Derivation) : Prop :=
  ∃ diagnostic publications, ctx.Settled pairs published s diagnostic publications

/-- Inside a pass: nothing has stopped, and the pair is neither published nor withheld. -/
structure Opened (ctx : PairContext) (pairs : List LadderPairDiagnostic)
    (published : List Publication) (s : Derivation) : Prop where
  running : s.work.globalStop = none
  pairs_eq : ∃ diagnostic, s.work.diagnostics.pairs = pairs ++ [diagnostic] ∧
    diagnostic.reason = none
  published_eq : s.published = published

/-- How a pass ends: it goes on only while nothing has stopped the derivation. -/
structure Ends (ctx : PairContext) (pairs : List LadderPairDiagnostic)
    (published : List Publication) (flow : PairFlow) (s : Derivation) : Prop where
  next : flow = .next → s.work.globalStop = none
  stop : flow = .breakPairDiscovery → s.Stopped
  settles : ctx.Settles pairs published s

/-- A pass throws for a message, or under a global stop with its pair settled. -/
def Throws (ctx : PairContext) (pairs : List LadderPairDiagnostic) (published : List Publication)
    (exit : DerivationExit) (s : Derivation) : Prop :=
  exit = .exclusionScanStop → s.Stopped ∧ ctx.Settles pairs published s

variable {ctx : PairContext} {pairs : List LadderPairDiagnostic} {published : List Publication}

theorem Settles.of_stoppedWith {diagnostic : LadderPairDiagnostic} {publications : List Publication}
    {s : Derivation} (h : s.StoppedWith (pairs ++ [diagnostic]) (published ++ publications))
    (hreasoned : diagnostic.Reasoned) : ctx.Settles pairs published s :=
  ⟨diagnostic, publications, h.pairs_eq, h.published_eq, hreasoned, Or.inl h.stopped⟩

theorem Settles.of_unpublished {diagnostic : LadderPairDiagnostic} {s : Derivation}
    (h : s.StoppedWith (pairs ++ [diagnostic]) published) (hreasoned : diagnostic.Reasoned) :
    ctx.Settles pairs published s := by
  refine ⟨diagnostic, [], h.pairs_eq, ?_, hreasoned, Or.inl h.stopped⟩
  rw [List.append_nil]
  exact h.published_eq

/-- A pair withheld by a cap of its own, or with nothing to publish. -/
theorem withhold_settles {reason : LadderExclusionReason} (detail : Option LadderRejection)
    (hvalid : reason ≠ .invalidPair) (hcomplete : reason.CapsPair ∨ ctx.Complete []) :
    Triple (ctx.Opened pairs published) (ctx.withhold reason detail) (ctx.Ends pairs published)
      (ctx.Throws pairs published) := by
  rintro s ⟨hrunning, ⟨diagnostic, hpairs, -⟩, hpublished⟩
  let withheld : LadderPairDiagnostic := { diagnostic with reason := some reason }
  have hreasoned : withheld.Reasoned := ⟨fun h => hvalid (Option.some.inj h), fun _ => nofun⟩
  unfold withhold
  refine (Triple.bind (P := (· = s)) (Q := fun _ s' => s'.ledger =
    ((none, s.work.diagnostics.stopReason, pairs ++ [withheld]), published))
    (Triple.modify fun _ hs => ?_) fun _ => ?_) s rfl
  · subst hs
    refine Prod.ext (Prod.ext hrunning (Prod.ext rfl ?_)) hpublished
    exact (congrArg (updateLast _) hpairs).trans (updateLast_append _ _ _)
  · refine Triple.bind ((addPairExclusions_ledger _ _ _ _ (by intro h; cases h)).conseq (fun _ h => h)
      (fun _ _ h => h) fun _ s' h _ => ⟨h.stopped, ?_⟩) fun _ => Triple.pure fun s' h => ?_
    · exact Settles.of_unpublished h hreasoned
    · refine ⟨fun _ => congrArg (·.1.1) h, nofun, withheld, [], congrArg (·.1.2.2) h, ?_,
        hreasoned, Or.inr (hcomplete.imp_left fun hcaps => ⟨reason, rfl, hcaps⟩)⟩
      rw [List.append_nil]
      exact congrArg (·.2) h

/-- A global stop ends the loop. -/
theorem stopDiscovery_settles (stop : GlobalStop) :
    Triple (fun s => (∃ diagnostic, s.work.diagnostics.pairs = pairs ++ [diagnostic]) ∧
      s.published = published) (ctx.stopDiscovery stop) (ctx.Ends pairs published)
      (ctx.Throws pairs published) := by
  rintro s ⟨⟨diagnostic, hpairs⟩, hpublished⟩
  let withheld : LadderPairDiagnostic := { diagnostic with reason := some stop.exclusion }
  have hreasoned : withheld.Reasoned := by
    refine ⟨fun h => ?_, fun _ => nofun⟩
    cases stop with
    | abort reason => cases reason <;> cases h
    | globalSearchCap => cases h
    | candidatePairCap => cases h
    | discoveryWorkCap => cases h
  unfold stopDiscovery
  refine (Triple.bind (P := (· = s)) (Q := fun _ s' => s' =
    { s with work := s.work.stopped stop }) (Triple.modify fun _ hs => by rw [hs]) fun _ => ?_) s rfl
  refine Triple.bind (Q := fun _ s' => s'.ledger =
    ((some stop, some stop.stopReason, pairs ++ [withheld]), published))
    (Triple.modify fun _ hs => ?_) fun _ => ?_
  · subst hs
    refine Prod.ext (Prod.ext rfl (Prod.ext rfl ?_)) hpublished
    exact (congrArg (updateLast _) hpairs).trans (updateLast_append _ _ _)
  · refine Triple.bind ((addPairExclusions_ledger _ _ _ _ (by intro _ h; cases h)).conseq (fun _ h => h)
      (fun _ _ h => h) fun _ s' h _ => ⟨h.stopped, ?_⟩) fun _ => Triple.pure fun s' h => ?_
    · exact Settles.of_unpublished h hreasoned
    · have hstopped : s'.Stopped := by
        have hglobal : s'.work.globalStop = some stop := congrArg (·.1.1) h
        have hreason : s'.work.diagnostics.stopReason = some stop.stopReason := congrArg (·.1.2.1) h
        refine ⟨?_, ?_⟩
        · rw [hglobal]
          exact nofun
        · rw [hreason]
          exact nofun
      refine ⟨nofun, fun _ => hstopped, withheld, [], congrArg (·.1.2.2) h, ?_, hreasoned,
        Or.inl hstopped⟩
      rw [List.append_nil]
      exact congrArg (·.2) h

/-- A metered stage that goes on leaves the pair open; one that stops leaves its diagnostic. -/
theorem metered_opened {α : Type} {stage : Budgeted α} (h : ctx.budget.Heeds stage)
    {E : DerivationExit → Derivation → Prop} :
    Triple (fun s => ctx.budget.Calm s.work ∧ ctx.Opened pairs published s)
      (Derive.metered stage)
      (fun result s => ctx.Opened pairs published s ∧
        ∀ value, result = .ok value → ctx.budget.Calm s.work) E := by
  rintro s ⟨hcalm, hopened⟩
  have hstage := h s.work.frame s.work ⟨hcalm, rfl⟩
  unfold Program.outcome Derive.metered
  cases hrun : stage.outcome s.work with
  | mk result work =>
    rw [hrun] at hstage
    have hkept : work.frame = s.work.frame → ctx.Opened pairs published { s with work } := by
      intro hframe
      obtain ⟨diagnostic, hpairs, hreason⟩ := hopened.pairs_eq
      exact ⟨(congrArg (·.globalStop) hframe).trans hopened.running,
        ⟨diagnostic, (congrArg (·.pairs) hframe).trans hpairs, hreason⟩, hopened.published_eq⟩
    cases result with
    | ok value => exact ⟨hkept hstage.2, fun _ _ => hstage.1⟩
    | error stop => exact ⟨hkept hstage.1, nofun⟩

/-- `abortReason` before the rest of a pass. -/
theorem unlessAborted_settles {rest : Derive PairFlow}
    (h : Triple (fun s => ctx.budget.Calm s.work ∧ ctx.Opened pairs published s) rest
      (ctx.Ends pairs published) (ctx.Throws pairs published)) :
    Triple (fun s => ctx.budget.Calm s.work ∧ ctx.Opened pairs published s)
      (ctx.unlessAborted rest) (ctx.Ends pairs published) (ctx.Throws pairs published) := by
  unfold unlessAborted
  have hpoll : Frames (fun s : Derivation => (s.ledger, s.work.diagnostics))
      (Derive.poll ctx.budget) := fun _ => rfl
  refine Triple.bind (poll_calm.and (hpoll.triple fun kept => kept.1.1.1 = none ∧
    (∃ diagnostic, kept.1.1.2.2 = pairs ++ [diagnostic] ∧ diagnostic.reason = none) ∧
      kept.1.2 = published) |>.conseq (fun s h => ⟨h.1, h.2.running, h.2.pairs_eq,
        h.2.published_eq⟩) (fun _ _ h => h) fun _ _ h => h.1) fun reason => ?_
  cases reason with
  | some reason =>
    exact (stopDiscovery_settles (.abort reason)).pre fun s h =>
      ⟨⟨_, h.2.2.1.choose_spec.1⟩, h.2.2.2⟩
  | none => exact h.pre fun s h => ⟨h.1 rfl, h.2.1, h.2.2.1, h.2.2.2⟩

/-- Excluding the offers no combination uses keeps the ledger, or stops the derivation. -/
theorem excludeUnused_ledger (used : List String)
    (truncationReasons : List LadderTerminalCapReason) (bucket : List Crossable) {ledger : DerivationLedger} :
    Triple (fun s : Derivation => s.ledger = ledger)
      (ctx.excludeUnused used truncationReasons bucket) (fun _ s => s.ledger = ledger)
      (fun _ s => s.StoppedWith ledger.1.2.2 ledger.2) := by
  induction bucket with
  | nil => exact Triple.pure fun _ h => h
  | cons offer bucket ih =>
    unfold excludeUnused
    refine Triple.bind metered_charge_ledger fun charged => ?_
    cases charged with
    | ok _ =>
      refine Triple.ite (fun _ => ?_) fun _ => ih
      refine Triple.bind (Q := fun _ s => s.ledger = ledger) ?_ fun _ => ih
      refine Triple.forM (I := fun _ (s : Derivation) => s.ledger = ledger) fun _ _ _ =>
        Triple.modify fun s h => ?_
      rw [← h]
      exact congrArg (·, s.published) (Work.addExclusion_verdict _ _)
    | error stop =>
      refine Triple.bind (Q := fun _ s => s.StoppedWith ledger.1.2.2 ledger.2)
        (Triple.modify fun s h => ?_) fun _ => Triple.throw fun _ h => h
      exact ⟨stopped_setStop _ s, congrArg (·.1.2.2) h, congrArg (·.2) h⟩

/-- What the search of a pair encodes is published: both validators accept it. -/
theorem publishPair_settles {exact : List CombinationState} (frontierLength : Nat)
    {encoded : EncodedFrontier} {truncationReasons : List LadderTerminalCapReason}
    (hsearched : PairSearched ctx.budget.limits ctx.tokenIn ctx.tokenOut ctx.cachedUniverse.offers
      exact)
    (hencode : longestEncodableFrontier (ctx.frontier exact)
      ctx.budget.limits.maxWirePointsPerPair ctx.tokenIn ctx.tokenOut =
        .ok ⟨some encoded, truncationReasons⟩)
    (hvalid : LadderSchema.rejectPair ⟨ctx.tokenIn, ctx.tokenOut, encoded.levels⟩ = none ∧
      RelayWsContract.isPriceLevelsPair ⟨ctx.tokenIn, ctx.tokenOut, encoded.levels⟩ = true) :
    Triple (ctx.Opened pairs published)
      (ctx.publishPair frontierLength encoded truncationReasons) (ctx.Ends pairs published)
      (ctx.Throws pairs published) := by
  rintro s ⟨hrunning, ⟨diagnostic, hpairs, hreason⟩, hpublished⟩
  let publication : Publication :=
    ⟨⟨ctx.tokenIn, ctx.tokenOut, encoded.levels⟩, ctx.provenanceOf encoded⟩
  let listed : LadderPairDiagnostic := { diagnostic with
    published := true
    frontierCombinations := encoded.combinations.length
    wirePoints := encoded.levels.length }
  have hreasoned : listed.Reasoned := by
    refine ⟨?_, nofun⟩
    show diagnostic.reason ≠ _
    rw [hreason]
    exact nofun
  have hcomplete : ctx.Complete [publication] := by
    refine Or.inr ⟨exact, hsearched, ?_⟩
    rintro other ⟨encoded', truncationReasons', hencode', -, -, rfl⟩
    obtain ⟨hbest, -⟩ := PrefixScan.mk.inj (Except.ok.inj (hencode.symm.trans hencode'))
    obtain rfl := Option.some.inj hbest
    exact List.mem_singleton.mpr rfl
  let ledger : DerivationLedger := ((none, s.work.diagnostics.stopReason, pairs ++ [listed]),
    published ++ [publication])
  have hends : ∀ s' : Derivation, s'.ledger = ledger → ctx.Ends pairs published .next s' :=
    fun s' h => ⟨fun _ => congrArg (·.1.1) h, nofun, listed, [publication],
      congrArg (·.1.2.2) h, congrArg (·.2) h, hreasoned, Or.inr (Or.inr hcomplete)⟩
  unfold publishPair
  refine (Triple.ite (P := (· = s)) (fun hrefused => ?_) fun _ => ?_) s rfl
  · rcases hrefused with h | h
    · rw [hvalid.1] at h
      cases h
    · exact absurd hvalid.2 h
  refine Triple.bind (Q := fun _ s' => s' = { s with published := s.published ++ [publication] })
    (Triple.modify fun _ hs => by rw [hs]) fun _ => ?_
  refine Triple.bind (Q := fun _ s' => s'.ledger = ledger) (Triple.modify fun _ hs => ?_)
    fun _ => ?_
  · subst hs
    refine Prod.ext (Prod.ext hrunning (Prod.ext rfl ?_)) (congrArg (· ++ [publication]) hpublished)
    exact (congrArg (updateLast _) hpairs).trans (updateLast_append _ _ _)
  · refine Triple.ite (fun _ => ?_) fun _ => Triple.pure hends
    refine Triple.bind ((excludeUnused_ledger _ _ _).conseq (fun _ h => h) (fun _ _ h => h)
      fun _ s' h _ => ⟨h.stopped, ?_⟩) fun _ => Triple.pure hends
    exact Settles.of_stoppedWith h hreasoned

/-- The frontier of a search: its steps settle, so both validators accept what encodes it. -/
theorem frontier_valid {retained : List Crossable} {exact : List CombinationState}
    (hctx : ctx.Sound retained) (hadmitted : ctx.Admitted)
    (hmost : ctx.budget.limits.maxWirePointsPerPair ≤ maxRungsPerPair)
    (hsearched : PairSearched ctx.budget.limits ctx.tokenIn ctx.tokenOut ctx.cachedUniverse.offers
      exact) :
    (∀ step ∈ ctx.frontier exact, step.Settles) ∧ ∀ encoded truncationReasons,
      longestEncodableFrontier (ctx.frontier exact) ctx.budget.limits.maxWirePointsPerPair
        ctx.tokenIn ctx.tokenOut = .ok ⟨some encoded, truncationReasons⟩ →
      LadderSchema.rejectPair ⟨ctx.tokenIn, ctx.tokenOut, encoded.levels⟩ = none ∧
        RelayWsContract.isPriceLevelsPair ⟨ctx.tokenIn, ctx.tokenOut, encoded.levels⟩ = true := by
  have hsteps := frontier_steps hsearched
    (fun o ho => hctx.valid o (hctx.universe_sub.subset ho)) (ctx.policy.minimum ctx.tokenOut)
  have hsettles : ∀ step ∈ ctx.frontier exact, step.Settles := fun step hstep => by
    obtain ⟨makers, hmakers⟩ := hsteps.witnessed step hstep
    exact hmakers.settles
  refine ⟨hsettles, fun encoded truncationReasons hencode => ?_⟩
  obtain ⟨count, hencodes⟩ := longestEncodableFrontier_best hencode
  exact (hencodes.wire hsteps.climbs hsettles hmost).valid hctx.canonicalIn hctx.canonicalOut
    hadmitted.distinct

theorem longestEncodableFrontier_nil (maxWirePoints : Nat) (tokenIn tokenOut : String) :
    longestEncodableFrontier [] maxWirePoints tokenIn tokenOut = .ok ⟨none, []⟩ := by
  unfold longestEncodableFrontier
  simp
  rfl

theorem emptyFrontierReason_ne (search : PairSearch) :
    emptyFrontierReason search ≠ .invalidPair := by
  unfold emptyFrontierReason
  split_ifs <;> exact nofun

theorem exclusion_ne_invalidPair (reason : LadderTerminalCapReason) :
    reason.exclusion ≠ .invalidPair := by
  cases reason <;> exact nofun

/-- A frontier of which no prefix encodes: the first truncation reason withholds the pair. -/
theorem withholdTruncated_settles {truncationReasons : List LadderTerminalCapReason}
    (hne : truncationReasons ≠ []) (hcomplete : ctx.Complete []) :
    Triple (ctx.Opened pairs published)
      (do match truncationReasons.head? with
            | none => pure ()
            | some reason => Derive.setReason reason.exclusion
          truncationReasons.forM fun reason => ctx.exclude reason.exclusion
          return .next) (ctx.Ends pairs published) (ctx.Throws pairs published) := by
  obtain ⟨first, rest, rfl⟩ := List.exists_cons_of_ne_nil hne
  rintro s ⟨hrunning, ⟨diagnostic, hpairs, -⟩, hpublished⟩
  let withheld : LadderPairDiagnostic := { diagnostic with reason := some first.exclusion }
  have hreasoned : withheld.Reasoned :=
    ⟨fun h => exclusion_ne_invalidPair first (Option.some.inj h), fun _ => nofun⟩
  let ledger : DerivationLedger := ((none, s.work.diagnostics.stopReason, pairs ++ [withheld]), published)
  refine (Triple.bind (P := (· = s)) (Q := fun _ s' => s'.ledger = ledger)
    (Triple.modify fun _ hs => ?_) fun _ => ?_) s rfl
  · subst hs
    refine Prod.ext (Prod.ext hrunning (Prod.ext rfl ?_)) hpublished
    exact (congrArg (updateLast _) hpairs).trans (updateLast_append _ _ _)
  · refine Triple.bind (Triple.forM (I := fun _ (s : Derivation) => s.ledger = ledger)
      fun reason _ _ => (addPairExclusions_ledger _ _ _ _ (by intro h; cases h)).conseq
        (fun _ h => h) (fun _ _ h => h) fun _ s' h _ => ⟨h.stopped, ?_⟩) fun _ =>
      Triple.pure fun s' h => ?_
    · exact Settles.of_unpublished h hreasoned
    · refine ⟨fun _ => congrArg (·.1.1) h, nofun, withheld, [], congrArg (·.1.2.2) h, ?_,
        hreasoned, Or.inr (Or.inr hcomplete)⟩
      rw [List.append_nil]
      exact congrArg (·.2) h

theorem encodePair_settles {retained : List Crossable} (hctx : ctx.Sound retained)
    (hadmitted : ctx.Admitted)
    (hmost : ctx.budget.limits.maxWirePointsPerPair ≤ maxRungsPerPair) {search : PairSearch}
    (hsearched : PairSearched ctx.budget.limits ctx.tokenIn ctx.tokenOut ctx.cachedUniverse.offers
      search.exact) :
    Triple (fun s => ctx.budget.Calm s.work ∧ ctx.Opened pairs published s)
      (ctx.encodePair search) (ctx.Ends pairs published) (ctx.Throws pairs published) := by
  obtain ⟨hsettles, hvalid⟩ := frontier_valid hctx hadmitted hmost hsearched
  have hcomplete : (∀ encoded truncationReasons, longestEncodableFrontier
      (ctx.frontier search.exact) ctx.budget.limits.maxWirePointsPerPair ctx.tokenIn ctx.tokenOut ≠
        .ok ⟨some encoded, truncationReasons⟩) → ctx.Complete [] := by
    intro hnone
    refine Or.inr ⟨search.exact, hsearched, ?_⟩
    rintro publication ⟨encoded, truncationReasons, hencode, -⟩
    exact absurd hencode (hnone encoded truncationReasons)
  unfold encodePair
  refine Triple.bind (((metered_opened (bestOutputFrontier_heeds ctx.budget _ _)).and
    (metered_leaves (P := fun _ => True) (Q := fun _ => True)
      (bestOutputFrontier_returns _ _ search.exact))).conseq (fun _ h => ⟨h, trivial⟩)
        (fun _ _ h => h) fun _ _ h => h.1) fun result => ?_
  cases result with
  | error stop =>
    exact (stopDiscovery_settles stop.global).pre fun _ h =>
      ⟨⟨_, h.1.1.pairs_eq.choose_spec.1⟩, h.1.1.published_eq⟩
  | ok exactFrontier =>
    rintro s ⟨⟨hopened, hcalm⟩, -, hreturns⟩
    refine (?_ : Triple (fun s => ctx.budget.Calm s.work ∧ ctx.Opened pairs published s) _ _ _) s
      ⟨hcalm _ rfl, hopened⟩
    have hfrontier : admittedFrontier (ctx.policy.minimum ctx.tokenOut) exactFrontier =
        ctx.frontier search.exact := by
      rw [hreturns exactFrontier rfl]
      rfl
    dsimp only
    rw [hfrontier]
    refine Triple.ite (fun hempty => ?_) fun hne => ?_
    · refine (withhold_settles none (emptyFrontierReason_ne search)
        (Or.inr (hcomplete fun encoded reasons h => ?_))).pre fun _ h => h.2
      rw [List.isEmpty_iff.mp hempty, longestEncodableFrontier_nil] at h
      cases h
    · split
      · exact Triple.throw fun _ _ => nofun
      · rename_i truncationReasons hencode
        refine (withholdTruncated_settles ?_ (hcomplete fun _ _ h => ?_)).pre fun _ h => h.2
        · refine (longestEncodableFrontier_truncation ?_ hsettles hencode).explained nofun
          exact fun hnil => hne (by rw [hnil]; rfl)
        · rw [hencode] at h
          cases h
      · rename_i encoded truncationReasons hencode
        exact unlessAborted_settles ((publishPair_settles _ hsearched hencode
          (hvalid encoded truncationReasons hencode)).pre fun _ h => h.2)

theorem searchPair_settles {retained : List Crossable} (hctx : ctx.Sound retained)
    (hadmitted : ctx.Admitted)
    (hmost : ctx.budget.limits.maxWirePointsPerPair ≤ maxRungsPerPair) :
    Triple (fun s => ctx.budget.Calm s.work ∧ ctx.Opened pairs published s) ctx.searchPair
      (ctx.Ends pairs published) (ctx.Throws pairs published) := by
  rintro s ⟨hcalm, hopened⟩
  have hheeds := enumeratePair_heeds hcalm ctx.cachedUniverse.offers ctx.tokenIn ctx.tokenOut
    ctx.tokenAt
  have hspec := @enumeratePair_spec ctx.budget ctx.cachedUniverse.offers ctx.tokenIn ctx.tokenOut
    ctx.tokenAt s.work hctx.tokenIn_mem hctx.tokenOut_mem hadmitted.distinct hctx.makers_pos
    hctx.makers_le (fun o ho => hctx.valid o (hctx.universe_sub.subset ho)) hctx.indexed
  have hrun : ctx.searchPair.outcome s =
      let search := enumeratePair ctx.budget ctx.cachedUniverse.offers ctx.tokenIn ctx.tokenOut
        ctx.tokenAt s.work
      (ctx.recordSearch search).outcome { s with work := search.work } := rfl
  rw [hrun]
  generalize enumeratePair ctx.budget ctx.cachedUniverse.offers ctx.tokenIn ctx.tokenOut
    ctx.tokenAt s.work = search at hheeds hspec
  have hrecorded : ∀ s' : Derivation, s' = { s with work := search.work } →
      ctx.Opened pairs published { s' with work := search.record s'.work } := by
    rintro _ rfl
    obtain ⟨diagnostic, hpairs, hreason⟩ := hopened.pairs_eq
    have hkept : search.work.diagnostics.pairs = pairs ++ [diagnostic] :=
      (congrArg (·.pairs) hheeds.frame_eq).trans hpairs
    exact ⟨(congrArg (·.globalStop) hheeds.frame_eq).trans hopened.running,
      ⟨_, (congrArg (updateLast _) hkept).trans (updateLast_append _ _ _), hreason⟩,
      hopened.published_eq⟩
  refine (?_ : Triple (· = { s with work := search.work }) (ctx.recordSearch search)
    (ctx.Ends pairs published) (ctx.Throws pairs published)) _ rfl
  unfold recordSearch
  split
  · exact Triple.throw fun _ _ => nofun
  · rename_i reason hstop
    refine Triple.bind (Q := fun _ => ctx.Opened pairs published) (Triple.modify hrecorded)
      fun _ => ?_
    have hglobal : ∀ stop, Triple (ctx.Opened pairs published) (ctx.stopDiscovery stop)
        (ctx.Ends pairs published) (ctx.Throws pairs published) := fun stop =>
      (stopDiscovery_settles stop).pre fun _ h =>
        ⟨⟨_, h.pairs_eq.choose_spec.1⟩, h.published_eq⟩
    cases reason with
    | abort reason => exact hglobal _
    | globalSearchCap => exact hglobal _
    | discoveryWorkCap => exact hglobal _
    | pairSearchCap => exact withhold_settles none nofun (Or.inl (Or.inr (Or.inl rfl)))
    | mergeOrderWorkCap => exact withhold_settles none nofun (Or.inl (Or.inr (Or.inr rfl)))
  · rename_i hstop
    refine Triple.bind (Q := fun _ s => ctx.budget.Calm s.work ∧ ctx.Opened pairs published s)
      (Triple.modify fun s' hs => ⟨?_, hrecorded s' hs⟩) fun _ => ?_
    · subst hs
      exact hheeds.calm_of_none hstop
    · exact unlessAborted_settles (encodePair_settles hctx hadmitted hmost (hspec hstop))

theorem examinePair_settles {retained : List Crossable} (hctx : ctx.Sound retained)
    (hdistinct : ctx.tokenIn ≠ ctx.tokenOut)
    (hmost : ctx.budget.limits.maxWirePointsPerPair ≤ maxRungsPerPair) :
    Triple (fun s => ctx.budget.Calm s.work ∧ ctx.Opened pairs published s) ctx.examinePair
      (ctx.Ends pairs published) (ctx.Throws pairs published) := by
  unfold examinePair
  refine Triple.bind (Q := fun _ s => ctx.budget.Calm s.work ∧ ctx.Opened pairs published s)
    (Triple.get fun _ h => h) fun _ => ?_
  refine Triple.ite (fun _ => ?_) fun _ => ?_
  · exact (@withhold_settles ctx pairs published .pairCap none nofun (Or.inl (Or.inl rfl))).pre
      fun _ h => h.2
  refine Triple.ite (fun hrefused => ?_) fun hsupported => ?_
  · refine (@withhold_settles ctx pairs published .unsupportedPair none nofun
      (Or.inr (Or.inl fun h => ?_))).pre fun _ h => h.2
    rw [h.supported] at hrefused
    cases hrefused
  refine Triple.ite (fun hlacks => ?_) fun hbounded => ?_
  · refine (@withhold_settles ctx pairs published .minimumOutput none nofun
      (Or.inr (Or.inl fun h => ?_))).pre fun _ h => h.2
    rw [h.bounded] at hlacks
    cases hlacks
  exact unlessAborted_settles (searchPair_settles hctx
    ⟨hdistinct, by simpa using hsupported, by simpa using hbounded⟩ hmost)

/-- Where a pass leaves the loop: it examined its pair, skipped it, or stopped before it. -/
structure Left (ctx : PairContext) (pairs : List LadderPairDiagnostic)
    (published : List Publication) (flow : PairFlow) (s : Derivation) : Prop where
  next : flow = .next → s.work.globalStop = none
  stop : flow = .breakPairDiscovery → s.Stopped
  settles : ctx.Settles pairs published s ∨ (s.work.diagnostics.pairs = pairs ∧
    s.published = published ∧ (flow = .next → ctx.tokenOut = ctx.tokenIn))

/-- The work a pass notes at its end does not change how the pair is settled. -/
theorem Settles.note {s : Derivation} (h : ctx.Settles pairs published s)
    (f : LadderPairDiagnostic → LadderPairDiagnostic)
    (hf : ∀ diagnostic, (f diagnostic).published = diagnostic.published ∧
      (f diagnostic).reason = diagnostic.reason) :
    ctx.Settles pairs published { s with work := s.work.updatePair f } := by
  obtain ⟨diagnostic, publications, h⟩ := h
  obtain ⟨hpublished, hreason⟩ := hf diagnostic
  refine ⟨f diagnostic, publications, ?_, h.published_eq, ⟨?_, ?_⟩, ?_⟩
  · exact (congrArg (updateLast f) h.pairs_eq).trans (updateLast_append _ _ _)
  · rw [hreason]
    exact h.reasoned.valid
  · rw [hreason, hpublished]
    exact h.reasoned.reasoned
  · unfold LadderPairDiagnostic.Capped
    rw [hreason]
    exact h.complete

/-- **One pass** settles its pair. -/
theorem pass_settles {retained : List Crossable} (hctx : ctx.Sound retained)
    (hmost : ctx.budget.limits.maxWirePointsPerPair ≤ maxRungsPerPair) :
    Triple (fun s => ctx.budget.Calm s.work ∧ s.work.globalStop = none ∧
        s.work.diagnostics.pairs = pairs ∧ s.published = published) ctx.pass
      (ctx.Left pairs published) (ctx.Throws pairs published) := by
  unfold pass
  refine Triple.ite (fun hsame => ?_) fun hdistinct => ?_
  · exact Triple.pure fun s h => ⟨fun _ => h.2.1, nofun, Or.inr ⟨h.2.2.1, h.2.2.2, fun _ => hsame⟩⟩
  refine Triple.bind (Q := fun _ s => ctx.budget.Calm s.work ∧ s.work.globalStop = none ∧
    s.work.diagnostics.pairs = pairs ∧ s.published = published) (Triple.get fun _ h => h)
    fun before => ?_
  have hstop : ∀ stop, Triple (fun s => s.work.diagnostics.pairs = pairs ∧
      s.published = published) (do Derive.setStop stop; return .breakPairDiscovery)
      (ctx.Left pairs published) (ctx.Throws pairs published) := fun stop =>
    Triple.bind (Q := fun _ s => s.Stopped ∧ s.work.diagnostics.pairs = pairs ∧
      s.published = published) (Triple.modify fun s h => ⟨stopped_setStop stop s, h⟩) fun _ =>
      Triple.pure fun _ h => ⟨nofun, fun _ => h.1, Or.inr ⟨h.2.1, h.2.2, nofun⟩⟩
  refine Triple.ite (fun _ => (hstop _).pre fun _ h => h.2.2) fun _ => ?_
  have hledger : Triple (fun s => s.work.globalStop = none ∧ s.work.diagnostics.pairs = pairs ∧
      s.published = published) (Derive.metered (ctx.budget.charge 1))
      (fun _ s => s.work.globalStop = none ∧ s.work.diagnostics.pairs = pairs ∧
        s.published = published) (ctx.Throws pairs published) := by
    intro s h
    have hcharge := @metered_charge_ledger ctx.budget
      ((none, s.work.diagnostics.stopReason, pairs), published) (ctx.Throws pairs published)
    exact (hcharge.conseq (fun _ h => h) (fun _ _ h => ⟨congrArg (·.1.1) h,
      congrArg (·.1.2.2) h, congrArg (·.2) h⟩) (fun _ _ h => h) : Triple _ _
        (fun _ s => s.work.globalStop = none ∧ s.work.diagnostics.pairs = pairs ∧
          s.published = published) _) s (Prod.ext (Prod.ext h.1 (Prod.ext rfl h.2.1)) h.2.2)
  refine Triple.bind (((metered_calm (E := ctx.Throws pairs published)
    (ctx.budget.charge_heeds 1)).and hledger).conseq (fun _ h => ⟨h.1, h.2⟩) (fun _ _ h => h)
      fun _ _ h => h.2) fun charged => ?_
  cases charged with
  | error stop => exact (hstop _).pre fun _ h => h.2.2
  | ok _ =>
    refine Triple.bind (Q := fun _ s => ctx.budget.Calm s.work ∧ ctx.Opened pairs published s)
      (Triple.modify fun s h => ⟨h.1 nofun, h.2.1, ⟨ctx.diagnostic, ?_, rfl⟩, h.2.2.2⟩) fun _ => ?_
    · exact congrArg (· ++ [ctx.diagnostic]) h.2.2.1
    · refine (examinePair_settles hctx (Ne.symm hdistinct) hmost).ensuring (fun _ s h => ?_)
        fun _ s h hexit => ⟨(h hexit).1, (h hexit).2.note _ fun _ => ⟨rfl, rfl⟩⟩
      exact ⟨h.next, h.stop, Or.inl (h.settles.note _ fun _ => ⟨rfl, rfl⟩)⟩

end PairContext

end ZswapKernel
