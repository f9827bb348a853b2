import ZswapKernel.Solver.SwapBuilds

/-!
# How a build ends

A build resolves or fails, in time or after the wallet's deadline has answered the job. In time its
half goes to the relay; late, it is given back to the wallet. What a failure leaves in the wallet is
kept in a record, and a failure that leaves nothing frees the claim.

An error of the build may find the record of the half already made, when the half cannot be
serialized (`FailsAt`); such an error says nothing of the wallet.
-/

namespace ZswapKernel

open Program

/-! ## What is no record changes -/

section Rest

variable {job : SwapJob} {generation : Nat}

theorem SwapJob.Good.setRest (h : job.Good) (tombstone : Option Int) (answers : List SwapAnswer)
    (released : List Claim) (completed reverted : List Nat) :
    ({ job with tombstone, answers, released, completed, reverted } : SwapJob).Good where
  sound := { h.sound with }
  tidy := { h.tidy with }
  opened other hlive := h.opened other (hlive.same rfl rfl rfl)
  below := h.below.same rfl rfl
  blank := h.blank

theorem Act.ends_answer {E : Interrupt → Turn → Prop} (answer : SwapAnswer) :
    Triple (Ends job generation) (Act.answer answer) (fun _ => Ends job generation) E :=
  Triple.modify fun _ h => ⟨h.wrote.of_crash rfl, h.good.setRest _ _ _ _ _⟩

theorem Act.ends_releaseBuild {E : Interrupt → Turn → Prop} (building : BuildingJob) :
    Triple (Ends job generation) (releaseBuild building) (fun _ => Ends job generation) E :=
  fun _ h => ⟨h.wrote.of_crash rfl, h.good.setRest _ _ _ _ _⟩

end Rest

/-! ## The memory a build leaves -/

section Memory

variable {job memory : SwapJob} {generation : Nat}

/-- The half of the build has its record. -/
theorem Cleared.await (h : Cleared job generation memory) (record : JobRecord)
    (hgeneration : record.generation = generation)
    (hlocal : record.locallyRevertible ≠ some true) :
    Cleared job generation { memory with
      records := memory.records ++ [record], awaiting := some memory.records.length } := by
  have hready := h.newRecord record hgeneration fun h => absurd h hlocal
  refine ⟨hready.setMaps (some memory.records.length) memory.confirmations memory.quarantined ?_
    hready.tidy.confirmations hready.tidy.quarantined, h.restored, h.idle, ?_, h.next⟩
  · intro index hindex
    cases hindex
    exact SwapJob.Remote.appended hlocal
  · intro index hindex hsame
    rw [List.length_append, List.length_singleton] at hindex
    rcases Nat.lt_or_eq_of_le (Nat.le_of_lt_succ hindex) with hindex | rfl
    · rintro ⟨hrecord, hprotected⟩
      have hkept := SwapJob.record_append record hindex
      refine h.unprotected index hindex ((congrArg JobRecord.generation hkept).symm.trans hsame)
        ⟨(congrArg JobRecord.locallyRevertible hkept).symm.trans hrecord, ?_⟩
      exact hprotected.imp_left fun hidle hreverting =>
        hidle ((congrArg JobRecord.reverting hkept).trans hreverting)
    · rintro ⟨hrecord, _⟩
      exact hlocal ((congrArg JobRecord.locallyRevertible
        (SwapJob.record_appended record)).symm.trans hrecord)

/-- A record is kept under quarantine. -/
theorem Cleared.quarantine (h : Cleared job generation memory) (record : JobRecord)
    (hgeneration : record.generation = generation)
    (hlocal : record.locallyRevertible = some true → memory.Bare generation) :
    Ready job generation False { memory with
      records := memory.records ++ [record], quarantined := some memory.records.length } := by
  have hready := h.newRecord record hgeneration hlocal
  refine hready.setMaps memory.awaiting memory.confirmations (some memory.records.length)
    hready.tidy.awaiting hready.tidy.confirmations fun index hindex => ?_
  cases hindex
  simp

/-- Where an error of the build finds the job. -/
def FailsAt (job : SwapJob) (generation : Nat) : Interrupt → Turn → Prop
  | .thrown error, turn => ∃ memory, Pinned job generation False memory turn ∧
      Cleared job generation { memory with building := none } ∧
      (memory.Bare generation ∨ error.isRefusal = false)
  | .crashed, turn => SwapJob.Wrote generation job turn.job

theorem FailsAt.of_failed {interrupt : Interrupt} {turn : Turn}
    (h : Act.FailedBuild job generation interrupt turn) : FailsAt job generation interrupt turn := by
  cases interrupt with
  | thrown error =>
    obtain ⟨memory, hbuild, hturn⟩ := h
    exact ⟨memory, hturn, hbuild.cleared, Or.inl hbuild.bare⟩
  | crashed => exact h

theorem Builds.ends {turn : Turn} (h : Builds job generation turn) : Ends job generation turn := by
  obtain ⟨memory, hbuild, hturn⟩ := h
  exact hturn.ends hbuild.ready

theorem Builds.leaves {turn : Turn} (h : Builds job generation turn) (interrupt : Interrupt) :
    Leaves job generation interrupt turn := by
  obtain ⟨memory, hbuild, hturn⟩ := h
  exact hturn.leaves hbuild.ready interrupt

end Memory

/-- A part of the memory. -/
theorem SwapJob.of_memory {α : Type} {job job' : SwapJob} (view : SwapJob → α)
    (hview : ∀ job, view job.memory = view job) (h : job'.memory = job.memory) :
    view job' = view job := by
  rw [← hview job', h, hview job]

namespace Act

variable {job memory : SwapJob} {generation : Nat} {opened : Prop} {α β : Type}

/-! ## Rules -/

/-- What is read of the memory is what is pinned. -/
theorem rule_getMemory {Q : β → Turn → Prop} {E : Interrupt → Turn → Prop} {f : SwapJob → Act β}
    (hf : ∀ found : SwapJob, found.memory = memory.memory →
      Triple (Pinned job generation opened memory) (f found) Q E) :
    Triple (Pinned job generation opened memory) (getJob >>= f) Q E :=
  fun turn h => hf turn.job h.memory turn h

/-- What an error finds is proved from the memory it finds. -/
theorem rule_failsAt {Q : α → Turn → Prop} {E : Interrupt → Turn → Prop} {m : Act α}
    {error : JobError} (h : ∀ memory : SwapJob,
      Cleared job generation { memory with building := none } →
      memory.Bare generation ∨ error.isRefusal = false →
      Triple (Pinned job generation False memory) m Q E) :
    Triple (FailsAt job generation (.thrown error)) m Q E := by
  rintro turn ⟨memory, hturn, hcleared, hbare⟩
  exact h memory hcleared hbare turn hturn

/-- How a dependency throws. -/
theorem triple_dependency (error : String → JobError) :
    Triple (Pinned job generation opened memory) (dependency error)
      (fun _ => Pinned job generation opened memory)
      (fun interrupt turn => Pinned job generation opened memory turn ∧
        ∃ message, interrupt = .thrown (error message)) := by
  intro turn h
  unfold dependency
  simp only [outcome_bind, outcome_get]
  cases turn.dependencies with
  | nil => exact h
  | cons answer answers =>
    simp only [outcome_bind, outcome_modify]
    cases answer with
    | none => exact h.of_job rfl
    | some message => exact ⟨h.of_job rfl, message, rfl⟩

variable {building : BuildingJob}

/-! ## What a failure keeps -/

theorem leaves_quarantineUncertain (code message : String) (hcleared : Cleared job generation memory)
    (hgeneration : building.generation = generation) :
    LeavesTriple job generation False memory (quarantineUncertain building code message) := by
  subst hgeneration
  refine rule_keeps (keeps_quarantineGroup _ _)
    (fun interrupt _ h => h.leaves hcleared.ready interrupt) fun _ => ?_
  exact rule_newRecord (rule_modify_last _ (fun _ => rfl) (fun _ => rfl) fun turn h =>
    h.ends (hcleared.quarantine _ rfl fun h => by cases h))

/-- An uncertain wallet keeps a record; the other errors keep none. -/
theorem triple_retainCleanupFailure (error : JobError) (hcleared : Cleared job generation memory)
    (hgeneration : building.generation = generation)
    (hbare : memory.Bare generation ∨ error.isRefusal = false) :
    Triple (Pinned job generation False memory) (retainCleanupFailure building error)
      (fun retained turn => if retained then Ends job generation turn
        else Pinned job generation False memory turn)
      (Leaves job generation) := by
  subst hgeneration
  cases error with
  | walletMutationUncertain message raw transaction =>
    have hbare := hbare.resolve_right fun h => by cases h
    exact rule_newRecord (rule_modify _ (fun _ => rfl) (fun _ => rfl) (Triple.pure fun turn h =>
      h.ends (hcleared.quarantine _ rfl fun _ => hbare)))
  | walletCleanupFailure message transaction =>
    exact rule_newRecord (rule_modify _ (fun _ => rfl) (fun _ => rfl) (Triple.pure fun turn h =>
      h.ends (hcleared.await _ rfl fun h => by cases h).ready))
  | other message => exact Triple.pure fun _ h => h
  | jobRefusal reason detail => exact Triple.pure fun _ h => h

theorem leaves_failBuild (error : JobError) (hcleared : Cleared job generation memory)
    (hgeneration : building.generation = generation) :
    LeavesTriple job generation False memory (failBuild building error) := by
  subst hgeneration
  refine Triple.bind (Q := fun _ => Ends job building.generation) ?_ fun _ => ?_
  · refine triple_attempt (E := Throws job building.generation False memory) ?_
      (fun error => leaves_quarantineUncertain _ _ hcleared rfl) fun _ h => h
    refine rule_read (fun turn => ⟨_, rfl⟩) fun nonterminal => ?_
    refine Triple.ite (fun _ => ?_) fun _ => Triple.pure fun _ h => h.ends hcleared.ready
    exact (triple_markFailed hcleared.ready.sound _).conseq (fun _ h => h)
      (fun _ _ h => h.1.ends hcleared.ready) fun _ _ h => h.throws _
  · refine Triple.bind (Q := fun _ => Ends job building.generation) (fun _ h => h) fun nonterminal => ?_
    exact Triple.ite (fun _ => ends_releaseBuild building) fun _ => Triple.pure fun _ h => h

/-- The `catch` of `executeSwap`. -/
theorem leaves_executeSwapFailed (error : JobError) (hgeneration : building.generation = generation) :
    Triple (FailsAt job generation (.thrown error)) (executeSwapFailed building error)
      (fun _ => Ends job generation) (Leaves job generation) := by
  refine rule_failsAt fun memory hcleared hbare => rule_modify _ (fun _ => rfl) (fun _ => rfl) ?_
  refine Triple.bind (triple_retainCleanupFailure error hcleared hgeneration hbare) fun retained => ?_
  refine Triple.bind (Q := fun _ => Ends job generation) ?_ fun _ => ends_answer _
  cases retained with
  | true => exact Triple.pure fun _ h => h
  | false => exact leaves_failBuild error hcleared hgeneration

/-! ## In time -/

/-- The half goes to the relay. -/
theorem triple_buildResolved (walletTransaction : WalletTransaction)
    (hgeneration : building.generation = generation) :
    Triple (Builds job generation) (buildResolved building walletTransaction)
      (fun _ => Ends job generation) (FailsAt job generation) := by
  subst hgeneration
  refine Builds.triple fun memory hbuild => ?_
  have hfails : ∀ interrupt turn, Pinned job building.generation True memory turn →
      FailsAt job building.generation interrupt turn := fun interrupt turn h =>
    FailsAt.of_failed (Builds.failed ⟨memory, hbuild, h⟩ interrupt)
  refine rule_owns ?_ (Triple.ite (fun _ => Triple.throw (hfails _)) fun h => absurd rfl h)
  refine Triple.ite (fun h => by cases h) fun _ => ?_
  refine rule_keeps keeps_markAwaitingRelay hfails fun _ => ?_
  refine rule_newRecord (rule_modify _ (fun _ => rfl) (fun _ => rfl) ?_)
  have hawaits := hbuild.cleared.await
    { generation := building.generation
      claim := building.claim
      walletTransaction := some walletTransaction
      ttlExpiresAt := building.ttlExpiresAt
      reverting := some false
      relayAccepted := some true } rfl fun h => by cases h
  refine Triple.bind ((triple_dependency _).conseq (fun _ h => h.mono False.elim) (fun _ _ h => h) ?_)
    fun _ => ?_
  · rintro interrupt turn ⟨hturn, message, rfl⟩
    exact ⟨_, hturn, hawaits, Or.inr rfl⟩
  · exact (ends_answer _).pre fun turn h => h.ends hawaits.ready

theorem leaves_buildInTime {build : Act BuildStep} (hgeneration : building.generation = generation)
    (hbuild : BuildTriple job generation build) :
    Triple (Builds job generation) (buildInTime building build) (fun _ => Ends job generation)
      (Leaves job generation) := by
  refine triple_attempt (E := FailsAt job generation) ?_
    (fun error => leaves_executeSwapFailed error hgeneration) fun _ h => h
  refine Triple.bind (hbuild.conseq (fun _ h => h) (fun _ _ h => h) fun _ _ h => .of_failed h)
    fun step => ?_
  cases step with
  | suspended => exact Triple.pure fun _ h => h.ends
  | resolved walletTransaction => exact triple_buildResolved walletTransaction hgeneration

/-! ## Late -/

/-- The half goes back to the wallet. -/
theorem leaves_lateResolved (options : SwapJobOptions) (walletTransaction : WalletTransaction)
    (hgeneration : building.generation = generation) :
    Triple (Builds job generation) (lateResolved options building walletTransaction)
      (fun _ => Ends job generation) (Leaves job generation) := by
  subst hgeneration
  refine Builds.triple fun memory hbuild => Triple.pre ?_ fun _ h => h.mono False.elim
  refine rule_newRecord (rule_modify _ (fun _ => rfl) (fun _ => rfl) ?_)
  have hawaits := hbuild.cleared.await
    { generation := building.generation
      claim := building.claim
      walletTransaction := some walletTransaction
      ttlExpiresAt := building.ttlExpiresAt
      reverting := some false
      relayAccepted := some false } rfl fun h => by cases h
  refine (ends_revertWallet options false hawaits.ready (hawaits.ready.tidy.awaiting _ rfl) ?_).leaves
  exact congrArg JobRecord.generation (SwapJob.record_appended _)

theorem leaves_lateRejected (error : JobError) (hgeneration : building.generation = generation) :
    Triple (FailsAt job generation (.thrown error)) (lateRejected building error)
      (fun _ => Ends job generation) (Leaves job generation) := by
  refine rule_failsAt fun memory hcleared hbare => rule_modify _ (fun _ => rfl) (fun _ => rfl) ?_
  refine Triple.bind (triple_retainCleanupFailure error hcleared hgeneration hbare) fun retained => ?_
  cases retained with
  | true => exact Triple.pure fun _ h => h
  | false =>
    refine rule_read (fun turn => ⟨_, rfl⟩) fun nonterminal => ?_
    refine Triple.ite (fun _ => leaves_quarantineUncertain _ _ hcleared hgeneration) fun _ => ?_
    exact (ends_releaseBuild building).pre fun turn h => h.ends hcleared.ready

/-- What a build the deadline has passed comes to in a turn. -/
def Late (job : SwapJob) (generation : Nat) : Except JobError BuildStep → Turn → Prop
  | .ok _, turn => Builds job generation turn
  | .error error, turn => FailsAt job generation (.thrown error) turn

theorem leaves_buildLate (options : SwapJobOptions) {build : Act BuildStep}
    (hgeneration : building.generation = generation) (hbuild : BuildTriple job generation build) :
    Triple (Builds job generation) (buildLate options building build) (fun _ => Ends job generation)
      (Leaves job generation) := by
  refine Triple.bind (Q := Late job generation) ?_ fun outcome => ?_
  · refine triple_attempt (E := FailsAt job generation) ?_ (fun error => Triple.pure fun _ h => h)
      fun _ h => h
    exact Triple.bind (hbuild.conseq (fun _ h => h) (fun _ _ h => h) fun _ _ h => .of_failed h)
      fun step => Triple.pure fun _ h => h
  · cases outcome with
    | error error => exact leaves_lateRejected error hgeneration
    | ok step =>
      cases step with
      | suspended => exact Triple.pure fun _ h => Builds.ends h
      | resolved walletTransaction =>
        exact leaves_lateResolved options walletTransaction hgeneration

/-! ## The turns of a build -/

/-- What the build waits for has come. -/
theorem leaves_buildReplied (options : SwapJobOptions) (reply : Except String Unit)
    (hbuild : AtBuild job generation memory) :
    LeavesTriple job generation True memory (buildReplied options reply) := by
  obtain ⟨building, hsome, rfl⟩ := hbuild.building
  refine rule_getMemory fun found hfound => ?_
  have hbuilding : found.building = some building :=
    (SwapJob.of_memory (·.building) (fun _ => rfl) hfound).trans hsome
  have hkeys := hbuild.ready.tidy.children building hsome
  rw [hbuilding]
  refine Triple.pre (P := Builds job building.generation) ?_ fun _ h => ⟨memory, hbuild, h⟩
  refine Triple.ite (fun _ => ?_) fun _ => Triple.ite (fun _ => ?_) fun _ => ?_
  · exact leaves_buildInTime rfl (keepsBuild_exactFilesReplied reply).fails
  · exact leaves_buildLate options rfl (fails_buildHalf options reply rfl hkeys)
  · exact leaves_buildInTime rfl (fails_buildHalf options reply rfl hkeys)

theorem leaves_walletDeadline (hbuild : AtBuild job generation memory) :
    LeavesTriple job generation True memory walletDeadline := by
  obtain ⟨building, hsome, rfl⟩ := hbuild.building
  refine rule_getMemory fun found hfound => ?_
  have hbuilding : found.building = some building :=
    (SwapJob.of_memory (·.building) (fun _ => rfl) hfound).trans hsome
  rw [hbuilding]
  refine Triple.pre (P := Builds job building.generation) ?_ fun _ h => ⟨memory, hbuild, h⟩
  refine Triple.ite (fun _ => Triple.pure fun _ h => h.ends) fun _ => ?_
  have hkeeps {m : Act Unit} (hm : KeepsBuild job building.generation m) :
      Triple (Builds job building.generation) m (fun _ => Builds job building.generation)
        (Leaves job building.generation) :=
    hm.conseq (fun _ h => h) (fun _ _ h => h) fun interrupt _ h => h.leaves interrupt
  refine Triple.bind (hkeeps (keepsBuild_modifyBuilding _ (fun _ => rfl) fun _ _ h => h)) fun _ => ?_
  refine Triple.bind (hkeeps (.of_keeps fun _ _ => keeps_quarantineGroup _ _)) fun _ => ?_
  exact (ends_answer _).pre fun _ h => h.ends

theorem leaves_stopBuilding (hbuild : AtBuild job generation memory) :
    LeavesTriple job generation True memory stopBuilding := by
  obtain ⟨building, hsome, rfl⟩ := hbuild.building
  refine rule_getMemory fun found hfound => ?_
  have hbuilding : found.building = some building :=
    (SwapJob.of_memory (·.building) (fun _ => rfl) hfound).trans hsome
  rw [hbuilding]
  have hignored : Keeps job building.generation True memory
      (attempt (quarantineGroup building.generation "SHUTDOWN_IN_FLIGHT"
        "shutdown deadline elapsed before wallet work acknowledged completion") fun _ => pure ()) :=
    (keeps_quarantineGroup _ _).attempt fun _ => Keeps.pure
  exact hignored.conseq (fun _ h => h) (fun _ _ h => h.ends hbuild.ready)
    fun interrupt _ h => h.leaves hbuild.ready interrupt

end Act

end ZswapKernel
