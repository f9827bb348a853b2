import ZswapKernel.Solver.SwapBuildEnds

/-!
# What a job does on an event

Every event is heard in a turn that acts in one generation (`Acts`): that of the build, of the record
the turn is about, of the settlement row startup finds, or a new one. Whether the turn returns or
throws, the job it leaves is `Good`.
-/

namespace ZswapKernel

open Program

/-- A good job is where its turns begin. -/
theorem SwapJob.Good.ready {job : SwapJob} (h : job.Good) (generation : Nat) :
    Ready job generation (¬ job.journal.Closed generation) job :=
  ⟨h.sound, h.tidy, h.below, h.blank, h.opened generation, fun other _ => h.opened other⟩

theorem SwapJob.Good.restore {job : SwapJob} (h : job.Good) :
    ({ job with restored := true } : SwapJob).Good where
  sound := { h.sound with }
  tidy := { h.tidy with }
  opened other hlive := h.opened other (hlive.same rfl rfl rfl)
  below := h.below.same rfl rfl
  blank h := by cases h

namespace Act

attribute [local irreducible] markRelaySubmitted markRelayFailed

variable {job memory : SwapJob} {generation index : Nat} {opened : Prop}

/-- From `memory`, `m` acts in one generation. -/
def Acts (job memory : SwapJob) (m : Act Unit) : Prop :=
  ∃ generation, LeavesTriple job generation (¬ job.journal.Closed generation) memory m

theorem EndsTriple.acts {m : Act Unit}
    (h : EndsTriple job generation (¬ job.journal.Closed generation) memory m) : Acts job memory m :=
  ⟨generation, h.leaves⟩

/-- A turn that does nothing acts in any generation. -/
theorem acts_pure (hgood : job.Good) : Acts job job (pure ()) :=
  ⟨0, Triple.pure fun _ h => h.ends (hgood.ready 0)⟩

/-- What acts on the memory read acts on the memory pinned. -/
theorem acts_getMemory {f : SwapJob → Act Unit} {m : Act Unit} (h : Acts job memory m)
    (hf : ∀ found : SwapJob, found.memory = memory.memory → f found = m) :
    Acts job memory (getJob >>= f) := by
  obtain ⟨generation, hacts⟩ := h
  refine ⟨generation, rule_getMemory fun found hfound => ?_⟩
  rw [hf found hfound]
  exact hacts

theorem acts_modify {m : Act Unit} (change : SwapJob → SwapJob)
    (hcrash : ∀ job, (change job).crash = job.crash)
    (hmemory : ∀ job, (change job).memory = (change job.memory).memory)
    (h : Acts job (change memory) m) :
    Acts job memory (modifyJob change >>= fun _ => m) := by
  obtain ⟨generation, hacts⟩ := h
  exact ⟨generation, rule_modify change hcrash hmemory hacts⟩

/-! ## The terminal chain -/

/-- An operation on a record the relay decides is put into the chain. -/
theorem ends_enqueueTerminal (operation : TerminalOperation)
    (hready : Ready job generation opened memory)
    (hremote : ∀ index, operation.record = some index → memory.Remote index) :
    EndsTriple job generation opened memory (enqueueTerminal operation) := by
  refine rule_modify_last _ (fun _ => rfl) (fun _ => rfl) fun turn h => h.ends ?_
  refine hready.of_tidy { hready.tidy with chain := ?_ } (hready.below.same rfl rfl) hready.blank
    fun _ hlive => hlive.same rfl rfl rfl
  intro other hother index hindex
  rcases List.mem_append.mp hother with hother | hother
  · exact hready.tidy.chain other hother index hindex
  · rw [List.mem_singleton.mp hother] at hindex
    exact hremote index hindex

/-- A message of the relay acts on a record the relay decides, or on none. -/
theorem acts_onRelayMessage {act : Nat → Act Unit}
    (hready : ∀ generation, Ready job generation (¬ job.journal.Closed generation) memory)
    (hact : ∀ index, memory.Remote index → EndsTriple job (memory.record index).generation
      (¬ job.journal.Closed (memory.record index).generation) memory (act index)) :
    Acts job memory (onRelayMessage act) := by
  have hpure (generation : Nat) : EndsTriple job generation (¬ job.journal.Closed generation) memory
      (pure ()) := Triple.pure fun _ h => h.ends (hready generation)
  have hfound : ∀ found : SwapJob, found.memory = memory.memory →
      activeReceiptRecord found = activeReceiptRecord memory :=
    fun found hfound => SwapJob.of_memory activeReceiptRecord (fun _ => rfl) hfound
  have htidy := (hready 0).tidy
  cases hactive : activeReceiptRecord memory with
  | none =>
    refine ⟨0, rule_getMemory fun found hmemory => ?_⟩
    rw [(hfound found hmemory).trans hactive]
    exact (hpure 0).leaves
  | some index =>
    have hlt : index < memory.records.length := by
      unfold activeReceiptRecord at hactive
      rcases Option.or_eq_some_iff.mp hactive with hactive | ⟨_, hactive⟩
      · rcases Option.or_eq_some_iff.mp hactive with hactive | ⟨_, hactive⟩
        · exact (htidy.awaiting index hactive).1
        · exact (htidy.confirmations index hactive).1
      · exact htidy.quarantined index hactive
    refine ⟨(memory.record index).generation, rule_getMemory fun found hmemory => ?_⟩
    rw [(hfound found hmemory).trans hactive]
    refine rule_getRecord (Triple.ite (fun hhears => ?_) fun _ => (hpure _).leaves)
    refine (hact index ⟨hlt, fun hlocal => ?_⟩).leaves
    simp [JobRecord.hearsRelay, hlocal] at hhears

theorem acts_runTerminal (operation : TerminalOperation)
    (hready : ∀ generation, Ready job generation (¬ job.journal.Closed generation) memory)
    (hremote : ∀ index, operation.record = some index → memory.Remote index) :
    Acts job memory (runTerminal operation) := by
  cases operation with
  | txSubmitted txId =>
    exact acts_onRelayMessage hready fun index hindex =>
      ends_reconcileRelayDone txId true (hready _) hindex rfl
  | submitFailed reason =>
    exact acts_onRelayMessage hready fun index hindex =>
      ends_reconcileRelayFailure true (hready _) hindex rfl
  | reconcileFromHttp index =>
    exact (ends_reconcileFromHttp true (hready (memory.record index).generation)
      (hremote index rfl)).acts
  | reconcileDurableEvidence index =>
    exact ⟨_, leaves_reconcileDurableEvidence true (hready _) (hremote index rfl) rfl⟩

theorem acts_startTerminal (hgood : job.Good) : Acts job job startTerminal := by
  cases hchain : job.terminalChain with
  | nil =>
    refine acts_getMemory (acts_pure hgood) fun found hfound => ?_
    rw [(SwapJob.of_memory (·.terminalChain) (fun _ => rfl) hfound).trans hchain]
  | cons operation rest =>
    by_cases hqueued : job.tasks.any (·.queued)
    · refine acts_getMemory (acts_pure hgood) fun found hfound => ?_
      have htasks : found.tasks = job.tasks := SwapJob.of_memory (·.tasks) (fun _ => rfl) hfound
      rw [(SwapJob.of_memory (·.terminalChain) (fun _ => rfl) hfound).trans hchain, htasks]
      exact if_pos hqueued
    · have hrun : Acts job { job with terminalChain := rest } (runTerminal operation) :=
        acts_runTerminal operation (fun generation => (hgood.ready generation).of_tidy { hgood.tidy with
          chain := fun other hother => hgood.tidy.chain other
            (hchain ▸ List.mem_cons_of_mem _ hother) } (hgood.below.same rfl rfl) hgood.blank
          fun _ hlive => hlive.same rfl rfl rfl)
        (hgood.tidy.chain operation (hchain ▸ List.mem_cons_self))
      refine acts_getMemory (acts_modify (fun job => { job with terminalChain := rest })
        (fun _ => rfl) (fun _ => rfl) hrun)
        fun found hfound => ?_
      have htasks : found.tasks = job.tasks := SwapJob.of_memory (·.tasks) (fun _ => rfl) hfound
      rw [(SwapJob.of_memory (·.terminalChain) (fun _ => rfl) hfound).trans hchain, htasks]
      exact if_neg hqueued

/-! ## Replies -/

/-- The tasks of a job but one. -/
theorem mem_eraseIdx_cases {tasks : List JobTask} {index : Nat} {task : JobTask}
    (h : tasks[index]? = some task) {R : JobTask → JobTask → Prop}
    (hR : tasks.Pairwise R) : ∀ other ∈ tasks.eraseIdx index, R other task ∨ R task other := by
  obtain ⟨hindex, rfl⟩ := List.getElem?_eq_some_iff.mp h
  have hsplit := List.take_append_drop index tasks
  rw [List.drop_eq_getElem_cons hindex] at hsplit
  rw [← hsplit] at hR
  obtain ⟨_, hright, hacross⟩ := List.pairwise_append.mp hR
  intro other hother
  rw [List.eraseIdx_eq_take_drop_succ] at hother
  rcases List.mem_append.mp hother with hother | hother
  · exact Or.inl (hacross other hother _ List.mem_cons_self)
  · exact Or.inr ((List.pairwise_cons.mp hright).1 other hother)

/-- The memory in which a task resumes. -/
structure Resumes (job : SwapJob) (task : JobTask) (memory : SwapJob) : Prop where
  ready : ∀ generation, Ready job generation (¬ job.journal.Closed generation) memory
  lt : task.record < memory.records.length
  isLocal : (memory.record task.record).locallyRevertible = some true ↔ task.suspension.retries
  reverting : task.suspension.reverts → (memory.record task.record).reverting = some true
  /-- No other task reverts its record. -/
  idle : task.suspension.reverts → ∀ other ∈ memory.tasks, other.record = task.record →
    other.suspension.reverts = false

theorem Resumes.of_good (hgood : job.Good) {task : JobTask}
    (htask : job.tasks[index]? = some task) :
    Resumes job task { job with tasks := job.tasks.eraseIdx index } := by
  have hmem := List.mem_of_getElem? htask
  obtain ⟨hlt, hlocal⟩ := hgood.tidy.tasks task hmem
  have hsub := List.eraseIdx_sublist job.tasks index
  refine ⟨fun generation => (hgood.ready generation).of_tidy (hgood.tidy.sublist hsub)
    (hgood.below.same rfl rfl) hgood.blank fun _ hlive => ?_, hlt, hlocal,
    hgood.tidy.reverting task hmem, fun hreverts other hother hrecord => ?_⟩
  · exact hlive.of_records (fun building hsome => ⟨building, hsome, rfl⟩)
      (fun task htask _ => hsub.subset htask) fun _ _ => rfl
  · by_contra hother'
    have hother' : other.suspension.reverts = true := by simpa using hother'
    rcases mem_eraseIdx_cases htask hgood.tidy.once other hother with honce | honce
    · exact honce hother' hreverts hrecord
    · exact honce hreverts hother' hrecord.symm

theorem Resumes.remote {task : JobTask} (h : Resumes job task memory)
    (hretries : task.suspension.retries = false) : memory.Remote task.record := by
  refine ⟨h.lt, fun hlocal => ?_⟩
  rw [h.isLocal.mp hlocal] at hretries
  cases hretries

/-- A task that retries holds its record. -/
theorem Resumes.held {task : JobTask} (h : Resumes job task memory)
    (hretries : task.suspension.retries) (hsole : memory.Sole task.record) :
    memory.Held task.record := by
  have hreverts := Suspension.reverts_of_retries hretries
  refine ⟨h.lt, h.isLocal.mpr hretries, h.reverting hreverts, fun other hother hrecord => ?_, hsole⟩
  have hlocal := ((h.ready 0).tidy.tasks other hother).2.mp
    (hrecord.symm ▸ h.isLocal.mpr hretries)
  have := h.idle hreverts other hother hrecord
  rw [Suspension.reverts_of_retries hlocal] at this
  cases this

/-- A task resumes with the reply it waits for. -/
theorem acts_resume (options : SwapJobOptions) {task : JobTask} (reply : Reply)
    (hawaits : awaits task reply = true) (hresumes : Resumes job task memory)
    (hretry : task.suspension.retries → memory.Sole task.record ∧
      ¬ job.journal.Closed (memory.record task.record).generation ∧
      ∀ target ∈ task.suspension.targets,
        target.operationKey.IsChild (memory.record task.record).generation) :
    Acts job memory (resume options task reply) := by
  obtain ⟨record, suspension, queued⟩ := task
  have hready := hresumes.ready (memory.record record).generation
  cases reply with
  | wallet result =>
    cases suspension with
    | revertWallet =>
      refine ⟨(memory.record record).generation, Triple.pre (EndsTriple.leaves ?_) fun _ h => h⟩
      exact (ends_revertWalletReplied result hready (hresumes.remote rfl) rfl
        (hresumes.reverting rfl) (hresumes.idle rfl)).conseq (fun _ h => h.mono False.elim)
        (fun _ _ h => h) fun _ _ h => h
    | retryQuarantine target rest =>
      obtain ⟨hsole, hopen, htargets⟩ := hretry rfl
      refine ⟨(memory.record record).generation, EndsTriple.leaves ?_⟩
      exact (ends_retryQuarantineReplied options queued target rest result hready.known
        (hresumes.held rfl hsole) rfl htargets).pre fun _ h => h.mono fun _ => hopen
    | relayStatus => cases hawaits
    | relayDoneEvidence => cases hawaits
    | relayFailureEvidence => cases hawaits
  | status result =>
    cases suspension with
    | relayStatus => exact (ends_relayStatusReplied queued result hready (hresumes.remote rfl) rfl).acts
    | revertWallet => cases hawaits
    | retryQuarantine => cases hawaits
    | relayDoneEvidence => cases hawaits
    | relayFailureEvidence => cases hawaits
  | evidence answers =>
    cases suspension with
    | relayDoneEvidence => exact (ends_relayDoneReplied answers hready (hresumes.remote rfl) rfl).acts
    | relayFailureEvidence =>
      exact (ends_relayFailureReplied options queued answers hready (hresumes.remote rfl) rfl).acts
    | revertWallet => cases hawaits
    | retryQuarantine => cases hawaits
    | relayStatus => cases hawaits

theorem acts_taskReplied (options : SwapJobOptions) (index : Nat) (reply : Reply)
    (hgood : job.Good) : Acts job job (taskReplied options index reply) := by
  have hfound : ∀ found : SwapJob, found.memory = job.memory → found.tasks = job.tasks :=
    fun found hfound => SwapJob.of_memory (·.tasks) (fun _ => rfl) hfound
  cases htask : job.tasks[index]? with
  | none =>
    refine acts_getMemory (acts_pure hgood) fun found hmemory => ?_
    rw [hfound found hmemory, htask]
  | some task =>
    by_cases hawaits : awaits task reply
    · have hmem := List.mem_of_getElem? htask
      have hresume := acts_resume options reply hawaits (.of_good hgood htask) fun hretries => by
        have hretrying : job.Retrying task.record := ⟨task, hmem, rfl, hretries⟩
        obtain ⟨hlt, hlocal⟩ := hgood.tidy.tasks task hmem
        exact ⟨hgood.tidy.sole _ hlt ⟨hlocal.mpr hretries, Or.inr hretrying⟩,
          hgood.opened _ (.retrying _ hretrying rfl), hgood.tidy.targets task hmem⟩
      refine acts_getMemory (acts_modify (fun job => { job with tasks := job.tasks.eraseIdx index })
        (fun _ => rfl) (fun _ => rfl)
        hresume) fun found hmemory => ?_
      rw [hfound found hmemory, htask]
      exact if_pos hawaits
    · refine acts_getMemory (acts_pure hgood) fun found hmemory => ?_
      rw [hfound found hmemory, htask]
      exact if_neg hawaits

/-! ## The sweep -/

theorem acts_expireTombstone (sweptAt : Int) (hgood : job.Good) :
    Acts job job (expireTombstone sweptAt) :=
  ⟨0, rule_modify_last _ (fun _ => rfl) (fun _ => rfl) fun _ h =>
    h.ends ((hgood.ready 0).setRest _ _ _ _ _)⟩

/-- What a map holds is copied. -/
theorem acts_captureSwept (stage : SweepStage) (hgood : job.Good) :
    Acts job job (captureSwept stage) := by
  refine ⟨0, rule_modify_last _ (fun _ => rfl) (fun _ => rfl) fun turn h => h.ends ?_⟩
  refine (hgood.ready 0).of_tidy { hgood.tidy with swept := ?_ } (hgood.below.same rfl rfl) hgood.blank
    fun _ hlive => hlive.same rfl rfl rfl
  intro other index hmem
  rcases List.mem_append.mp hmem with hmem | hmem
  · exact hgood.tidy.swept other index hmem
  · obtain ⟨found, hfound, heq⟩ := List.mem_map.mp hmem
    cases heq
    have hfound : inMap job stage = some index := Option.mem_toList.mp hfound
    cases stage with
    | quarantined => exact ⟨hgood.tidy.quarantined index hfound, fun h => absurd rfl h⟩
    | awaiting =>
      exact ⟨(hgood.tidy.awaiting index hfound).1, fun _ => (hgood.tidy.awaiting index hfound).2⟩
    | confirmations =>
      have hremote := hgood.tidy.confirmations index hfound
      exact ⟨hremote.1, fun _ => hremote.2⟩

/-- A record of the copy is visited. -/
theorem acts_visitSwept (options : SwapJobOptions) (sweptAt : Int) (stage : SweepStage)
    (hready : ∀ generation, Ready job generation (¬ job.journal.Closed generation) memory)
    (hlt : index < memory.records.length)
    (hstage : stage ≠ .quarantined → (memory.record index).locallyRevertible ≠ some true) :
    Acts job memory (visitSwept options sweptAt stage index) := by
  have hready := hready (memory.record index).generation
  have henqueue (operation : TerminalOperation) (hoperation : operation.record = some index)
      (hremote : (memory.record index).locallyRevertible ≠ some true) :
      LeavesTriple job (memory.record index).generation
        (¬ job.journal.Closed (memory.record index).generation) memory
        (enqueueTerminal operation) := by
    refine (ends_enqueueTerminal operation hready fun other hother => ?_).leaves
    cases hoperation.symm.trans hother
    exact ⟨hlt, hremote⟩
  refine ⟨(memory.record index).generation, rule_getRecord ?_⟩
  cases stage with
  | quarantined =>
    refine Triple.ite (fun _ => (ends_retryQuarantine options false hready hlt rfl).leaves)
      fun hremote => Triple.ite (fun _ => henqueue _ rfl hremote) fun _ => ?_
    exact Triple.pure fun _ h => h.ends hready
  | awaiting =>
    have hremote := hstage fun h => by cases h
    refine Triple.ite (fun _ => henqueue _ rfl hremote) fun _ => ?_
    refine rule_getMemory fun found hfound => Triple.ite (fun _ => ?_) fun _ => ?_
    · exact (ends_revertWallet options false hready ⟨hlt, hremote⟩ rfl).leaves
    · exact Triple.pure fun _ h => h.ends hready
  | confirmations => exact henqueue _ rfl (hstage fun h => by cases h)

theorem acts_sweepVisited (options : SwapJobOptions) (sweptAt : Int) (hgood : job.Good) :
    Acts job job (sweepVisited options sweptAt) := by
  cases hswept : job.swept with
  | nil =>
    refine acts_getMemory (acts_pure hgood) fun found hfound => ?_
    rw [(SwapJob.of_memory (·.swept) (fun _ => rfl) hfound).trans hswept]
  | cons entry rest =>
    obtain ⟨stage, index⟩ := entry
    obtain ⟨hlt, hstage⟩ := hgood.tidy.swept stage index (hswept ▸ List.mem_cons_self)
    have hvisit : Acts job { job with swept := rest } (visitSwept options sweptAt stage index) :=
      acts_visitSwept options sweptAt stage (fun generation => (hgood.ready generation).of_tidy { hgood.tidy with
        swept := fun other index hmem => hgood.tidy.swept other index
          (hswept ▸ List.mem_cons_of_mem _ hmem) } (hgood.below.same rfl rfl) hgood.blank
        fun _ hlive => hlive.same rfl rfl rfl) hlt hstage
    refine acts_getMemory (acts_modify (fun job => { job with swept := rest })
      (fun _ => rfl) (fun _ => rfl) hvisit)
      fun found hfound => ?_
    rw [(SwapJob.of_memory (·.swept) (fun _ => rfl) hfound).trans hswept]

/-! ## `stop` -/

theorem acts_stopRecord (options : SwapJobOptions) (stage : SweepStage) (hgood : job.Good) :
    Acts job job (stopRecord options stage) := by
  have hfound : ∀ found : SwapJob, found.memory = job.memory → inMap found stage = inMap job stage :=
    fun found hfound => by
      cases stage with
      | quarantined => exact SwapJob.of_memory (·.quarantined) (fun _ => rfl) hfound
      | awaiting => exact SwapJob.of_memory (·.awaiting) (fun _ => rfl) hfound
      | confirmations => exact SwapJob.of_memory (·.confirmations) (fun _ => rfl) hfound
  cases hmap : inMap job stage with
  | none =>
    refine acts_getMemory (acts_pure hgood) fun found hmemory => ?_
    rw [(hfound found hmemory).trans hmap]
  | some index =>
    have hready := hgood.ready (job.record index).generation
    refine ⟨(job.record index).generation, rule_getMemory fun found hmemory => ?_⟩
    rw [(hfound found hmemory).trans hmap]
    refine rule_getRecord ?_
    cases stage with
    | quarantined =>
      have hlt := hgood.tidy.quarantined index hmap
      refine Triple.ite (fun _ => (ends_retryQuarantine options false hready hlt rfl).leaves)
        fun hremote => Triple.ite (fun _ => ?_) fun _ => Triple.pure fun _ h => h.ends hready
      exact leaves_reconcileDurableEvidence false hready ⟨hlt, hremote⟩ rfl
    | awaiting =>
      have hremote := hgood.tidy.awaiting index hmap
      exact Triple.ite (fun _ => (ends_reconcileFromHttp false hready hremote).leaves)
        fun _ => (ends_revertWallet options false hready hremote rfl).leaves
    | confirmations =>
      exact leaves_reconcileDurableEvidence false hready (hgood.tidy.confirmations index hmap) rfl

/-! ## Builds -/

/-- A turn of the build that is under way, if any is. -/
theorem acts_build {f : SwapJob → Act Unit} (hgood : job.Good)
    (hnone : ∀ found : SwapJob, found.building = none → f found = pure ())
    (hsome : ∀ generation, AtBuild job generation job →
      LeavesTriple job generation True job (getJob >>= f)) : Acts job job (getJob >>= f) := by
  cases hbuilding : job.building with
  | none =>
    exact acts_getMemory (acts_pure hgood) fun found hfound =>
      hnone found ((SwapJob.of_memory (·.building) (fun _ => rfl) hfound).trans hbuilding)
  | some building =>
    have hopen := hgood.opened building.generation (.building building hbuilding rfl)
    refine ⟨building.generation, Triple.pre (hsome building.generation
      ⟨(hgood.ready _).known, building, hbuilding, rfl⟩) fun _ h => h.mono fun _ => hopen⟩

theorem acts_buildReplied (options : SwapJobOptions) (reply : Except String Unit)
    (hgood : job.Good) : Acts job job (buildReplied options reply) := by
  refine acts_build hgood (fun found hnone => ?_) fun _ hbuild => leaves_buildReplied options reply hbuild
  rw [hnone]

theorem acts_walletDeadline (hgood : job.Good) : Acts job job walletDeadline := by
  refine acts_build hgood (fun found hnone => ?_) fun _ hbuild => leaves_walletDeadline hbuild
  rw [hnone]

theorem acts_stopBuilding (hgood : job.Good) : Acts job job stopBuilding := by
  refine acts_build hgood (fun found hnone => ?_) fun _ hbuild => leaves_stopBuilding hbuild
  rw [hnone]

/-! ## A swap -/

/-- What a turn that begins with `job` leaves, whether it returns or throws. -/
def Turns (job : SwapJob) (m : Act Unit) : Prop :=
  ∃ generation, Triple (fun turn => turn.job = job) m (fun _ => Ends job generation)
    (Leaves job generation)

theorem pinned_start {turn : Turn} (hjob : turn.job = job) :
    Pinned job generation (¬ job.journal.Closed generation) job turn := by
  subst hjob
  exact ⟨.refl _ _, rfl, fun h => h⟩

theorem Acts.turns {m : Act Unit} (h : Acts job job m) : Turns job m := by
  obtain ⟨generation, hacts⟩ := h
  exact ⟨generation, hacts.pre fun _ => pinned_start⟩

/-- What the journal held when the turn began is what the turn reads first. -/
theorem turns_getJob {f : SwapJob → Act Unit} (generation : Nat)
    (h : LeavesTriple job generation (¬ job.journal.Closed generation) job (f job)) :
    Turns job (getJob >>= f) := by
  refine ⟨generation, fun turn hturn => ?_⟩
  have hout : getJob.outcome turn = (.ok job, turn) := by
    rw [← hturn]
    rfl
  rw [outcome_bind_ok hout]
  exact h turn (pinned_start hturn)

theorem not_closed_nextGeneration (journal : Journal) : ¬ journal.Closed (nextGeneration journal) := by
  rintro ⟨state, hstate, _⟩
  obtain ⟨row, hrow, _⟩ := Journal.get_of_stateOf hstate
  have hlt := SwapJob.generation_lt_next (Journal.mem_of_get hrow)
  rw [JournalOperation.generation, Journal.operationKey_of_get hrow] at hlt
  exact Nat.lt_irrefl _ hlt

/-- The row that was prepared is there. -/
theorem triple_createPrepared_row (options : SwapJobOptions) (input : PreparedOperation) :
    Triple (fun _ => True) (createPrepared options input)
      (fun _ turn => ∃ row ∈ turn.job.journal, row.operationKey = input.operationKey)
      (fun _ _ => True) := by
  refine triple_commit (P := fun _ => True)
    (Q := fun turn => ∃ row ∈ turn.job.journal, row.operationKey = input.operationKey)
    (fun turn => turn.job.journal.createPrepared turn.job.jobId options.reconciliationMarginMs input)
    (fun journal job => { job with
      journal, writes := job.writes ++ [(input.operationKey, .prepared)] })
    fun turn journal _ hok effects => ?_
  obtain ⟨_, row, _, _, hget⟩ := Journal.get_of_createPrepared hok
  have hrow := (hget input.operationKey).trans (if_pos rfl)
  exact ⟨row, Journal.mem_of_get hrow, Journal.operationKey_of_get hrow⟩

/-- A new generation is built, which nothing in memory has. -/
theorem ends_beginBuild {turn : Turn} (building : BuildingJob)
    (hturn : Pinned job generation True job turn) (hgood : job.Good) (hrestored : job.restored = true)
    (hgeneration : building.generation = generation) (hnext : generation = nextGeneration job.journal)
    (hkeys : building.keys = []) (hrow : generation < nextGeneration turn.job.journal) :
    Ends job generation { turn with job := { turn.job with building := some building } } := by
  have hsound := hturn.wrote.sound hgood.sound
  have hfresh : ∀ index < job.records.length, (job.record index).generation ≠ building.generation := by
    intro index hindex heq
    have hlt := hgood.below.records index hindex
    rw [heq, hgeneration, hnext] at hlt
    exact Nat.lt_irrefl _ hlt
  have hready : Ready turn.job generation True { job with building := some building } := by
    refine ⟨hsound, { hgood.tidy with building := ?_, children := ?_ }, ⟨?_, ?_⟩, ?_,
      fun _ => trivial, fun other hother hlive => ?_⟩
    · rintro _ ⟨⟩
      exact hfresh
    · rintro _ ⟨⟩ key hkey
      rw [hkeys] at hkey
      cases hkey
    · exact (hgood.below.mono hturn.wrote.nextGeneration_le).records
    · rintro _ ⟨⟩
      exact hgeneration.trans_lt hrow
    · exact fun hblank => absurd (hrestored.symm.trans hblank) (by decide)
    · rw [hturn.wrote.closed_iff hother]
      refine hgood.opened other ?_
      cases hlive with
      | building found hfound hsame =>
        cases hfound
        exact absurd (hsame.symm.trans hgeneration) hother
      | retrying index hretrying hsame => exact .retrying index hretrying hsame
  have hpinned : Pinned turn.job generation True { job with building := some building }
      { turn with job := { turn.job with building := some building } } := by
    refine ⟨(SwapJob.Wrote.refl _ _).of_crash rfl, ?_, hturn.opened⟩
    have := congrArg (fun memory => { memory with building := some building }) hturn.memory
    exact this
  exact ⟨hturn.wrote.of_crash rfl, hpinned.good hready⟩

section

attribute [local irreducible] createPrepared

/-- The settlement row is prepared, and the build begins; or neither is, and the handler answers. -/
theorem leaves_beginBuild (options : SwapJobOptions) (input : Int → PreparedOperation)
    (building : Int → BuildingJob) {handler : JobError → Act Unit} (hgood : job.Good)
    (hrestored : job.restored = true) (hnext : nextGeneration job.journal = generation)
    (hinput : ∀ nowMs, (input nowMs).operationKey = jobKey generation)
    (hbuilding : ∀ nowMs, (building nowMs).generation = generation ∧ (building nowMs).keys = [])
    (hhandler : ∀ error, EndsTriple job generation True job (handler error)) :
    LeavesTriple job generation (¬ job.journal.Closed generation) job (do
      let nowMs ← now
      attempt (do
        createPrepared options (input nowMs)
        modifyJob fun job => { job with building := some (building nowMs) }) handler) := by
  have hopen : ¬ job.journal.Closed generation := hnext ▸ not_closed_nextGeneration job.journal
  refine rule_read (fun turn => ⟨_, rfl⟩) fun nowMs => ?_
  refine Triple.pre (P := Pinned job generation True job) ?_ fun _ h => h.mono fun _ => hopen
  refine Triple.conseq (triple_attempt (E := Throws job generation True job) ?_ hhandler fun _ h =>
    ⟨rfl, h⟩) (fun _ h => h) (fun _ _ h => h) fun _ _ h => h.leaves
  refine Triple.bind (Q := fun _ turn => Pinned job generation True job turn ∧
    generation < nextGeneration turn.job.journal) ?_ fun _ => Triple.modify fun turn h =>
      ends_beginBuild _ h.1 hgood hrestored (hbuilding nowMs).1 hnext.symm (hbuilding nowMs).2 h.2
  have hkeeps : Keeps job generation True job (createPrepared options (input nowMs)) :=
    keeps_createPrepared options (input nowMs) (congrArg OperationKey.generation (hinput nowMs))
      fun turn hturn => ⟨hinput nowMs ▸ hturn.opened trivial, fun _ => hinput nowMs ▸ rfl⟩
  refine (hkeeps.and (triple_createPrepared_row options (input nowMs))).conseq
    (fun _ h => ⟨h, trivial⟩) ?_ fun interrupt _ h => h.1.throws interrupt
  rintro _ turn ⟨hturn, row, hrow, hkey⟩
  have hlt := SwapJob.generation_lt_next hrow
  rw [JournalOperation.generation, hkey, hinput] at hlt
  exact ⟨hturn, hlt⟩

theorem turns_executeSwap (options : SwapJobOptions) (claim : Claim) (receipts : Bool)
    (hgood : job.Good) (hrestored : job.restored = true) :
    Turns job (executeSwap options claim receipts) := by
  have hbegin := leaves_beginBuild options
    (fun nowMs => { preparedFor (nextGeneration job.journal) .jobSettlement .settlement claim
      (nowMs + options.settleTtlMinutes * 60000) with receipt := { relayJobId := some job.jobId } })
    (fun nowMs => { generation := nextGeneration job.journal, claim
                    ttlExpiresAt := nowMs + options.settleTtlMinutes * 60000, receipts })
    hgood hrestored rfl (fun _ => rfl) (fun _ => ⟨rfl, rfl⟩) fun error => by
      refine rule_modify (f := fun _ => answer (.jobError
        ("wallet_build_failed: journal prepare failed: " ++ error.message)))
        (fun job => { job with released := job.released ++ [claim] }) (fun _ => rfl) (fun _ => rfl)
        (rule_modify_last _ (fun _ => rfl) (fun _ => rfl) fun turn h => h.ends ?_)
      exact (hgood.ready _).known.setRest _ _ _ _ _
  exact turns_getJob _ hbegin

end

theorem turns_refused (options : SwapJobOptions) (hgood : job.Good) :
    Turns job (handle options .refused) := by
  refine Acts.turns ⟨0, rule_read (fun turn => ⟨_, rfl⟩) fun nowMs => ?_⟩
  refine rule_modify _ (fun _ => rfl) (fun _ => rfl) ?_
  exact rule_modify_last _ (fun _ => rfl) (fun _ => rfl) fun turn h => h.ends ((hgood.ready 0).setRest _ _ _ _ _)

/-! ## Startup -/

/-- A fold that takes a row or keeps what it has ends with a row or with what it began with. -/
theorem foldl_takes_mem {α : Type} {f : Option α → α → Option α}
    (hf : ∀ latest row, f latest row = some row ∨ f latest row = latest) {found : α}
    (rows : List α) (first : Option α) (h : rows.foldl f first = some found) :
    found ∈ rows ∨ first = some found := by
  induction rows generalizing first with
  | nil => exact Or.inr h
  | cons row rows ih =>
    rcases ih _ h with hmem | hfirst
    · exact Or.inl (List.mem_cons_of_mem _ hmem)
    · rcases hf first row with htakes | hkeeps
      · cases htakes.symm.trans hfirst
        exact Or.inl List.mem_cons_self
      · exact Or.inr (hkeeps.symm.trans hfirst)

/-- The settlement row startup finds. -/
theorem latestSettlement_mem {journal : Journal} {settlement : JournalOperation}
    (h : latestSettlement journal = some settlement) :
    settlement ∈ journal ∧ settlement.operationKind = .jobSettlement := by
  unfold latestSettlement at h
  refine (foldl_takes_mem (fun latest row => ?_) _ _ h).elim (fun hmem => ?_) fun hnone => ?_
  · cases latest with
    | none => exact Or.inl rfl
    | some prior => exact ite_eq_or_eq _ _ _
  · simpa using List.mem_filter.mp hmem
  · cases hnone

/-- What is left to do for a job that has ended. -/
theorem ends_setTombstone {E : Interrupt → Turn → Prop} (expiry : Int) :
    Triple (Ends job generation) (setTombstone expiry) (fun _ => Ends job generation) E :=
  Triple.modify fun _ h => ⟨h.wrote.of_crash rfl, h.good.setRest _ _ _ _ _⟩

theorem ends_release {E : Interrupt → Turn → Prop} (claim : Claim) :
    Triple (Ends job generation) (release claim) (fun _ => Ends job generation) E :=
  Triple.modify fun _ h => ⟨h.wrote.of_crash rfl, h.good.setRest _ _ _ _ _⟩

/-- A function that ends the generation, in a memory in which nothing of it is live. -/
theorem leaves_closes {m : Act Unit} (hready : Ready job generation False memory)
    (hm : Triple (Pinned job generation False memory) m (fun _ => Finished job generation memory)
      fun _ => Pinned job generation False memory) : LeavesTriple job generation False memory m :=
  hm.conseq (fun _ h => h) (fun _ _ h => h.1.ends hready) fun interrupt _ h =>
    h.leaves hready interrupt

/-- The memory in which startup comes to a job. -/
structure Fresh (job : SwapJob) (settlement : JournalOperation) : Prop where
  ready : Ready job settlement.generation False job
  restored : job.restored = true
  records : job.records = []
  building : job.building = none
  row : settlement ∈ job.journal

/-- The record of the generation is under quarantine. -/
theorem Fresh.quarantine {settlement : JournalOperation} (h : Fresh job settlement)
    (record : JobRecord) (hgeneration : record.generation = settlement.generation) :
    Ready job settlement.generation False { job with
      records := job.records ++ [record], quarantined := some job.records.length } := by
  have hnone : ∀ other < job.records.length, False := fun other hother => by
    rw [h.records] at hother
    exact Nat.not_lt_zero _ hother
  have hready := h.ready.newRecord record h.restored (hgeneration ▸ SwapJob.generation_lt_next h.row)
    (fun building hsome => absurd (hsome.symm.trans h.building) (by simp))
    (fun other hother => (hnone other hother).elim) fun _ _ other hother => (hnone other hother).elim
  refine hready.setMaps job.awaiting job.confirmations (some job.records.length)
    hready.tidy.awaiting hready.tidy.confirmations fun index hindex => ?_
  cases hindex
  simp

/-- What follows the record startup makes. -/
theorem rule_quarantineRestored {f : Nat → Act Unit} {Q : Unit → Turn → Prop}
    {E : Interrupt → Turn → Prop} (record : JobRecord)
    (hf : Triple (Pinned job generation opened { memory with
      records := memory.records ++ [record], quarantined := some memory.records.length })
      (f memory.records.length) Q E) :
    Triple (Pinned job generation opened memory) (quarantineRestored record >>= f) Q E := by
  unfold quarantineRestored
  simp only [bind_assoc]
  refine rule_newRecord (rule_modify _ (fun _ => rfl) (fun _ => rfl) ?_)
  rw [pure_bind]
  exact hf

theorem leaves_repeatTerminal (settlement : JournalOperation)
    (hready : Ready job settlement.generation False memory) :
    LeavesTriple job settlement.generation False memory (repeatTerminal settlement) := by
  unfold repeatTerminal
  have hother : LeavesTriple job settlement.generation False memory (do
      when (← hasNonterminal settlement.generation)
        (fail "FAILED job has non-terminal wallet evidence")) := by
    refine rule_read (fun turn => ⟨_, rfl⟩) fun nonterminal => ?_
    exact Triple.ite (fun _ => Triple.throw fun _ h => h.leaves hready _)
      fun _ => Triple.pure fun _ h => h.ends hready
  cases settlement.lifecycleState with
  | reverted => exact leaves_closes hready (triple_markReverted hready.sound)
  | settled => exact leaves_closes hready (triple_markSettled hready.sound none)
  | _ => exact hother

/-- A throw leaves the memory as startup found it. -/
theorem triple_restoreArtifacts (options : SwapJobOptions) (settlement : JournalOperation)
    (rows : List JournalOperation) (hfresh : Fresh job settlement) :
    Triple (Pinned job settlement.generation False job) (restoreArtifacts options settlement rows)
      (fun _ => Ends job settlement.generation)
      (Throws job settlement.generation False job) := by
  have hthrows : ∀ interrupt turn, Pinned job settlement.generation False job turn →
      Throws job settlement.generation False job interrupt turn := fun interrupt _ h => h.throws interrupt
  refine rule_keeps (Keeps.when (keeps_dependency _)) hthrows fun _ => ?_
  refine Triple.ite (fun _ => ?_) fun _ => Triple.ite (fun _ => ?_) fun _ => ?_
  · refine rule_keeps (keeps_quarantineGroup _ _) hthrows fun _ => ?_
    refine rule_quarantineRestored _ (Triple.pure fun turn h => h.ends (hfresh.quarantine _ rfl))
  · refine Triple.bind ((triple_markFailed hfresh.ready.sound _).conseq (fun _ h => h)
      (fun _ _ h => h.1.ends hfresh.ready) fun _ _ h => h.throws _) fun _ => ?_
    exact Triple.bind (ends_setTombstone _) fun _ => ends_release _
  · refine rule_keeps (Keeps.when (keeps_dependency _)) hthrows fun _ => ?_
    refine Triple.ite (fun _ => ?_) fun _ => ?_
    · refine rule_keeps (keeps_quarantineGroup _ _) hthrows fun _ => ?_
      refine rule_quarantineRestored _ (EndsTriple.throws ?_)
      refine ends_enqueueTerminal _ (hfresh.quarantine _ rfl) fun index hindex => ?_
      cases hindex
      exact SwapJob.Remote.appended fun h => by cases h
    · refine rule_quarantineRestored _ (EndsTriple.throws ?_)
      refine ends_retryQuarantine options false (hfresh.quarantine _ rfl) (by simp) ?_
      exact congrArg JobRecord.generation (SwapJob.record_appended _)

theorem turns_reconcileStartup (options : SwapJobOptions) (reserved : Bool) (hgood : job.Good)
    (hrestored : job.restored = true) (hrecords : job.records = []) (hbuilding : job.building = none) :
    Turns job (reconcileStartup options reserved) := by
  cases hlatest : latestSettlement job.journal with
  | none =>
    refine turns_getJob 0 ?_
    rw [hlatest]
    exact Triple.pure fun _ h => h.ends (hgood.ready 0)
  | some settlement =>
    have hidle : ¬ job.Live settlement.generation := by
      intro hlive
      cases hlive with
      | building building hsome _ =>
        rw [hbuilding] at hsome
        cases hsome
      | retrying index hretrying _ =>
        obtain ⟨task, htask, _, _⟩ := hretrying
        have hlt := (hgood.tidy.tasks task htask).1
        rw [hrecords] at hlt
        exact Nat.not_lt_zero _ hlt
    have hready := (hgood.ready settlement.generation).dead False hidle
    have hfresh : Fresh job settlement :=
      ⟨hready, hrestored, hrecords, hbuilding, (latestSettlement_mem hlatest).1⟩
    refine turns_getJob settlement.generation (Triple.pre ?_ fun _ h =>
      h.mono False.elim)
    rw [hlatest]
    refine Triple.ite (fun _ => ?_) fun _ => ?_
    · exact Triple.bind (leaves_repeatTerminal settlement hready) fun _ => ends_setTombstone _
    refine Triple.ite (fun _ => Triple.throw fun _ h => h.leaves hready _) fun _ => ?_
    refine Triple.ite (fun _ => Triple.throw fun _ h => h.leaves hready _) fun _ => ?_
    refine rule_keeps (keeps_group _) (fun interrupt _ h => h.leaves hready interrupt) fun rows => ?_
    refine Triple.ite (fun _ => ?_) fun _ => ?_
    · refine Triple.bind (leaves_closes hready (triple_markReverted hready.sound)) fun _ => ?_
      exact Triple.bind (ends_setTombstone _) fun _ => ends_release _
    · refine triple_attempt (triple_restoreArtifacts options settlement rows hfresh)
        (fun error => ?_) fun _ h => h
      refine rule_keeps (keeps_quarantineGroup _ _)
        (fun interrupt _ h => h.leaves hready interrupt) fun _ => ?_
      exact rule_quarantineRestored _ (Triple.pure fun turn h => h.ends (hfresh.quarantine _ rfl))

/-! ## Events -/

/-- **A turn**: whatever a good job hears, it is good after it. -/
theorem turns_handle (options : SwapJobOptions) (event : JobEvent) (hgood : job.Good)
    (hrestored : event.restores → job.restored = true)
    (hstartup : event.isStartup → job.records = [] ∧ job.building = none) :
    Turns job (handle options event) := by
  cases event with
  | swap claim receipts => exact turns_executeSwap options claim receipts hgood (hrestored rfl)
  | refused => exact turns_refused options hgood
  | buildReplied reply => exact (acts_buildReplied options reply hgood).turns
  | walletDeadline => exact (acts_walletDeadline hgood).turns
  | txSubmitted txId =>
    exact (ends_enqueueTerminal _ (hgood.ready 0) fun _ h => by cases h).acts.turns
  | submitFailed reason =>
    exact (ends_enqueueTerminal _ (hgood.ready 0) fun _ h => by cases h).acts.turns
  | terminalChain => exact (acts_startTerminal hgood).turns
  | taskReplied index reply => exact (acts_taskReplied options index reply hgood).turns
  | startup reserved =>
    obtain ⟨hrecords, hbuilding⟩ := hstartup rfl
    exact turns_reconcileStartup options reserved hgood (hrestored rfl) hrecords hbuilding
  | sweepStarted sweptAt => exact (acts_expireTombstone sweptAt hgood).turns
  | sweepCopied stage => exact (acts_captureSwept stage hgood).turns
  | sweepVisited sweptAt => exact (acts_sweepVisited options sweptAt hgood).turns
  | stopBuilding => exact (acts_stopBuilding hgood).turns
  | stopRecord stage => exact (acts_stopRecord options stage hgood).turns

end Act

end ZswapKernel
