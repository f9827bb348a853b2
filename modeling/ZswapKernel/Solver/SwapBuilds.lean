import ZswapKernel.Solver.SwapDecided

/-!
# Turns of a build

While a generation is built no record has it and its settlement row is open (`AtBuild`), and every
turn of the build leaves it so (`Builds`) until the build resolves or fails. A build that fails in its
cleanup may have ended its generation; what is then made of it in memory is proved good from the
memory that the build has left (`Cleared`).
-/

namespace ZswapKernel

open Program

/-! ## The memory of a build -/

section Memory

variable {job memory : SwapJob} {generation : Nat}

/-- The memory in which a turn of a build begins. -/
structure AtBuild (job : SwapJob) (generation : Nat) (memory : SwapJob) : Prop where
  ready : Ready job generation True memory
  building : ∃ building, memory.building = some building ∧ building.generation = generation

/-- Where a turn of a build stands. -/
def Builds (job : SwapJob) (generation : Nat) (turn : Turn) : Prop :=
  ∃ memory, AtBuild job generation memory ∧ Pinned job generation True memory turn

/-- The memory the build has left. -/
structure Cleared (job : SwapJob) (generation : Nat) (memory : SwapJob) : Prop where
  ready : Ready job generation False memory
  restored : memory.restored = true
  idle : memory.building = none
  unprotected : ∀ index < memory.records.length, (memory.record index).generation = generation →
    ¬ memory.Protected index
  next : generation < Act.nextGeneration job.journal

/-- No record has the generation. -/
def SwapJob.Bare (memory : SwapJob) (generation : Nat) : Prop :=
  ∀ index < memory.records.length, (memory.record index).generation ≠ generation

/-- The build changes, but for its generation. -/
theorem AtBuild.modify (h : AtBuild job generation memory) (change : BuildingJob → BuildingJob)
    (hgeneration : ∀ building, (change building).generation = building.generation)
    (hkeys : ∀ building, building.generation = generation →
      (∀ key ∈ building.keys, key.IsChild generation) →
      ∀ key ∈ (change building).keys, key.IsChild generation) :
    AtBuild job generation { memory with building := memory.building.map change } := by
  obtain ⟨building, hsome, rfl⟩ := h.building
  have hmap : memory.building.map change = some (change building) := by rw [hsome]; rfl
  refine ⟨h.ready.of_tidy { h.ready.tidy with building := ?_, children := ?_ }
    ⟨h.ready.below.records, ?_⟩ (fun hblank => ?_) fun other hlive => ?_, change building, hmap,
    hgeneration _⟩
  · intro changed hchanged index hindex
    cases hmap.symm.trans hchanged
    rw [hgeneration]
    exact h.ready.tidy.building building hsome index hindex
  · intro changed hchanged
    cases hmap.symm.trans hchanged
    rw [hgeneration]
    exact hkeys building rfl (h.ready.tidy.children building hsome)
  · intro changed hchanged
    cases hmap.symm.trans hchanged
    rw [hgeneration]
    exact h.ready.below.building building hsome
  · exact absurd (hsome.symm.trans (h.ready.blank hblank).2) (by simp)
  · refine hlive.of_records (fun changed hchanged => ?_) (fun _ htask _ => htask) fun _ _ => rfl
    cases hmap.symm.trans hchanged
    exact ⟨building, hsome, (hgeneration _).symm⟩

theorem AtBuild.bare (h : AtBuild job generation memory) : memory.Bare generation := by
  obtain ⟨building, hsome, rfl⟩ := h.building
  exact h.ready.tidy.building building hsome

/-- Nothing is live in the generation once the build has left it. -/
theorem AtBuild.cleared (h : AtBuild job generation memory) :
    Cleared job generation { memory with building := none } := by
  obtain ⟨building, hsome, rfl⟩ := h.building
  have htidy : ({ memory with building := none } : SwapJob).Tidy :=
    { h.ready.tidy with
      building := fun _ h => by cases h
      children := fun _ h => by cases h }
  refine ⟨⟨h.ready.sound, htidy, ⟨h.ready.below.records, fun _ h => by cases h⟩,
    fun hblank => ⟨(h.ready.blank hblank).1, rfl⟩, fun hlive => ?_, fun other hother hlive => ?_⟩,
    ?_, rfl, fun index hindex hsame _ => ?_,
    h.ready.below.building building hsome⟩
  · cases hlive with
    | building building h hgeneration => cases h
    | retrying index hretrying hgeneration =>
      obtain ⟨task, htask, rfl, _⟩ := hretrying
      exact h.bare task.record (h.ready.tidy.tasks task htask).1 hgeneration
  · refine h.ready.elsewhere other hother (hlive.of_records (fun _ h => by cases h)
      (fun _ htask _ => htask) fun _ _ => rfl)
  · by_contra hne
    exact absurd (hsome.symm.trans (h.ready.blank (by simpa using hne)).2) (by simp)
  · exact h.bare index hindex hsame

/-- A record of the generation is made. -/
theorem Cleared.newRecord (h : Cleared job generation memory) (record : JobRecord)
    (hgeneration : record.generation = generation)
    (hlocal : record.locallyRevertible = some true → memory.Bare generation) :
    Ready job generation False { memory with records := memory.records ++ [record] } := by
  subst hgeneration
  refine h.ready.newRecord record h.restored h.next (fun building hsome => ?_) h.unprotected fun hrecord _ => ?_
  · rw [h.idle] at hsome
    cases hsome
  · exact hlocal hrecord

end Memory

/-! ## Rules -/

namespace Act

attribute [local irreducible] createPrepared transition

variable {job memory : SwapJob} {generation : Nat} {opened : Prop} {α β : Type}
variable {Q : α → Turn → Prop} {E : Interrupt → Turn → Prop}

/-- `m` leaves the build as it stands, however it ends. -/
def KeepsBuild (job : SwapJob) (generation : Nat) (m : Act α) : Prop :=
  Triple (Builds job generation) m (fun _ => Builds job generation) fun _ => Builds job generation

/-- A turn of a build is proved from the memory it stands at. -/
theorem Builds.triple {m : Act α} (h : ∀ memory, AtBuild job generation memory →
    Triple (Pinned job generation True memory) m Q E) : Triple (Builds job generation) m Q E := by
  rintro turn ⟨memory, hbuild, hturn⟩
  exact h memory hbuild turn hturn

theorem KeepsBuild.of_keeps {m : Act α} (h : ∀ memory, AtBuild job generation memory →
    Keeps job generation True memory m) : KeepsBuild job generation m :=
  Builds.triple fun memory hbuild => (h memory hbuild).conseq (fun _ h => h)
    (fun _ _ h => ⟨memory, hbuild, h⟩) fun _ _ h => ⟨memory, hbuild, h⟩

theorem KeepsBuild.pure {a : α} : KeepsBuild job generation (pure a) := Triple.pure fun _ h => h

theorem KeepsBuild.bind {m : Act α} {f : α → Act β} (hm : KeepsBuild job generation m)
    (hf : ∀ a, KeepsBuild job generation (f a)) : KeepsBuild job generation (m >>= f) :=
  Triple.bind hm hf

theorem keepsBuild_modifyBuilding (change : BuildingJob → BuildingJob)
    (hgeneration : ∀ building, (change building).generation = building.generation)
    (hkeys : ∀ building, building.generation = generation →
      (∀ key ∈ building.keys, key.IsChild generation) →
      ∀ key ∈ (change building).keys, key.IsChild generation) :
    KeepsBuild job generation (modifyBuilding change) :=
  Builds.triple fun memory hbuild => rule_modify_last _ (fun _ => rfl) (fun _ => rfl) fun _ h =>
    ⟨_, hbuild.modify change hgeneration hkeys, h⟩

/-- The build waits for the wallet. -/
theorem keepsBuild_awaitWallet (point : BuildPoint)
    (hkeys : ∀ key ∈ point.keys, key.IsChild generation) :
    KeepsBuild job generation (awaitWallet point) := by
  refine keepsBuild_modifyBuilding _ (fun _ => rfl) fun building _ hbuilding key hkey => ?_
  rcases List.mem_append.mp hkey with hkey | hkey
  · exact hbuilding key (List.mem_append_left _ hkey)
  · exact hkeys key hkey

theorem keepsBuild_modifyLocals (change : BuildLocals → BuildLocals)
    (hkeys : ∀ locals : BuildLocals, (∀ key ∈ locals.keys, key.IsChild generation) →
      ∀ key ∈ (change locals).keys, key.IsChild generation) :
    KeepsBuild job generation (modifyLocals change) := by
  refine keepsBuild_modifyBuilding _ (fun _ => rfl) fun building _ hbuilding key hkey => ?_
  rcases List.mem_append.mp hkey with hkey | hkey
  · exact hkeys building.locals (fun key hkey => hbuilding key (List.mem_append_left _ hkey)) key hkey
  · exact hbuilding key (List.mem_append_right _ hkey)

/-- What a build reads of its locals. -/
theorem rule_buildLocals {f : BuildLocals → Act α}
    (hf : ∀ locals : BuildLocals, (∀ key ∈ locals.keys, key.IsChild generation) →
      Triple (Builds job generation) (f locals) Q E) :
    Triple (Builds job generation) (buildLocals >>= f) Q E := by
  rintro turn ⟨memory, hbuild, hturn⟩
  obtain ⟨building, hsome, rfl⟩ := hbuild.building
  have hout : buildLocals.outcome turn = (.ok building.locals, turn) := by
    have : turn.job.building = some building := hturn.building.trans hsome
    show (Except.ok ((turn.job.building.map (·.locals)).getD {}), turn) = _
    rw [this]
    rfl
  rw [outcome_bind_ok hout]
  exact hf building.locals (fun key hkey => hbuild.ready.tidy.children building hsome key
    (List.mem_append_left _ hkey)) turn ⟨memory, hbuild, hturn⟩

/-! ## The steps of a build -/

theorem keeps_newContribution : Keeps job generation opened memory newContribution :=
  fun _ h => h.write rfl .contributed rfl (fun _ _ => rfl) fun _ h => h

theorem keeps_estimateDustAmount : Keeps job generation opened memory estimateDustAmount := by
  refine Keeps.bind (keeps_dependency _) fun _ => Keeps.bind (fun _ h => h) fun turn => ?_
  simp only
  exact Keeps.ite Keeps.raise Keeps.pure

theorem keeps_setDust (dust : List DustReservation) :
    Keeps job generation opened memory (modifyJob fun job => { job with dust }) :=
  Triple.modify fun _ h => h.write rfl .dust rfl (fun _ _ => rfl) fun _ h => h

theorem keeps_admitDust (options : SwapJobOptions) (other : Nat) :
    Keeps job generation opened memory (admitDust options other) := by
  unfold admitDust
  cases options.dustAdmission with
  | none => exact Keeps.pure
  | some limits =>
    refine Keeps.bind keeps_estimateDustAmount fun amount => Keeps.bind (fun _ h => h) fun turn => ?_
    refine Keeps.bind (keeps_ofExcept _) fun reserved => ?_
    cases reserved with
    | error refusal =>
      cases refusal with
      | window => exact Keeps.raise
      | perJob => exact Keeps.raise
    | ok dust => exact Keeps.bind keeps_effect fun _ => keeps_setDust dust

/-- A row of the build is prepared. -/
theorem keeps_prepareMutation (options : SwapJobOptions) {building : BuildingJob}
    (kind : JournalOperationKind) (label : OperationLabel)
    (hgeneration : building.generation = generation) (hkind : kind ≠ .jobSettlement) :
    Keeps job generation True memory (prepareMutation options building kind label) :=
  keeps_createPrepared options _ hgeneration fun turn hturn =>
    ⟨hgeneration ▸ hturn.opened trivial, fun h => absurd h hkind⟩

theorem keeps_applyArtifact (key : OperationKey) (transaction : WalletTransaction)
    (hgeneration : key.generation = generation) :
    Keeps job generation opened memory (applyArtifact key transaction) :=
  Keeps.bind (keeps_dependency _) fun _ => keeps_transition_open _ _ _ _ hgeneration rfl

theorem keepsBuild_prepareMutation (options : SwapJobOptions) {building : BuildingJob}
    (hgeneration : building.generation = generation) (kind : JournalOperationKind)
    (label : OperationLabel) (hkind : kind ≠ .jobSettlement) :
    KeepsBuild job generation (prepareMutation options building kind label) :=
  .of_keeps fun _ _ => keeps_prepareMutation options kind label hgeneration hkind

theorem keepsBuild_applyArtifact (key : OperationKey) (transaction : WalletTransaction)
    (hkey : key.generation = generation) :
    KeepsBuild job generation (applyArtifact key transaction) :=
  .of_keeps fun _ _ => keeps_applyArtifact key transaction hkey

theorem keepsBuild_dependency (error : String → JobError) :
    KeepsBuild job generation (dependency error) :=
  .of_keeps fun _ _ => keeps_dependency error

theorem keepsBuild_carry (transaction : WalletTransaction) :
    KeepsBuild job generation (modifyLocals fun locals => { locals with
      walletTransactions := locals.walletTransactions ++ [transaction] }) :=
  keepsBuild_modifyLocals _ fun _ h => h

/-- An unproven transaction waits to be finalized. -/
theorem keepsBuild_pend (key : OperationKey) (transaction : WalletTransaction)
    (hkey : key.IsChild generation) :
    KeepsBuild job generation (modifyLocals fun locals => { locals with
      pendingUnproven := locals.pendingUnproven ++ [(key, transaction)] }) := by
  refine keepsBuild_modifyLocals _ fun locals hlocals other hother => ?_
  unfold BuildLocals.keys at hother
  rw [List.map_append, ← List.append_assoc] at hother
  rcases List.mem_append.mp hother with hother | hother
  · exact hlocals other hother
  · rw [List.map_singleton, List.mem_singleton] at hother
    exact hother ▸ hkey

theorem keepsBuild_transferPendingToFinalized (sourceKey key : OperationKey)
    (transaction : WalletTransaction) (hsource : sourceKey.IsChild generation)
    (hkey : key.IsChild generation) :
    KeepsBuild job generation (transferPendingToFinalized sourceKey key transaction) := by
  refine rule_buildLocals fun locals _ => ?_
  refine Triple.ite (fun _ => KeepsBuild.of_keeps fun _ _ => Keeps.raise) fun _ => ?_
  refine keepsBuild_modifyLocals _ fun locals hlocals other hother => ?_
  unfold BuildLocals.keys at hother hlocals
  rw [List.flatMap_append] at hother
  rcases List.mem_append.mp hother with hother | hother
  · rcases List.mem_append.mp hother with hother | hother
    · exact hlocals other (List.mem_append_left _ hother)
    · simp only [List.flatMap_cons, List.flatMap_nil, List.append_nil, List.mem_cons,
        List.not_mem_nil, or_false] at hother
      rcases hother with rfl | rfl
      · exact hkey
      · exact hsource
  · refine hlocals other (List.mem_append_right _ ?_)
    exact (List.eraseP_sublist.map _).subset hother

theorem residualKey_isChild (generation : Nat) : (residualKey generation).IsChild generation :=
  ⟨rfl, fun h => by cases h⟩

theorem finalizedResidualKey_isChild (generation : Nat) :
    (finalizedResidualKey generation).IsChild generation :=
  ⟨rfl, fun h => by cases h⟩

theorem dustKey_isChild (generation : Nat) : (dustKey generation).IsChild generation :=
  ⟨rfl, fun h => by cases h⟩

theorem finalizedDustKey_isChild (generation : Nat) :
    (finalizedDustKey generation).IsChild generation :=
  ⟨rfl, fun h => by cases h⟩

section Steps

variable {building : BuildingJob}

theorem keepsBuild_mergeMakers (options : SwapJobOptions)
    (hgeneration : building.generation = generation) :
    KeepsBuild job generation (mergeMakers options building) := by
  refine (keepsBuild_dependency _).bind fun _ => ?_
  refine (keepsBuild_prepareMutation options hgeneration _ _ fun h => by cases h).bind fun _ => ?_
  exact (keepsBuild_awaitWallet _ fun _ h => by cases h).bind fun _ => KeepsBuild.pure

theorem keepsBuild_addressReplied (options : SwapJobOptions)
    (hgeneration : building.generation = generation) :
    KeepsBuild job generation (addressReplied options building) := by
  refine (keepsBuild_dependency _).bind fun _ => (keepsBuild_dependency _).bind fun _ => ?_
  refine Triple.ite (fun _ => ?_) fun _ => keepsBuild_mergeMakers options hgeneration
  refine (keepsBuild_prepareMutation options hgeneration _ _ fun h => by cases h).bind fun _ => ?_
  exact (keepsBuild_awaitWallet _ fun _ h => by cases h).bind fun _ => KeepsBuild.pure

theorem keepsBuild_initSwapReplied (options : SwapJobOptions)
    (hgeneration : building.generation = generation) :
    KeepsBuild job generation (initSwapReplied options building) := by
  subst hgeneration
  refine (KeepsBuild.of_keeps fun _ _ => keeps_newContribution).bind fun residual => ?_
  refine (keepsBuild_applyArtifact _ _ (residualKey_isChild _).1).bind fun _ => ?_
  refine (keepsBuild_pend _ _ (residualKey_isChild _)).bind fun _ => ?_
  refine (keepsBuild_dependency _).bind fun _ => (keepsBuild_dependency _).bind fun _ => ?_
  refine (keepsBuild_prepareMutation options rfl _ _ fun h => by cases h).bind fun _ => ?_
  exact (keepsBuild_awaitWallet _ fun _ h => by cases h).bind fun _ => KeepsBuild.pure

theorem keepsBuild_residualFinalized (options : SwapJobOptions) (unproven : WalletTransaction)
    (hgeneration : building.generation = generation) :
    KeepsBuild job generation (residualFinalized options building unproven) := by
  subst hgeneration
  refine (keepsBuild_applyArtifact _ _ (finalizedResidualKey_isChild _).1).bind fun _ => ?_
  refine (keepsBuild_transferPendingToFinalized _ _ _ (residualKey_isChild _)
    (finalizedResidualKey_isChild _)).bind fun _ => ?_
  refine (keepsBuild_dependency _).bind fun _ => (keepsBuild_dependency _).bind fun _ => ?_
  exact (keepsBuild_carry _).bind fun _ => keepsBuild_mergeMakers options rfl

theorem keepsBuild_dustBalanced (options : SwapJobOptions)
    (hgeneration : building.generation = generation) :
    KeepsBuild job generation (dustBalanced options building) := by
  subst hgeneration
  refine (KeepsBuild.of_keeps fun _ _ => keeps_newContribution).bind fun dust => ?_
  refine (keepsBuild_applyArtifact _ _ (dustKey_isChild _).1).bind fun _ => ?_
  refine (keepsBuild_pend _ _ (dustKey_isChild _)).bind fun _ => ?_
  refine (keepsBuild_dependency _).bind fun _ => ?_
  refine (KeepsBuild.of_keeps fun _ _ => keeps_admitDust options _).bind fun _ => ?_
  refine (keepsBuild_prepareMutation options rfl _ _ fun h => by cases h).bind fun _ => ?_
  exact (keepsBuild_awaitWallet _ fun _ h => by cases h).bind fun _ => KeepsBuild.pure

theorem keepsBuild_dustFinalized (unproven : WalletTransaction)
    (hgeneration : building.generation = generation) :
    KeepsBuild job generation (dustFinalized building unproven) := by
  subst hgeneration
  refine (keepsBuild_applyArtifact _ _ (finalizedDustKey_isChild _).1).bind fun _ => ?_
  refine (keepsBuild_transferPendingToFinalized _ _ _ (dustKey_isChild _)
    (finalizedDustKey_isChild _)).bind fun _ => ?_
  refine (keepsBuild_dependency _).bind fun _ => ?_
  refine (keepsBuild_carry _).bind fun _ => ?_
  refine (keepsBuild_dependency _).bind fun _ => (keepsBuild_dependency _).bind fun _ => ?_
  exact rule_buildLocals fun _ _ => KeepsBuild.pure

end Steps

/-! ## The failure cleanup -/

/-- A build that throws may have ended its generation, and its memory is still there. -/
def FailedBuild (job : SwapJob) (generation : Nat) : Interrupt → Turn → Prop
  | .thrown _, turn => ∃ memory, AtBuild job generation memory ∧
      Pinned job generation False memory turn
  | .crashed, turn => SwapJob.Wrote generation job turn.job

theorem Builds.failed {turn : Turn} (h : Builds job generation turn) (interrupt : Interrupt) :
    FailedBuild job generation interrupt turn := by
  obtain ⟨memory, hbuild, hturn⟩ := h
  cases interrupt with
  | thrown error => exact ⟨memory, hbuild, hturn.mono False.elim⟩
  | crashed => exact hturn.wrote

/-- A turn of the build ends, or the build fails. -/
def BuildTriple (job : SwapJob) (generation : Nat) (m : Act α) : Prop :=
  Triple (Builds job generation) m (fun _ => Builds job generation) (FailedBuild job generation)

theorem KeepsBuild.fails {m : Act α} (h : KeepsBuild job generation m) :
    BuildTriple job generation m :=
  h.conseq (fun _ h => h) (fun _ _ h => h) fun interrupt _ h => Builds.failed h interrupt

theorem BuildTriple.after {m : Act α} {f : α → Act β} (hm : KeepsBuild job generation m)
    (hf : ∀ a, BuildTriple job generation (f a)) : BuildTriple job generation (m >>= f) :=
  Triple.bind hm.fails hf

/-- The cleanup is over, and the build fails. -/
theorem fails_finishCleanup {building : BuildingJob} (cleanup : Cleanup)
    (hgeneration : building.generation = generation) :
    BuildTriple job generation (finishCleanup building cleanup) := by
  subst hgeneration
  refine BuildTriple.after (.of_keeps fun _ _ => Keeps.when (keeps_dependency _)) fun _ => ?_
  refine BuildTriple.after (.of_keeps fun _ _ => keeps_group _) fun rows => ?_
  simp only
  refine Triple.ite (fun _ => ?_) fun _ => ?_
  · refine BuildTriple.after (.of_keeps fun _ _ => keeps_releaseDust _) fun _ => ?_
    refine BuildTriple.after (.of_keeps fun _ _ => keeps_requireRow _) fun settlement => ?_
    -- Whatever ends the generation, the build throws after it.
    refine Builds.triple fun memory hbuild => Triple.pre ?_ fun _ h => h.mono False.elim
    have hfailed : ∀ interrupt turn, Pinned job building.generation False memory turn →
        FailedBuild job building.generation interrupt turn := by
      intro interrupt turn h
      cases interrupt with
      | thrown error => exact ⟨memory, hbuild, h⟩
      | crashed => exact h.wrote
    refine Triple.ite (fun _ => ?_) fun _ => ?_
    · refine rule_closes (triple_markReverted hbuild.ready.sound) hfailed ?_
      exact Triple.ite (fun _ => Triple.throw (hfailed _)) fun _ => Triple.throw (hfailed _)
    · refine rule_closes (triple_markFailed hbuild.ready.sound _) hfailed ?_
      exact Triple.ite (fun _ => Triple.throw (hfailed _)) fun _ => Triple.throw (hfailed _)
  · refine BuildTriple.after (.of_keeps fun _ _ => keeps_quarantineGroup _ _) fun _ => ?_
    exact Triple.throw fun _ h => Builds.failed h _

theorem keeps_startCleanup (key : OperationKey) (transaction : WalletTransaction)
    (hsound : job.Sound) (hkey : key.generation = generation) :
    Keeps job generation opened memory (startCleanup key transaction) := by
  refine Keeps.attempt ?_ fun _ => Keeps.pure
  exact rule_call (triple_arm ⟨.buildHalf, key, transaction⟩ .applied {} hkey hsound fun _ => rfl)
    (fun _ _ h => h) Keeps.pure

theorem keeps_retainContribution (key : OperationKey) (message : String)
    (hkey : key.generation = generation) :
    Keeps job generation opened memory (retainContribution key message) := by
  refine Keeps.attempt ?_ fun _ => Keeps.pure
  exact keeps_requireRow_bind _ fun row hrow =>
    keeps_quarantineRow _ _ _ (by rw [JournalOperation.generation, hrow, hkey])

section Cleanup

variable {building : BuildingJob}

/-- The loop suspends at its next wallet call, or the build fails. -/
theorem fails_cleanupUnproven (hgeneration : building.generation = generation)
    (pending : List (OperationKey × WalletTransaction)) (cleanup : Cleanup)
    (hcleanup : ∀ key ∈ cleanup.keys, key.IsChild generation)
    (hpending : ∀ entry ∈ pending, entry.1.IsChild generation) :
    BuildTriple job generation (cleanupUnproven building cleanup pending) := by
  induction pending generalizing cleanup with
  | nil => exact fails_finishCleanup cleanup hgeneration
  | cons entry rest ih =>
    obtain ⟨key, transaction⟩ := entry
    obtain ⟨hkey, hrest⟩ := List.forall_mem_cons.mp hpending
    refine BuildTriple.after (.of_keeps fun _ hbuild =>
      keeps_startCleanup key transaction hbuild.ready.sound hkey.1) fun failure => ?_
    cases failure with
    | none =>
      refine BuildTriple.after (keepsBuild_awaitWallet _ fun other hother => ?_) fun _ => KeepsBuild.pure.fails
      rcases List.mem_append.mp hother with hother | hother
      · exact hcleanup other (List.mem_append_left _ hother)
      · obtain ⟨entry, hentry, rfl⟩ := List.mem_map.mp hother
        exact hpending entry hentry
    | some message =>
      refine BuildTriple.after (.of_keeps fun _ _ => keeps_retainContribution key message hkey.1) fun _ => ?_
      exact ih _ hcleanup hrest

theorem fails_cleanupFinalized (hgeneration : building.generation = generation)
    (finalized : List FinalizedContribution) (cleanup : Cleanup)
    (hcleanup : ∀ key ∈ cleanup.keys, key.IsChild generation)
    (hfinalized : ∀ contribution ∈ finalized, contribution.key.IsChild generation ∧
      contribution.sourceKey.IsChild generation) :
    BuildTriple job generation (cleanupFinalized building cleanup finalized) := by
  have hpending : ∀ entry ∈ cleanup.pendingUnproven, entry.1.IsChild generation :=
    fun entry hentry => hcleanup _ (List.mem_append_right _ (List.mem_map_of_mem hentry))
  induction finalized generalizing cleanup with
  | nil => exact fails_cleanupUnproven hgeneration _ cleanup hcleanup hpending
  | cons contribution rest ih =>
    obtain ⟨hkey, hrest⟩ := List.forall_mem_cons.mp hfinalized
    refine BuildTriple.after (.of_keeps fun _ hbuild => keeps_startCleanup contribution.key
      contribution.transaction hbuild.ready.sound hkey.1.1) fun failure => ?_
    cases failure with
    | none =>
      refine BuildTriple.after (keepsBuild_awaitWallet _ fun other hother => ?_) fun _ => KeepsBuild.pure.fails
      rcases List.mem_append.mp hother with hother | hother
      · obtain ⟨found, hfound, hother⟩ := List.mem_flatMap.mp hother
        rcases List.mem_cons.mp hother with rfl | hother
        · exact (hfinalized found hfound).1
        · rw [List.mem_singleton.mp hother]
          exact (hfinalized found hfound).2
      · exact hcleanup other (List.mem_append_right _ hother)
    | some message =>
      refine BuildTriple.after (.of_keeps fun _ _ => keeps_retainContribution _ message hkey.1.1) fun _ => ?_
      exact ih _ hcleanup hrest hpending

/-- The rows of the finalized contributions among some rows. -/
theorem isChild_of_finalized {finalized : List FinalizedContribution}
    (h : ∀ key ∈ finalized.flatMap (fun contribution => [contribution.key, contribution.sourceKey]),
      key.IsChild generation) :
    ∀ contribution ∈ finalized, contribution.key.IsChild generation ∧
      contribution.sourceKey.IsChild generation := by
  intro contribution hmem
  exact ⟨h _ (List.mem_flatMap.mpr ⟨contribution, hmem, List.mem_cons_self⟩),
    h _ (List.mem_flatMap.mpr ⟨contribution, hmem, by simp⟩)⟩

theorem fails_buildCleanup (hgeneration : building.generation = generation) (error : JobError) :
    BuildTriple job generation (buildCleanup building error) := by
  refine rule_buildLocals fun locals hlocals => ?_
  exact fails_cleanupFinalized hgeneration _ _ hlocals
    (isChild_of_finalized fun key hkey => hlocals key (List.mem_append_left _ hkey))

theorem fails_tryBuild {body : Act BuildStep} (hgeneration : building.generation = generation)
    (hbody : KeepsBuild job generation body) :
    BuildTriple job generation (tryBuild building body) := by
  refine triple_attempt hbody (fun error => fails_buildCleanup hgeneration error) fun turn h => ?_
  obtain ⟨memory, _, hturn⟩ := h
  exact hturn.wrote

/-- The wallet has answered the revert of a finalized contribution. -/
theorem fails_finalizedReverted (hgeneration : building.generation = generation)
    (cleanup : Cleanup) (reply : Except String Unit)
    (hcleanup : ∀ key ∈ cleanup.keys, key.IsChild generation) :
    BuildTriple job generation (finalizedReverted building cleanup reply) := by
  have hchildren := isChild_of_finalized fun key hkey =>
    hcleanup key (List.mem_append_left _ hkey)
  unfold finalizedReverted
  cases hfinalized : cleanup.finalized with
  | nil =>
    exact fails_cleanupUnproven hgeneration _ cleanup hcleanup fun entry hentry =>
      hcleanup _ (List.mem_append_right _ (List.mem_map_of_mem hentry))
  | cons contribution rest =>
    rw [hfinalized] at hchildren
    obtain ⟨⟨hkey, hsource⟩, hrest⟩ := List.forall_mem_cons.mp hchildren
    refine BuildTriple.after (.of_keeps fun _ _ => Keeps.attempt ?_ fun _ => Keeps.pure) fun failure => ?_
    · refine Keeps.bind (keeps_ofExcept reply) fun _ => ?_
      refine Keeps.bind (keeps_transition_child _ _ _ _ hkey.1 hkey.ne) fun _ => ?_
      exact Keeps.bind (keeps_markOperationReverted _ hsource.1 hsource.ne) fun _ => Keeps.pure
    · cases failure with
      | none => exact fails_cleanupFinalized hgeneration rest cleanup hcleanup hrest
      | some message =>
        refine BuildTriple.after (.of_keeps fun _ _ => keeps_retainContribution _ message hkey.1) fun _ => ?_
        refine fails_cleanupFinalized hgeneration rest _ (fun key hkey => hcleanup key ?_) hrest
        rw [Cleanup.keys, hfinalized]
        exact hkey

/-- The wallet has answered the revert of a pending transaction. -/
theorem fails_unprovenReverted (hgeneration : building.generation = generation)
    (cleanup : Cleanup) (reply : Except String Unit)
    (hcleanup : ∀ key ∈ cleanup.keys, key.IsChild generation) :
    BuildTriple job generation (unprovenReverted building cleanup reply) := by
  have hchildren : ∀ entry ∈ cleanup.pendingUnproven, entry.1.IsChild generation :=
    fun entry hentry => hcleanup _ (List.mem_append_right _ (List.mem_map_of_mem hentry))
  unfold unprovenReverted
  cases hpending : cleanup.pendingUnproven with
  | nil => exact fails_finishCleanup cleanup hgeneration
  | cons entry rest =>
    obtain ⟨key, transaction⟩ := entry
    rw [hpending] at hchildren
    obtain ⟨hkey, hrest⟩ := List.forall_mem_cons.mp hchildren
    refine BuildTriple.after (.of_keeps fun _ _ => Keeps.attempt ?_ fun _ => Keeps.pure) fun failure => ?_
    · refine Keeps.bind (keeps_ofExcept reply) fun _ => ?_
      exact Keeps.bind (keeps_transition_child _ _ _ _ hkey.1 hkey.ne) fun _ => Keeps.pure
    · cases failure with
      | none => exact fails_cleanupUnproven hgeneration rest cleanup hcleanup hrest
      | some message =>
        refine BuildTriple.after (.of_keeps fun _ _ => keeps_retainContribution _ message hkey.1) fun _ => ?_
        refine fails_cleanupUnproven hgeneration rest _ (fun other hother => hcleanup other ?_) hrest
        rw [Cleanup.keys, hpending]
        exact hother

/-- A turn of `buildHalf`. -/
theorem fails_buildHalf (options : SwapJobOptions) (reply : Except String Unit)
    (hgeneration : building.generation = generation)
    (hkeys : ∀ key ∈ building.keys, key.IsChild generation) :
    BuildTriple job generation (buildHalf options building reply) := by
  have hreply {f : Unit → Act BuildStep} (hf : KeepsBuild job generation (f ())) :
      BuildTriple job generation (tryBuild building (ofExcept reply >>= f)) :=
    fails_tryBuild hgeneration ((KeepsBuild.of_keeps fun _ _ => keeps_ofExcept reply).bind
      fun _ => hf)
  have hpoint : ∀ key ∈ building.point.keys, key.IsChild generation :=
    fun key hkey => hkeys key (List.mem_append_right _ hkey)
  unfold buildHalf
  cases hat : building.point with
  | exactFiles => exact KeepsBuild.pure.fails
  | address =>
    refine BuildTriple.after (.of_keeps fun _ _ => keeps_ofExcept reply) fun _ => ?_
    refine BuildTriple.after (keepsBuild_dependency _) fun _ => ?_
    exact fails_tryBuild hgeneration (keepsBuild_addressReplied options hgeneration)
  | initSwap => exact hreply (keepsBuild_initSwapReplied options hgeneration)
  | finalizeResidual unproven =>
    exact hreply (keepsBuild_residualFinalized options unproven hgeneration)
  | balanceDust => exact hreply (keepsBuild_dustBalanced options hgeneration)
  | finalizeDust unproven => exact hreply (keepsBuild_dustFinalized unproven hgeneration)
  | revertFinalized cleanup =>
    rw [hat] at hpoint
    exact fails_finalizedReverted hgeneration cleanup reply hpoint
  | revertUnproven cleanup =>
    rw [hat] at hpoint
    exact fails_unprovenReverted hgeneration cleanup reply hpoint

theorem keepsBuild_exactFilesReplied (reply : Except String Unit) :
    KeepsBuild job generation (exactFilesReplied reply) := by
  cases reply with
  | error message => exact .of_keeps fun _ _ => Keeps.raise
  | ok _ =>
    refine (keepsBuild_dependency _).bind fun _ => (keepsBuild_dependency _).bind fun _ => ?_
    exact (keepsBuild_awaitWallet _ fun _ h => by cases h).bind fun _ => KeepsBuild.pure

end Cleanup

end Act

end ZswapKernel
