import ZswapKernel.Solver.SwapMemory

/-!
# What a turn does

Each function of the executor is proved against where the turn stands (`Pinned`): from a memory that
is in order (`Ready`), it ends in a job that is `Good`, and has written in one generation alone
(`Ends`). The rules at the beginning follow the text of a function: a read of the memory returns what
is pinned, a change of the memory pins another, and a journal function keeps the pin.
-/

namespace ZswapKernel

open Program

/-! ## Where a turn may stand, and how it ends -/

/-- The memory is in order, and nothing that is live in it is closed. -/
structure Ready (job : SwapJob) (generation : Nat) (opened : Prop) (memory : SwapJob) : Prop where
  sound : job.Sound
  tidy : memory.Tidy
  below : memory.Below (Act.nextGeneration job.journal)
  blank : memory.restored = false → memory.records = [] ∧ memory.building = none
  here : memory.Live generation → opened
  elsewhere : ∀ other, other ≠ generation → memory.Live other → ¬ job.journal.Closed other

theorem SwapJob.tidy_memory {job : SwapJob} : job.memory.Tidy ↔ job.Tidy :=
  ⟨fun h => { h with }, fun h => { h with }⟩

theorem SwapJob.Live.of_memory {job job' : SwapJob} {generation : Nat}
    (h : job'.memory = job.memory) (hlive : job'.Live generation) : job.Live generation := by
  refine hlive.of_records ?_ ?_ ?_
  · intro building hsome
    have hbuilding := congrArg SwapJob.building h
    exact ⟨building, (show job.building = job'.building from hbuilding.symm).trans hsome, rfl⟩
  · intro task htask _
    have htasks := congrArg SwapJob.tasks h
    exact (show job'.tasks = job.tasks from htasks) ▸ htask
  · intro task _
    have hrecords := congrArg SwapJob.records h
    unfold SwapJob.record
    rw [show job'.records = job.records from hrecords]

/-- A turn that began with `job` ends, and the process goes on. -/
structure Ends (job : SwapJob) (generation : Nat) (turn : Turn) : Prop where
  wrote : SwapJob.Wrote generation job turn.job
  good : turn.job.Good

/-- The process dies in a turn that began with `job`. -/
def Dies (job : SwapJob) (generation : Nat) (interrupt : Interrupt) (turn : Turn) : Prop :=
  interrupt = .crashed ∧ SwapJob.Wrote generation job turn.job

/-- A throw leaves the memory where it was pinned; a crash leaves what was written. -/
def Throws (job : SwapJob) (generation : Nat) (opened : Prop) (memory : SwapJob) :
    Interrupt → Turn → Prop
  | .thrown _, turn => Pinned job generation opened memory turn
  | .crashed, turn => SwapJob.Wrote generation job turn.job

theorem Dies.throws {job memory : SwapJob} {generation : Nat} {opened : Prop}
    {interrupt : Interrupt} {turn : Turn} (h : Dies job generation interrupt turn) :
    Throws job generation opened memory interrupt turn := by
  obtain ⟨rfl, hwrote⟩ := h
  exact hwrote

namespace Pinned

variable {job memory : SwapJob} {generation : Nat} {opened : Prop} {turn : Turn}

theorem good (h : Pinned job generation opened memory turn)
    (hready : Ready job generation opened memory) : turn.job.Good where
  sound := h.wrote.sound hready.sound
  below := (hready.below.same h.records h.building).mono h.wrote.nextGeneration_le
  blank hblank := by
    rw [h.records, h.building]
    exact hready.blank (h.restored.symm.trans hblank)
  tidy := by
    rw [← SwapJob.tidy_memory, h.memory]
    exact SwapJob.tidy_memory.mpr hready.tidy
  opened other hother := by
    have hmemory := hother.of_memory h.memory
    by_cases heq : other = generation
    · subst heq
      exact h.opened (hready.here hmemory)
    · rw [h.wrote.closed_iff heq]
      exact hready.elsewhere other heq hmemory

theorem ends (h : Pinned job generation opened memory turn)
    (hready : Ready job generation opened memory) : Ends job generation turn :=
  ⟨h.wrote, h.good hready⟩

theorem throws (h : Pinned job generation opened memory turn) (interrupt : Interrupt) :
    Throws job generation opened memory interrupt turn := by
  cases interrupt with
  | thrown error => exact h
  | crashed => exact h.wrote

theorem dies (h : Pinned job generation opened memory turn) : Dies job generation .crashed turn :=
  ⟨rfl, h.wrote⟩

end Pinned

/-! ## Rules -/

namespace Act

variable {job memory : SwapJob} {generation : Nat} {opened : Prop} {α β : Type}
variable {Q : β → Turn → Prop} {E : Interrupt → Turn → Prop}

/-- The turn ends when the function returns, which it does unless the process dies. -/
def EndsTriple (job : SwapJob) (generation : Nat) (opened : Prop) (memory : SwapJob) (m : Act α) :
    Prop :=
  Triple (Pinned job generation opened memory) m (fun _ => Ends job generation)
    (Dies job generation)

theorem EndsTriple.throws {opened' : Prop} {memory' : SwapJob} {m : Act α}
    (h : EndsTriple job generation opened memory m) :
    Triple (Pinned job generation opened memory) m (fun _ => Ends job generation)
      (Throws job generation opened' memory') :=
  h.conseq (fun _ h => h) (fun _ _ h => h) fun _ _ h => h.throws

/-- The handler takes over where the throw left the memory. -/
theorem rule_attempt {opened' : Prop} {memory' : SwapJob} {body : Act Unit}
    {handler : JobError → Act Unit}
    (hbody : Triple (Pinned job generation opened memory) body (fun _ => Ends job generation)
      (Throws job generation opened' memory'))
    (hhandler : ∀ error, EndsTriple job generation opened' memory' (handler error)) :
    EndsTriple job generation opened memory (attempt body handler) :=
  triple_attempt hbody hhandler fun _ h => ⟨rfl, h⟩

/-- What follows a journal function whose failure is ignored. -/
theorem rule_ignored {m : Act Unit} {f : Unit → Act β}
    (hm : Keeps job generation opened memory m)
    (hE : ∀ turn, Pinned job generation opened memory turn → E .crashed turn)
    (hf : Triple (Pinned job generation opened memory) (f ()) Q E) :
    Triple (Pinned job generation opened memory)
      (attempt m (fun _ => pure ()) >>= f) Q E := by
  refine Triple.bind (Q := fun _ => Pinned job generation opened memory) ?_ fun _ => hf
  exact triple_attempt hm (fun _ => Triple.pure fun _ h => h) hE

theorem rule_keeps {m : Act α} {f : α → Act β} (hm : Keeps job generation opened memory m)
    (hE : ∀ interrupt turn, Pinned job generation opened memory turn → E interrupt turn)
    (hf : ∀ a, Triple (Pinned job generation opened memory) (f a) Q E) :
    Triple (Pinned job generation opened memory) (m >>= f) Q E :=
  Triple.bind (hm.conseq (fun _ h => h) (fun _ _ h => h) hE) hf

/-- What follows a call of the wallet that was armed. -/
theorem rule_call {arm : Act α} {call : RevertCall} {f : Unit → Act β}
    (harm : Triple (Pinned job generation opened memory) arm
      (fun _ => Armed job generation opened memory call)
      (fun _ => Pinned job generation opened memory))
    (hE : ∀ interrupt turn, Pinned job generation opened memory turn → E interrupt turn)
    (hf : Triple (Pinned job generation opened memory) (f ()) Q E) :
    Triple (Pinned job generation opened memory) (arm >>= fun _ => callRevert call >>= f) Q E := by
  refine Triple.bind (harm.conseq (fun _ h => h) (fun _ _ h => h) hE) fun _ => ?_
  exact Triple.bind ((triple_callRevert call).conseq (fun _ h => h) (fun _ _ h => h) hE) fun _ => hf

/-- What follows a function that ends the generation. -/
theorem rule_closes {m : Act Unit} {f : Unit → Act β}
    (hm : Triple (Pinned job generation False memory) m
      (fun _ => Finished job generation memory) fun _ => Pinned job generation False memory)
    (hE : ∀ interrupt turn, Pinned job generation False memory turn → E interrupt turn)
    (hf : Triple (Pinned job generation False memory) (f ()) Q E) :
    Triple (Pinned job generation False memory) (m >>= f) Q E := by
  refine Triple.bind (hm.conseq (fun _ h => h) (fun _ _ h => h) hE) fun _ => ?_
  exact hf.conseq (fun _ h => h.1) (fun _ _ h => h) fun _ _ h => h

theorem rule_getJob {f : SwapJob → Act β}
    (hf : ∀ found, Triple (fun turn => Pinned job generation opened memory turn ∧ turn.job = found)
      (f found) Q E) :
    Triple (Pinned job generation opened memory) (getJob >>= f) Q E :=
  fun turn h => hf turn.job turn ⟨h, rfl⟩

theorem rule_getRecord {f : JobRecord → Act β} {index : Nat}
    (hf : Triple (Pinned job generation opened memory) (f (memory.record index)) Q E) :
    Triple (Pinned job generation opened memory) (getRecord index >>= f) Q E := by
  intro turn h
  have hrecord : turn.job.records[index]?.getD default = memory.record index := by
    rw [h.records]
    rfl
  have hout : (getRecord index).outcome turn =
      (.ok (turn.job.records[index]?.getD default), turn) := rfl
  rw [outcome_bind_ok hout, hrecord]
  exact hf turn h

theorem rule_modify {f : Unit → Act β} (change : SwapJob → SwapJob)
    (hcrash : ∀ job, (change job).crash = job.crash)
    (hmemory : ∀ job, (change job).memory = (change job.memory).memory)
    (hf : Triple (Pinned job generation opened (change memory)) (f ()) Q E) :
    Triple (Pinned job generation opened memory) (modifyJob change >>= f) Q E := by
  intro turn h
  exact hf _ (triple_modifyJob change hcrash hmemory turn h)

theorem rule_modify_last {Q : Unit → Turn → Prop} (change : SwapJob → SwapJob)
    (hcrash : ∀ job, (change job).crash = job.crash)
    (hmemory : ∀ job, (change job).memory = (change job.memory).memory)
    (hf : ∀ turn, Pinned job generation opened (change memory) turn → Q () turn) :
    Triple (Pinned job generation opened memory) (modifyJob change) Q E :=
  fun turn h => hf _ (triple_modifyJob change hcrash hmemory turn h)

theorem rule_newRecord {f : Nat → Act β} {record : JobRecord}
    (hf : Triple (Pinned job generation opened { memory with
      records := memory.records ++ [record] }) (f memory.records.length) Q E) :
    Triple (Pinned job generation opened memory) (newRecord record >>= f) Q E := by
  intro turn h
  have hpinned : Pinned job generation opened { memory with records := memory.records ++ [record] }
      { turn with job := { turn.job with records := turn.job.records ++ [record] } } :=
    triple_modifyJob (fun job => { job with records := job.records ++ [record] }) (fun _ => rfl)
      (fun _ => rfl) turn h
  have hlength : turn.job.records.length = memory.records.length := by rw [h.records]
  have hout : (newRecord record).outcome turn = (.ok turn.job.records.length,
      { turn with job := { turn.job with records := turn.job.records ++ [record] } }) := rfl
  rw [outcome_bind_ok hout, hlength]
  exact hf _ hpinned

/-- A read that returns without a change. -/
theorem rule_read {m : Act α} {f : α → Act β}
    (hm : ∀ turn, ∃ a, m.outcome turn = (.ok a, turn))
    (hf : ∀ a, Triple (Pinned job generation opened memory) (f a) Q E) :
    Triple (Pinned job generation opened memory) (m >>= f) Q E := by
  intro turn h
  obtain ⟨a, hout⟩ := hm turn
  rw [outcome_bind_ok hout]
  exact hf a turn h

/-- `owns` says whether the generation is open. -/
theorem rule_owns {f : Bool → Act β}
    (hopen : Triple (Pinned job generation True memory) (f true) Q E)
    (hclosed : Triple (Pinned job generation opened memory) (f false) Q E) :
    Triple (Pinned job generation opened memory) (owns generation >>= f) Q E := by
  intro turn h
  have hout : (owns generation).outcome turn =
      (.ok ((turn.job.journal.get (jobKey generation)).any (!·.terminal)), turn) := rfl
  rw [outcome_bind_ok hout]
  cases howns : (turn.job.journal.get (jobKey generation)).any (!·.terminal) with
  | false => exact hclosed turn h
  | true =>
    refine hopen turn ⟨h.wrote, h.memory, fun _ => ?_⟩
    rintro ⟨state, hstate, hterminal⟩
    obtain ⟨row, hrow, rfl⟩ := Journal.get_of_stateOf hstate
    rw [hrow] at howns
    simp only [Option.any_some, JournalOperation.terminal, hterminal] at howns
    cases howns

end Act

/-! ## Memory that is in order stays so -/

namespace SwapJob

variable {job : SwapJob}

/-- Nothing is live in the generation of a record the relay decides. -/
theorem Tidy.not_live (h : job.Tidy) {index : Nat} (hindex : job.Remote index) :
    ¬ job.Live (job.record index).generation := by
  intro hlive
  cases hlive with
  | building building hsome hgeneration =>
    exact h.building building hsome index hindex.1 hgeneration.symm
  | retrying other hretrying hgeneration =>
    obtain ⟨task, htask, rfl, hretries⟩ := hretrying
    obtain ⟨hlt, hlocal⟩ := h.tasks task htask
    exact h.none_protected hindex task.record hlt hgeneration
      ⟨hlocal.mpr hretries, Or.inr ⟨task, htask, rfl, hretries⟩⟩

theorem Live.same {job' : SwapJob} {generation : Nat} (h : job'.Live generation)
    (hbuilding : job'.building = job.building) (htasks : job'.tasks = job.tasks)
    (hrecords : job'.records = job.records) : job.Live generation := by
  refine h.of_records (fun building hsome => ⟨building, hbuilding ▸ hsome, rfl⟩)
    (fun task htask _ => htasks ▸ htask) fun task _ => ?_
  unfold SwapJob.record
  rw [hrecords]

theorem Live.of_newRecord (h : job.Tidy) {record : JobRecord} {generation : Nat}
    (hlive : ({ job with records := job.records ++ [record] } : SwapJob).Live generation) :
    job.Live generation := by
  refine hlive.of_records (fun building hsome => ⟨building, hsome, rfl⟩) (fun _ htask _ => htask)
    fun task htask => ?_
  rw [record_append record (h.tasks task htask).1]

theorem Live.of_modifyRecord (h : job.Tidy) {index : Nat} {change : JobRecord → JobRecord}
    {generation : Nat} (hgeneration : ∀ record, (change record).generation = record.generation)
    (hlive : ({ job with records := job.records.modify index change } : SwapJob).Live generation) :
    job.Live generation := by
  refine hlive.of_records (fun building hsome => ⟨building, hsome, rfl⟩) (fun _ htask _ => htask)
    fun task htask => ?_
  rw [record_modify index change (h.tasks task htask).1]
  split
  · exact hgeneration _
  · rfl

end SwapJob

namespace Ready

variable {job memory memory' : SwapJob} {generation : Nat} {opened : Prop}

/-- Another memory that is in order, in which nothing else is live. -/
theorem of_tidy (h : Ready job generation opened memory) (htidy : memory'.Tidy)
    (hbelow : memory'.Below (Act.nextGeneration job.journal))
    (hblank : memory'.restored = false → memory'.records = [] ∧ memory'.building = none)
    (hlive : ∀ other, memory'.Live other → memory.Live other) :
    Ready job generation opened memory' :=
  ⟨h.sound, htidy, hbelow, hblank, fun hlive' => h.here (hlive _ hlive'),
    fun other hother hlive' => h.elsewhere other hother (hlive other hlive')⟩

/-- The maps change. -/
theorem setMaps (h : Ready job generation opened memory)
    (awaiting confirmations quarantined : Option Nat)
    (hawaiting : ∀ index, awaiting = some index → memory.Remote index)
    (hconfirmations : ∀ index, confirmations = some index → memory.Remote index)
    (hquarantined : ∀ index, quarantined = some index → index < memory.records.length) :
    Ready job generation opened { memory with awaiting, confirmations, quarantined } :=
  h.of_tidy { h.tidy with
    awaiting := hawaiting, confirmations := hconfirmations, quarantined := hquarantined }
    (h.below.same rfl rfl) h.blank fun _ hlive => hlive.same rfl rfl rfl

/-- What is no record and no reference to one changes. -/
theorem setRest (h : Ready job generation opened memory) (tombstone : Option Int)
    (answers : List SwapAnswer) (released : List Claim) (completed reverted : List Nat) :
    Ready job generation opened { memory with
      tombstone, answers, released, completed, reverted } :=
  h.of_tidy { h.tidy with } (h.below.same rfl rfl) h.blank fun _ hlive => hlive.same rfl rfl rfl

/-- There are no records before startup. -/
theorem restored (h : Ready job generation opened memory) {index : Nat}
    (hindex : index < memory.records.length) : memory.restored = true := by
  by_contra hne
  rw [(h.blank (by simpa using hne)).1] at hindex
  exact Nat.not_lt_zero _ hindex

theorem newRecord (h : Ready job generation opened memory) (record : JobRecord)
    (hrestored : memory.restored = true)
    (hbelow : record.generation < Act.nextGeneration job.journal)
    (hbuilding : ∀ building, memory.building = some building →
      record.generation ≠ building.generation)
    (hothers : ∀ other < memory.records.length,
      (memory.record other).generation = record.generation → ¬ memory.Protected other)
    (hsole : record.locallyRevertible = some true → record.reverting ≠ some true →
      ∀ other < memory.records.length, (memory.record other).generation ≠ record.generation) :
    Ready job generation opened { memory with records := memory.records ++ [record] } :=
  h.of_tidy (h.tidy.newRecord record hbuilding hothers hsole) (h.below.newRecord hbelow)
    (fun hblank => absurd (hrestored.symm.trans hblank) (by decide)) fun _ hlive => hlive.of_newRecord h.tidy

/-- A record is made beside one the relay decides. -/
theorem newRecord_remote (h : Ready job generation opened memory) (record : JobRecord) {index : Nat}
    (hremote : memory.Remote index) (hgeneration : record.generation =
      (memory.record index).generation)
    (hidle : record.locallyRevertible = some true → record.reverting = some true) :
    Ready job generation opened { memory with records := memory.records ++ [record] } := by
  refine h.newRecord record (h.restored hremote.1) (hgeneration ▸ h.below.records index hremote.1) ?_ ?_ ?_
  · intro building hsome
    rw [hgeneration]
    exact h.tidy.building building hsome index hremote.1
  · intro other hother heq
    exact h.tidy.none_protected hremote other hother (heq.trans hgeneration)
  · intro hlocal hreverting
    exact absurd (hidle hlocal) hreverting

theorem modifyRecord (h : Ready job generation opened memory) (index : Nat)
    (change : JobRecord → JobRecord)
    (hgeneration : ∀ record, (change record).generation = record.generation)
    (hlocal : (change (memory.record index)).locallyRevertible = some true →
      (memory.record index).locallyRevertible = some true)
    (htasks : ∀ task ∈ memory.tasks, task.record = index →
      (task.suspension.retries → (change (memory.record index)).locallyRevertible = some true) ∧
      (task.suspension.reverts → (change (memory.record index)).reverting = some true))
    (hsole : (change (memory.record index)).locallyRevertible = some true →
      (change (memory.record index)).reverting ≠ some true → memory.Sole index) :
    Ready job generation opened { memory with records := memory.records.modify index change } :=
  h.of_tidy (h.tidy.modifyRecord index change hgeneration hlocal htasks hsole)
    (h.below.modifyRecord index change hgeneration) (fun hblank => by simpa using h.blank hblank)
    fun _ hlive => hlive.of_modifyRecord h.tidy hgeneration

/-- The flag of a record the relay decides. -/
theorem setReverting (h : Ready job generation opened memory) {index : Nat}
    (hremote : memory.Remote index) (reverting : Bool)
    (hidle : reverting = false → ∀ task ∈ memory.tasks, task.record = index →
      task.suspension.reverts = false) :
    Ready job generation opened { memory with
      records := memory.records.modify index fun entry => { entry with reverting } } := by
  refine h.modifyRecord index _ (fun _ => rfl) (fun h => h) ?_ fun hlocal => absurd hlocal hremote.2
  intro task htask hrecord
  refine ⟨fun hretries => ?_, fun hreverts => ?_⟩
  · have := ((h.tidy.tasks task htask).2).mpr hretries
    rw [hrecord] at this
    exact this
  · cases reverting with
    | true => rfl
    | false =>
      have := hidle rfl task htask hrecord
      rw [hreverts] at this
      cases this

/-- An operation suspends on a record the relay decides. -/
theorem suspend (h : Ready job generation opened memory) {index : Nat}
    (hremote : memory.Remote index) (suspension : Suspension) (queued : Bool)
    (hretries : suspension.retries = false)
    (hreverts : suspension.reverts → (memory.record index).reverting = some true ∧
      ∀ task ∈ memory.tasks, task.record = index → task.suspension.reverts = false) :
    Ready job generation opened { memory with
      tasks := memory.tasks ++ [⟨index, suspension, queued⟩] } := by
  refine h.of_tidy (h.tidy.suspend ⟨index, suspension, queued⟩ hremote.1 ?_
    (fun hrev => (hreverts hrev).1) ?_ ?_ ?_) (h.below.same rfl rfl) h.blank ?_
  · exact ⟨fun hlocal => absurd hlocal hremote.2, fun hret => by rw [hretries] at hret; cases hret⟩
  · intro hrev task htask htaskReverts heq
    rw [(hreverts hrev).2 task htask heq] at htaskReverts
    cases htaskReverts
  · intro hret
    rw [hretries] at hret
    cases hret
  · intro target htarget
    cases suspension with
    | retryQuarantine => cases hretries
    | _ => cases htarget
  · intro other hlive
    refine hlive.of_records (fun building hsome => ⟨building, hsome, rfl⟩) ?_ fun _ _ => rfl
    intro task htask hret
    rcases List.mem_append.mp htask with htask | htask
    · exact htask
    · rw [List.mem_singleton.mp htask, hretries] at hret
      cases hret

/-- Once the generation is known to be open. -/
theorem known (h : Ready job generation opened memory) : Ready job generation True memory :=
  ⟨h.sound, h.tidy, h.below, h.blank, fun _ => trivial, h.elsewhere⟩

/-- Nothing is live in the generation. -/
theorem dead (opened' : Prop) (h : Ready job generation opened memory)
    (hdead : ¬ memory.Live generation) : Ready job generation opened' memory :=
  ⟨h.sound, h.tidy, h.below, h.blank, fun hlive => absurd hlive hdead, h.elsewhere⟩

end Ready

namespace SwapJob

variable {job : SwapJob}

/-- Nothing reverts a record whose flag is down. -/
theorem Tidy.idle (h : job.Tidy) {index : Nat}
    (hreverting : (job.record index).reverting ≠ some true) :
    ∀ task ∈ job.tasks, task.record = index → task.suspension.reverts = false := by
  rintro task htask rfl
  by_contra hreverts
  exact hreverting (h.reverting task htask (by simpa using hreverts))

theorem Remote.modify {other : Nat} (h : job.Remote other) (index : Nat)
    (change : JobRecord → JobRecord) (hchange : (change (job.record index)).locallyRevertible =
      (job.record index).locallyRevertible) :
    ({ job with records := job.records.modify index change } : SwapJob).Remote other := by
  refine ⟨(List.length_modify change job.records index).symm ▸ h.1, ?_⟩
  rw [record_modify index change h.1]
  split
  next heq =>
    subst heq
    rw [hchange]
    exact h.2
  next => exact h.2

theorem record_modified {index : Nat} (h : index < job.records.length)
    (change : JobRecord → JobRecord) :
    ({ job with records := job.records.modify index change } : SwapJob).record index =
      change (job.record index) := by
  rw [record_modify index change h, if_pos rfl]

end SwapJob

/-! ## `revertWallet` -/

namespace Act

attribute [local irreducible] createPrepared transition

variable {job memory : SwapJob} {generation : Nat} {opened : Prop}

/-- A failed revert is kept in a copy of the record, and the record is free again. -/
theorem ends_revertWalletFailed {index : Nat} (error : JobError)
    (hready : Ready job generation opened memory) (hremote : memory.Remote index)
    (hgeneration : (memory.record index).generation = generation)
    (hreverting : (memory.record index).reverting = some true)
    (hidle : ∀ task ∈ memory.tasks, task.record = index → task.suspension.reverts = false) :
    EndsTriple job generation opened memory (revertWalletFailed index error) := by
  subst hgeneration
  refine rule_getRecord (rule_ignored (keeps_quarantineGroup _ _) (fun _ h => h.dies) ?_)
  refine rule_newRecord (rule_modify _ (fun _ => rfl) (fun _ => rfl) ?_)
  refine rule_modify_last _ (fun _ => rfl) (fun _ => rfl) fun turn h => h.ends ?_
  have hcopied := hready.newRecord_remote
    { memory.record index with locallyRevertible := some true, evidenceReconcile := some false }
    hremote rfl fun _ => hreverting
  have hmapped := hcopied.setMaps none memory.confirmations (some memory.records.length)
    (fun _ h => by cases h) hcopied.tidy.confirmations (fun other hother => by
      cases hother
      simp)
  refine hmapped.setReverting ⟨?_, ?_⟩ false fun _ => hidle
  · simpa using Nat.lt_succ_of_lt hremote.1
  · exact (SwapJob.record_append _ hremote.1).symm ▸ hremote.2

/-- The row that allows `revertWallet` is `REVERTING` when the wallet is called. -/
theorem triple_armRevert (options : SwapJobOptions) (record : JobRecord)
    (transaction : WalletTransaction) (hsound : job.Sound) (h : record.generation = generation) :
    Triple (Pinned job generation True memory) (armRevert options record)
      (fun _ => Armed job generation True memory
        ⟨.revertWallet, revertKey generation, transaction⟩)
      (fun _ => Pinned job generation True memory) := by
  subst h
  have harm (expectedState : JournalLifecycleState) (patch : TransitionPatch) :
      Triple (Pinned job record.generation True memory)
        (transition (revertKey record.generation) expectedState .reverting patch)
        (fun _ => Armed job record.generation True memory
          ⟨.revertWallet, revertKey record.generation, transaction⟩)
        (fun _ => Pinned job record.generation True memory) :=
    triple_arm ⟨.revertWallet, revertKey record.generation, transaction⟩ expectedState patch rfl
      hsound fun hcaller => absurd rfl hcaller
  intro turn hturn
  have hout : (getRow (revertKey record.generation)).outcome turn =
      (.ok (turn.job.journal.get (revertKey record.generation)), turn) := rfl
  unfold armRevert
  rw [outcome_bind_ok hout]
  cases hfound : turn.job.journal.get (revertKey record.generation) with
  | none =>
    refine Triple.bind (keeps_dependency _) (fun _ => ?_) turn hturn
    refine Triple.bind (keeps_createPrepared options _ rfl fun turn hturn => ⟨hturn.opened trivial,
      fun hkind => by cases hkind⟩) fun _ => ?_
    exact harm .prepared {}
  | some existing =>
    by_cases hquarantined : existing.lifecycleState = .quarantined
    · simp only [if_pos hquarantined]
      exact harm .quarantined _ turn hturn
    · simp only [if_neg hquarantined]
      by_cases hreverting : existing.lifecycleState = .reverting
      · simp only [hreverting, ne_eq, not_true_eq_false, if_false]
        refine ⟨hturn, ?_, fun hcaller => absurd rfl hcaller⟩
        rw [Journal.stateOf_of_get hfound, hreverting]
      · simp only [if_pos (show existing.lifecycleState ≠ .reverting from hreverting)]
        exact hturn

/-- `revertWallet` suspends on its record, or keeps a copy of it. -/
theorem ends_revertWallet (options : SwapJobOptions) {index : Nat} (queued : Bool)
    (hready : Ready job generation opened memory) (hremote : memory.Remote index)
    (hgeneration : (memory.record index).generation = generation) :
    EndsTriple job generation opened memory (revertWallet options index queued) := by
  refine rule_getRecord ?_
  rw [hgeneration]
  refine rule_owns ?_ (Triple.ite (fun _ => Triple.pure fun _ h => h.ends hready) fun h => ?_)
  · refine Triple.ite (fun _ => Triple.pure fun _ h => h.ends hready.known) fun hfree => ?_
    have hreverting : (memory.record index).reverting ≠ some true := by simpa using hfree
    have hidle := hready.tidy.idle hreverting
    have hready' := hready.known.setReverting hremote true fun h => by cases h
    have hremote' := hremote.modify index (fun entry => { entry with reverting := some true }) rfl
    have hrecord := SwapJob.record_modified hremote.1 fun entry =>
      { entry with reverting := some true }
    refine rule_modify _ (fun _ => rfl) (fun _ => rfl) (rule_attempt ?_ fun error =>
      ends_revertWalletFailed error hready' hremote' (hrecord ▸ hgeneration) (hrecord ▸ rfl) hidle)
    refine rule_call (triple_armRevert options _ _ hready.sound hgeneration)
      (fun _ _ h => h.throws _) ?_
    refine rule_modify_last _ (fun _ => rfl) (fun _ => rfl) fun turn h => h.ends ?_
    exact hready'.suspend hremote' .revertWallet queued rfl fun _ => ⟨hrecord ▸ rfl, hidle⟩
  · simp at h

/-- What is left to do in memory once everything is reverted. -/
theorem rule_finishReverted {f : Unit → Act Unit} {Q : Unit → Turn → Prop}
    {E : Interrupt → Turn → Prop} (record : JobRecord)
    (hf : ∀ memory', Ready job generation opened memory' → memory'.records = memory.records →
      memory'.tasks = memory.tasks → Triple (Pinned job generation opened memory') (f ()) Q E)
    (hready : Ready job generation opened memory) :
    Triple (Pinned job generation opened memory) (finishReverted record >>= f) Q E := by
  unfold finishReverted
  simp only [bind_assoc]
  refine rule_read (fun turn => ⟨_, rfl⟩) fun expiry => ?_
  refine rule_modify _ (fun _ => rfl) (fun _ => rfl) (rule_modify _ (fun _ => rfl) (fun _ => rfl) ?_)
  refine rule_modify _ (fun _ => rfl) (fun _ => rfl) (hf _ ?_ rfl rfl)
  exact (hready.setMaps memory.awaiting memory.confirmations none hready.tidy.awaiting
    hready.tidy.confirmations fun _ h => by cases h).setRest _ _ _ _ _

/-- The wallet has answered `revertWallet`. -/
theorem ends_revertWalletReplied {index : Nat} (reply : Except String Unit)
    (hready : Ready job generation opened memory) (hremote : memory.Remote index)
    (hgeneration : (memory.record index).generation = generation)
    (hreverting : (memory.record index).reverting = some true)
    (hidle : ∀ task ∈ memory.tasks, task.record = index → task.suspension.reverts = false) :
    EndsTriple job generation False memory (revertWalletReplied index reply) := by
  subst hgeneration
  have hready' : Ready job (memory.record index).generation False memory :=
    hready.dead False (hready.tidy.not_live hremote)
  refine rule_attempt ?_ fun error =>
    ends_revertWalletFailed error hready' hremote rfl hreverting hidle
  refine rule_getRecord (rule_keeps (keeps_ofExcept reply) (fun _ _ h => h.throws _) fun _ => ?_)
  refine rule_keeps (keeps_transition_child _ _ _ _ rfl (fun h => by cases h))
    (fun _ _ h => h.throws _) fun _ => ?_
  refine rule_closes (triple_markReverted hready.sound) (fun _ _ h => h.throws _) ?_
  refine rule_modify _ (fun _ => rfl) (fun _ => rfl) ?_
  refine rule_finishReverted _ (fun memory' hready'' hrecords htasks => ?_)
    (hready'.setMaps none memory.confirmations memory.quarantined (fun _ h => by cases h)
      hready.tidy.confirmations hready.tidy.quarantined)
  refine rule_modify_last _ (fun _ => rfl) (fun _ => rfl) fun turn h =>
    h.ends (hready''.setReverting ?_ false fun _ => ?_)
  · refine ⟨hrecords ▸ hremote.1, ?_⟩
    unfold SwapJob.record
    rw [hrecords]
    exact hremote.2
  · rw [htasks]
    exact hidle

end Act

/-! ## `retryQuarantine` -/

/-- A local record whose retry runs in this turn: no operation has it. -/
structure SwapJob.Held (memory : SwapJob) (index : Nat) : Prop where
  lt : index < memory.records.length
  isLocal : (memory.record index).locallyRevertible = some true
  reverting : (memory.record index).reverting = some true
  free : ∀ task ∈ memory.tasks, task.record ≠ index
  sole : memory.Sole index

/-- Nothing is live in the generation of the record of this turn's retry. -/
theorem SwapJob.Held.not_live {memory : SwapJob} {index : Nat} (h : memory.Held index)
    (htidy : memory.Tidy) : ¬ memory.Live (memory.record index).generation := by
  intro hlive
  cases hlive with
  | building building hsome hgeneration =>
    exact htidy.building building hsome index h.lt hgeneration.symm
  | retrying other hretrying hgeneration =>
    obtain ⟨task, htask, rfl, _⟩ := hretrying
    exact h.free task htask (h.sole task.record (htidy.tasks task htask).1 hgeneration)

/-- The flag goes up on a local record that is not being reverted. -/
theorem Ready.hold {job memory : SwapJob} {generation index : Nat} {opened : Prop}
    (h : Ready job generation opened memory) (hlt : index < memory.records.length)
    (hreverting : (memory.record index).reverting ≠ some true)
    (hlocal : (memory.record index).locallyRevertible = some true) :
    Ready job generation opened { memory with
      records := memory.records.modify index fun entry => { entry with reverting := some true } } ∧
    ({ memory with records := memory.records.modify index fun entry =>
      { entry with reverting := some true } } : SwapJob).Held index := by
  have hfree : ∀ task ∈ memory.tasks, task.record ≠ index := by
    rintro task htask rfl
    have hretries := ((h.tidy.tasks task htask).2).mp hlocal
    exact hreverting (h.tidy.reverting task htask (Suspension.reverts_of_retries hretries))
  have hrecord := SwapJob.record_modified hlt fun entry => { entry with reverting := some true }
  refine ⟨h.modifyRecord index _ (fun _ => rfl) (fun h => h) ?_ fun _ h => absurd rfl h, ?_⟩
  · intro task htask heq
    exact absurd heq (hfree task htask)
  · refine ⟨(List.length_modify _ _ _).symm ▸ hlt, hrecord ▸ hlocal, hrecord ▸ rfl, hfree, ?_⟩
    intro other hother hsame
    rw [List.length_modify] at hother
    rw [hrecord, SwapJob.record_modify index _ hother] at hsame
    refine h.tidy.sole index hlt ⟨hlocal, Or.inl hreverting⟩ other hother ?_
    split at hsame
    · exact hsame
    · exact hsame

/-- The retry waits for the wallet. -/
theorem Ready.suspendRetry {job memory : SwapJob} {generation index : Nat}
    (h : Ready job generation True memory) (hheld : memory.Held index)
    (hgeneration : (memory.record index).generation = generation) (target : RecoveryRevertTarget)
    (rest : List RecoveryRevertTarget) (queued : Bool)
    (htargets : ∀ other ∈ target :: rest, other.operationKey.IsChild generation) :
    Ready job generation True { memory with
      tasks := memory.tasks ++ [⟨index, .retryQuarantine target rest, queued⟩] } := by
  refine ⟨h.sound, h.tidy.suspend _ hheld.lt ⟨fun _ => rfl, fun _ => hheld.isLocal⟩
    (fun _ => hheld.reverting) (fun _ other hother _ => hheld.free other hother)
    (fun _ => hheld.sole) (hgeneration ▸ htargets), h.below.same rfl rfl, h.blank,
    fun _ => trivial, fun other hother hlive => ?_⟩
  cases hlive with
  | building building hsome hbuilding =>
    exact h.elsewhere other hother (.building building hsome hbuilding)
  | retrying found hretrying hfound =>
    obtain ⟨task, htask, rfl, hretries⟩ := hretrying
    rcases List.mem_append.mp htask with htask | htask
    · exact h.elsewhere other hother (.retrying _ ⟨task, htask, rfl, hretries⟩ hfound)
    · rw [List.mem_singleton.mp htask] at hfound
      exact absurd (hfound.symm.trans hgeneration) hother

namespace Act

attribute [local irreducible] createPrepared transition

variable {job memory : SwapJob} {generation : Nat} {opened : Prop}

/-- The record is kept, and nothing of it is tried again. -/
theorem ends_retainRecoveryAmbiguity {index : Nat} (reason : String)
    (hready : Ready job generation opened memory) (hheld : memory.Held index)
    (hgeneration : (memory.record index).generation = generation) :
    EndsTriple job generation opened memory (retainRecoveryAmbiguity index reason) := by
  subst hgeneration
  refine rule_getRecord (rule_ignored (keeps_quarantineGroup _ _) (fun _ h => h.dies) ?_)
  refine rule_modify_last _ (fun _ => rfl) (fun _ => rfl) fun turn h => h.ends ?_
  refine hready.modifyRecord index _ (fun _ => rfl) (fun h => by cases h) ?_ fun h => by cases h
  intro task htask hrecord
  exact absurd hrecord (hheld.free task htask)

/-- Everything the record left in the wallet is reverted; a throw leaves the memory as it was. -/
theorem triple_finishRetry {index : Nat} (hready : Ready job generation opened memory)
    (hheld : memory.Held index) (hgeneration : (memory.record index).generation = generation) :
    Triple (Pinned job generation opened memory) (finishRetry index)
      (fun _ => Ends job generation) (Throws job generation False memory) := by
  subst hgeneration
  have hready' : Ready job (memory.record index).generation False memory :=
    hready.dead False (hheld.not_live hready.tidy)
  refine Triple.conseq (P := Pinned job _ False memory) ?_ (fun _ h => h.mono False.elim)
    (fun _ _ h => h) fun _ _ h => h
  refine rule_getRecord (rule_closes (triple_markReverted hready.sound) (fun _ _ h => h.throws _) ?_)
  refine rule_finishReverted _ (fun memory' hready'' hrecords htasks => ?_) hready'
  refine rule_modify_last _ (fun _ => rfl) (fun _ => rfl) fun turn h => h.ends ?_
  refine hready''.modifyRecord index _ (fun _ => rfl) (fun h => h) ?_ fun _ _ => ?_
  · intro task htask hrecord
    rw [htasks] at htask
    exact absurd hrecord (hheld.free task htask)
  · intro other hother hsame
    unfold SwapJob.record at hsame
    rw [hrecords] at hother hsame
    exact hheld.sole other hother hsame

/-- The loop suspends at its next wallet call, or ends the retry. -/
theorem triple_retryTargets (options : SwapJobOptions) {index : Nat} (queued : Bool)
    (targets : List RecoveryRevertTarget) (hready : Ready job generation True memory)
    (hheld : memory.Held index) (hgeneration : (memory.record index).generation = generation)
    (htargets : ∀ target ∈ targets, target.operationKey.IsChild generation) :
    Triple (Pinned job generation True memory) (retryTargets options index queued targets)
      (fun _ => Ends job generation) (Throws job generation False memory) := by
  induction targets with
  | nil => exact triple_finishRetry hready hheld hgeneration
  | cons target rest ih =>
    have hkey := htargets target List.mem_cons_self
    have hE : ∀ interrupt turn, Pinned job generation True memory turn →
        Throws job generation False memory interrupt turn :=
      fun interrupt _ h => (h.mono False.elim).throws interrupt
    refine rule_keeps (keeps_getRow _) hE fun recovery => ?_
    refine Triple.ite (fun _ => ih fun target h => htargets target (List.mem_cons_of_mem _ h))
      fun _ => ?_
    refine rule_getRecord ?_
    rw [hgeneration]
    refine rule_keeps (Keeps.when (keeps_createPrepared options _ rfl fun turn hturn =>
      ⟨hturn.opened trivial, fun h => by cases h⟩)) hE fun _ => ?_
    refine rule_call (triple_arm ⟨.retryQuarantine, target.operationKey, target.walletArtifact⟩
      .prepared {} hkey.1 hready.sound fun _ => rfl) hE ?_
    exact rule_modify_last _ (fun _ => rfl) (fun _ => rfl) fun turn h =>
      h.ends (hready.suspendRetry hheld hgeneration target rest queued htargets)

/-- The targets of a generation are of that generation. -/
theorem restoreRecoveryTargets_returns (generation : Nat) :
    Returns (restoreRecoveryTargets generation) fun restored =>
      ∀ target ∈ restored.targets, target.operationKey.IsChild generation := by
  unfold restoreRecoveryTargets
  refine (Returns.trivial _).bind fun jobId _ => (Returns.trivial _).bind fun rows _ => ?_
  simp only
  split
  · exact Returns.pure fun target h => absurd h List.not_mem_nil
  · refine Returns.ite (fun _ => Returns.pure fun target h => absurd h List.not_mem_nil) fun _ => ?_
    refine (Returns.trivial _).bind fun _ _ => Returns.pure fun target h => ?_
    rw [List.mem_singleton.mp h]
    exact ⟨rfl, fun h => by cases h⟩
  · refine (Returns.trivial _).bind fun _ _ => Returns.pure fun target h => ?_
    rcases List.mem_append.mp h with h | h
    · obtain ⟨row, _, rfl⟩ := List.mem_map.mp h
      exact ⟨rfl, fun h => by cases h⟩
    · split at h
      · cases h
      · rw [List.mem_singleton.mp h]
        exact ⟨rfl, fun h => by cases h⟩

theorem keeps_restoreRecoveryTargets (other : Nat) :
    Keeps job generation opened memory (restoreRecoveryTargets other) := by
  unfold restoreRecoveryTargets
  refine Keeps.bind keeps_getJob fun _ => Keeps.bind (keeps_group _) fun rows => ?_
  simp only
  split
  · exact Keeps.pure
  · refine Keeps.ite Keeps.pure ?_
    exact Keeps.bind (keeps_dependency _) fun _ => Keeps.pure
  · exact Keeps.bind (Keeps.when (keeps_dependency _)) fun _ => Keeps.pure

/-- `retryQuarantine` suspends, ends the retry, or gives it up. -/
theorem ends_retryQuarantine (options : SwapJobOptions) {index : Nat} (queued : Bool)
    (hready : Ready job generation opened memory) (hlt : index < memory.records.length)
    (hgeneration : (memory.record index).generation = generation) :
    EndsTriple job generation opened memory (retryQuarantine options index queued) := by
  refine rule_getRecord ?_
  rw [hgeneration]
  refine rule_owns ?_ (Triple.ite (fun _ => Triple.pure fun _ h => h.ends hready) fun h => ?_)
  · refine Triple.ite (fun _ => Triple.pure fun _ h => h.ends hready.known) fun hfree => ?_
    simp only [Bool.not_true, Bool.or_false, Bool.or_eq_true, decide_eq_true_eq, not_or,
      not_not] at hfree
    obtain ⟨hreverting, hlocal⟩ := hfree
    obtain ⟨hready', hheld⟩ := hready.known.hold hlt hreverting hlocal
    have hrecord := SwapJob.record_modified hlt fun entry => { entry with reverting := some true }
    have hgeneration' := (congrArg JobRecord.generation hrecord).trans hgeneration
    have hready'' := hready'.dead False (hgeneration' ▸ hheld.not_live hready'.tidy)
    refine rule_modify _ (fun _ => rfl) (fun _ => rfl) (rule_attempt ?_ fun error =>
      ends_retainRecoveryAmbiguity error.message hready'' hheld hgeneration')
    refine rule_keeps (keeps_group _) (fun _ _ h => (h.mono False.elim).throws _) fun rows => ?_
    refine Triple.ite (fun _ => triple_finishRetry hready' hheld hgeneration') fun _ => ?_
    refine Triple.bind_returns (Triple.conseq (keeps_restoreRecoveryTargets generation)
      (fun _ h => h) (fun _ _ h => h) fun _ _ h => (h.mono False.elim).throws _)
      (restoreRecoveryTargets_returns generation) fun restored htargets => ?_
    have hgiveUp (reason : String) :=
      ends_retainRecoveryAmbiguity reason hready' hheld hgeneration'
    split
    · exact (hgiveUp _).throws
    · refine Triple.ite (fun _ => (hgiveUp _).throws) fun _ =>
        Triple.ite (fun _ => (hgiveUp _).throws) fun _ => ?_
      exact triple_retryTargets options queued restored.targets hready' hheld hgeneration' htargets
  · simp at h

/-- The wallet has answered a retry. -/
theorem ends_retryQuarantineReplied (options : SwapJobOptions) {index : Nat} (queued : Bool)
    (target : RecoveryRevertTarget) (rest : List RecoveryRevertTarget) (reply : Except String Unit)
    (hready : Ready job generation True memory) (hheld : memory.Held index)
    (hgeneration : (memory.record index).generation = generation)
    (htargets : ∀ other ∈ target :: rest, other.operationKey.IsChild generation) :
    EndsTriple job generation True memory
      (retryQuarantineReplied options index queued target rest reply) := by
  have hready' := hready.dead False (hgeneration ▸ hheld.not_live hready.tidy)
  obtain ⟨hchild, hrest⟩ := List.forall_mem_cons.mp htargets
  refine rule_attempt ?_ fun error =>
    ends_retainRecoveryAmbiguity error.message hready' hheld hgeneration
  refine rule_keeps (keeps_ofExcept reply) (fun _ _ h => (h.mono False.elim).throws _) fun _ => ?_
  refine rule_keeps (keeps_transition_child _ _ _ _ hchild.1 hchild.ne)
    (fun _ _ h => (h.mono False.elim).throws _) fun _ => ?_
  exact triple_retryTargets options queued rest hready hheld hgeneration hrest

end Act

end ZswapKernel
