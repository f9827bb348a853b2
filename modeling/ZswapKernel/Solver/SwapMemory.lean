import ZswapKernel.Solver.SwapExecutor
import ZswapKernel.Solver.SwapWrites

/-!
# The records of a job in memory

A record is referred to by the maps, by suspended operations, by the terminal chain and by copies
the sweep has made. Two kinds of records must not be mixed up: one that is reverted locally
(`locallyRevertible`), whose generation has no other record and which no relay operation reaches; and
one the relay decides. `SwapJob.Tidy` says how they are kept apart, and which operation is under way
on a record. A build has no record of its generation yet.

`SwapJob.Good` adds the journal: a generation that is being built or retried is not closed, and a new
generation is none the memory knows. Before startup has come to a job, its memory is empty.
-/

namespace ZswapKernel

/-! ## Records and what refers to them -/

namespace SwapJob

/-- The record at an index, as `getRecord` reads it. -/
def record (job : SwapJob) (index : Nat) : JobRecord := job.records[index]?.getD default

end SwapJob

def Suspension.retries : Suspension → Bool
  | .retryQuarantine _ _ => true
  | _ => false

/-- The wallet has been called to revert. -/
def Suspension.reverts : Suspension → Bool
  | .revertWallet | .retryQuarantine _ _ => true
  | _ => false

theorem Suspension.reverts_of_retries {suspension : Suspension} (h : suspension.retries) :
    suspension.reverts := by
  cases suspension <;> first | rfl | cases h

/-- The targets of a retry that are not reverted yet. -/
def Suspension.targets : Suspension → List RecoveryRevertTarget
  | .retryQuarantine target rest => target :: rest
  | _ => []

/-- The rows of the contributions a cleanup still has to revert. -/
def Cleanup.keys (cleanup : Cleanup) : List OperationKey :=
  cleanup.finalized.flatMap (fun contribution => [contribution.key, contribution.sourceKey]) ++
    cleanup.pendingUnproven.map (·.1)

def BuildPoint.keys : BuildPoint → List OperationKey
  | .revertFinalized cleanup | .revertUnproven cleanup => cleanup.keys
  | _ => []

def BuildLocals.keys (locals : BuildLocals) : List OperationKey :=
  locals.finalized.flatMap (fun contribution => [contribution.key, contribution.sourceKey]) ++
    locals.pendingUnproven.map (·.1)

/-- The rows a build may have to revert. -/
def BuildingJob.keys (building : BuildingJob) : List OperationKey :=
  building.locals.keys ++ building.point.keys

/-- A row of the generation that is not its settlement row. -/
def OperationKey.IsChild (key : OperationKey) (generation : Nat) : Prop :=
  key.generation = generation ∧ key.operationKind ≠ .jobSettlement

theorem OperationKey.IsChild.ne {key : OperationKey} {generation : Nat} (h : key.IsChild generation) :
    key ≠ jobKey generation := by
  rintro rfl
  exact h.2 rfl

def TerminalOperation.record : TerminalOperation → Option Nat
  | .reconcileFromHttp record | .reconcileDurableEvidence record => some record
  | _ => none

namespace SwapJob

variable (job : SwapJob)

/-- A record the relay decides. -/
def Remote (index : Nat) : Prop :=
  index < job.records.length ∧ (job.record index).locallyRevertible ≠ some true

/-- A retry of the record is under way. -/
def Retrying (index : Nat) : Prop :=
  ∃ task ∈ job.tasks, task.record = index ∧ task.suspension.retries

/-- A retry of the record is under way, or the next sweep starts one. -/
def Protected (index : Nat) : Prop :=
  (job.record index).locallyRevertible = some true ∧
    ((job.record index).reverting ≠ some true ∨ job.Retrying index)

/-- No other record has the generation of this one. -/
def Sole (index : Nat) : Prop :=
  ∀ other < job.records.length, (job.record other).generation = (job.record index).generation →
    other = index

/-- The generation is being built, or what a build left of it is being retried. -/
inductive Live (generation : Nat) : Prop
  | building (building : BuildingJob) (h : job.building = some building)
      (hgeneration : building.generation = generation)
  | retrying (index : Nat) (h : job.Retrying index)
      (hgeneration : (job.record index).generation = generation)

/-- How the records of a job are kept apart. -/
structure Tidy : Prop where
  awaiting : ∀ index, job.awaiting = some index → job.Remote index
  confirmations : ∀ index, job.confirmations = some index → job.Remote index
  quarantined : ∀ index, job.quarantined = some index → index < job.records.length
  chain : ∀ operation ∈ job.terminalChain, ∀ index, operation.record = some index →
    job.Remote index
  swept : ∀ stage index, (stage, index) ∈ job.swept → index < job.records.length ∧
    (stage ≠ .quarantined → (job.record index).locallyRevertible ≠ some true)
  tasks : ∀ task ∈ job.tasks, task.record < job.records.length ∧
    ((job.record task.record).locallyRevertible = some true ↔ task.suspension.retries)
  reverting : ∀ task ∈ job.tasks, task.suspension.reverts →
    (job.record task.record).reverting = some true
  once : job.tasks.Pairwise fun task other =>
    task.suspension.reverts → other.suspension.reverts → task.record ≠ other.record
  sole : ∀ index < job.records.length, job.Protected index → job.Sole index
  targets : ∀ task ∈ job.tasks, ∀ target ∈ task.suspension.targets,
    target.operationKey.IsChild (job.record task.record).generation
  building : ∀ building, job.building = some building →
    ∀ index < job.records.length, (job.record index).generation ≠ building.generation
  children : ∀ building, job.building = some building → ∀ key ∈ building.keys,
    key.IsChild building.generation

/-- The generations in memory are below a bound. -/
structure Below (bound : Nat) : Prop where
  records : ∀ index < job.records.length, (job.record index).generation < bound
  building : ∀ building, job.building = some building → building.generation < bound

/-- A job between two turns. -/
structure Good : Prop where
  sound : job.Sound
  tidy : job.Tidy
  opened : ∀ generation, job.Live generation → ¬ job.journal.Closed generation
  below : job.Below (Act.nextGeneration job.journal)
  blank : job.restored = false → job.records = [] ∧ job.building = none

end SwapJob

/-! ## Changes of the memory -/

namespace SwapJob

variable {job : SwapJob}

theorem record_append (record : JobRecord) {index : Nat} (h : index < job.records.length) :
    ({ job with records := job.records ++ [record] } : SwapJob).record index = job.record index := by
  unfold SwapJob.record
  rw [List.getElem?_append_left h]

theorem record_appended (record : JobRecord) :
    ({ job with records := job.records ++ [record] } : SwapJob).record job.records.length =
      record := by
  unfold SwapJob.record
  simp

theorem record_modify (index : Nat) (change : JobRecord → JobRecord) {other : Nat}
    (h : other < job.records.length) :
    ({ job with records := job.records.modify index change } : SwapJob).record other =
      if other = index then change (job.record other) else job.record other := by
  unfold SwapJob.record
  rw [List.getElem?_modify]
  by_cases heq : index = other
  · subst heq
    simp [h]
  · have : other ≠ index := fun h => heq h.symm
    simp [heq, this]

/-- Nothing of the generation of a record the relay decides is protected. -/
theorem Tidy.none_protected (h : job.Tidy) {index : Nat} (hindex : job.Remote index) :
    ∀ other < job.records.length,
      (job.record other).generation = (job.record index).generation → ¬ job.Protected other := by
  intro other hother hgeneration hprotected
  have := h.sole other hother hprotected index hindex.1 hgeneration.symm
  subst this
  exact hindex.2 hprotected.1

/-- A record is made. -/
theorem Tidy.newRecord (h : job.Tidy) (record : JobRecord)
    (hbuilding : ∀ building, job.building = some building →
      record.generation ≠ building.generation)
    (hothers : ∀ other < job.records.length,
      (job.record other).generation = record.generation → ¬ job.Protected other)
    (hsole : record.locallyRevertible = some true → record.reverting ≠ some true →
      ∀ other < job.records.length, (job.record other).generation ≠ record.generation) :
    ({ job with records := job.records ++ [record] } : SwapJob).Tidy := by
  have hlt : ∀ {index}, index < job.records.length → index < (job.records ++ [record]).length :=
    fun hindex => by rw [List.length_append]; exact Nat.lt_add_right _ hindex
  have hremote : ∀ index, job.Remote index →
      ({ job with records := job.records ++ [record] } : SwapJob).Remote index :=
    fun index hindex => ⟨hlt hindex.1, by rw [record_append record hindex.1]; exact hindex.2⟩
  have hcases : ∀ index, index < (job.records ++ [record]).length →
      index < job.records.length ∨ index = job.records.length := by
    intro index hindex
    rw [List.length_append, List.length_singleton] at hindex
    omega
  -- No task has the new record.
  have hretrying : ∀ index, ({ job with records := job.records ++ [record] } : SwapJob).Retrying
      index → index < job.records.length := by
    rintro index ⟨task, htask, rfl, _⟩
    exact (h.tasks task htask).1
  refine ⟨fun index hindex => hremote index (h.awaiting index hindex),
    fun index hindex => hremote index (h.confirmations index hindex),
    fun index hindex => hlt (h.quarantined index hindex),
    fun operation hmem index hindex => hremote index (h.chain operation hmem index hindex),
    ?_, ?_, ?_, h.once, ?_, ?_, ?_, h.children⟩
  · intro stage index hmem
    obtain ⟨hindex, hstage⟩ := h.swept stage index hmem
    exact ⟨hlt hindex, by rw [record_append record hindex]; exact hstage⟩
  · intro task htask
    obtain ⟨hindex, hretries⟩ := h.tasks task htask
    exact ⟨hlt hindex, by rw [record_append record hindex]; exact hretries⟩
  · intro task htask hreverts
    rw [record_append record (h.tasks task htask).1]
    exact h.reverting task htask hreverts
  · rintro index hindex ⟨hlocal, hprotected⟩ other hother hgeneration
    rcases hcases index hindex with hindex | rfl
    · rw [record_append record hindex] at hlocal hprotected hgeneration
      have hprotected : job.Protected index := ⟨hlocal, hprotected⟩
      rcases hcases other hother with hother | rfl
      · rw [record_append record hother] at hgeneration
        exact h.sole index hindex hprotected other hother hgeneration
      · rw [record_appended] at hgeneration
        exact absurd hprotected (hothers index hindex hgeneration.symm)
    · rw [record_appended] at hlocal hprotected hgeneration
      have hnone := hsole hlocal (hprotected.resolve_right fun hretry =>
        absurd (hretrying _ hretry) (Nat.lt_irrefl _))
      rcases hcases other hother with hother | rfl
      · rw [record_append record hother] at hgeneration
        exact absurd hgeneration (hnone other hother)
      · rfl
  · intro task htask target htarget
    rw [record_append record (h.tasks task htask).1]
    exact h.targets task htask target htarget
  · intro building hsome index hindex
    rcases hcases index hindex with hindex | rfl
    · rw [record_append record hindex]
      exact h.building building hsome index hindex
    · rw [record_appended]
      exact hbuilding building hsome

/-- A record changes, but for its generation; it is not made a local one. -/
theorem Tidy.modifyRecord (h : job.Tidy) (index : Nat) (change : JobRecord → JobRecord)
    (hgeneration : ∀ record, (change record).generation = record.generation)
    (hlocal : (change (job.record index)).locallyRevertible = some true →
      (job.record index).locallyRevertible = some true)
    (htasks : ∀ task ∈ job.tasks, task.record = index →
      (task.suspension.retries → (change (job.record index)).locallyRevertible = some true) ∧
      (task.suspension.reverts → (change (job.record index)).reverting = some true))
    (hsole : (change (job.record index)).locallyRevertible = some true →
      (change (job.record index)).reverting ≠ some true → job.Sole index) :
    ({ job with records := job.records.modify index change } : SwapJob).Tidy := by
  have hlength : (job.records.modify index change).length = job.records.length :=
    List.length_modify _ _ _
  have hremote : ∀ other, job.Remote other →
      ({ job with records := job.records.modify index change } : SwapJob).Remote other := by
    rintro other ⟨hother, hremote⟩
    refine ⟨hlength ▸ hother, ?_⟩
    rw [record_modify index change hother]
    split
    next heq =>
      subst heq
      exact fun hchanged => hremote (hlocal hchanged)
    next => exact hremote
  have hsame : ∀ {other}, other < job.records.length →
      (({ job with records := job.records.modify index change } : SwapJob).record other).generation
        = (job.record other).generation := by
    intro other hother
    rw [record_modify index change hother]
    split
    · exact hgeneration _
    · rfl
  refine ⟨fun other hother => hremote other (h.awaiting other hother),
    fun other hother => hremote other (h.confirmations other hother),
    fun other hother => hlength ▸ h.quarantined other hother,
    fun operation hmem other hother => hremote other (h.chain operation hmem other hother),
    ?_, ?_, ?_, h.once, ?_, ?_, ?_, h.children⟩
  · intro stage other hmem
    obtain ⟨hother, hstage⟩ := h.swept stage other hmem
    exact ⟨hlength ▸ hother, fun hne => (hremote other ⟨hother, hstage hne⟩).2⟩
  · intro task htask
    obtain ⟨hlt, hretries⟩ := h.tasks task htask
    refine ⟨hlength ▸ hlt, ?_⟩
    rw [record_modify index change hlt]
    split
    next heq =>
      rw [heq] at hretries ⊢
      exact ⟨fun hchanged => hretries.mp (hlocal hchanged), (htasks task htask heq).1⟩
    next => exact hretries
  · intro task htask hreverts
    rw [record_modify index change (h.tasks task htask).1]
    split
    next heq =>
      rw [heq]
      exact (htasks task htask heq).2 hreverts
    next => exact h.reverting task htask hreverts
  · rintro other hother ⟨hchanged, hprotected⟩ third hthird hthirdGeneration
    rw [hlength] at hother hthird
    rw [hsame hthird, hsame hother] at hthirdGeneration
    rw [record_modify index change hother] at hchanged hprotected
    split at hchanged
    next heq =>
      subst heq
      rw [if_pos rfl] at hprotected
      rcases hprotected with hidle | hretrying
      · exact hsole hchanged hidle third hthird hthirdGeneration
      · exact h.sole other hother ⟨hlocal hchanged, Or.inr hretrying⟩ third hthird hthirdGeneration
    next hne =>
      rw [if_neg hne] at hprotected
      exact h.sole other hother ⟨hchanged, hprotected⟩ third hthird hthirdGeneration
  · intro task htask target htarget
    rw [hsame (h.tasks task htask).1]
    exact h.targets task htask target htarget
  · intro building hsome other hother
    rw [hlength] at hother
    rw [hsame hother]
    exact h.building building hsome other hother

/-- An operation suspends. -/
theorem Tidy.suspend (h : job.Tidy) (task : JobTask) (hlt : task.record < job.records.length)
    (hretries : (job.record task.record).locallyRevertible = some true ↔ task.suspension.retries)
    (hreverting : task.suspension.reverts → (job.record task.record).reverting = some true)
    (honce : task.suspension.reverts → ∀ other ∈ job.tasks, other.suspension.reverts →
      other.record ≠ task.record)
    (hsole : task.suspension.retries → job.Sole task.record)
    (htargets : ∀ target ∈ task.suspension.targets,
      target.operationKey.IsChild (job.record task.record).generation) :
    ({ job with tasks := job.tasks ++ [task] } : SwapJob).Tidy := by
  refine { h with tasks := ?_, reverting := ?_, once := ?_, sole := ?_, targets := ?_ }
  · intro other hother
    rcases List.mem_append.mp hother with hother | hother
    · exact h.tasks other hother
    · rw [List.mem_singleton.mp hother]
      exact ⟨hlt, hretries⟩
  · intro other hother
    rcases List.mem_append.mp hother with hother | hother
    · exact h.reverting other hother
    · rw [List.mem_singleton.mp hother]
      exact hreverting
  · refine List.pairwise_append.mpr ⟨h.once, List.pairwise_singleton _ _, ?_⟩
    intro other hother last hlast hotherReverts hlastReverts
    rw [List.mem_singleton.mp hlast] at hlastReverts ⊢
    exact honce hlastReverts other hother hotherReverts
  · rintro index hindex ⟨hlocal, hprotected⟩
    rcases hprotected with hidle | ⟨other, hother, rfl, hotherRetries⟩
    · exact h.sole index hindex ⟨hlocal, Or.inl hidle⟩
    · rcases List.mem_append.mp hother with hother | hother
      · exact h.sole _ hindex ⟨hlocal, Or.inr ⟨other, hother, rfl, hotherRetries⟩⟩
      · rw [List.mem_singleton.mp hother] at hotherRetries ⊢
        exact hsole hotherRetries
  · intro other hother
    rcases List.mem_append.mp hother with hother | hother
    · exact h.targets other hother
    · rw [List.mem_singleton.mp hother]
      exact htargets

/-- Operations end. -/
theorem Tidy.sublist (h : job.Tidy) {tasks : List JobTask} (hsub : tasks.Sublist job.tasks) :
    ({ job with tasks := tasks } : SwapJob).Tidy := by
  refine { h with
    tasks := fun task htask => h.tasks task (hsub.subset htask)
    reverting := fun task htask => h.reverting task (hsub.subset htask)
    once := h.once.sublist hsub
    targets := fun task htask => h.targets task (hsub.subset htask)
    sole := ?_ }
  rintro index hindex ⟨hlocal, hprotected⟩
  refine h.sole index hindex ⟨hlocal, hprotected.imp_right ?_⟩
  rintro ⟨task, htask, hrecord⟩
  exact ⟨task, hsub.subset htask, hrecord⟩

/-! ## Generations -/

section Generations

open Act

theorem foldl_max_lt {l : List Nat} {first bound : Nat} (hfirst : first < bound) :
    l.foldl max first < bound ↔ ∀ n ∈ l, n < bound := by
  induction l generalizing first with
  | nil => simp [hfirst]
  | cons n l ih =>
    rw [List.foldl_cons, List.forall_mem_cons]
    by_cases hn : n < bound
    · rw [ih (max_lt hfirst hn)]
      simp [hn]
    · constructor
      · intro h
        have hle : ∀ (l : List Nat) (first : Nat), first ≤ l.foldl max first := by
          intro l
          induction l with
          | nil => exact fun first => Nat.le_refl first
          | cons n l ih => exact fun first => (le_max_left first n).trans (ih _)
        have := hle l (max first n)
        omega
      · exact fun h => absurd h.1 hn

/-- The next generation is the least above all. -/
theorem nextGeneration_le_iff {journal : Journal} {bound : Nat} (hbound : 0 < bound) :
    nextGeneration journal ≤ bound ↔ ∀ row ∈ journal, row.generation < bound := by
  unfold nextGeneration
  rw [Nat.add_one_le_iff, foldl_max_lt hbound, List.forall_mem_map]

theorem generation_lt_next {journal : Journal} {row : JournalOperation} (h : row ∈ journal) :
    row.generation < nextGeneration journal :=
  (nextGeneration_le_iff (Nat.succ_pos _)).mp (Nat.le_refl _) row h

theorem Wrote.nextGeneration_le {job' : SwapJob} {generation : Nat}
    (h : Wrote generation job job') : nextGeneration job.journal ≤ nextGeneration job'.journal := by
  refine (nextGeneration_le_iff (Nat.succ_pos _)).mpr fun row hrow => ?_
  obtain ⟨row', hrow', hkey⟩ := h.keeps_key (List.mem_map_of_mem hrow)
  have := generation_lt_next hrow'
  rwa [JournalOperation.generation, hkey] at this

theorem Below.mono {bound bound' : Nat} (h : job.Below bound) (hle : bound ≤ bound') :
    job.Below bound' :=
  ⟨fun index hindex => (h.records index hindex).trans_le hle,
    fun building hsome => (h.building building hsome).trans_le hle⟩

theorem Below.same {job' : SwapJob} {bound : Nat} (h : job.Below bound)
    (hrecords : job'.records = job.records) (hbuilding : job'.building = job.building) :
    job'.Below bound := by
  refine ⟨fun index hindex => ?_, fun building hsome => h.building building (hbuilding ▸ hsome)⟩
  unfold SwapJob.record
  rw [hrecords] at hindex ⊢
  exact h.records index hindex

theorem Below.newRecord {bound : Nat} (h : job.Below bound) {record : JobRecord}
    (hrecord : record.generation < bound) :
    ({ job with records := job.records ++ [record] } : SwapJob).Below bound := by
  refine ⟨fun index hindex => ?_, h.building⟩
  rw [List.length_append, List.length_singleton] at hindex
  rcases Nat.lt_or_eq_of_le (Nat.le_of_lt_succ hindex) with hindex | rfl
  · rw [record_append record hindex]
    exact h.records index hindex
  · rw [record_appended]
    exact hrecord

theorem Below.modifyRecord {bound : Nat} (h : job.Below bound) (index : Nat)
    (change : JobRecord → JobRecord)
    (hgeneration : ∀ record, (change record).generation = record.generation) :
    ({ job with records := job.records.modify index change } : SwapJob).Below bound := by
  refine ⟨fun other hother => ?_, h.building⟩
  rw [List.length_modify] at hother
  rw [record_modify index change hother]
  split
  · exact (hgeneration _).trans_lt (h.records other hother)
  · exact h.records other hother

end Generations

/-! ## Live generations -/

theorem Live.of_records {job' : SwapJob} {generation : Nat} (h : job'.Live generation)
    (hbuilding : ∀ building, job'.building = some building →
      ∃ prior, job.building = some prior ∧ prior.generation = building.generation)
    (htasks : ∀ task ∈ job'.tasks, task.suspension.retries → task ∈ job.tasks)
    (hrecords : ∀ task ∈ job.tasks,
      (job'.record task.record).generation = (job.record task.record).generation) :
    job.Live generation := by
  cases h with
  | building building hsome hgeneration =>
    obtain ⟨prior, hprior, heq⟩ := hbuilding building hsome
    exact .building prior hprior (heq.trans hgeneration)
  | retrying index hretrying hgeneration =>
    obtain ⟨task, htask, rfl, hretries⟩ := hretrying
    have hmem := htasks task htask hretries
    exact .retrying _ ⟨task, hmem, rfl, hretries⟩ ((hrecords task hmem).symm.trans hgeneration)

end SwapJob

end ZswapKernel
