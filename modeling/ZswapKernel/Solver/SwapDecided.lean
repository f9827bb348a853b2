import ZswapKernel.Solver.SwapTurns

/-!
# Turns the relay and the chain decide

The functions that ask the relay or the backend, and those that hear their answers, act on a record
the relay decides. Each ends in a job that is `Good`: it keeps another such record, suspends on it, or
ends the generation, in which nothing is live.

`reconcileDurableEvidence` may throw out of its turn; what it leaves is as good (`LeavesTriple`).
-/

namespace ZswapKernel

open Program

/-- A throw out of the turn leaves a job as a turn that ends does. -/
def Leaves (job : SwapJob) (generation : Nat) : Interrupt → Turn → Prop
  | .thrown _, turn => Ends job generation turn
  | .crashed, turn => SwapJob.Wrote generation job turn.job

theorem Dies.leaves {job : SwapJob} {generation : Nat} {interrupt : Interrupt} {turn : Turn}
    (h : Dies job generation interrupt turn) : Leaves job generation interrupt turn := by
  obtain ⟨rfl, hwrote⟩ := h
  exact hwrote

theorem Pinned.leaves {job memory : SwapJob} {generation : Nat} {opened : Prop} {turn : Turn}
    (h : Pinned job generation opened memory turn) (hready : Ready job generation opened memory)
    (interrupt : Interrupt) : Leaves job generation interrupt turn := by
  cases interrupt with
  | thrown error => exact h.ends hready
  | crashed => exact h.wrote

/-! ## Records that are made -/

namespace SwapJob

variable {job : SwapJob}

theorem Remote.append {index : Nat} (h : job.Remote index) (record : JobRecord) :
    ({ job with records := job.records ++ [record] } : SwapJob).Remote index := by
  refine ⟨?_, (record_append record h.1).symm ▸ h.2⟩
  rw [List.length_append]
  exact Nat.lt_add_right _ h.1

theorem Remote.appended {record : JobRecord} (h : record.locallyRevertible ≠ some true) :
    ({ job with records := job.records ++ [record] } : SwapJob).Remote job.records.length :=
  ⟨by simp, (record_appended record).symm ▸ h⟩

end SwapJob

/-- A record the relay decides takes the place of another. -/
theorem Ready.keep {job memory : SwapJob} {generation index : Nat} {opened : Prop}
    (h : Ready job generation opened memory) (record : JobRecord) (hremote : memory.Remote index)
    (hgeneration : record.generation = (memory.record index).generation)
    (hlocal : record.locallyRevertible ≠ some true) :
    Ready job generation opened { memory with
      records := memory.records ++ [record]
      awaiting := none, confirmations := none, quarantined := some memory.records.length } := by
  refine (h.newRecord_remote record hremote hgeneration fun h => absurd h hlocal).setMaps none none
    (some memory.records.length) (fun _ h => by cases h) (fun _ h => by cases h) fun other hother => ?_
  cases hother
  simp

namespace Act

attribute [local irreducible] recordReceipt transition markRelaySubmitted markRelayFailed

variable {job memory : SwapJob} {generation : Nat} {opened : Prop} {α : Type}

/-- The turn ends when the function returns or throws. -/
def LeavesTriple (job : SwapJob) (generation : Nat) (opened : Prop) (memory : SwapJob) (m : Act α) :
    Prop :=
  Triple (Pinned job generation opened memory) m (fun _ => Ends job generation)
    (Leaves job generation)

theorem EndsTriple.leaves {m : Act α} (h : EndsTriple job generation opened memory m) :
    LeavesTriple job generation opened memory m :=
  h.conseq (fun _ h => h) (fun _ _ h => h) fun _ _ h => h.leaves

/-! ## Outcomes -/

/-- The record is kept for the evidence. -/
theorem ends_quarantineEvidence {index : Nat} (code reason : String)
    (hready : Ready job generation opened memory) (hremote : memory.Remote index)
    (hgeneration : (memory.record index).generation = generation) :
    EndsTriple job generation opened memory (quarantineEvidence index code reason) := by
  subst hgeneration
  refine rule_getRecord (rule_ignored (keeps_quarantineGroup _ _) (fun _ h => h.dies) ?_)
  refine rule_getJob fun found => Triple.pre ?_ fun _ h => h.1
  refine rule_newRecord (rule_modify_last _ (fun _ => rfl) (fun _ => rfl) fun turn h => h.ends ?_)
  exact hready.keep _ hremote rfl fun h => by cases h

/-- The job is settled; a throw leaves the memory as it was. -/
theorem triple_finishSettled {index : Nat} (ledgerTxHash : String) (height : Nat)
    (hready : Ready job generation opened memory) (hremote : memory.Remote index)
    (hgeneration : (memory.record index).generation = generation) :
    Triple (Pinned job generation opened memory) (finishSettled index ledgerTxHash height)
      (fun _ => Ends job generation) (Throws job generation False memory) := by
  subst hgeneration
  have hready' : Ready job (memory.record index).generation False memory :=
    hready.dead False (hready.tidy.not_live hremote)
  refine Triple.pre (P := Pinned job _ False memory) ?_ fun _ h => h.mono False.elim
  refine rule_getRecord (rule_closes (triple_markSettled hready.sound _) (fun _ _ h => h.throws _) ?_)
  refine rule_read (fun turn => ⟨_, rfl⟩) fun expiry => ?_
  refine rule_modify _ (fun _ => rfl) (fun _ => rfl) (rule_modify _ (fun _ => rfl) (fun _ => rfl) ?_)
  refine rule_modify_last _ (fun _ => rfl) (fun _ => rfl) fun turn h => h.ends ?_
  exact (hready'.setMaps none none none (fun _ h => by cases h) (fun _ h => by cases h)
    fun _ h => by cases h).setRest _ _ _ _ _

/-! ## The answers of the relay and of the backend -/

/-- The relay's receipt is kept, and the evidence is asked for. -/
theorem ends_reconcileRelayDone {index : Nat} (txId : String) (queued : Bool)
    (hready : Ready job generation opened memory) (hremote : memory.Remote index)
    (hgeneration : (memory.record index).generation = generation) :
    EndsTriple job generation opened memory (reconcileRelayDone index txId queued) := by
  refine rule_attempt ?_ fun error => ends_quarantineEvidence _ _ hready hremote hgeneration
  subst hgeneration
  refine rule_getRecord (rule_keeps (keeps_markRelaySubmitted txId) (fun _ _ h => h.throws _)
    fun _ => ?_)
  refine rule_newRecord (rule_modify _ (fun _ => rfl) (fun _ => rfl) ?_)
  refine rule_modify_last _ (fun _ => rfl) (fun _ => rfl) fun turn h => h.ends ?_
  have hconfirming := hready.newRecord_remote
    { generation := (memory.record index).generation
      claim := (memory.record index).claim
      ttlExpiresAt := (memory.record index).ttlExpiresAt } hremote rfl fun h => by cases h
  refine (hconfirming.setMaps none (some memory.records.length) none (fun _ h => by cases h) ?_
    fun _ h => by cases h).suspend (hremote.append _) .relayDoneEvidence queued rfl fun h => by cases h
  intro other hother
  cases hother
  exact SwapJob.Remote.appended fun h => by cases h

theorem ends_relayDoneReplied {index : Nat} (answers : List (Except String OfferConsumption))
    (hready : Ready job generation opened memory) (hremote : memory.Remote index)
    (hgeneration : (memory.record index).generation = generation) :
    EndsTriple job generation opened memory (relayDoneReplied index answers) := by
  have hready' : Ready job generation False memory :=
    hready.dead False (hgeneration ▸ hready.tidy.not_live hremote)
  have hkept (code reason : String) := ends_quarantineEvidence code reason hready hremote hgeneration
  refine triple_attempt (E := Throws job generation False memory) ?_ (fun error =>
    ends_quarantineEvidence _ _ hready' hremote hgeneration) fun _ h => ⟨rfl, h⟩
  refine rule_getRecord ?_
  cases readUniformEvidence (memory.record index).offerHashes answers with
  | uniform ledgerTxHash height =>
    exact triple_finishSettled ledgerTxHash height hready hremote hgeneration
  | none => exact (hkept _ _).throws
  | unknown reason => exact (hkept _ _).throws

/-- The relay's refusal is kept, and the evidence is asked for. -/
theorem ends_reconcileRelayFailure {index : Nat} (queued : Bool)
    (hready : Ready job generation opened memory) (hremote : memory.Remote index)
    (hgeneration : (memory.record index).generation = generation) :
    EndsTriple job generation opened memory (reconcileRelayFailure index queued) := by
  refine rule_attempt ?_ fun error => ends_quarantineEvidence _ _ hready hremote hgeneration
  subst hgeneration
  refine rule_getRecord (rule_keeps keeps_markRelayFailed (fun _ _ h => h.throws _) fun _ => ?_)
  exact rule_modify_last _ (fun _ => rfl) (fun _ => rfl) fun turn h =>
    h.ends (hready.suspend hremote .relayFailureEvidence queued rfl fun h => by cases h)

theorem ends_relayFailureReplied (options : SwapJobOptions) {index : Nat} (queued : Bool)
    (answers : List (Except String OfferConsumption))
    (hready : Ready job generation opened memory) (hremote : memory.Remote index)
    (hgeneration : (memory.record index).generation = generation) :
    EndsTriple job generation opened memory (relayFailureReplied options index queued answers) := by
  have hkept (code reason : String) := ends_quarantineEvidence code reason hready hremote hgeneration
  refine triple_attempt (E := Throws job generation opened memory) ?_ (fun error => hkept _ _)
    fun _ h => ⟨rfl, h⟩
  refine rule_getRecord ?_
  cases readUniformEvidence (memory.record index).offerHashes answers with
  | uniform ledgerTxHash height => exact (hkept _ _).throws
  | unknown reason => exact (hkept _ _).throws
  | none =>
    refine Triple.ite (fun _ => (hkept _ _).throws) fun _ => ?_
    refine rule_newRecord (rule_modify _ (fun _ => rfl) (fun _ => rfl) (EndsTriple.throws ?_))
    have hfailed := hready.newRecord_remote { memory.record index with relayAccepted := some true }
      hremote rfl fun hlocal => absurd hlocal hremote.2
    have hindex : ({ memory with records := memory.records ++
        [{ memory.record index with relayAccepted := some true }] } : SwapJob).Remote
        memory.records.length := SwapJob.Remote.appended hremote.2
    refine ends_revertWallet options queued (hfailed.setMaps (some memory.records.length) none none
      (fun other hother => ?_) (fun _ h => by cases h) fun _ h => by cases h) hindex ?_
    · cases hother
      exact hindex
    · exact (congrArg JobRecord.generation (SwapJob.record_appended _)).trans hgeneration

theorem ends_reconcileFromHttp {index : Nat} (queued : Bool)
    (hready : Ready job generation opened memory) (hremote : memory.Remote index) :
    EndsTriple job generation opened memory (reconcileFromHttp index queued) := by
  unfold EndsTriple reconcileFromHttp suspend
  exact rule_modify_last _ (fun _ => rfl) (fun _ => rfl) fun _ h =>
    h.ends (hready.suspend hremote .relayStatus queued rfl fun h => by cases h)

theorem ends_relayStatusReplied {index : Nat} (queued : Bool)
    (answer : Except String RelayJobStatus)
    (hready : Ready job generation opened memory) (hremote : memory.Remote index)
    (hgeneration : (memory.record index).generation = generation) :
    EndsTriple job generation opened memory (relayStatusReplied index queued answer) := by
  cases answer with
  | error message => exact ends_quarantineEvidence _ _ hready hremote hgeneration
  | ok status =>
    cases status with
    | done txId => exact ends_reconcileRelayDone txId queued hready hremote hgeneration
    | error reason => exact ends_reconcileRelayFailure queued hready hremote hgeneration
    | pending status => exact ends_quarantineEvidence _ _ hready hremote hgeneration

/-- The receipt the journal has decides what is asked next. -/
theorem leaves_reconcileDurableEvidence {index : Nat} (queued : Bool)
    (hready : Ready job generation opened memory) (hremote : memory.Remote index)
    (hgeneration : (memory.record index).generation = generation) :
    LeavesTriple job generation opened memory (reconcileDurableEvidence index queued) := by
  refine rule_getRecord (rule_keeps (keeps_requireRow _) (fun interrupt _ h =>
    h.leaves hready interrupt) fun row => ?_)
  simp only
  split
  · exact (ends_reconcileRelayDone _ queued hready hremote hgeneration).leaves
  · exact (ends_reconcileRelayFailure queued hready hremote hgeneration).leaves
  · exact (ends_reconcileFromHttp queued hready hremote).leaves
  · exact (ends_quarantineEvidence _ _ hready hremote hgeneration).leaves

end Act

end ZswapKernel
