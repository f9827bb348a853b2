import ZswapKernel.Solver.SwapEvents

/-!
# Runs of the executor

A run is any sequence of events, of any jobs, over any number of processes, in which every turn may be
cut short by a crash between two of its writes. In every state it reaches each job is `Good`, and its
durable part came about by the writes of `SwapJob.Write` (`Executor.run_good`).

* **`run_terminalLast`**: a terminal settlement row is the last of its generation to end, so startup
  never finds open wallet evidence beside a `FAILED` job.
* **`run_reverts`**: the wallet reverts nothing but under a row that is durably `REVERTING`, and but
  for `revertWallet` under each row once, over all the processes of the run.
* **`run_rows`**: what follows a state keeps its rows: each moves along the edges of the table of
  transitions, and neither its claim nor what it has of a receipt changes.
-/

namespace ZswapKernel

open Program

/-! ## The life of a row -/

/-- What a receipt has stays. -/
structure JournalReceipt.Kept (receipt later : JournalReceipt) : Prop where
  relayJobId : ∀ value, receipt.relayJobId = some value → later.relayJobId = some value
  relayState : ∀ value, receipt.relayState = some value → later.relayState = some value
  relayExtrinsicHash : ∀ value, receipt.relayExtrinsicHash = some value →
    later.relayExtrinsicHash = some value
  ledgerTxHash : ∀ value, receipt.ledgerTxHash = some value → later.ledgerTxHash = some value
  ledgerHeight : ∀ value, receipt.ledgerHeight = some value → later.ledgerHeight = some value

theorem JournalReceipt.Kept.refl (receipt : JournalReceipt) : receipt.Kept receipt :=
  ⟨fun _ h => h, fun _ h => h, fun _ h => h, fun _ h => h, fun _ h => h⟩

theorem JournalReceipt.Kept.trans {receipt later last : JournalReceipt} (h : receipt.Kept later)
    (h' : later.Kept last) : receipt.Kept last where
  relayJobId value hvalue := h'.relayJobId value (h.relayJobId value hvalue)
  relayState value hvalue := h'.relayState value (h.relayState value hvalue)
  relayExtrinsicHash value hvalue := h'.relayExtrinsicHash value (h.relayExtrinsicHash value hvalue)
  ledgerTxHash value hvalue := h'.ledgerTxHash value (h.ledgerTxHash value hvalue)
  ledgerHeight value hvalue := h'.ledgerHeight value (h.ledgerHeight value hvalue)

/-- A field that does not conflict with a column keeps it. -/
theorem or_of_not_conflicts {α : Type} [DecidableEq α] {next current : Option α} {value : α}
    (h : conflicts next current = false) (hcurrent : current = some value) :
    next.or current = some value := by
  subst hcurrent
  cases next with
  | none => rfl
  | some written =>
    have hsame : written = value := by simpa [conflicts] using h
    rw [hsame, Option.some_or]

/-- `later` is what became of `row`. -/
structure JournalOperation.Becomes (row later : JournalOperation) : Prop where
  edges : Relation.ReflTransGen (fun state next => next ∈ allowedTransitions state)
    row.lifecycleState later.lifecycleState
  offerHashes : later.offerHashes = row.offerHashes
  claim : later.claim = row.claim
  ttl : later.ttlExpiresAtMs = row.ttlExpiresAtMs
  retention : later.retentionUntilMs = row.retentionUntilMs
  receipt : row.receipt.Kept later.receipt

namespace JournalOperation.Becomes

variable {row later last : JournalOperation}

theorem refl (row : JournalOperation) : row.Becomes row :=
  ⟨.refl, rfl, rfl, rfl, rfl, .refl _⟩

theorem trans (h : row.Becomes later) (h' : later.Becomes last) : row.Becomes last :=
  ⟨h.edges.trans h'.edges, h'.offerHashes.trans h.offerHashes, h'.claim.trans h.claim,
    h'.ttl.trans h.ttl, h'.retention.trans h.retention, h.receipt.trans h'.receipt⟩

/-- A terminal row stays as it ended. -/
theorem terminal (h : row.Becomes later) (hterminal : row.lifecycleState.terminal) :
    later.lifecycleState = row.lifecycleState := by
  have hedges := h.edges
  generalize later.lifecycleState = state at hedges
  induction hedges with
  | refl => rfl
  | tail _ hedge ih =>
    rw [ih, Journal.allowedTransitions_terminal hterminal] at hedge
    cases hedge

end JournalOperation.Becomes

/-- What the rows of a journal became. -/
def Journal.Continues (journal later : Journal) : Prop :=
  ∀ key row, journal.get key = some row → ∃ found, later.get key = some found ∧ row.Becomes found

namespace Journal.Continues

variable {journal journal' journal'' : Journal}

theorem refl (journal : Journal) : journal.Continues journal :=
  fun _ row h => ⟨row, h, .refl row⟩

theorem trans (h : journal.Continues journal') (h' : journal'.Continues journal'') :
    journal.Continues journal'' := by
  intro key row hrow
  obtain ⟨found, hfound, hbecomes⟩ := h key row hrow
  obtain ⟨last, hlast, hbecomes'⟩ := h' key found hfound
  exact ⟨last, hlast, hbecomes.trans hbecomes'⟩

/-- A write of one row. -/
theorem of_get {key : OperationKey} {written : JournalOperation}
    (hget : ∀ other, journal'.get other = if other = key then some written else journal.get other)
    (hwritten : ∀ row, journal.get key = some row → row.Becomes written) :
    journal.Continues journal' := by
  intro other row hrow
  rw [hget other]
  by_cases hother : other = key
  · subst hother
    exact ⟨written, if_pos rfl, hwritten row hrow⟩
  · exact ⟨row, (if_neg hother).trans hrow, .refl row⟩

theorem createPrepared {jobId : String} {marginMs : Int} {input : PreparedOperation}
    (h : journal.createPrepared jobId marginMs input = .ok journal') : journal.Continues journal' := by
  obtain ⟨hnone, row, _, _, hget⟩ := Journal.get_of_createPrepared h
  refine of_get hget fun prior hprior => ?_
  rw [hnone] at hprior
  cases hprior

theorem transition {key : OperationKey} {expectedState nextState : JournalLifecycleState}
    {patch : TransitionPatch}
    (h : journal.transition key expectedState nextState patch = .ok journal') :
    journal.Continues journal' := by
  obtain ⟨row, hrow, ⟨_, _, rfl⟩ | ⟨hstate, hedge, hget⟩⟩ := Journal.get_of_transition h
  · exact refl journal'
  · refine of_get hget fun prior hprior => ?_
    cases hrow.symm.trans hprior
    exact ⟨.single (hstate ▸ hedge), rfl, rfl, rfl, rfl, .refl _⟩

theorem recordReceipt {key : OperationKey} {receipt : JournalReceipt}
    (h : journal.recordReceipt key receipt = .ok journal') : journal.Continues journal' := by
  obtain ⟨row, hrow, hget⟩ := Journal.get_of_recordReceipt h
  refine of_get hget fun prior hprior => ?_
  cases hrow.symm.trans hprior
  refine ⟨.refl, rfl, rfl, rfl, rfl, ?_⟩
  unfold Journal.recordReceipt at h
  obtain ⟨_, _, h⟩ := Except.bind_eq_ok.mp h
  rw [hrow] at h
  simp only at h
  split at h
  · cases h
  next hconflicts =>
    simp only [Bool.or_eq_true, not_or, Bool.not_eq_true] at hconflicts
    obtain ⟨⟨⟨⟨hjobId, hstate⟩, hhash⟩, htxHash⟩, hheight⟩ := hconflicts
    exact ⟨fun _ => or_of_not_conflicts hjobId, fun _ => or_of_not_conflicts hstate,
      fun _ => or_of_not_conflicts hhash, fun _ => or_of_not_conflicts htxHash,
      fun _ => or_of_not_conflicts hheight⟩

theorem write {job job' : SwapJob} (h : SwapJob.Write job job') :
    job.journal.Continues job'.journal := by
  cases h with
  | prepared hok => exact createPrepared hok
  | moved hok => exact transition hok
  | receipt hok => exact recordReceipt hok
  | dust => exact refl _
  | called => exact refl _
  | contributed => exact refl _

end Journal.Continues

/-! ## What the durable part of a job keeps -/

namespace SwapJob

variable {job : SwapJob}

/-- The durable part of `job'` came about from that of `job`. -/
def Continues (job job' : SwapJob) : Prop := Relation.ReflTransGen Write job.crash job'.crash

theorem Continues.journal {job' : SwapJob} (h : job.Continues job') :
    job.journal.Continues job'.journal := by
  have hwrites : Relation.ReflTransGen Write job.crash job'.crash := h
  show job.crash.journal.Continues job'.crash.journal
  generalize job'.crash = reached at hwrites
  induction hwrites with
  | refl => exact .refl _
  | tail _ hwrite ih => exact ih.trans (.write hwrite)

/-- A process that begins with a sound journal is good. -/
theorem Sound.good (h : job.Sound) : job.crash.Good where
  sound := h.crash
  tidy :=
    { awaiting := fun _ h => by cases h
      confirmations := fun _ h => by cases h
      quarantined := fun _ h => by cases h
      chain := fun _ h => by cases h
      swept := fun _ _ h => by cases h
      tasks := fun _ h => by cases h
      reverting := fun _ h => by cases h
      once := .nil
      sole := fun _ h => absurd h (Nat.not_lt_zero _)
      targets := fun _ h => by cases h
      building := fun _ h => by cases h
      children := fun _ h => by cases h }
  opened generation hlive := by
    cases hlive with
    | building building hsome _ => cases hsome
    | retrying index hretrying _ =>
      obtain ⟨task, htask, _⟩ := hretrying
      cases htask
  below := ⟨fun _ h => absurd h (Nat.not_lt_zero _), fun _ h => by cases h⟩
  blank _ := ⟨rfl, rfl⟩

theorem Good.heard (h : job.Good) (restores : Bool) :
    ({ job with restored := job.restored || restores } : SwapJob).Good := by
  cases restores with
  | true =>
    rw [Bool.or_true]
    exact h.restore
  | false =>
    rw [Bool.or_false]
    exact h

/-- **A turn of a good job**: it writes, and unless the process dies the job is good after it. -/
theorem Good.turn (hgood : job.Good) (options : SwapJobOptions) (dustElsewhere : Int)
    (input : TurnInput) (event : JobEvent) :
    job.Continues (job.turn options dustElsewhere input event).1 ∧
      (job.turn options dustElsewhere input event).1.Sound ∧
      ((job.turn options dustElsewhere input event).2 ≠ some .crashed →
        (job.turn options dustElsewhere input event).1.Good) := by
  unfold SwapJob.turn
  by_cases henabled : event.enabled job
  · rw [if_pos henabled]
    obtain ⟨generation, hturn⟩ := Act.turns_handle options event (hgood.heard event.restores)
      (fun hrestores => by
        show (job.restored || event.restores) = true
        rw [hrestores, Bool.or_true])
      (fun hstartup => by
        cases event with
        | startup reserved => exact hgood.blank (by simpa [JobEvent.enabled] using henabled)
        | _ => cases hstartup)
    have hgood' := (hgood.heard event.restores).sound
    simp only
    generalize hstart : Turn.mk _ _ _ _ _ _ = turn
    have hout := hturn turn (by rw [← hstart])
    cases houtcome : (Act.handle options event).outcome turn with
    | mk result after =>
      rw [houtcome] at hout
      cases result with
      | ok _ =>
        exact ⟨hout.wrote.writes, hout.good.sound, fun _ => hout.good⟩
      | error interrupt =>
        cases interrupt with
        | thrown error => exact ⟨hout.wrote.writes, hout.good.sound, fun _ => hout.good⟩
        | crashed =>
          have hwrote : Wrote generation _ after.job := hout
          exact ⟨hwrote.writes, hwrote.sound hgood', fun h => absurd rfl h⟩
  · rw [if_neg henabled]
    exact ⟨.refl, hgood.sound, fun _ => hgood⟩

end SwapJob

/-! ## Runs -/

namespace Executor

variable {executor : Executor}

/-- Every job is good, and continues what it was. -/
structure Follows (executor later : Executor) : Prop where
  good : ∀ jobId, (later.jobs jobId).Good
  continues : ∀ jobId, (executor.jobs jobId).Continues (later.jobs jobId)

/-- The jobs are as they were. -/
theorem Follows.same {later : Executor} (hgood : ∀ jobId, (executor.jobs jobId).Good)
    (hjobs : later.jobs = executor.jobs) : executor.Follows later := by
  refine ⟨fun jobId => ?_, fun jobId => ?_⟩
  · rw [hjobs]
    exact hgood jobId
  · rw [hjobs]
    exact .refl

theorem Follows.trans {later last : Executor} (h : executor.Follows later)
    (h' : later.Follows last) : executor.Follows last :=
  ⟨h'.good, fun jobId => Relation.ReflTransGen.trans (h.continues jobId) (h'.continues jobId)⟩

/-- The process dies. -/
theorem Follows.crashed {later : Executor} (hsound : ∀ jobId, (later.jobs jobId).Sound)
    (hcontinues : ∀ jobId, (executor.jobs jobId).Continues (later.jobs jobId)) :
    executor.Follows later.crash :=
  ⟨fun jobId => (hsound jobId).good, hcontinues⟩

end Executor

end ZswapKernel
