import Mathlib.Logic.Relation
import ZswapKernel.Solver.JournalRows
import ZswapKernel.Solver.SwapJob

/-!
# What the executor may write

A crash leaves the durable part of a job (`SwapJob.crash`). `SwapJob.Write` is one write to it, or
one call of the wallet, with what the executor has made sure of before; whatever runs in a turn, and
wherever it stops, has made a sequence of these (`SwapJob.Wrote`), and all of it in one generation.

`Pinned job generation opened memory` says so of a turn that began with `job`: it has written in
`generation` alone, its memory is that of `memory`, and if `opened` the generation is not closed.
The journal functions are proved against it: each keeps `Pinned`, whether it returns, throws or the
process dies in it.
-/

namespace ZswapKernel

open Program

/-! ## Writes -/

/-- What is known when a row is prepared. -/
structure PrepareGuard (job : SwapJob) (input : PreparedOperation) : Prop where
  opened : ¬ job.journal.Closed input.operationKey.generation
  keyed : input.operationKey.operationKind = .jobSettlement →
    input.operationKey.label = .settlement

/-- What is known when a row moves: its generation's settlement row ends last. -/
structure MoveGuard (job : SwapJob) (key : OperationKey) (nextState : JournalLifecycleState) :
    Prop where
  last : nextState.terminal → key = jobKey key.generation → ∀ other state,
    other.generation = key.generation → other ≠ key → job.journal.stateOf other = some state →
      state.terminal

/-- What is known when the wallet is called to revert: the row that allows the call is being reverted,
and but for `revertWallet` no call was made under it. -/
structure CallGuard (job : SwapJob) (call : RevertCall) : Prop where
  armed : job.journal.stateOf call.authority = some .reverting
  first : call.caller ≠ .revertWallet → ∀ prior ∈ job.reverts, prior.authority ≠ call.authority

/-- One write to the durable part of a job, or one call of its wallet. -/
inductive SwapJob.Write : SwapJob → SwapJob → Prop
  | prepared {job : SwapJob} {input : PreparedOperation} {journal : Journal} {marginMs : Int}
      (h : job.journal.createPrepared job.jobId marginMs input = .ok journal)
      (guard : PrepareGuard job input) :
      Write job { job with journal, writes := job.writes ++ [(input.operationKey, .prepared)] }
  | moved {job : SwapJob} {key : OperationKey} {expectedState nextState : JournalLifecycleState}
      {patch : TransitionPatch} {journal : Journal}
      (h : job.journal.transition key expectedState nextState patch = .ok journal)
      (guard : MoveGuard job key nextState) :
      Write job { job with journal, writes := job.writes ++ [(key, nextState)] }
  | receipt {job : SwapJob} {key : OperationKey} {receipt : JournalReceipt} {journal : Journal}
      (h : job.journal.recordReceipt key receipt = .ok journal) : Write job { job with journal }
  | dust {job : SwapJob} {dust : List DustReservation} : Write job { job with dust }
  | called {job : SwapJob} {call : RevertCall} (guard : CallGuard job call) :
      Write job { job with reverts := job.reverts ++ [call] }
  | contributed {job : SwapJob} : Write job { job with contributions := job.contributions + 1 }

/-- A sequence of writes in one generation. -/
structure SwapJob.Wrote (generation : Nat) (job job' : SwapJob) : Prop where
  writes : Relation.ReflTransGen SwapJob.Write job.crash job'.crash
  elsewhere : ∀ key, key.generation ≠ generation → job'.journal.get key = job.journal.get key

namespace SwapJob

/-- What a crash loses. -/
def memory (job : SwapJob) : SwapJob :=
  { job with journal := [], dust := [], writes := [], contributions := 0, reverts := [] }

theorem Wrote.refl (generation : Nat) (job : SwapJob) : Wrote generation job job :=
  ⟨.refl, fun _ _ => rfl⟩

/-- A change of the memory writes nothing. -/
theorem Wrote.of_crash {generation : Nat} {job job' job'' : SwapJob}
    (h : Wrote generation job job') (hcrash : job''.crash = job'.crash) :
    Wrote generation job job'' where
  writes := hcrash ▸ h.writes
  elsewhere key hkey := by
    have hjournal := congrArg SwapJob.journal hcrash
    rw [show job''.journal = job'.journal from hjournal]
    exact h.elsewhere key hkey

theorem Wrote.tail {generation : Nat} {job job' job'' : SwapJob} (h : Wrote generation job job')
    (hwrite : Write job'.crash job''.crash)
    (helsewhere : ∀ key, key.generation ≠ generation →
      job''.journal.get key = job'.journal.get key) : Wrote generation job job'' where
  writes := h.writes.tail hwrite
  elsewhere key hkey := (helsewhere key hkey).trans (h.elsewhere key hkey)

theorem Wrote.closed_iff {generation other : Nat} {job job' : SwapJob}
    (h : Wrote generation job job') (hother : other ≠ generation) :
    job'.journal.Closed other ↔ job.journal.Closed other := by
  unfold Journal.Closed Journal.stateOf
  rw [h.elsewhere (jobKey other) hother]

end SwapJob

/-! ## What every write keeps -/

/-- The states of a row under which no revert was called yet. -/
def JournalLifecycleState.fresh : JournalLifecycleState → Bool
  | .prepared | .applied => true
  | _ => false

theorem fresh_of_allowedTransitions {state nextState : JournalLifecycleState}
    (hedge : nextState ∈ allowedTransitions state) (h : nextState.fresh) : state.fresh := by
  cases state <;> cases nextState <;> first | rfl | exact absurd hedge (by decide) | cases h

/-- What is true of the durable part of a job after every write. -/
structure SwapJob.Sound (job : SwapJob) : Prop where
  /-- A generation's settlement row is terminal only when all of its rows are. -/
  last : job.journal.TerminalLast
  /-- A settlement row has the settlement key of its generation. -/
  keyed : ∀ row ∈ job.journal, row.operationKind = .jobSettlement →
    row.operationKey = jobKey row.generation
  /-- A key has one row. -/
  keys : (job.journal.map (·.operationKey)).Nodup
  /-- A row is in a state it was written in. -/
  logged : ∀ key state, job.journal.stateOf key = some state → (key, state) ∈ job.writes
  /-- The row of a revert has been `REVERTING`, and is past the states in which none was called. -/
  called : ∀ call ∈ job.reverts, (call.authority, .reverting) ∈ job.writes ∧
    ∃ state, job.journal.stateOf call.authority = some state ∧ state.fresh = false
  /-- But for `revertWallet`, a row allows one call. -/
  once : job.reverts.Pairwise fun prior call =>
    call.caller ≠ .revertWallet → prior.authority ≠ call.authority

/-- A write of a row keeps what is known of the calls of the wallet. -/
theorem SwapJob.Sound.called_of_write {job : SwapJob} (h : job.Sound) {key : OperationKey}
    {written : JournalLifecycleState} {journal : Journal}
    (hstate : ∀ other, journal.stateOf other =
      if other = key then some written else job.journal.stateOf other)
    (hfresh : ∀ state, job.journal.stateOf key = some state → written.fresh → state.fresh) :
    ∀ call ∈ job.reverts, (call.authority, .reverting) ∈ job.writes ++ [(key, written)] ∧
      ∃ state, journal.stateOf call.authority = some state ∧ state.fresh = false := by
  intro call hcall
  obtain ⟨hwritten, state, hsome, hpast⟩ := h.called call hcall
  refine ⟨List.mem_append_left _ hwritten, ?_⟩
  rw [hstate call.authority]
  by_cases heq : call.authority = key
  · refine ⟨written, if_pos heq, ?_⟩
    cases hnew : written.fresh with
    | false => rfl
    | true => exact (hfresh state (heq ▸ hsome) hnew).symm.trans hpast
  · exact ⟨state, (if_neg heq).trans hsome, hpast⟩

theorem SwapJob.Sound.logged_of_write {job : SwapJob} (h : job.Sound) {key : OperationKey}
    {written : JournalLifecycleState} {journal : Journal}
    (hstate : ∀ other, journal.stateOf other =
      if other = key then some written else job.journal.stateOf other) :
    ∀ other state, journal.stateOf other = some state →
      (other, state) ∈ job.writes ++ [(key, written)] := by
  intro other state hsome
  rw [hstate other] at hsome
  by_cases heq : other = key
  · rw [if_pos heq] at hsome
    rw [heq, Option.some.inj hsome]
    simp
  · rw [if_neg heq] at hsome
    exact List.mem_append_left _ (h.logged other state hsome)

theorem SwapJob.Sound.write {job job' : SwapJob} (h : job.Sound) (hwrite : SwapJob.Write job job') :
    job'.Sound := by
  -- What is said of the keys, through the list of the keys.
  have hkeyed : ∀ {journal : Journal}, (∀ key ∈ journal.map (·.operationKey),
      key.operationKind = .jobSettlement → key = jobKey key.generation) ↔
      ∀ row ∈ journal, row.operationKind = .jobSettlement →
        row.operationKey = jobKey row.generation := by
    intro journal
    exact List.forall_mem_map
  cases hwrite with
  | prepared hok guard =>
    obtain ⟨hnew, hkeys⟩ := Journal.keys_of_createPrepared hok
    obtain ⟨hnone, hstate⟩ := Journal.stateOf_of_createPrepared hok
    refine ⟨h.last.createPrepared hok guard.opened, ?_, ?_, h.logged_of_write hstate,
      h.called_of_write hstate fun state hsome => ?_, h.once⟩
    · rw [← hkeyed, hkeys]
      intro key hkey hkind
      rcases List.mem_append.mp hkey with hkey | hkey
      · exact hkeyed.mpr h.keyed key hkey hkind
      · rw [List.mem_singleton] at hkey
        subst hkey
        have hlabel := guard.keyed hkind
        unfold jobKey
        rw [← hlabel, ← hkind]
    · rw [hkeys]
      exact h.keys.append (List.nodup_singleton _) (List.disjoint_singleton.mpr hnew)
    · rw [hnone] at hsome
      cases hsome
  | moved hok guard =>
    obtain ⟨hmoved, hstate⟩ := Journal.stateOf_of_transition hok
    refine ⟨h.last.transition hok fun hkey hterminal => guard.last hterminal hkey, ?_, ?_,
      h.logged_of_write hstate, h.called_of_write hstate fun state hsome hfresh => ?_, h.once⟩
    · rw [← hkeyed, Journal.keys_of_transition hok]
      exact hkeyed.mpr h.keyed
    · rw [Journal.keys_of_transition hok]
      exact h.keys
    · rcases hmoved with ⟨hsame, _, _⟩ | ⟨hexpected, hedge⟩
      · cases hsame.symm.trans hsome
        exact hfresh
      · cases hexpected.symm.trans hsome
        exact fresh_of_allowedTransitions hedge hfresh
  | receipt hok =>
    have hstate := Journal.stateOf_of_recordReceipt hok
    refine ⟨h.last.recordReceipt hok, ?_, ?_, ?_, ?_, h.once⟩
    · rw [← hkeyed, Journal.keys_of_recordReceipt hok]
      exact hkeyed.mpr h.keyed
    · rw [Journal.keys_of_recordReceipt hok]
      exact h.keys
    · intro key state hsome
      exact h.logged key state ((hstate key).symm.trans hsome)
    · intro call hcall
      rw [hstate call.authority]
      exact h.called call hcall
  | dust => exact ⟨h.last, h.keyed, h.keys, h.logged, h.called, h.once⟩
  | called guard =>
    refine ⟨h.last, h.keyed, h.keys, h.logged, ?_, ?_⟩
    · intro call hcall
      rcases List.mem_append.mp hcall with hcall | hcall
      · exact h.called call hcall
      · rw [List.mem_singleton.mp hcall]
        exact ⟨h.logged _ _ guard.armed, .reverting, guard.armed, rfl⟩
    · refine List.pairwise_append.mpr ⟨h.once, List.pairwise_singleton _ _, ?_⟩
      intro prior hprior call hcall
      rw [List.mem_singleton.mp hcall]
      exact fun hcaller => guard.first hcaller prior hprior
  | contributed => exact ⟨h.last, h.keyed, h.keys, h.logged, h.called, h.once⟩

/-- What every write keeps is kept by a sequence of writes. -/
theorem SwapJob.Wrote.keeps {generation : Nat} {job job' : SwapJob} {D : SwapJob → Prop}
    (h : SwapJob.Wrote generation job job')
    (hwrite : ∀ before after, D before → SwapJob.Write before after → D after)
    (hjob : D job.crash) : D job'.crash := by
  have hwrites := h.writes
  generalize job'.crash = reached at hwrites
  induction hwrites with
  | refl => exact hjob
  | tail _ hstep ih => exact hwrite _ _ ih hstep

/-- No row is lost. -/
theorem SwapJob.Wrote.keeps_key {generation : Nat} {job job' : SwapJob} {key : OperationKey}
    (h : SwapJob.Wrote generation job job') (hkey : key ∈ job.journal.map (·.operationKey)) :
    ∃ row ∈ job'.journal, row.operationKey = key := by
  have hkept := h.keeps (D := fun job => key ∈ job.journal.map (·.operationKey))
    (fun before after hbefore hwrite => ?_) hkey
  · exact List.mem_map.mp hkept
  · cases hwrite with
    | prepared hok => exact (Journal.keys_of_createPrepared hok).2 ▸ List.mem_append_left _ hbefore
    | moved hok => exact (Journal.keys_of_transition hok).symm ▸ hbefore
    | receipt hok => exact (Journal.keys_of_recordReceipt hok).symm ▸ hbefore
    | dust => exact hbefore
    | called => exact hbefore
    | contributed => exact hbefore

theorem SwapJob.Sound.crash {job : SwapJob} (h : job.Sound) : job.crash.Sound :=
  ⟨h.last, h.keyed, h.keys, h.logged, h.called, h.once⟩

theorem SwapJob.Wrote.sound {generation : Nat} {job job' : SwapJob}
    (h : SwapJob.Wrote generation job job') (hsound : job.Sound) : job'.Sound := by
  have := h.keeps (fun _ _ hbefore hwrite => hbefore.write hwrite) hsound.crash
  exact ⟨this.last, this.keyed, this.keys, this.logged, this.called, this.once⟩

/-- Where a turn stands that began with `job`. -/
structure Pinned (job : SwapJob) (generation : Nat) (opened : Prop) (memory : SwapJob)
    (turn : Turn) : Prop where
  wrote : SwapJob.Wrote generation job turn.job
  memory : turn.job.memory = memory.memory
  opened : opened → ¬ turn.job.journal.Closed generation

namespace Pinned

variable {job memory : SwapJob} {generation : Nat} {opened : Prop} {turn : Turn}

theorem records (h : Pinned job generation opened memory turn) :
    turn.job.records = memory.records := by
  have := congrArg SwapJob.records h.memory
  exact this

theorem building (h : Pinned job generation opened memory turn) :
    turn.job.building = memory.building := by
  have := congrArg SwapJob.building h.memory
  exact this

theorem restored (h : Pinned job generation opened memory turn) :
    turn.job.restored = memory.restored := by
  have := congrArg SwapJob.restored h.memory
  exact this

theorem mono {opened' : Prop} (h : Pinned job generation opened memory turn)
    (hopened : opened' → opened) : Pinned job generation opened' memory turn :=
  ⟨h.wrote, h.memory, fun h' => h.opened (hopened h')⟩

/-- A turn's other parts are not pinned. -/
theorem of_job {turn' : Turn} (h : Pinned job generation opened memory turn)
    (hjob : turn'.job = turn.job) : Pinned job generation opened memory turn' := by
  refine ⟨?_, ?_, ?_⟩
  · rw [hjob]
    exact h.wrote
  · rw [hjob]
    exact h.memory
  · rw [hjob]
    exact h.opened

/-- One write. -/
theorem write {after : SwapJob} {turn' : Turn} (h : Pinned job generation opened memory turn)
    (hjob : turn'.job = after) (hwrite : SwapJob.Write turn.job.crash after.crash)
    (hmemory : after.memory = turn.job.memory)
    (helsewhere : ∀ key, key.generation ≠ generation →
      after.journal.get key = turn.job.journal.get key)
    (hopened : opened → ¬ turn.job.journal.Closed generation → ¬ after.journal.Closed generation) :
    Pinned job generation opened memory turn' := by
  subst hjob
  exact ⟨h.wrote.tail hwrite helsewhere, hmemory.trans h.memory,
    fun ho => hopened ho (h.opened ho)⟩

/-- A row is moved. -/
theorem moved {key : OperationKey} {expectedState nextState : JournalLifecycleState}
    {patch : TransitionPatch} {journal : Journal} (h : Pinned job generation opened memory turn)
    (hok : turn.job.journal.transition key expectedState nextState patch = .ok journal)
    (effects : Option Nat) (hgeneration : key.generation = generation)
    (hguard : MoveGuard turn.job key nextState)
    (hopens : opened → nextState.terminal → key ≠ jobKey generation) :
    Pinned job generation opened memory { turn with
      job := { turn.job with journal, writes := turn.job.writes ++ [(key, nextState)] }
      effects } := by
  obtain ⟨_, hstate⟩ := Journal.stateOf_of_transition hok
  obtain ⟨row, hrow, hmoved⟩ := Journal.get_of_transition hok
  refine h.write rfl (.moved hok ⟨hguard.last⟩) rfl ?_ ?_
  · intro other hother
    obtain ⟨_, _, rfl⟩ | ⟨_, _, hget⟩ := hmoved
    · rfl
    · rw [hget other, if_neg]
      rintro rfl
      exact hother hgeneration
  · rintro ho hopen ⟨state, hclosed, hterminal⟩
    refine hopen ⟨state, ?_, hterminal⟩
    rw [hstate] at hclosed
    split at hclosed
    next heq =>
      cases hclosed
      exact absurd heq.symm (hopens ho hterminal)
    next => exact hclosed

end Pinned

/-! ## The primitives -/

namespace Act

variable {job memory : SwapJob} {generation : Nat} {opened : Prop} {α : Type}

/-- `m` keeps the turn where it stands, however it ends. -/
def Keeps (job : SwapJob) (generation : Nat) (opened : Prop) (memory : SwapJob) (m : Act α) : Prop :=
  Triple (Pinned job generation opened memory) m (fun _ => Pinned job generation opened memory)
    (fun _ => Pinned job generation opened memory)

theorem Keeps.pure {a : α} : Keeps job generation opened memory (pure a) :=
  Triple.pure fun _ h => h

theorem Keeps.raise {error : JobError} : Keeps job generation opened memory (raise error : Act α) :=
  Triple.throw fun _ h => h

theorem Keeps.fail {message : String} : Keeps job generation opened memory (fail message : Act α) :=
  Keeps.raise

theorem Keeps.bind {β : Type} {m : Act α} {f : α → Act β}
    (hm : Keeps job generation opened memory m)
    (hf : ∀ a, Keeps job generation opened memory (f a)) :
    Keeps job generation opened memory (m >>= f) :=
  Triple.bind hm hf

theorem Keeps.ite {c : Prop} [Decidable c] {m n : Act α}
    (hm : Keeps job generation opened memory m) (hn : Keeps job generation opened memory n) :
    Keeps job generation opened memory (if c then m else n) :=
  Triple.ite (fun _ => hm) fun _ => hn

theorem Keeps.when {c : Prop} [Decidable c] {m : Act Unit}
    (hm : Keeps job generation opened memory m) :
    Keeps job generation opened memory (Act.when c m) :=
  Keeps.ite hm Keeps.pure

/-- A handler takes over from a throw, and a crash ends the turn. -/
theorem triple_attempt {P : Turn → Prop} {Q : α → Turn → Prop} {E E' : Interrupt → Turn → Prop}
    {body : Act α} {handler : JobError → Act α} (hbody : Triple P body Q E)
    (hhandler : ∀ error, Triple (E (.thrown error)) (handler error) Q E')
    (hcrash : ∀ turn, E .crashed turn → E' .crashed turn) :
    Triple P (attempt body handler) Q E' := by
  refine Triple.catching hbody fun interrupt => ?_
  cases interrupt with
  | thrown error => exact hhandler error
  | crashed => exact Triple.throw fun turn h => hcrash turn h

theorem Keeps.attempt {body : Act α} {handler : JobError → Act α}
    (hbody : Keeps job generation opened memory body)
    (hhandler : ∀ error, Keeps job generation opened memory (handler error)) :
    Keeps job generation opened memory (attempt body handler) :=
  triple_attempt hbody hhandler fun _ h => h

theorem keeps_getJob : Keeps job generation opened memory getJob := fun _ h => h

theorem keeps_ofExcept (result : Except String α) :
    Keeps job generation opened memory (ofExcept result) := by
  cases result with
  | ok a => exact Keeps.pure
  | error message => exact Keeps.fail

theorem keeps_getRow (key : OperationKey) : Keeps job generation opened memory (getRow key) :=
  Keeps.bind keeps_getJob fun _ => Keeps.pure

theorem keeps_requireRow (key : OperationKey) :
    Keeps job generation opened memory (requireRow key) := by
  refine Keeps.bind (keeps_getRow key) fun found => ?_
  cases found with
  | none => exact Keeps.fail
  | some row => exact Keeps.pure

theorem keeps_group (other : Nat) : Keeps job generation opened memory (group other) :=
  Keeps.bind keeps_getJob fun _ => Keeps.pure

/-- What is left of the process changes nothing of the job. -/
theorem keeps_effect : Keeps job generation opened memory effect := by
  intro turn h
  unfold effect
  simp only [outcome_bind, outcome_get]
  cases turn.effects with
  | none => exact h
  | some left =>
    cases left with
    | zero => exact h
    | succ left => exact h.of_job rfl

theorem keeps_dependency (error : String → JobError) :
    Keeps job generation opened memory (dependency error) := by
  intro turn h
  unfold dependency
  simp only [outcome_bind, outcome_get]
  cases turn.dependencies with
  | nil => exact h
  | cons answer answers =>
    simp only [outcome_bind, outcome_modify]
    cases answer with
    | none => exact h.of_job rfl
    | some message => exact h.of_job rfl

/-- A change of the memory, pinned before and after. -/
theorem triple_modifyJob (change : SwapJob → SwapJob)
    (hcrash : ∀ job, (change job).crash = job.crash)
    (hmemory : ∀ job, (change job).memory = (change job.memory).memory) :
    Triple (Pinned job generation opened memory) (modifyJob change)
      (fun _ => Pinned job generation opened (change memory))
      (fun _ => Pinned job generation opened memory) := by
  refine Triple.modify fun turn h => ⟨h.wrote.of_crash (hcrash turn.job), ?_, ?_⟩
  · show (change turn.job).memory = _
    rw [hmemory, h.memory, ← hmemory]
  · intro ho
    show ¬ (change turn.job).journal.Closed generation
    have hjournal := congrArg SwapJob.journal (hcrash turn.job)
    rw [show (change turn.job).journal = turn.job.journal from hjournal]
    exact h.opened ho

/-! ## The writes

Every write of the journal computes the new rows or refuses, and is then made. -/

/-- A write is made of what the job is when it is computed. -/
theorem triple_commit {β : Type} {P Q : Turn → Prop} (result : Turn → Except String β)
    (change : β → SwapJob → SwapJob)
    (hok : ∀ turn b, P turn → result turn = .ok b →
      ∀ effects, Q { turn with job := change b turn.job, effects }) :
    Triple P (do
      let turn ← (get : Act Turn)
      let b ← ofExcept (result turn)
      effect
      modifyJob (change b)) (fun _ => Q) (fun _ => P) := by
  intro turn h
  unfold effect modifyJob
  simp only [outcome_bind, outcome_get]
  cases hresult : result turn with
  | error message => exact h
  | ok b =>
    simp only [ofExcept, outcome_pure]
    cases turn.effects with
    | none => exact hok turn b h hresult turn.effects
    | some left =>
      cases left with
      | zero => exact h
      | succ left => exact hok turn b h hresult (some left)

theorem keeps_createPrepared (options : SwapJobOptions) (input : PreparedOperation)
    (hgeneration : input.operationKey.generation = generation)
    (hguard : ∀ turn, Pinned job generation opened memory turn → PrepareGuard turn.job input) :
    Keeps job generation opened memory (createPrepared options input) := by
  refine triple_commit (fun turn => turn.job.journal.createPrepared turn.job.jobId
    options.reconciliationMarginMs input) (fun journal job => { job with
      journal, writes := job.writes ++ [(input.operationKey, .prepared)] }) fun turn journal h hok effects => ?_
  have hguard := hguard turn h
  obtain ⟨_, row, hinput, hstate, hget⟩ := Journal.get_of_createPrepared hok
  refine h.write rfl (.prepared hok ⟨hguard.opened, hguard.keyed⟩) rfl ?_ ?_
  · intro key hkey
    rw [hget key, if_neg]
    rintro rfl
    exact hkey hgeneration
  · rintro _ hopen ⟨state, hclosed, hterminal⟩
    refine hopen ⟨state, ?_, hterminal⟩
    rw [(Journal.stateOf_of_createPrepared hok).2] at hclosed
    split at hclosed
    · cases hclosed
      cases hterminal
    · exact hclosed

theorem keeps_transition (key : OperationKey) (expectedState nextState : JournalLifecycleState)
    (patch : TransitionPatch) (hgeneration : key.generation = generation)
    (hguard : ∀ turn, Pinned job generation opened memory turn → MoveGuard turn.job key nextState)
    (hopens : opened → nextState.terminal → key ≠ jobKey generation) :
    Keeps job generation opened memory (transition key expectedState nextState patch) :=
  triple_commit (fun turn => turn.job.journal.transition key expectedState nextState patch)
    (fun journal job => { job with journal, writes := job.writes ++ [(key, nextState)] })
    fun turn _ h hok effects => h.moved hok effects hgeneration (hguard turn h) hopens

theorem keeps_recordReceipt (key : OperationKey) (receipt : JournalReceipt)
    (hgeneration : key.generation = generation) :
    Keeps job generation opened memory (recordReceipt key receipt) := by
  refine triple_commit (fun turn => turn.job.journal.recordReceipt key receipt)
    (fun journal job => { job with journal }) fun turn journal h hok effects => ?_
  obtain ⟨row, _, hget⟩ := Journal.get_of_recordReceipt hok
  refine h.write rfl (.receipt hok) rfl ?_ ?_
  · intro other hother
    rw [hget other, if_neg]
    rintro rfl
    exact hother hgeneration
  · rintro _ hopen ⟨state, hclosed, hterminal⟩
    rw [Journal.stateOf_of_recordReceipt hok] at hclosed
    exact hopen ⟨state, hclosed, hterminal⟩

theorem keeps_releaseDust (key : OperationKey) :
    Keeps job generation opened memory (releaseDust key) :=
  triple_commit (fun turn => ZswapKernel.releaseDust turn.job.dust key)
    (fun dust job => { job with dust }) fun _ _ h _ _ => h.write rfl .dust rfl (fun _ _ => rfl) fun _ h => h

/-- Where a turn stands when it calls the wallet to revert. -/
structure Armed (job : SwapJob) (generation : Nat) (opened : Prop) (memory : SwapJob)
    (call : RevertCall) (turn : Turn) : Prop where
  pinned : Pinned job generation opened memory turn
  guard : CallGuard turn.job call

theorem triple_callRevert (call : RevertCall) :
    Triple (Armed job generation opened memory call) (callRevert call)
      (fun _ => Pinned job generation opened memory)
      (fun _ => Pinned job generation opened memory) := by
  refine Triple.conseq (triple_commit (fun _ => .ok ())
    (fun _ job => { job with reverts := job.reverts ++ [call] })
    fun turn _ (h : Armed job generation opened memory call turn) _ _ => ?_)
    (fun _ h => h) (fun _ _ h => h) fun _ _ h => h.pinned
  exact h.pinned.write rfl (.called ⟨h.guard.armed, h.guard.first⟩) rfl (fun _ _ => rfl) fun _ h => h

/-! ## Functions that close nothing -/

/-- A move to a state that is not terminal ends nothing. -/
theorem MoveGuard.of_nonterminal {turn : Turn} {key : OperationKey}
    {nextState : JournalLifecycleState} (h : nextState.terminal = false) :
    MoveGuard turn.job key nextState :=
  ⟨fun hterminal => absurd (h.symm.trans hterminal) (by decide)⟩

/-- A move that closes nothing. -/
theorem keeps_transition_open (key : OperationKey) (expectedState nextState : JournalLifecycleState)
    (patch : TransitionPatch) (hgeneration : key.generation = generation)
    (hnext : nextState.terminal = false) :
    Keeps job generation opened memory (transition key expectedState nextState patch) :=
  keeps_transition key expectedState nextState patch hgeneration
    (fun _ _ => MoveGuard.of_nonterminal hnext)
    fun _ hterminal => absurd (hnext.symm.trans hterminal) (by decide)

/-- The row of a call is `REVERTING` before the call. -/
theorem triple_arm (call : RevertCall) (expectedState : JournalLifecycleState)
    (patch : TransitionPatch) (hgeneration : call.authority.generation = generation)
    (hsound : job.Sound) (hexpected : call.caller ≠ .revertWallet → expectedState.fresh) :
    Triple (Pinned job generation opened memory)
      (transition call.authority expectedState .reverting patch)
      (fun _ => Armed job generation opened memory call)
      (fun _ => Pinned job generation opened memory) := by
  refine triple_commit (fun turn => turn.job.journal.transition call.authority expectedState
    .reverting patch) (fun journal job => { job with
      journal, writes := job.writes ++ [(call.authority, .reverting)] })
    fun turn journal h hok effects => ⟨h.moved hok effects hgeneration
      (MoveGuard.of_nonterminal rfl) (fun _ h => by cases h), ?_⟩
  obtain ⟨hmoved, hstate⟩ := Journal.stateOf_of_transition hok
  refine ⟨(hstate call.authority).trans (if_pos rfl), fun hcaller prior hprior heq => ?_⟩
  -- The row was in a state in which no revert was called yet.
  obtain ⟨_, state, hsome, hpast⟩ := (h.wrote.sound hsound).called prior hprior
  rcases hmoved with ⟨_, hterminal, _⟩ | ⟨hfound, _⟩
  · cases hterminal
  · cases (heq ▸ hsome).symm.trans hfound
    rw [hexpected hcaller] at hpast
    cases hpast

/-- A move of a row that is no settlement row. -/
theorem keeps_transition_child (key : OperationKey) (expectedState nextState : JournalLifecycleState)
    (patch : TransitionPatch) (hgeneration : key.generation = generation)
    (hchild : key ≠ jobKey generation) :
    Keeps job generation opened memory (transition key expectedState nextState patch) := by
  refine keeps_transition key expectedState nextState patch hgeneration (fun _ _ => ⟨?_⟩)
    fun _ _ => hchild
  intro _ heq
  rw [hgeneration] at heq
  exact absurd heq hchild

/-- The row `requireRow` returns is of the key asked for. -/
theorem requireRow_returns (key : OperationKey) :
    Returns (requireRow key) fun row => row.operationKey = key := by
  refine Returns.bind (m := getRow key) (R := fun found => ∀ row, found = some row →
    row.operationKey = key) ?_ fun found hfound => ?_
  · intro turn found turn' h
    cases h
    intro row hrow
    exact Journal.operationKey_of_get hrow
  · cases found with
    | none => exact Returns.throw
    | some row => exact Returns.pure (hfound row rfl)

/-- A loop over rows of the generation. -/
theorem keeps_forM_group {f : JournalOperation → Act Unit}
    (order : List JournalOperation → List JournalOperation) (horder : ∀ rows, ∀ row ∈ order rows, row ∈ rows)
    (hf : ∀ row, row.generation = generation → Keeps job generation opened memory (f row)) :
    Keeps job generation opened memory (do (order (← group generation)).forM f) := by
  refine Triple.bind_returns (keeps_group generation)
    (R := fun rows => ∀ row ∈ rows, row.generation = generation) ?_ fun rows hrows => ?_
  · intro turn rows turn' h row hrow
    cases h
    exact (Journal.mem_group.mp hrow).2
  · refine Triple.forM (I := fun _ => Pinned job generation opened memory) fun row rest hdone => ?_
    obtain ⟨done, hdone⟩ := hdone
    have hmem : row ∈ order rows := by
      rw [hdone]
      simp
    exact hf row (hrows row (horder rows row hmem))

theorem mem_terminalOrder {rows : List JournalOperation} {row : JournalOperation} :
    row ∈ terminalOrder rows ↔ row ∈ rows := by
  unfold terminalOrder
  simp only [List.mem_append, List.mem_filter, decide_eq_true_eq]
  tauto

/-- After a settlement row come settlement rows only. -/
theorem terminalOrder_last {rows done rest : List JournalOperation} {row : JournalOperation}
    (h : terminalOrder rows = done ++ row :: rest) (hrow : row.operationKind = .jobSettlement) :
    ∀ other ∈ row :: rest, other.operationKind = .jobSettlement := by
  unfold terminalOrder at h
  have hlast : ∀ other ∈ rows.filter (·.operationKind = .jobSettlement),
      other.operationKind = .jobSettlement := fun other hother => by
    simpa using (List.mem_filter.mp hother).2
  rcases List.append_eq_append_iff.mp h with ⟨middle, _, hmiddle⟩ | ⟨middle, hmiddle, hrest⟩
  · intro other hother
    refine hlast other ?_
    rw [hmiddle]
    exact List.mem_append_right _ hother
  · cases middle with
    | nil =>
      rw [hrest]
      exact hlast
    | cons first middle =>
      -- The row would be one of those that are not settlement rows.
      exfalso
      rw [List.cons_append, List.cons.injEq] at hrest
      have hfirst : row ∈ rows.filter (·.operationKind ≠ .jobSettlement) := by
        rw [hmiddle, hrest.1]
        simp
      simpa [hrow] using (List.mem_filter.mp hfirst).2

theorem keeps_quarantineRow (row : JournalOperation) (errorCode message : String)
    (h : row.generation = generation) :
    Keeps job generation opened memory (quarantineRow row errorCode message) :=
  Keeps.ite Keeps.pure (keeps_transition_open _ _ _ _ h rfl)

theorem keeps_quarantineGroup (errorCode message : String) :
    Keeps job generation opened memory (quarantineGroup generation errorCode message) :=
  keeps_forM_group id (fun _ _ h => h) fun row h =>
    keeps_quarantineRow row errorCode message h

/-- What follows the row a loop reads again. -/
theorem keeps_requireRow_bind {f : JournalOperation → Act α} (key : OperationKey)
    (hf : ∀ row, row.operationKey = key → Keeps job generation opened memory (f row)) :
    Keeps job generation opened memory (requireRow key >>= f) :=
  Triple.bind_returns (keeps_requireRow key) (requireRow_returns key) hf

theorem keeps_awaitRelayRow (initial : JournalOperation) (h : initial.generation = generation) :
    Keeps job generation opened memory (awaitRelayRow initial) := by
  refine keeps_requireRow_bind _ fun row hrow => Keeps.ite Keeps.pure ?_
  have hkey : row.operationKey.generation = generation := hrow ▸ h
  refine Keeps.bind (Keeps.when (keeps_transition_open _ _ _ _ hkey rfl)) fun _ => ?_
  refine keeps_requireRow_bind _ fun row hrow => ?_
  have hkey : row.operationKey.generation = generation := hrow ▸ h
  exact Keeps.ite (keeps_transition_open _ _ _ _ hkey rfl) (Keeps.ite Keeps.fail Keeps.pure)

theorem keeps_markAwaitingRelay :
    Keeps job generation opened memory (markAwaitingRelay generation) :=
  keeps_forM_group id (fun _ _ h => h) fun row h => keeps_awaitRelayRow row h

theorem keeps_submitRow (initial : JournalOperation) (h : initial.generation = generation) :
    Keeps job generation opened memory (submitRow initial) := by
  refine keeps_requireRow_bind _ fun row hrow => Keeps.ite Keeps.pure ?_
  have hkey : row.operationKey.generation = generation := hrow ▸ h
  refine Keeps.ite (keeps_transition_open _ _ _ _ hkey rfl) ?_
  refine Keeps.ite (keeps_transition_open _ _ _ _ hkey rfl) ?_
  exact Keeps.ite Keeps.fail Keeps.pure

theorem keeps_markRelaySubmitted (txId : String) :
    Keeps job generation opened memory (markRelaySubmitted generation txId) := by
  unfold markRelaySubmitted
  cases canonicalRelayExtrinsicHash txId with
  | none => exact Keeps.fail
  | some canonical =>
    refine Keeps.bind keeps_getJob fun _ => ?_
    refine Keeps.bind (keeps_recordReceipt _ _ rfl) fun _ => ?_
    exact keeps_forM_group terminalOrder (fun _ _ h => mem_terminalOrder.mp h) keeps_submitRow

theorem keeps_markRelayFailed : Keeps job generation opened memory (markRelayFailed generation) :=
  Keeps.bind keeps_getJob fun _ => keeps_recordReceipt _ _ rfl

theorem keeps_recordEvidence (evidence : Option (String × Nat)) :
    Keeps job generation opened memory (recordEvidence generation evidence) := by
  cases evidence with
  | none => exact Keeps.pure
  | some evidence => exact keeps_recordReceipt _ _ rfl

theorem keeps_markOperationReverted (key : OperationKey) (hgeneration : key.generation = generation)
    (hchild : key ≠ jobKey generation) :
    Keeps job generation opened memory (markOperationReverted key) := by
  refine keeps_requireRow_bind _ fun row _ => ?_
  refine Keeps.ite Keeps.pure ?_
  refine Keeps.ite (keeps_transition_child _ _ _ _ hgeneration hchild) ?_
  refine Keeps.bind (Keeps.when (keeps_transition_open _ _ _ _ hgeneration rfl)) fun _ => ?_
  exact keeps_transition_child _ _ _ _ hgeneration hchild

/-! ## Functions that close the generation

`markReverted`, `markFailed` and `markSettled` end every row of the generation, the settlement row
last. A round of their loops moves one row, to a terminal state if it returns. -/

/-- A round on the row of `key`, in a turn that had come to `before`. -/
structure Round (job : SwapJob) (memory : SwapJob) (before : Turn) (key : OperationKey)
    (turn : Turn) : Prop where
  pinned : Pinned job key.generation False memory turn
  elsewhere : ∀ other, other ≠ key →
    turn.job.journal.stateOf other = before.job.journal.stateOf other

/-- Nothing of the generation but its settlement row is open. -/
def ChildrenOver (journal : Journal) (generation : Nat) : Prop :=
  ∀ key state, key.generation = generation → key ≠ jobKey generation →
    journal.stateOf key = some state → state.terminal

/-- The row of `key` is terminal. -/
def Ended (journal : Journal) (key : OperationKey) : Prop :=
  ∃ state, journal.stateOf key = some state ∧ state.terminal

section Round

variable {before : Turn} {key : OperationKey}

/-- A move in a round. -/
theorem triple_round_transition (expectedState nextState : JournalLifecycleState)
    (patch : TransitionPatch)
    (hlast : key = jobKey key.generation → ChildrenOver before.job.journal key.generation) :
    Triple (Round job memory before key) (transition key expectedState nextState patch)
      (fun _ turn => Round job memory before key turn ∧
        turn.job.journal.stateOf key = some nextState)
      (fun _ => Round job memory before key) := by
  refine triple_commit (fun turn => turn.job.journal.transition key expectedState nextState patch)
    (fun journal job => { job with journal, writes := job.writes ++ [(key, nextState)] })
    fun turn journal h hok effects => ?_
  obtain ⟨_, hstate⟩ := Journal.stateOf_of_transition hok
  obtain ⟨row, hrow, hmoved⟩ := Journal.get_of_transition hok
  have hguard : MoveGuard turn.job.crash key nextState := by
    refine ⟨fun _ hkey other state hother hne hfound => ?_⟩
    refine hlast hkey other state hother (hkey ▸ hne) ?_
    rw [← h.elsewhere other hne]
    exact hfound
  refine ⟨⟨h.pinned.write rfl (.moved hok hguard) rfl ?_ (fun h => absurd h id), ?_⟩, ?_⟩
  · intro other hother
    obtain ⟨_, _, rfl⟩ | ⟨_, _, hget⟩ := hmoved
    · rfl
    · rw [hget other, if_neg]
      rintro rfl
      exact hother rfl
  · intro other hother
    rw [← h.elsewhere other hother]
    show journal.stateOf other = _
    rw [hstate, if_neg hother]
  · show journal.stateOf key = _
    rw [hstate, if_pos rfl]

theorem triple_round_requireRow {f : JournalOperation → Act Unit} {Q : Unit → Turn → Prop}
    {E : Interrupt → Turn → Prop} {P : Turn → Prop} (hE : ∀ interrupt turn, P turn → E interrupt turn)
    (hf : ∀ row, row.operationKey = key → Triple (fun turn => P turn ∧
      turn.job.journal.stateOf key = some row.lifecycleState) (f row) Q E) :
    Triple P (requireRow key >>= f) Q E := by
  intro turn h
  rw [outcome_bind]
  cases hget : turn.job.journal.get key with
  | none =>
    have hrequire : (requireRow key).outcome turn =
        (.error (.thrown (.other "journal operation not found")), turn) := by
      unfold requireRow getRow getJob
      simp only [outcome_bind, outcome_get, outcome_pure, hget]
      rfl
    rw [hrequire]
    exact hE _ turn h
  | some row =>
    have hrequire : (requireRow key).outcome turn = (.ok row, turn) := by
      unfold requireRow getRow getJob
      simp only [outcome_bind, outcome_get, outcome_pure, hget]
    rw [hrequire]
    exact hf row (Journal.operationKey_of_get hget) turn ⟨h, Journal.stateOf_of_get hget⟩

/-- What a round leaves when it returns, and when it does not. -/
def RoundTriple (job memory : SwapJob) (before : Turn) (key : OperationKey) (m : Act Unit) : Prop :=
  Triple (Round job memory before key) m
    (fun _ turn => Round job memory before key turn ∧ Ended turn.job.journal key)
    (fun _ => Round job memory before key)

theorem roundTriple_transition (expectedState nextState : JournalLifecycleState)
    (patch : TransitionPatch)
    (hlast : key = jobKey key.generation → ChildrenOver before.job.journal key.generation)
    (hterminal : nextState.terminal) :
    RoundTriple job memory before key (transition key expectedState nextState patch) :=
  (triple_round_transition expectedState nextState patch hlast).conseq (fun _ h => h)
    (fun _ _ h => ⟨h.1, nextState, h.2, hterminal⟩) fun _ _ h => h

/-- A move that may be skipped, before the round goes on. -/
theorem roundTriple_when {c : Prop} [Decidable c] {m : Act Unit}
    (expectedState nextState : JournalLifecycleState) (patch : TransitionPatch)
    (hlast : key = jobKey key.generation → ChildrenOver before.job.journal key.generation)
    (hm : RoundTriple job memory before key m) :
    RoundTriple job memory before key
      (when c (transition key expectedState nextState patch) >>= fun _ => m) := by
  refine Triple.bind (Q := fun _ => Round job memory before key) ?_ fun _ => hm
  refine Triple.ite (fun _ => ?_) fun _ => Triple.pure fun _ h => h
  exact (triple_round_transition expectedState nextState patch hlast).conseq (fun _ h => h)
    (fun _ _ h => h.1) fun _ _ h => h

theorem roundTriple_requireRow {f : JournalOperation → Act Unit}
    (hf : ∀ row, row.operationKey = key → row.terminal ∨ RoundTriple job memory before key (f row))
    (hterminal : ∀ row, row.terminal → f row = pure ()) :
    RoundTriple job memory before key (requireRow key >>= f) := by
  refine triple_round_requireRow (fun _ _ h => h) fun row hrow => ?_
  by_cases hended : row.terminal
  · rw [hterminal row hended]
    exact Triple.pure fun turn h => ⟨h.1, row.lifecycleState, h.2, hended⟩
  · refine ((hf row hrow).resolve_left hended).conseq (fun _ h => h.1) (fun _ _ h => h) fun _ _ h => h

/-! ### The rounds of the three loops -/

theorem roundTriple_revertRow (initial : JournalOperation)
    (hlast : initial.operationKey = jobKey initial.operationKey.generation →
      ChildrenOver before.job.journal initial.operationKey.generation) :
    RoundTriple job memory before initial.operationKey (revertRow initial) := by
  refine roundTriple_requireRow (fun row hrow => ?_) fun row hterminal => if_pos hterminal
  by_cases hterminal : row.terminal
  · exact Or.inl hterminal
  · right
    simp only [if_neg hterminal, hrow]
    refine Triple.ite (fun _ => roundTriple_transition _ _ _ hlast rfl) fun _ => ?_
    exact roundTriple_when _ _ _ hlast (roundTriple_transition _ _ _ hlast rfl)

theorem roundTriple_failRow (message : String) (initial : JournalOperation)
    (hlast : initial.operationKey = jobKey initial.operationKey.generation →
      ChildrenOver before.job.journal initial.operationKey.generation) :
    RoundTriple job memory before initial.operationKey (failRow message initial) := by
  refine roundTriple_requireRow (fun row hrow => ?_) fun row hterminal => if_pos hterminal
  by_cases hterminal : row.terminal
  · exact Or.inl hterminal
  · right
    simp only [if_neg hterminal, hrow]
    refine Triple.ite (fun _ => Triple.throw fun _ h => h) fun _ => ?_
    exact roundTriple_transition _ _ _ hlast rfl

theorem roundTriple_settleRow (initial : JournalOperation)
    (hlast : initial.operationKey = jobKey initial.operationKey.generation →
      ChildrenOver before.job.journal initial.operationKey.generation) :
    RoundTriple job memory before initial.operationKey (settleRow initial) := by
  refine roundTriple_requireRow (fun row hrow => ?_) fun row hterminal => if_pos hterminal
  by_cases hterminal : row.terminal
  · exact Or.inl hterminal
  · right
    simp only [if_neg hterminal, hrow]
    refine roundTriple_when _ _ _ hlast ?_
    refine triple_round_requireRow (fun _ _ h => h) fun again hagain => ?_
    rw [hagain]
    refine Triple.conseq (P := Round job memory before initial.operationKey) ?_ (fun _ h => h.1)
      (fun _ _ h => h) fun _ _ h => h
    refine Triple.ite (fun _ => roundTriple_transition _ _ _ hlast rfl) fun _ => ?_
    refine Triple.ite (fun _ => roundTriple_transition _ _ _ hlast rfl) fun _ => ?_
    exact Triple.throw fun _ h => h

end Round

/-- **A closing loop**: it ends every row of the generation, the settlement row last. -/
theorem triple_closeRows {f : JournalOperation → Act Unit} (hsound : job.Sound)
    (hf : ∀ (initial : JournalOperation) (before : Turn),
      (initial.operationKey = jobKey initial.operationKey.generation →
        ChildrenOver before.job.journal initial.operationKey.generation) →
      RoundTriple job memory before initial.operationKey (f initial)) :
    Triple (Pinned job generation False memory)
      (do (terminalOrder (← group generation)).forM f)
      (fun _ turn => Pinned job generation False memory turn ∧ turn.job.journal.Over generation)
      (fun _ => Pinned job generation False memory) := by
  refine Triple.bind (Q := fun rows turn => Pinned job generation False memory turn ∧
    rows = turn.job.journal.group generation) (fun _ h => ⟨h, rfl⟩) fun rows => ?_
  rintro turn ⟨h, rfl⟩
  have hkeyed := (h.wrote.sound hsound).keyed
  -- What is open of the generation is still to come in the loop.
  let I (rest : List JournalOperation) (turn : Turn) : Prop :=
    Pinned job generation False memory turn ∧ ∀ key state, key.generation = generation →
      turn.job.journal.stateOf key = some state → state.terminal ∨
        ∃ row ∈ rest, row.operationKey = key
  refine (Triple.forM (I := I) (E := fun _ => Pinned job generation False memory)
    fun row rest hdone => ?_).conseq (fun t (ht : t = turn) => ?_) ?_ (fun _ _ h => h) turn rfl
  · intro before hbefore
    obtain ⟨done, hdone⟩ := hdone
    have hmem : row ∈ turn.job.journal.group generation := by
      rw [← mem_terminalOrder, hdone]
      simp
    obtain ⟨hrow, hgeneration⟩ := Journal.mem_group.mp hmem
    have hkey : row.operationKey.generation = generation := hgeneration
    have hround := hf row before ?_ before
      ⟨hkey ▸ hbefore.1, fun _ _ => rfl⟩
    · cases hout : (f row).outcome before with
      | mk result after =>
        rw [hout] at hround
        cases result with
        | error interrupt => exact hkey ▸ hround.pinned
        | ok _ =>
          obtain ⟨hround, ended, hended, hterminal⟩ := hround
          refine ⟨hkey ▸ hround.pinned, fun key state hother hstate => ?_⟩
          by_cases heq : key = row.operationKey
          · subst heq
            cases hended.symm.trans hstate
            exact Or.inl hterminal
          · rw [hround.elsewhere key heq] at hstate
            refine (hbefore.2 key state hother hstate).imp_right ?_
            rintro ⟨other, hmem, rfl⟩
            rcases List.mem_cons.mp hmem with rfl | hmem
            · exact absurd rfl heq
            · exact ⟨other, hmem, rfl⟩
    · -- After the settlement row come settlement rows only, and it is the only one.
      intro hsettlement key state hother hne hstate
      rcases hbefore.2 key state (hother.trans hkey) hstate with hterminal | ⟨other, hmem, rfl⟩
      · exact hterminal
      · exfalso
        have hkind : row.operationKind = .jobSettlement := by
          unfold JournalOperation.operationKind
          rw [hsettlement]
          rfl
        have hother' : other ∈ turn.job.journal := by
          have : other ∈ terminalOrder (turn.job.journal.group generation) := by
            rw [hdone]
            exact List.mem_append_right _ hmem
          exact (Journal.mem_group.mp (mem_terminalOrder.mp this)).1
        apply hne
        rw [hkeyed other hother' (terminalOrder_last hdone hkind other hmem)]
        exact congrArg jobKey hother
  · subst ht
    refine ⟨h, fun key state hkey hstate => Or.inr ?_⟩
    obtain ⟨row, hrow, _⟩ := Journal.get_of_stateOf hstate
    refine ⟨row, mem_terminalOrder.mpr ?_, Journal.operationKey_of_get hrow⟩
    rw [← hkey]
    exact Journal.mem_group_of_get hrow
  · rintro _ after ⟨hpinned, hover⟩
    refine ⟨hpinned, fun key state hkey hstate => ?_⟩
    rcases hover key state hkey hstate with hterminal | ⟨_, hmem, _⟩
    · exact hterminal
    · cases hmem

/-- The generation is over. -/
def Finished (job : SwapJob) (generation : Nat) (memory : SwapJob) (turn : Turn) : Prop :=
  Pinned job generation False memory turn ∧ turn.job.journal.Over generation

/-- `markReverted` ends the generation. -/
theorem triple_markReverted (hsound : job.Sound) :
    Triple (Pinned job generation False memory) (markReverted generation)
      (fun _ => Finished job generation memory) (fun _ => Pinned job generation False memory) := by
  unfold markReverted
  rw [← bind_assoc]
  refine Triple.bind (triple_closeRows hsound fun initial _ => roundTriple_revertRow initial)
    fun _ => ?_
  refine (triple_commit (P := Finished job generation memory)
    (fun turn => ZswapKernel.releaseDust turn.job.dust (jobKey generation))
    (fun dust job => { job with dust }) fun _ _ h _ _ => ⟨?_, h.2⟩).conseq
    (fun _ h => h) (fun _ _ h => h) fun _ _ h => h.1
  exact h.1.write rfl .dust rfl (fun _ _ => rfl) fun _ h => h

/-- `markFailed` ends the generation. -/
theorem triple_markFailed (hsound : job.Sound) (message : String) :
    Triple (Pinned job generation False memory) (markFailed generation message)
      (fun _ => Finished job generation memory) (fun _ => Pinned job generation False memory) :=
  triple_closeRows hsound fun initial _ => roundTriple_failRow message initial

/-- `markSettled` ends the generation. -/
theorem triple_markSettled (hsound : job.Sound) (evidence : Option (String × Nat)) :
    Triple (Pinned job generation False memory) (markSettled generation evidence)
      (fun _ => Finished job generation memory) (fun _ => Pinned job generation False memory) := by
  unfold markSettled
  refine Triple.bind (keeps_recordEvidence evidence) fun _ => ?_
  rw [← bind_assoc]
  refine Triple.bind (triple_closeRows hsound fun initial _ => roundTriple_settleRow initial)
    fun _ => ?_
  refine (triple_commit (P := Finished job generation memory)
    (fun turn => ZswapKernel.markDustSpent turn.job.dust (jobKey generation) turn.nowMs)
    (fun dust job => { job with dust }) fun _ _ h _ _ => ⟨?_, h.2⟩).conseq
    (fun _ h => h) (fun _ _ h => h) fun _ _ h => h.1
  exact h.1.write rfl .dust rfl (fun _ _ => rfl) fun _ h => h

end Act

end ZswapKernel
