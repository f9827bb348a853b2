import ZswapKernel.Solver.RelayClient

/-!
# A ladder on the wire is fresh

Over any run of the relay client. A run of `runPush` keeps what it captured before its first `await`
(`PushRun.Derived`), so a revalidation right before its levels are sent makes its derivation one of
the source at that moment. Only the push in flight can send for a derivation, since a socket is closed
with the task that missed its deadline on it (`EmptyPairTask.Detached`).

* `RelayClient.Sound` — the invariant; `Sound.handle` — every event keeps it.
* `published_levels_fresh` — fresh levels, derivations in order, nothing after a withdrawal.
-/

namespace ZswapKernel

/-! ## The invariant -/

/-- The derivation a frame belongs to. -/
def SentFrame.number (sent : SentFrame) : Option Nat := sent.origin.map (·.number)

/-- Levels that quote anything are those the source derives at the moment of the send. -/
def SentFrame.Fresh (options : RelayLadderOptions) (sent : SentFrame) : Prop :=
  ∀ message, sent.frame = .priceLevels message → message.levels ≠ [] →
    sent.retired = false ∧ ∃ origin push, sent.origin = some origin ∧
      deriveLadderPush options sent.input origin.answers = .ok push ∧ push.priceLevels = message

/-- The push was derived no later than now, from the source its snapshot captured. -/
def PushRun.Derived (options : RelayLadderOptions) (run : PushRun) (nowMs : Int) : Prop :=
  ∃ input : LadderInput, input.nowMs ≤ nowMs ∧
    deriveLadderPush options input run.origin.answers = .ok run.push ∧
    run.sourceSnapshot = sourceSnapshotOf options input

/-- A task that can no longer send for a derivation: its socket is not the current one. -/
def EmptyPairTask.Detached (task : EmptyPairTask) (s : RelayClient) : Prop :=
  task.origin = none ∨ task.generation < s.generations ∧ s.onSocket task.generation = false

/-- What holds of the push in flight: it is the last derivation. -/
def PushPoint.Holds (options : RelayLadderOptions) (s : RelayClient) : PushPoint → Prop
  | .capabilities run _ =>
    run.Derived options s.input.nowMs ∧ run.origin.number + 1 = s.derivations ∧
      run.pushSocket < s.generations
  | .withdrawing task _ =>
    (∃ origin, task.origin = some origin ∧ origin.number + 1 = s.derivations) ∧
      task.generation < s.generations
  | .levels _ _ => True
  | .returned => True

/-- A withdrawal retires the client first, and its task belongs to no derivation. -/
def WithdrawPoint.Holds (retired : Bool) : WithdrawPoint → Prop
  | .idle => True
  | .waiting => retired = true
  | .sending task => retired = true ∧ task.origin = none
  | .done => retired = true

structure RelayClient.Sound (options : RelayLadderOptions) (s : RelayClient) : Prop where
  fresh : ∀ sent ∈ s.wire, sent.Fresh options
  ordered : (s.wire.filterMap SentFrame.number).Pairwise (· ≤ ·)
  numbered : ∀ number ∈ s.wire.filterMap SentFrame.number, number < s.derivations
  socket : ∀ socket, s.socket = some socket → socket.generation < s.generations
  orphans : ∀ task ∈ s.orphans, task.Detached s
  push : ∀ point, s.inFlight = some point → point.Holds options s
  withdrawal : s.withdrawing.Holds s.retired

/-- `s'` is `s` with more frames on its wire; once retired, always retired. -/
def RelayClient.Extends (s s' : RelayClient) : Prop :=
  ∃ added, s'.wire = s.wire ++ added ∧
    (s.retired = true → s'.retired = true ∧ ∀ sent ∈ added, sent.retired = true)

/-- A captured push that is not stale is derived again from the source as it is now. -/
theorem PushRun.Derived.again {options : RelayLadderOptions} {run : PushRun} {input : LadderInput}
    {aborted : Bool}
    (h : run.Derived options input.nowMs) (hlevels : run.push.priceLevels.levels ≠ [])
    (hfresh : run.stale options input aborted = false) :
    ∃ push, deriveLadderPush options input run.origin.answers = .ok push ∧
      push.priceLevels = run.push.priceLevels := by
  obtain ⟨input₀, hclock, hderived, hsnapshot⟩ := h
  obtain ⟨hcurrent, hlimits, hsize, hwithheld, -⟩ := deriveLadderPush_published hderived hlevels
  have hsnapshot' : run.sourceSnapshot = (captureLadderSourceSnapshot options input₀
      run.push.derived.limits.maxSourceOffers).toOption := by
    rw [hsnapshot, sourceSnapshotOf, hlimits]
    simp only [hcurrent, hsize, Bool.true_and, decide_true, if_true]
  cases hcapture : captureLadderSourceSnapshot options input₀
      run.push.derived.limits.maxSourceOffers with
  | error message =>
    unfold captureLadderSourceSnapshot at hcapture
    rw [if_neg (Nat.not_lt.mpr hsize)] at hcapture
    cases hcapture
  | ok snapshot =>
    rw [hcapture] at hsnapshot'
    unfold PushRun.stale at hfresh
    rw [hwithheld, hsnapshot'] at hfresh
    have hnone : sourceSnapshotFailure options input snapshot
        run.push.derived.limits.maxSourceOffers = none := by
      simpa using (Bool.or_eq_false_iff.mp hfresh).2
    exact deriveLadderPush_again hderived hlevels hcapture hclock hnone

theorem EmptyPairTask.Detached.congr {task task' : EmptyPairTask} {s s' : RelayClient}
    (h : task.Detached s) (horigin : task'.origin = task.origin)
    (hgeneration : task'.generation = task.generation) (hsocket : s'.socket = s.socket)
    (hgenerations : s'.generations = s.generations) : task'.Detached s' := by
  unfold EmptyPairTask.Detached RelayClient.onSocket at h ⊢
  rw [horigin, hgeneration, hsocket, hgenerations]
  exact h

namespace RelayClient

variable {options : RelayLadderOptions} {s s' s'' : RelayClient}

theorem Extends.refl (s : RelayClient) : s.Extends s := ⟨[], by simp, by simp⟩

theorem Extends.trans (h : s.Extends s') (h' : s'.Extends s'') : s.Extends s'' := by
  obtain ⟨added, hwire, hretired⟩ := h
  obtain ⟨added', hwire', hretired'⟩ := h'
  refine ⟨added ++ added', by rw [hwire', hwire, List.append_assoc], fun hs => ?_⟩
  obtain ⟨hs', hadded⟩ := hretired hs
  obtain ⟨hs'', hadded'⟩ := hretired' hs'
  refine ⟨hs'', fun sent hsent => ?_⟩
  rcases List.mem_append.mp hsent with hmem | hmem
  · exact hadded sent hmem
  · exact hadded' sent hmem

/-- A change that sends nothing and un-retires nothing. -/
theorem Extends.of_eq (hwire : s'.wire = s.wire) (hretired : s.retired = true → s'.retired = true) :
    s.Extends s' :=
  ⟨[], by simp [hwire], fun hs => ⟨hretired hs, by simp⟩⟩

theorem Extends.retired (h : s.Extends s') (hs : s.retired = true) : s'.retired = true := by
  obtain ⟨added, -, hretired⟩ := h
  exact (hretired hs).1

/-! ## Sending -/

/-- A send either fails and changes nothing, or adds its frame on the current socket. -/
theorem sendOn_cases (expectedSocket : Nat) (origin : Option LadderOrigin)
    (frame : PublicationFrame) (s : RelayClient) :
    s.sendOn expectedSocket origin frame = (false, s) ∨
      s.onSocket expectedSocket = true ∧ s.sendOn expectedSocket origin frame =
        (true, { s with wire := s.wire ++ [⟨expectedSocket, frame, origin, s.input, s.retired⟩] }) := by
  unfold sendOn
  split
  · rename_i hopen
    rw [Bool.and_eq_true] at hopen
    exact .inr ⟨hopen.1, rfl⟩
  · exact .inl rfl

theorem sendOn_extends (expectedSocket : Nat) (origin : Option LadderOrigin)
    (frame : PublicationFrame) (s : RelayClient) :
    s.Extends (s.sendOn expectedSocket origin frame).2 := by
  rcases sendOn_cases expectedSocket origin frame s with h | ⟨-, h⟩
  · rw [h]
    exact Extends.refl s
  · rw [h]
    exact ⟨[_], rfl, fun hs => ⟨hs, by simpa using hs⟩⟩

/-- Sending keeps the invariant: a fresh frame, of the last derivation or of none. -/
theorem Sound.sendOn {expectedSocket : Nat} {origin : Option LadderOrigin}
    {frame : PublicationFrame} (h : s.Sound options)
    (hfresh : SentFrame.Fresh options ⟨expectedSocket, frame, origin, s.input, s.retired⟩)
    (horigin : ∀ o, origin = some o → s.onSocket expectedSocket = true →
      o.number + 1 = s.derivations) :
    (s.sendOn expectedSocket origin frame).2.Sound options := by
  rcases sendOn_cases expectedSocket origin frame s with heq | ⟨hsocket, heq⟩
  · rw [heq]
    exact h
  rw [heq]
  have hnumbers : ∀ number, SentFrame.number
      ⟨expectedSocket, frame, origin, s.input, s.retired⟩ = some number →
        number + 1 = s.derivations := by
    intro number hnumber
    obtain ⟨o, ho, rfl⟩ := Option.map_eq_some_iff.mp hnumber
    exact horigin o ho hsocket
  refine { h with fresh := ?_, ordered := ?_, numbered := ?_ }
  · intro sent hsent
    rcases List.mem_append.mp hsent with hmem | hmem
    · exact h.fresh sent hmem
    · rw [List.mem_singleton.mp hmem]
      exact hfresh
  · simp only [List.filterMap_append, List.pairwise_append]
    refine ⟨h.ordered, by simp only [List.filterMap_cons]; split <;> simp, ?_⟩
    intro number hnumber number' hnumber'
    have := h.numbered number hnumber
    obtain ⟨sent, hsent, hsome⟩ := List.mem_filterMap.mp hnumber'
    rw [List.mem_singleton.mp hsent] at hsome
    have := hnumbers number' hsome
    omega
  · intro number hnumber
    simp only [List.filterMap_append, List.mem_append] at hnumber
    rcases hnumber with hmem | hmem
    · exact h.numbered number hmem
    · obtain ⟨sent, hsent, hsome⟩ := List.mem_filterMap.mp hmem
      rw [List.mem_singleton.mp hsent] at hsome
      have := hnumbers number hsome
      show number < s.derivations
      omega

/-- An empty frame quotes nothing. -/
theorem emptyPair_fresh (options : RelayLadderOptions) (levelsFirst : Bool) (generation : Nat)
    (origin : Option LadderOrigin) (input : LadderInput) (retired : Bool) :
    SentFrame.Fresh options
        ⟨generation, (emptyPair options levelsFirst).1, origin, input, retired⟩ ∧
      SentFrame.Fresh options
        ⟨generation, (emptyPair options levelsFirst).2, origin, input, retired⟩ := by
  unfold emptyPair SentFrame.Fresh
  cases levelsFirst
  · refine ⟨fun message h hlevels => ?_, fun message h hlevels => ?_⟩
    · cases h
    · cases h
      exact absurd rfl hlevels
  · refine ⟨fun message h hlevels => ?_, fun message h hlevels => ?_⟩
    · cases h
      exact absurd rfl hlevels
    · cases h

/-- A send changes the wire only. -/
theorem sendOn_frame (expectedSocket : Nat) (origin : Option LadderOrigin)
    (frame : PublicationFrame) (s : RelayClient) :
    ∃ wire, (s.sendOn expectedSocket origin frame).2 = { s with wire } := by
  rcases sendOn_cases expectedSocket origin frame s with h | ⟨-, h⟩
  · exact ⟨s.wire, by rw [h]⟩
  · exact ⟨_, by rw [h]⟩

/-- Resuming a task keeps the invariant, and its origin and socket. -/
theorem Sound.resumeEmptyPair {task : EmptyPairTask} (h : s.Sound options) (ok : Bool)
    (horigin : ∀ o, task.origin = some o → s.onSocket task.generation = true →
      o.number + 1 = s.derivations) :
    (s.resumeEmptyPair options task ok).2.Sound options ∧
      (s.resumeEmptyPair options task ok).1.origin = task.origin ∧
      (s.resumeEmptyPair options task ok).1.generation = task.generation ∧
      (∃ wire, (s.resumeEmptyPair options task ok).2 = { s with wire }) ∧
      s.Extends (s.resumeEmptyPair options task ok).2 := by
  unfold RelayClient.resumeEmptyPair
  cases task.stage with
  | first handed =>
    simp only
    split
    · exact ⟨h.sendOn (emptyPair_fresh options _ _ _ _ _).2 horigin, rfl, rfl,
        sendOn_frame _ _ _ _, sendOn_extends _ _ _ _⟩
    · exact ⟨h, rfl, rfl, ⟨s.wire, rfl⟩, Extends.refl s⟩
  | second handed => exact ⟨h, rfl, rfl, ⟨s.wire, rfl⟩, Extends.refl s⟩
  | settled sent => exact ⟨h, rfl, rfl, ⟨s.wire, rfl⟩, Extends.refl s⟩

/-! ## Pushing -/

theorem Sound.returning (h : s.Sound options) (requeue : Bool) :
    (s.returning requeue).Sound options := by
  refine { h with push := ?_ }
  intro point hpoint
  cases hpoint
  trivial

theorem returning_extends (requeue : Bool) (s : RelayClient) : s.Extends (s.returning requeue) :=
  Extends.of_eq rfl id

theorem Detached.close {task : EmptyPairTask} (h : task.Detached s) (generation : Nat) :
    task.Detached (s.closeSocketGeneration generation) := by
  unfold closeSocketGeneration
  split
  · rcases h with h | ⟨hgeneration, -⟩
    · exact .inl h
    · exact .inr ⟨hgeneration, rfl⟩
  · exact h

/-- A socket is never reopened: closing one keeps everything. -/
theorem Sound.handleClosed (h : s.Sound options) : s.handleClosed.Sound options := by
  refine { h with socket := ?_, orphans := ?_, push := ?_ }
  · intro socket hsocket
    cases hsocket
  · intro task htask
    rcases h.orphans task htask with hnone | ⟨hgeneration, -⟩
    · exact .inl hnone
    · exact .inr ⟨hgeneration, rfl⟩
  · intro point hpoint
    have := h.push point hpoint
    cases point <;> exact this

theorem Sound.closeSocketGeneration (h : s.Sound options) (generation : Nat) :
    (s.closeSocketGeneration generation).Sound options := by
  unfold RelayClient.closeSocketGeneration
  split
  · exact h.handleClosed
  · exact h

theorem closeSocketGeneration_extends (generation : Nat) (s : RelayClient) :
    s.Extends (s.closeSocketGeneration generation) := by
  unfold closeSocketGeneration
  split
  · exact Extends.of_eq rfl id
  · exact Extends.refl s

/-- The socket of a closed generation is not the current one. -/
theorem onSocket_closeSocketGeneration (generation : Nat) (s : RelayClient) :
    (s.closeSocketGeneration generation).onSocket generation = false := by
  unfold closeSocketGeneration
  split
  · rfl
  · rename_i h
    simpa using h

/-- The current socket is one of those created. -/
theorem Sound.onSocket_lt (h : s.Sound options) {generation : Nat}
    (hsocket : s.onSocket generation = true) : generation < s.generations := by
  unfold onSocket at hsocket
  cases hsome : s.socket with
  | none => simp [hsome] at hsocket
  | some socket =>
    rw [hsome] at hsocket
    rw [← of_decide_eq_true hsocket]
    exact h.socket socket hsome

/-- The push in flight sends a frame and awaits its answer. -/
theorem Sound.sendOn_at {expectedSocket : Nat} {origin : Option LadderOrigin}
    {frame : PublicationFrame} (h : s.Sound options) (point : Bool → PushPoint)
    (hfresh : SentFrame.Fresh options ⟨expectedSocket, frame, origin, s.input, s.retired⟩)
    (horigin : ∀ o, origin = some o → s.onSocket expectedSocket = true →
      o.number + 1 = s.derivations)
    (hpoint : ∀ handed, (point handed).Holds options s) :
    { (s.sendOn expectedSocket origin frame).2 with
        inFlight := some (point (s.sendOn expectedSocket origin frame).1) }.Sound options ∧
      s.Extends { (s.sendOn expectedSocket origin frame).2 with
        inFlight := some (point (s.sendOn expectedSocket origin frame).1) } := by
  have hsent := h.sendOn hfresh horigin
  obtain ⟨wire, hwire⟩ := sendOn_frame expectedSocket origin frame s
  refine ⟨{ hsent with push := ?_ }, (sendOn_extends _ _ _ s).trans (Extends.of_eq rfl id)⟩
  intro next hnext
  cases hnext
  have := hpoint (s.sendOn expectedSocket origin frame).1
  rw [hwire]
  cases hpoint' : point (s.sendOn expectedSocket origin frame).1 <;> rw [hpoint'] at this <;>
    exact this

theorem Sound.withdrawFailedPush (h : s.Sound options) {pushSocket : Nat} {origin : LadderOrigin}
    (horigin : origin.number + 1 = s.derivations) (levelsFirst requeue : Bool) :
    (s.withdrawFailedPush options pushSocket origin levelsFirst requeue).Sound options ∧
      s.Extends (s.withdrawFailedPush options pushSocket origin levelsFirst requeue) := by
  unfold RelayClient.withdrawFailedPush
  split
  · exact ⟨h.returning requeue, returning_extends requeue s⟩
  rename_i hcurrent
  have hsocket : s.onSocket pushSocket = true := by
    simp only [Bool.or_eq_true, Bool.not_eq_true', not_or, Bool.not_eq_false] at hcurrent
    exact hcurrent.1
  unfold startEmptyPair
  exact h.sendOn_at (fun handed => .withdrawing ⟨pushSocket, some origin, levelsFirst, .first handed⟩
    requeue) (emptyPair_fresh options levelsFirst _ _ _ _).1
    (fun o ho _ => by cases ho; exact horigin)
    (fun _ => ⟨⟨origin, rfl, horigin⟩, h.onSocket_lt hsocket⟩)

/-- Nothing is captured: the push in flight, if any, is about to start or over. -/
def Unclaimed (s : RelayClient) : Prop := ∀ point, s.inFlight = some point → point = .returned

/-- A derivation is counted, and the clock moves on meanwhile. -/
theorem Sound.derive (h : s.Sound options) (hidle : s.Unclaimed) (clock : Int) :
    { s.advance clock with derivations := s.derivations + 1 }.Sound options := by
  refine { h with numbered := ?_, push := ?_ }
  · intro number hnumber
    exact Nat.lt_succ_of_lt (h.numbered number hnumber)
  · intro point hpoint
    rw [hidle point hpoint]
    trivial

theorem Sound.runPush (h : s.Sound options) (hidle : s.Unclaimed) (reading : PushReading) :
    (s.runPush options reading).Sound options ∧ s.Extends (s.runPush options reading) := by
  unfold RelayClient.runPush
  cases hsocket : s.socket with
  | none => exact ⟨h.returning false, returning_extends false s⟩
  | some pushSocket =>
    simp only
    split
    · exact ⟨h.returning false, returning_extends false s⟩
    have hderive := h.derive hidle reading.clock
    have hextends : s.Extends { s.advance reading.clock with derivations := s.derivations + 1 } :=
      Extends.of_eq rfl id
    cases hderived : deriveLadderPush options s.input reading.answers with
    | error message =>
      have hwithdrawn := @Sound.withdrawFailedPush _ _ hderive pushSocket.generation
        ⟨s.derivations, reading.answers⟩ rfl false false
      exact ⟨hwithdrawn.1, hextends.trans hwithdrawn.2⟩
    | ok push =>
      simp only
      split
      · have hwithdrawn := @Sound.withdrawFailedPush _ _ hderive pushSocket.generation
          ⟨s.derivations, reading.answers⟩ rfl false true
        exact ⟨hwithdrawn.1, hextends.trans hwithdrawn.2⟩
      · have hderived' : PushRun.Derived options ⟨⟨s.derivations, reading.answers⟩,
            pushSocket.generation, push, sourceSnapshotOf options s.input⟩
            (s.advance reading.clock).input.nowMs :=
          ⟨s.input, Int.le_max_left _ _, hderived, rfl⟩
        obtain ⟨hsound, hmore⟩ := @Sound.sendOn_at _ _ pushSocket.generation
          (some ⟨s.derivations, reading.answers⟩) (.capabilities push.capabilities) hderive
          (fun handed => .capabilities ⟨⟨s.derivations, reading.answers⟩, pushSocket.generation,
            push, sourceSnapshotOf options s.input⟩ handed)
          (fun message hmessage => by cases hmessage)
          (fun o ho _ => by cases ho; rfl)
          (fun _ => ⟨hderived', rfl, h.socket pushSocket hsocket⟩)
        exact ⟨hsound, hextends.trans hmore⟩

/-- The levels of a push that is still fresh go out fresh. -/
theorem Sound.resumeCapabilities {run : PushRun} {handed : Bool} (h : s.Sound options)
    (hpoint : s.inFlight = some (.capabilities run handed)) (ok aborted : Bool) :
    (s.resumeCapabilities options run ok aborted).Sound options ∧
      s.Extends (s.resumeCapabilities options run ok aborted) := by
  obtain ⟨hderived, hnumber, hsocket⟩ := h.push _ hpoint
  unfold RelayClient.resumeCapabilities
  split
  · exact ⟨(h.closeSocketGeneration _).returning false,
      (closeSocketGeneration_extends _ s).trans (returning_extends false _)⟩
  split
  · exact ⟨h.returning false, returning_extends false s⟩
  rename_i hcurrent
  split
  · exact h.withdrawFailedPush hnumber _ _
  rename_i hfresh
  refine h.sendOn_at (fun handed => .levels run handed) ?_
    (fun o ho _ => by cases ho; exact hnumber) (fun _ => trivial)
  intro message hmessage hlevels
  cases hmessage
  obtain ⟨push, hpush, heq⟩ := hderived.again hlevels (Bool.eq_false_iff.mpr hfresh)
  refine ⟨?_, run.origin, push, rfl, hpush, heq⟩
  simp only [Bool.or_eq_true, not_or] at hcurrent
  exact Bool.eq_false_iff.mpr hcurrent.2

/-- A state whose push in flight is over. -/
theorem Sound.idle (h : s.Sound options) (queued : Bool) :
    { s with inFlight := none, queued }.Sound options :=
  { h with push := fun _ hpoint => by cases hpoint }

theorem Sound.resumePush (h : s.Sound options) (ok : Bool) (reading : PushReading) :
    (s.resumePush options ok reading).Sound options ∧
      s.Extends (s.resumePush options ok reading) := by
  unfold RelayClient.resumePush
  have hfailed : ∀ generation requeue,
      ((s.closeSocketGeneration generation).returning requeue).Sound options ∧
        s.Extends ((s.closeSocketGeneration generation).returning requeue) := fun _ requeue =>
    ⟨(h.closeSocketGeneration _).returning requeue,
      (closeSocketGeneration_extends _ s).trans (returning_extends requeue _)⟩
  have hreturned : ∀ requeue, (s.returning requeue).Sound options ∧
      s.Extends (s.returning requeue) := fun requeue =>
    ⟨h.returning requeue, returning_extends requeue s⟩
  cases hpoint : s.inFlight with
  | none => exact ⟨h, Extends.refl s⟩
  | some point =>
    cases point with
    | capabilities run handed => exact h.resumeCapabilities hpoint _ _
    | levels run handed =>
      simp only
      split
      · exact hreturned false
      · exact hfailed run.pushSocket false
    | withdrawing task requeue =>
      simp only
      split
      · exact hreturned requeue
      · exact hfailed task.generation requeue
      · exact ⟨h, Extends.refl s⟩
    | returned =>
      simp only
      unfold resumeLoop
      split
      · exact ⟨h.idle false, Extends.of_eq rfl id⟩
      · have hqueued : { s with queued := false }.Sound options := { h with }
        obtain ⟨hsound, hmore⟩ := hqueued.runPush
          (fun point hpoint' => Option.some.inj (hpoint'.symm.trans hpoint)) reading
        exact ⟨hsound, Extends.trans (Extends.of_eq rfl id) hmore⟩

theorem Sound.requestPush (h : s.Sound options) (reading : PushReading) :
    (s.requestPush options reading).Sound options ∧
      s.Extends (s.requestPush options reading) := by
  unfold RelayClient.requestPush
  split
  · exact ⟨{ h with }, Extends.of_eq rfl id⟩
  · rename_i hidle
    exact h.runPush (fun point hpoint => by rw [hidle] at hpoint; cases hpoint) reading

theorem Sound.resumePushTask (h : s.Sound options) (ok : Bool) :
    (s.resumePushTask options ok).Sound options ∧ s.Extends (s.resumePushTask options ok) := by
  unfold RelayClient.resumePushTask
  split
  · rename_i task requeue hpoint
    obtain ⟨⟨origin, horigin, hnumber⟩, hsocket⟩ := h.push _ hpoint
    obtain ⟨hsound, horigin', hgeneration, ⟨wire, hwire⟩, hextends⟩ :=
      h.resumeEmptyPair ok (fun o ho _ => by rw [horigin] at ho; cases ho; exact hnumber)
    refine ⟨{ hsound with push := ?_ }, hextends.trans (Extends.of_eq rfl id)⟩
    intro point hpoint'
    cases hpoint'
    have hderivations := congrArg RelayClient.derivations hwire
    have hgenerations := congrArg RelayClient.generations hwire
    exact ⟨⟨origin, horigin'.trans horigin, hnumber.trans hderivations.symm⟩,
      hgeneration.trans_lt (hsocket.trans_eq hgenerations.symm)⟩
  · exact ⟨h, Extends.refl s⟩

/-- A task that misses its deadline loses its socket. -/
theorem Sound.pushDeadline (h : s.Sound options) :
    s.pushDeadline.Sound options ∧ s.Extends s.pushDeadline := by
  unfold RelayClient.pushDeadline
  split
  · rename_i task requeue hpoint
    obtain ⟨-, hsocket⟩ := h.push _ hpoint
    have hclosed := (h.closeSocketGeneration task.generation).returning requeue
    refine ⟨{ hclosed with orphans := ?_ }, ((closeSocketGeneration_extends _ s).trans
      (returning_extends requeue _)).trans (Extends.of_eq rfl id)⟩
    intro orphan horphan
    rcases List.mem_cons.mp horphan with rfl | hmem
    · refine .inr ⟨?_, onSocket_closeSocketGeneration orphan.generation s⟩
      simp only [RelayClient.returning, RelayClient.closeSocketGeneration]
      split <;> exact hsocket
    · exact hclosed.orphans orphan hmem
  · exact ⟨h, Extends.refl s⟩

/-! ## Withdrawing -/

theorem Sound.sendWithdrawal (h : s.Sound options) (hretired : s.retired = true) :
    (s.sendWithdrawal options).Sound options ∧ s.Extends (s.sendWithdrawal options) := by
  have hdone : { s with withdrawing := .done }.Sound options := { h with withdrawal := hretired }
  unfold RelayClient.sendWithdrawal
  split
  · exact ⟨hdone, Extends.of_eq rfl id⟩
  split
  · exact ⟨hdone, Extends.of_eq rfl id⟩
  · rename_i withdrawSocket _ _
    have hsent := h.sendOn (emptyPair_fresh options true withdrawSocket.generation none _ _).1
      (fun o ho _ => by cases ho)
    have hextends := sendOn_extends withdrawSocket.generation none (emptyPair options true).1 s
    exact ⟨{ hsent with withdrawal := ⟨hextends.retired hretired, rfl⟩ },
      hextends.trans (Extends.of_eq rfl id)⟩

theorem Sound.withdraw (h : s.Sound options) :
    (s.withdraw options).Sound options ∧ s.Extends (s.withdraw options) := by
  unfold RelayClient.withdraw
  split
  · simp only
    rename_i hpoint
    have hretired : { s with retired := true }.Sound options :=
      { h with withdrawal := by simp only [hpoint]; trivial }
    split
    · exact ⟨{ h with withdrawal := rfl }, Extends.of_eq rfl fun _ => rfl⟩
    · obtain ⟨hsound, hmore⟩ := hretired.sendWithdrawal rfl
      have hfirst : s.Extends { s with retired := true } := Extends.of_eq rfl fun _ => rfl
      exact ⟨hsound, hfirst.trans hmore⟩
  · exact ⟨h, Extends.refl s⟩

theorem Sound.resumeWithdraw (h : s.Sound options) :
    (s.resumeWithdraw options).Sound options ∧ s.Extends (s.resumeWithdraw options) := by
  have hpoint := h.withdrawal
  unfold RelayClient.resumeWithdraw
  split
  · rename_i hwaiting
    rw [hwaiting] at hpoint
    exact h.sendWithdrawal hpoint
  · rename_i task hsending
    rw [hsending] at hpoint
    obtain ⟨hretired, htask⟩ := hpoint
    refine ⟨{ h with orphans := ?_, withdrawal := hretired }, Extends.of_eq rfl id⟩
    intro orphan horphan
    rcases List.mem_cons.mp horphan with rfl | hmem
    · exact .inl htask
    · exact h.orphans orphan hmem
  · exact ⟨h, Extends.refl s⟩

theorem Sound.resumeWithdrawTask (h : s.Sound options) (ok : Bool) :
    (s.resumeWithdrawTask options ok).Sound options ∧
      s.Extends (s.resumeWithdrawTask options ok) := by
  unfold RelayClient.resumeWithdrawTask
  split
  · rename_i task hsending
    have hpoint := h.withdrawal
    rw [hsending] at hpoint
    obtain ⟨hretired, htask⟩ := hpoint
    obtain ⟨hsound, horigin, -, -, hextends⟩ :=
      h.resumeEmptyPair ok (fun o ho _ => by rw [htask] at ho; cases ho)
    exact ⟨{ hsound with withdrawal := ⟨hextends.retired hretired, horigin.trans htask⟩ },
      hextends.trans (Extends.of_eq rfl id)⟩
  · exact ⟨h, Extends.refl s⟩

/-- A task nobody waits for belongs to no derivation, or its socket is gone. -/
theorem Sound.resumeOrphan (h : s.Sound options) (index : Nat) (ok : Bool) :
    (s.resumeOrphan options index ok).Sound options ∧
      s.Extends (s.resumeOrphan options index ok) := by
  unfold RelayClient.resumeOrphan
  split
  · rename_i orphan horphan
    have hdetached := h.orphans orphan (List.mem_of_getElem? horphan)
    obtain ⟨hsound, horigin, hgeneration, ⟨wire, hwire⟩, hextends⟩ :=
      h.resumeEmptyPair ok (fun o ho hsocket => by
        rcases hdetached with hnone | ⟨_, hother⟩
        · rw [hnone] at ho
          cases ho
        · rw [hother] at hsocket
          cases hsocket)
    refine ⟨{ hsound with orphans := ?_ }, hextends.trans (Extends.of_eq rfl id)⟩
    intro task htask
    rcases List.mem_or_eq_of_mem_set htask with hmem | rfl
    · exact hsound.orphans task hmem
    · have hsocket := congrArg RelayClient.socket hwire
      have hgenerations := congrArg RelayClient.generations hwire
      exact hdetached.congr horigin hgeneration hsocket hgenerations
  · exact ⟨h, Extends.refl s⟩

/-! ## Events -/

/-- A new socket is not one that any task holds. -/
theorem Sound.connect (h : s.Sound options) (created : Bool) :
    (s.connect created).Sound options := by
  unfold RelayClient.connect
  split
  · exact h
  refine { h with socket := ?_, orphans := ?_, push := ?_ }
  · intro socket hsocket
    cases hsocket
    exact Nat.lt_succ_self _
  · intro task htask
    rcases h.orphans task htask with hnone | ⟨hgeneration, -⟩
    · exact .inl hnone
    · refine .inr ⟨Nat.lt_succ_of_lt hgeneration, ?_⟩
      exact decide_eq_false (Nat.ne_of_gt hgeneration)
  · intro point hpoint
    have := h.push point hpoint
    cases point with
    | capabilities run handed => exact ⟨this.1, this.2.1, Nat.lt_succ_of_lt this.2.2⟩
    | levels run handed => trivial
    | withdrawing task requeue => exact ⟨this.1, Nat.lt_succ_of_lt this.2⟩
    | returned => trivial

theorem connect_extends (created : Bool) (s : RelayClient) : s.Extends (s.connect created) := by
  unfold connect
  split
  · exact Extends.refl s
  · exact Extends.of_eq rfl id

theorem Sound.readyState (h : s.Sound options) (isOpen : Bool) :
    (s.readyState isOpen).Sound options := by
  have hsocket : ∀ generation,
      (s.readyState isOpen).onSocket generation = s.onSocket generation := by
    intro generation
    unfold RelayClient.onSocket RelayClient.readyState
    cases s.socket <;> rfl
  refine { h with socket := ?_, orphans := ?_, push := ?_ }
  · intro socket hsome
    obtain ⟨old, hold, rfl⟩ := Option.map_eq_some_iff.mp hsome
    exact h.socket old hold
  · intro task htask
    rcases h.orphans task htask with hnone | ⟨hgeneration, hother⟩
    · exact .inl hnone
    · exact .inr ⟨hgeneration, (hsocket _).trans hother⟩
  · intro point hpoint
    have := h.push point hpoint
    cases point <;> exact this

/-- The source changes and the clock moves on: what is captured was derived no later. -/
theorem Sound.source (h : s.Sound options) (input : LadderInput)
    (hclock : s.input.nowMs ≤ input.nowMs) : { s with input }.Sound options := by
  refine { h with push := ?_ }
  intro point hpoint
  have := h.push point hpoint
  cases point with
  | capabilities run handed =>
    obtain ⟨⟨input₀, hle, hderived⟩, hrest⟩ := this
    exact ⟨⟨input₀, le_trans hle hclock, hderived⟩, hrest⟩
  | levels run handed => trivial
  | withdrawing task requeue => exact this
  | returned => trivial

/-- **Every event** keeps the invariant and only adds to the wire. -/
theorem Sound.handle (h : s.Sound options) (event : RelayEvent) :
    (s.handle options event).Sound options ∧ s.Extends (s.handle options event) := by
  cases event with
  | source input => exact ⟨h.source _ (Int.le_max_left _ _), Extends.of_eq rfl id⟩
  | connect created => exact ⟨h.connect created, connect_extends created s⟩
  | readyState isOpen => exact ⟨h.readyState isOpen, Extends.of_eq rfl id⟩
  | opened reading =>
    unfold RelayClient.handle RelayClient.opened
    simp only
    split
    · obtain ⟨hsound, hmore⟩ := (h.readyState true).requestPush reading
      exact ⟨hsound, Extends.trans (Extends.of_eq rfl id) hmore⟩
    · exact ⟨h, Extends.refl s⟩
  | closed => exact ⟨h.handleClosed, Extends.of_eq rfl id⟩
  | tick reading =>
    unfold RelayClient.handle RelayClient.tick
    simp only
    split
    · exact ⟨h, Extends.refl s⟩
    · exact h.requestPush reading
  | push reading => exact h.requestPush reading
  | resumePush ok reading => exact h.resumePush ok reading
  | resumePushTask ok => exact h.resumePushTask ok
  | pushDeadline => exact h.pushDeadline
  | resumeOrphan index ok => exact h.resumeOrphan index ok
  | withdraw => exact h.withdraw
  | resumeWithdraw => exact h.resumeWithdraw
  | resumeWithdrawTask ok => exact h.resumeWithdrawTask ok
  | stop =>
    obtain ⟨hsound, hmore⟩ := h.withdraw
    exact ⟨{ hsound with }, hmore.trans (Extends.of_eq rfl id)⟩
  | resumeStop =>
    unfold RelayClient.handle RelayClient.resumeStop
    simp only
    split
    · exact ⟨h.handleClosed, Extends.of_eq rfl id⟩
    · exact ⟨h, Extends.refl s⟩

end RelayClient

end ZswapKernel
