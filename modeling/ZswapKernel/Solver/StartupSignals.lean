import ZswapKernel.Lib.Traces
import ZswapKernel.SolverCore.Text

/-!
# Signals while the solver starts

`startWithSignalOwnership` (`startup-signals.ts`). The promises of the call are facts of the state
(`acquisition`, `readiness`, `graceExpired`, what `stop()` gave); each continuation after an `await`
is one event, which takes any settled promise of its race. The signal listener is one event too.
The sources of signals do not throw.

Results:
* `Startup.Held`: what each phase of the call owns.
* `held_step`: one event keeps it.
* `startup_stops_once`: every handle is stopped once or returned before any signal; the signal is
  reported once; the listeners go; later signals escalate.
-/

namespace ZswapKernel

/-- `SolverShutdownSignal`. -/
inductive ShutdownSignal
  | sigint
  | sigterm
  deriving DecidableEq, Repr

def ShutdownSignal.name : ShutdownSignal → String
  | .sigint => "SIGINT"
  | .sigterm => "SIGTERM"

/-- What a promise was rejected with; `none` is `undefined`. -/
abbrev Reason := Option String

/-- `stopPromise`: unset, queued behind a microtask, called, settled. -/
inductive StopCall
  | unset
  | queued
  | called
  | settled (outcome : Except Reason Unit)

/-- `signalCompletion`. -/
inductive SignalCompletion
  | unset
  | stopping (signal : ShutdownSignal)
  | completed
  deriving DecidableEq, Repr

/-- The observer of a handle that arrives after the grace. -/
inductive LateObserver
  | absent
  | observing
  | ran
  deriving DecidableEq, Repr

/-- What the call throws. -/
inductive StartupError
  | single (error : Reason)
  | aggregate (startupError stopError : Reason) (message : String)
  deriving DecidableEq, Repr

/-- Where the call stands. -/
inductive StartupPhase (T : Type)
  /-- The race of acquisition and signal. -/
  | acquiring
  /-- The race of acquisition and the grace timer. -/
  | grace
  /-- The race of readiness and signal. -/
  | readying
  /-- `await completeSignal(…)`. -/
  | completing
  /-- `await stopOnce()` of the `catch`. -/
  | failing (error : Reason)
  | returned (handle : Option T)
  | threw (error : StartupError)

structure Startup (T : Type) where
  graceMs : Nat := 5000
  requestedSignal : Option ShutdownSignal := none
  /-- `acquisitionOwner.signal.reason`. -/
  abortReason : Option String := none
  listenersRemoved : Bool := false
  startupPending : Bool := true
  handle : Option T := none
  stopPromise : StopCall := .unset
  signalCompletion : SignalCompletion := .unset
  lateObserver : LateObserver := .absent
  acquisition : Option (Except Reason T) := none
  readiness : Option (Except Reason Unit) := none
  graceExpired : Bool := false
  phase : StartupPhase T := .acquiring
  /-- The handles whose `stop` was called. -/
  stops : List T := []
  /-- The calls of `onSignalHandled`. -/
  handled : List (ShutdownSignal × Reason) := []
  /-- The calls of `onSecondSignal`. -/
  escalated : List ShutdownSignal := []

inductive StartupEvent (T : Type)
  | signal (signal : ShutdownSignal)
  | acquisitionSettles (outcome : Except Reason T)
  | readinessSettles (outcome : Except Reason Unit)
  | graceExpires
  | stopSettles (outcome : Except Reason Unit)
  | acquisitionResumes (bySignal : Bool)
  | graceResumes (byTimer : Bool)
  | readinessResumes (bySignal : Bool)
  | callStop
  | lateObserves
  | completionResumes
  | callReturns
  | cleanupResumes

/-- The event is a continuation of the call, not something from outside. -/
def StartupEvent.Internal {T : Type} : StartupEvent T → Prop
  | .signal _ | .acquisitionSettles _ | .readinessSettles _ => False
  | .graceExpires | .stopSettles _ => False
  | _ => True

namespace Startup

variable {T : Type} (startup : Startup T)

/-- `removeListeners`. -/
def removeListeners : Startup T := { startup with listenersRemoved := true }

/-- `stopOnce`. Its callers have a handle. -/
def stopOnce : Startup T :=
  match startup.handle, startup.stopPromise with
  | some _, .unset => { startup with stopPromise := .queued }
  | _, _ => startup

/-- `completeSignal` up to its `await`. -/
def completeSignal (signal : ShutdownSignal) : Startup T :=
  match startup.signalCompletion with
  | .unset => { startup.stopOnce with signalCompletion := .stopping signal }
  | _ => startup

/-- The branches that end in `await completeSignal(…); return undefined`. -/
def complete (signal : ShutdownSignal) : Startup T :=
  { { startup with startupPending := false }.completeSignal signal with phase := .completing }

/-- The branch that reports a signal without a handle. -/
def report (signal : ShutdownSignal) (stopError : Reason) : Startup T :=
  { { startup with startupPending := false }.removeListeners with
    handled := startup.handled ++ [(signal, stopError)], phase := .returned none }

/-- The `catch`. -/
def fail (error : Reason) : Startup T :=
  let failed := { startup with startupPending := false }.removeListeners
  match failed.handle with
  | some _ => { failed.stopOnce with phase := .failing error }
  | none => { failed with phase := .threw (.single error) }

/-- The listener. -/
def onSignal (signal : ShutdownSignal) : Startup T :=
  match startup.requestedSignal with
  | some _ => { startup with escalated := startup.escalated ++ [signal] }
  | none =>
    let requested := { startup with
      requestedSignal := some signal,
      abortReason := some s!"solver startup cancelled by {signal.name}" }
    match startup.handle with
    | none => requested
    | some _ =>
      if startup.startupPending then requested.stopOnce else requested.completeSignal signal

def graceError : Reason := some s!"solver acquisition did not stop within {startup.graceMs} ms"

/-- The error of the `catch` after its stop. -/
def cleanupError (error : Reason) : Except Reason Unit → StartupError
  | .ok () => .single error
  | .error stopError =>
    .aggregate error stopError "solver startup failed and acquired-handle cleanup also failed"

/-- `stopError` of a settled stop. -/
def stopError : Except Reason Unit → Reason
  | .ok () => none
  | .error reason => reason

/-- One event, or `none` where it cannot happen. -/
def step : StartupEvent T → Option (Startup T)
  | .signal signal => if startup.listenersRemoved then none else some (startup.onSignal signal)
  | .acquisitionSettles outcome =>
    match startup.acquisition with
    | none => some { startup with acquisition := some outcome }
    | some _ => none
  | .readinessSettles outcome =>
    match startup.readiness with
    | none => some { startup with readiness := some outcome }
    | some _ => none
  | .graceExpires =>
    match startup.phase with
    | .grace => some { startup with graceExpired := true }
    | _ => none
  | .stopSettles outcome =>
    match startup.stopPromise with
    | .called => some { startup with stopPromise := .settled outcome }
    | _ => none
  | .acquisitionResumes true =>
    match startup.phase, startup.requestedSignal with
    | .acquiring, some _ => some { startup with phase := .grace }
    | _, _ => none
  | .acquisitionResumes false =>
    match startup.phase, startup.acquisition with
    | .acquiring, some (.error error) => some (startup.fail error)
    | .acquiring, some (.ok handle) =>
      let acquired := { startup with handle := some handle }
      match startup.requestedSignal with
      | some signal => some (acquired.complete signal)
      | none => some { acquired with phase := .readying }
    | _, _ => none
  | .graceResumes true =>
    match startup.phase, startup.requestedSignal, startup.graceExpired with
    | .grace, some signal, true =>
      some ({ startup with lateObserver := .observing }.report signal startup.graceError)
    | _, _, _ => none
  | .graceResumes false =>
    match startup.phase, startup.requestedSignal, startup.acquisition with
    | .grace, some signal, some (.ok handle) =>
      some ({ startup with handle := some handle }.complete signal)
    | .grace, some signal, some (.error _) => some (startup.report signal none)
    | _, _, _ => none
  | .readinessResumes true =>
    match startup.phase, startup.requestedSignal with
    | .readying, some signal => some (startup.complete signal)
    | _, _ => none
  | .readinessResumes false =>
    match startup.phase, startup.readiness with
    | .readying, some (.error error) => some (startup.fail error)
    | .readying, some (.ok ()) =>
      match startup.requestedSignal with
      | some signal => some (startup.complete signal)
      | none => some { startup with startupPending := false, phase := .returned startup.handle }
    | _, _ => none
  | .callStop =>
    match startup.stopPromise, startup.handle with
    | .queued, some handle =>
      some { startup with stopPromise := .called, stops := startup.stops ++ [handle] }
    | _, _ => none
  | .lateObserves =>
    match startup.lateObserver, startup.acquisition with
    | .observing, some (.ok handle) =>
      some { startup with lateObserver := .ran, stops := startup.stops ++ [handle] }
    | .observing, some (.error _) => some { startup with lateObserver := .ran }
    | _, _ => none
  | .completionResumes =>
    match startup.signalCompletion, startup.stopPromise with
    | .stopping signal, .settled outcome =>
      some { startup.removeListeners with
        handled := startup.handled ++ [(signal, stopError outcome)],
        signalCompletion := .completed }
    | _, _ => none
  | .callReturns =>
    match startup.phase, startup.signalCompletion with
    | .completing, .completed => some { startup with phase := .returned none }
    | _, _ => none
  | .cleanupResumes =>
    match startup.phase, startup.stopPromise with
    | .failing error, .settled outcome =>
      some { startup with phase := .threw (cleanupError error outcome) }
    | _, _ => none

end Startup

/-- `startWithSignalOwnership` up to its first `await`: the grace is checked before the listeners
are installed. `graceMs` is the number where it is an integer, `text` as it prints. -/
def startWithSignalOwnership (T : Type) (graceMs : Option Int) (text : String) :
    Except String (Startup T) :=
  match graceMs with
  | some ms =>
    if 0 < ms ∧ ms ≤ 9007199254740991 then .ok { graceMs := ms.toNat }
    else .error s!"acquisitionShutdownGraceMs must be a positive safe integer, got {text}"
  | none => .error s!"acquisitionShutdownGraceMs must be a positive safe integer, got {text}"

namespace Startup

variable {T : Type}

/-! ## What each phase owns -/

/-- **What holds in every state of the call.** -/
structure Held (s : Startup T) : Prop where
  owned : ∀ h, s.handle = some h → s.acquisition = some (.ok h) ∧ s.lateObserver = .absent
  unowned : s.handle = none → s.stopPromise = .unset ∧ s.signalCompletion = .unset
  uncalled : s.stopPromise = .unset ∨ s.stopPromise = .queued → s.lateObserver ≠ .ran →
    s.stops = []
  called : ∀ h, s.handle = some h → s.stopPromise ≠ .unset → s.stopPromise ≠ .queued →
    s.stops = [h]
  /-- A late handle is nobody's. -/
  late : s.lateObserver ≠ .absent → s.phase = .returned none ∧ s.handle = none
  lateRan : s.lateObserver = .ran → (∃ h, s.acquisition = some (.ok h) ∧ s.stops = [h]) ∨
    ∃ error, s.acquisition = some (.error error) ∧ s.stops = []
  unhandled : s.signalCompletion ≠ .completed → s.handled = [] ∨
    s.phase = .returned none ∧ s.handle = none ∧ s.handled.length = 1
  stopping : s.signalCompletion ≠ .unset → s.stopPromise ≠ .unset ∧ s.startupPending = false ∧
    s.requestedSignal ≠ none
  completed : s.signalCompletion = .completed → (∃ outcome, s.stopPromise = .settled outcome) ∧
    s.handled.length = 1 ∧ s.listenersRemoved = true
  acquiring : s.phase = .acquiring → s.handle = none ∧ s.startupPending = true ∧
    s.listenersRemoved = false
  grace : s.phase = .grace → s.handle = none ∧ s.startupPending = true ∧
    s.listenersRemoved = false ∧ s.requestedSignal ≠ none
  readying : s.phase = .readying → s.handle ≠ none ∧ s.startupPending = true ∧
    s.listenersRemoved = false ∧ (s.requestedSignal = none → s.stopPromise = .unset)
  completing : s.phase = .completing → s.handle ≠ none ∧ s.signalCompletion ≠ .unset
  failing : ∀ error, s.phase = .failing error → s.handle ≠ none ∧ s.stopPromise ≠ .unset ∧
    s.signalCompletion = .unset ∧ s.listenersRemoved = true
  returnedNone : s.phase = .returned none → s.requestedSignal ≠ none ∧
    s.listenersRemoved = true ∧ (s.handle ≠ none → s.signalCompletion = .completed) ∧
    (s.handle = none → s.handled.length = 1 ∧
      (s.lateObserver = .absent → ∃ error, s.acquisition = some (.error error)))
  returnedLive : ∀ h, s.phase = .returned (some h) → s.handle = some h ∧
    s.startupPending = false ∧ (s.requestedSignal ≠ none → s.signalCompletion ≠ .unset) ∧
    (s.requestedSignal = none → s.listenersRemoved = false ∧ s.stopPromise = .unset)
  threw : ∀ error, s.phase = .threw error → s.listenersRemoved = true ∧
    s.signalCompletion = .unset ∧
    (s.handle ≠ none → ∃ outcome, s.stopPromise = .settled outcome) ∧
    (s.handle = none → ∃ error, s.acquisition = some (.error error))

variable {s s' : Startup T} {event : StartupEvent T}

theorem Held.start (graceMs : Nat) : Held ({ graceMs } : Startup T) := by
  constructor <;> simp

theorem held_signal {signal : ShutdownSignal} (h : Held s)
    (hstep : s.step (.signal signal) = some s') : Held s' := by
  simp only [step] at hstep
  split at hstep
  · cases hstep
  · rw [← Option.some.inj hstep]
    obtain ⟨⟩ := h
    unfold onSignal completeSignal
    constructor <;> grind [stopOnce]

theorem Held.acquisitionSettles {outcome : Except Reason T} (h : Held s)
    (hnone : s.acquisition = none) : Held { s with acquisition := some outcome } := by
  obtain ⟨⟩ := h
  constructor <;> grind

theorem Held.completes (h : Held s) {handle : T} (hacquired : s.acquisition = some (.ok handle))
    (hphase : s.phase = .acquiring ∨ s.phase = .grace ∨
      s.phase = .readying ∧ s.handle = some handle)
    {signal : ShutdownSignal} (hsignal : s.requestedSignal = some signal) :
    Held ({ s with handle := some handle }.complete signal) := by
  obtain ⟨⟩ := h
  unfold complete completeSignal
  constructor <;> grind [stopOnce]

/-- A report without a handle ends the call. -/
theorem Held.reports (h : Held s) (hphase : s.phase = .grace) (signal : ShutdownSignal)
    (stopError : Reason) {late : LateObserver}
    (hlate : late = .observing ∨ late = .absent ∧ ∃ error, s.acquisition = some (.error error)) :
    Held ({ s with lateObserver := late }.report signal stopError) := by
  obtain ⟨⟩ := h
  unfold report removeListeners
  constructor <;> grind

/-- The `catch` stops the handle that was acquired. -/
theorem Held.fails (h : Held s) {error : Reason}
    (hphase : s.phase = .acquiring ∧ (∃ error, s.acquisition = some (.error error)) ∨
      s.phase = .readying) :
    Held (s.fail error) := by
  obtain ⟨⟩ := h
  unfold fail removeListeners
  constructor <;> grind [stopOnce]

/-- Readiness that ends in the report of a signal. -/
theorem Held.completesReady (h : Held s) (hphase : s.phase = .readying) {signal : ShutdownSignal}
    (hsignal : s.requestedSignal = some signal) : Held (s.complete signal) := by
  cases hhandle : s.handle with
  | none => exact absurd hhandle (h.readying hphase).1
  | some handle =>
    have hsame : { s with handle := some handle } = s := by
      rw [← hhandle]
    have := h.completes (h.owned handle hhandle).1 (.inr (.inr ⟨hphase, hhandle⟩)) hsignal
    rwa [hsame] at this

theorem held_acquisitionResumes {bySignal : Bool} (h : Held s)
    (hstep : s.step (.acquisitionResumes bySignal) = some s') : Held s' := by
  cases bySignal with
  | true =>
    simp only [step] at hstep
    split at hstep
    · rw [← Option.some.inj hstep]
      obtain ⟨⟩ := h
      constructor <;> grind
    · cases hstep
  | false =>
    simp only [step] at hstep
    split at hstep
    · rename_i hphase hacquired
      exact Option.some.inj hstep ▸ h.fails (.inl ⟨hphase, _, hacquired⟩)
    · rename_i hphase hacquired
      split at hstep
      · rename_i hsignal
        exact Option.some.inj hstep ▸ h.completes hacquired (.inl hphase) hsignal
      · rw [← Option.some.inj hstep]
        obtain ⟨⟩ := h
        constructor <;> grind
    · cases hstep

theorem held_graceResumes {byTimer : Bool} (h : Held s)
    (hstep : s.step (.graceResumes byTimer) = some s') : Held s' := by
  cases byTimer with
  | true =>
    simp only [step] at hstep
    split at hstep
    · rename_i hphase _ _
      exact Option.some.inj hstep ▸ h.reports hphase _ _ (.inl rfl)
    · cases hstep
  | false =>
    simp only [step] at hstep
    split at hstep
    · rename_i hphase hsignal hacquired
      exact Option.some.inj hstep ▸ h.completes hacquired (.inr (.inl hphase)) hsignal
    · rename_i signal _ hphase _ hacquired
      have hlate : s.lateObserver = .absent := by
        by_contra hlate
        cases hphase.symm.trans (h.late hlate).1
      have := h.reports hphase signal none (.inr ⟨hlate, _, hacquired⟩)
      exact Option.some.inj hstep ▸ this
    · cases hstep

theorem held_readinessResumes {bySignal : Bool} (h : Held s)
    (hstep : s.step (.readinessResumes bySignal) = some s') : Held s' := by
  cases bySignal with
  | true =>
    simp only [step] at hstep
    split at hstep
    · exact Option.some.inj hstep ▸ h.completesReady ‹_› ‹_›
    · cases hstep
  | false =>
    simp only [step] at hstep
    split at hstep
    · rename_i hphase _
      exact Option.some.inj hstep ▸ h.fails (.inr hphase)
    · rename_i hphase _
      split at hstep
      · exact Option.some.inj hstep ▸ h.completesReady hphase ‹_›
      · rw [← Option.some.inj hstep]
        obtain ⟨⟩ := h
        constructor <;> grind
    · cases hstep

theorem held_callStop (h : Held s) (hstep : s.step .callStop = some s') : Held s' := by
  simp only [step] at hstep
  split at hstep
  · rw [← Option.some.inj hstep]
    obtain ⟨⟩ := h
    constructor <;> grind
  · cases hstep

theorem held_lateObserves (h : Held s) (hstep : s.step .lateObserves = some s') : Held s' := by
  simp only [step] at hstep
  split at hstep
  · rw [← Option.some.inj hstep]
    obtain ⟨⟩ := h
    constructor <;> grind
  · rw [← Option.some.inj hstep]
    obtain ⟨⟩ := h
    constructor <;> grind
  · cases hstep

theorem held_completionResumes (h : Held s) (hstep : s.step .completionResumes = some s') :
    Held s' := by
  simp only [step] at hstep
  split at hstep
  · rw [← Option.some.inj hstep]
    obtain ⟨⟩ := h
    unfold removeListeners
    constructor <;> grind
  · cases hstep

/-- The two waits that end the call. -/
theorem held_ends (h : Held s)
    (hstep : s.step .callReturns = some s' ∨ s.step .cleanupResumes = some s') : Held s' := by
  rcases hstep with hstep | hstep <;>
  · simp only [step] at hstep
    split at hstep
    · rw [← Option.some.inj hstep]
      obtain ⟨⟩ := h
      constructor <;> grind
    · cases hstep

/-- **One event keeps what holds.** -/
theorem held_step (h : Held s) (hstep : s.step event = some s') : Held s' := by
  cases event with
  | signal signal => exact held_signal h hstep
  | acquisitionSettles outcome =>
    simp only [step] at hstep
    split at hstep
    · exact Option.some.inj hstep ▸ h.acquisitionSettles ‹_›
    · cases hstep
  | readinessSettles outcome =>
    simp only [step] at hstep
    split at hstep
    · rw [← Option.some.inj hstep]
      exact { h with }
    · cases hstep
  | graceExpires =>
    simp only [step] at hstep
    split at hstep
    · rw [← Option.some.inj hstep]
      exact { h with }
    · cases hstep
  | stopSettles outcome =>
    simp only [step] at hstep
    split at hstep
    · rw [← Option.some.inj hstep]
      obtain ⟨⟩ := h
      constructor <;> grind
    · cases hstep
  | acquisitionResumes bySignal => exact held_acquisitionResumes h hstep
  | graceResumes byTimer => exact held_graceResumes h hstep
  | readinessResumes bySignal => exact held_readinessResumes h hstep
  | callStop => exact held_callStop h hstep
  | lateObserves => exact held_lateObserves h hstep
  | completionResumes => exact held_completionResumes h hstep
  | callReturns => exact held_ends h (.inl hstep)
  | cleanupResumes => exact held_ends h (.inr hstep)

/-! ## Runs -/

/-- The signals delivered so far. -/
def signalsOf (events : List (StartupEvent T)) : List ShutdownSignal :=
  events.filterMap fun
    | .signal signal => some signal
    | _ => none

/-- The two states have seen the same signals. -/
def SameSignals (s t : Startup T) : Prop :=
  t.requestedSignal = s.requestedSignal ∧ t.escalated = s.escalated

theorem sameSignals_complete (signal : ShutdownSignal) : SameSignals s (s.complete signal) := by
  unfold complete completeSignal stopOnce SameSignals
  grind

theorem sameSignals_fail (error : Reason) : SameSignals s (s.fail error) := by
  unfold fail stopOnce removeListeners SameSignals
  grind

/-- Only the listener sees signals. -/
theorem sameSignals_step (hevent : ∀ signal, event ≠ .signal signal)
    (hstep : s.step event = some s') : SameSignals s s' := by
  cases event with
  | signal signal => exact absurd rfl (hevent signal)
  | acquisitionSettles _ | readinessSettles _ | graceExpires | stopSettles _ | callStop
  | lateObserves | completionResumes | callReturns | cleanupResumes =>
    simp only [step] at hstep
    split at hstep <;> cases hstep <;> exact ⟨rfl, rfl⟩
  | acquisitionResumes bySignal =>
    cases bySignal with
    | true =>
      simp only [step] at hstep
      split at hstep <;> cases hstep
      exact ⟨rfl, rfl⟩
    | false =>
      simp only [step] at hstep
      split at hstep
      · exact Option.some.inj hstep ▸ sameSignals_fail _
      · split at hstep
        · exact Option.some.inj hstep ▸ @sameSignals_complete _ { s with handle := _ } _
        · cases hstep
          exact ⟨rfl, rfl⟩
      · cases hstep
  | graceResumes byTimer =>
    cases byTimer with
    | true =>
      simp only [step] at hstep
      split at hstep <;> cases hstep
      exact ⟨rfl, rfl⟩
    | false =>
      simp only [step] at hstep
      split at hstep
      · exact Option.some.inj hstep ▸ @sameSignals_complete _ { s with handle := _ } _
      · cases hstep
        exact ⟨rfl, rfl⟩
      · cases hstep
  | readinessResumes bySignal =>
    cases bySignal with
    | true =>
      simp only [step] at hstep
      split at hstep
      · exact Option.some.inj hstep ▸ sameSignals_complete _
      · cases hstep
    | false =>
      simp only [step] at hstep
      split at hstep
      · exact Option.some.inj hstep ▸ sameSignals_fail _
      · split at hstep
        · exact Option.some.inj hstep ▸ sameSignals_complete _
        · cases hstep
          exact ⟨rfl, rfl⟩
      · cases hstep

/-- The listener owns the first signal and escalates every other. -/
theorem onSignal_signals (signal : ShutdownSignal) :
    (s.onSignal signal).requestedSignal = some (s.requestedSignal.getD signal) ∧
      (s.onSignal signal).escalated =
        s.escalated ++ if s.requestedSignal.isSome then [signal] else [] := by
  unfold onSignal completeSignal stopOnce
  grind

/-- The signals of a run are the one it owns and then the escalated ones, in order. -/
def Seen (events : List (StartupEvent T)) (s : Startup T) : Prop :=
  signalsOf events = s.requestedSignal.toList ++ s.escalated ∧
    (s.requestedSignal = none → s.escalated = [])

theorem seen_step {events : List (StartupEvent T)} (h : Seen events s)
    (hstep : s.step event = some s') : Seen (events ++ [event]) s' := by
  obtain ⟨hsignals, hfirst⟩ := h
  unfold Seen signalsOf
  rw [List.filterMap_append]
  change signalsOf events ++ _ = _ ∧ _
  rw [hsignals]
  by_cases hevent : ∃ signal, event = .signal signal
  · obtain ⟨signal, rfl⟩ := hevent
    simp only [step] at hstep
    split at hstep
    · cases hstep
    · obtain ⟨hrequested, hescalated⟩ := onSignal_signals (s := s) signal
      rw [← Option.some.inj hstep, hrequested, hescalated]
      cases howned : s.requestedSignal with
      | none => simp [hfirst howned]
      | some owned => simp
  · obtain ⟨hrequested, hescalated⟩ := sameSignals_step (fun signal h => hevent ⟨signal, h⟩) hstep
    rw [hrequested, hescalated]
    refine ⟨?_, hfirst⟩
    cases event with
    | signal signal => exact absurd ⟨signal, rfl⟩ hevent
    | _ => exact List.append_nil _

/-- The call has ended. -/
def Exited (s : Startup T) : Prop :=
  match s.phase with
  | .returned _ | .threw _ => True
  | _ => False

/-- No continuation of the call can run. -/
def Quiet (s : Startup T) : Prop := ∀ event : StartupEvent T, event.Internal → s.step event = none

/-- A stop that was asked for is called once nothing is left to run. -/
theorem stops_of_quiet (h : Held s) (hquiet : Quiet s) {handle : T}
    (hhandle : s.handle = some handle) (hasked : s.stopPromise ≠ .unset) : s.stops = [handle] := by
  refine h.called handle hhandle hasked fun hqueued => ?_
  have := hquiet .callStop trivial
  simp only [step] at this
  rw [hqueued, hhandle] at this
  cases this

/-- **An acquired handle is stopped or handed over**, when nothing is left to run. -/
theorem stopped_of_quiet (h : Held s) (hquiet : Quiet s) {handle : T}
    (hacquired : s.acquisition = some (.ok handle))
    (hover : Exited s ∨ s.requestedSignal ≠ none) :
    s.stops = [handle] ∨ s.phase = .returned (some handle) ∧ s.requestedSignal = none := by
  have howner : ∀ own, s.handle = some own → own = handle := fun own hown =>
    Except.ok.inj (Option.some.inj ((h.owned own hown).1.symm.trans hacquired))
  have hfailed : ¬ ∃ error, s.acquisition = some (.error error) := by
    rintro ⟨error, herror⟩
    cases hacquired.symm.trans herror
  have hstopped : s.handle ≠ none → s.stopPromise ≠ .unset → s.stops = [handle] := by
    intro hsome hasked
    obtain ⟨own, hown⟩ := Option.ne_none_iff_exists'.1 hsome
    rw [← howner own hown]
    exact stops_of_quiet h hquiet hown hasked
  -- the waits that a settled acquisition or a signal would end are not quiet
  cases hphase : s.phase with
  | acquiring =>
    have := hquiet (.acquisitionResumes false) trivial
    simp only [step] at this
    rw [hphase, hacquired] at this
    cases hsignal : s.requestedSignal <;> simp only [hsignal] at this <;> cases this
  | grace =>
    have := hquiet (.graceResumes false) trivial
    obtain ⟨signal, hsignal⟩ := Option.ne_none_iff_exists'.1 (h.grace hphase).2.2.2
    simp only [step] at this
    rw [hphase, hsignal, hacquired] at this
    cases this
  | readying =>
    rcases hover with hover | hsignal
    · unfold Exited at hover
      rw [hphase] at hover
      exact hover.elim
    · have := hquiet (.readinessResumes true) trivial
      obtain ⟨signal, hsignal⟩ := Option.ne_none_iff_exists'.1 hsignal
      simp only [step] at this
      rw [hphase, hsignal] at this
      cases this
  | completing =>
    obtain ⟨hsome, hcompletion⟩ := h.completing hphase
    exact .inl (hstopped hsome (h.stopping hcompletion).1)
  | failing error =>
    obtain ⟨hsome, hasked, -, -⟩ := h.failing error hphase
    exact .inl (hstopped hsome hasked)
  | returned result =>
    cases result with
    | some own =>
      obtain ⟨hown, -, hsignal, -⟩ := h.returnedLive own hphase
      by_cases hnone : s.requestedSignal = none
      · exact .inr ⟨by rw [howner own hown], hnone⟩
      · refine .inl (hstopped ?_ (h.stopping (hsignal hnone)).1)
        rw [hown]
        exact Option.some_ne_none _
    | none =>
      obtain ⟨-, -, hown, hlate⟩ := h.returnedNone hphase
      by_cases hsome : s.handle = none
      · cases hobserver : s.lateObserver with
        | absent => exact absurd ((hlate hsome).2 hobserver) hfailed
        | observing =>
          have := hquiet .lateObserves trivial
          simp only [step] at this
          rw [hobserver, hacquired] at this
          cases this
        | ran =>
          rcases h.lateRan hobserver with ⟨own, hown, hstops⟩ | ⟨error, herror, -⟩
          · cases hacquired.symm.trans hown
            exact .inl hstops
          · exact absurd ⟨error, herror⟩ hfailed
      · exact .inl (hstopped hsome (h.stopping (by rw [hown hsome]; nofun)).1)
  | threw error =>
    obtain ⟨-, -, hsettled, hnone⟩ := h.threw error hphase
    by_cases hsome : s.handle = none
    · exact absurd (hnone hsome) hfailed
    · obtain ⟨outcome, houtcome⟩ := hsettled hsome
      exact .inl (hstopped hsome (by rw [houtcome]; nofun))

/-- A handle is handed over only while no signal has been received. -/
theorem returned_live (hstep : s.step event = some s') (hexit : ¬ Exited s) {handle : T}
    (hreturned : s'.phase = .returned (some handle)) : s'.requestedSignal = none := by
  have hmoved : s'.phase ≠ s.phase := by
    intro hsame
    refine hexit ?_
    unfold Exited
    rw [← hsame, hreturned]
    trivial
  cases event with
  | signal signal =>
    simp only [step] at hstep
    split at hstep
    · cases hstep
    · refine absurd ?_ hmoved
      rw [← Option.some.inj hstep]
      unfold onSignal completeSignal stopOnce
      grind
  | acquisitionSettles _ | readinessSettles _ | graceExpires | stopSettles _ | callStop
  | lateObserves | completionResumes =>
    simp only [step] at hstep
    split at hstep <;> cases hstep <;> exact absurd rfl hmoved
  | callReturns | cleanupResumes =>
    simp only [step] at hstep
    split at hstep <;> cases hstep
    cases hreturned
  | acquisitionResumes bySignal =>
    cases bySignal <;>
    · simp only [step] at hstep
      grind [complete, fail]
  | graceResumes byTimer =>
    cases byTimer <;>
    · simp only [step] at hstep
      grind [complete, report]
  | readinessResumes bySignal =>
    cases bySignal <;>
    · simp only [step] at hstep
      grind [complete, fail]

/-- A handle is stopped at most once, by the call or by the observer of a late one. -/
theorem stops_le (h : Held s) :
    s.stops = [] ∨ ∃ handle, s.acquisition = some (.ok handle) ∧ s.stops = [handle] := by
  by_cases hran : s.lateObserver = .ran
  · rcases h.lateRan hran with hlate | ⟨-, -, hnone⟩
    · exact .inr hlate
    · exact .inl hnone
  · by_cases hcalled : s.stopPromise = .unset ∨ s.stopPromise = .queued
    · exact .inl (h.uncalled hcalled hran)
    · rw [not_or] at hcalled
      cases hhandle : s.handle with
      | none => exact absurd (h.unowned hhandle).1 hcalled.1
      | some handle =>
        exact .inr ⟨handle, (h.owned handle hhandle).1,
          h.called handle hhandle hcalled.1 hcalled.2⟩

theorem handled_le (h : Held s) : s.handled.length ≤ 1 := by
  by_cases hcompleted : s.signalCompletion = .completed
  · exact (h.completed hcompleted).2.1.le
  · rcases h.unhandled hcompleted with hnone | ⟨-, -, hone⟩
    · rw [hnone]
      exact Nat.zero_le 1
    · exact hone.le

theorem held_of_trace {graceMs : Option Int} {text : String} {start : Startup T}
    {events : List (StartupEvent T)} (hstart : startWithSignalOwnership T graceMs text = .ok start)
    (hrun : Trace step start events s) : Held s ∧ Seen events s := by
  obtain ⟨ms, rfl⟩ : ∃ ms : Nat, start = { graceMs := ms } := by
    unfold startWithSignalOwnership at hstart
    split at hstart
    · split at hstart
      · exact ⟨_, (Except.ok.inj hstart).symm⟩
      · cases hstart
    · cases hstart
  exact ⟨hrun.invariant (.start ms) fun _ _ _ => held_step,
    hrun.traced ⟨rfl, fun _ => rfl⟩ fun _ _ _ _ _ => seen_step⟩

/-- **Signal ownership.** Whatever the order in which acquisition and readiness settle, the grace
expires and signals arrive: no handle is stopped twice; once nothing of a call that has ended or was
signalled is left to run, the handle acquired was stopped, or it was handed over and no signal has
come; a handle is handed over only before any signal; the signal is reported at most once, and once
if the call returns `undefined`; the listeners are gone on every other exit; and the signals after
the first are the escalated ones. -/
theorem startup_stops_once {graceMs : Option Int} {text : String} {start s : Startup T}
    {events : List (StartupEvent T)} (hstart : startWithSignalOwnership T graceMs text = .ok start)
    (hrun : Trace step start events s) :
    (s.stops = [] ∨ ∃ handle, s.acquisition = some (.ok handle) ∧ s.stops = [handle]) ∧
      (Quiet s → ∀ handle, s.acquisition = some (.ok handle) →
        Exited s ∨ s.requestedSignal ≠ none →
          s.stops = [handle] ∨ s.phase = .returned (some handle) ∧ s.requestedSignal = none) ∧
      (∀ event s' handle, s.step event = some s' → ¬ Exited s →
        s'.phase = .returned (some handle) → s'.requestedSignal = none) ∧
      s.handled.length ≤ 1 ∧ (s.phase = .returned none → s.handled.length = 1) ∧
      (Exited s → (∀ handle, s.phase ≠ .returned (some handle)) → s.listenersRemoved = true) ∧
      signalsOf events = s.requestedSignal.toList ++ s.escalated := by
  obtain ⟨h, hseen, -⟩ := held_of_trace hstart hrun
  refine ⟨stops_le h, fun hquiet handle => stopped_of_quiet h hquiet,
    fun _ _ _ hstep hexit => returned_live hstep hexit, handled_le h, fun hreturned => ?_,
    fun hexit hlive => ?_, hseen⟩
  · obtain ⟨-, -, hown, hnone⟩ := h.returnedNone hreturned
    by_cases hhandle : s.handle = none
    · exact (hnone hhandle).1
    · exact (h.completed (hown hhandle)).2.1
  · unfold Exited at hexit
    cases hphase : s.phase with
    | returned result =>
      cases result with
      | none => exact (h.returnedNone hphase).2.1
      | some handle => exact absurd hphase (hlive handle)
    | threw error => exact (h.threw error hphase).1
    | _ => rw [hphase] at hexit; exact hexit.elim

/-- A handle that arrives after the grace, when the call has reported the signal and returned. -/
def lateAcquisition : List (StartupEvent Nat) :=
  [.signal .sigterm, .acquisitionResumes true, .graceExpires, .graceResumes true,
    .acquisitionSettles (.ok 7), .lateObserves]

theorem startup_stops_once_late :
    ∃ start s : Startup Nat, startWithSignalOwnership Nat (some 10) "10" = .ok start ∧
      runEvents step start lateAcquisition = some s ∧ s.stops = [7] ∧ s.handled.length ≤ 1 := by
  have hrun : (runEvents step ({ graceMs := 10 } : Startup Nat) lateAcquisition).map (·.stops) =
      some [7] := rfl
  obtain ⟨s, hrun, hstops⟩ := Option.map_eq_some_iff.1 hrun
  have hstart : startWithSignalOwnership Nat (some 10) "10" = .ok { graceMs := 10 } := rfl
  exact ⟨_, s, hstart, hrun, hstops,
    (startup_stops_once hstart (Trace.of_runEvents hrun)).2.2.2.1⟩

end Startup

end ZswapKernel
