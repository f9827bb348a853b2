import Mathlib.Algebra.Order.Ring.Rat
import Mathlib.Data.List.Sort
import ZswapKernel.Lib.Traces

/-!
# The tick scheduler of the poster

`PosterScheduler` (`poster-scheduler.ts`) on an event loop: calls of `start`, `stop` and `runOnce`,
timers that fire when they are due, ticks that end, and the continuations in between. Timers and
time wait for the continuations that are queued. The log texts are left out.

A `start` after a `stop` arms a timer although the cycle of the running tick will arm one too. A
tick of `runOnce` is not what `stop` waits for, and a timer that finds one running loses its turn.
`Orderly` names the calls that do none of this.

Results:
* `ticks_never_overlap`, `counted_ticks`: of every run.
* `Sound`: what holds in every state of an orderly run.
* `poster_scheduling`: an orderly run has one timer chain, its cadence, and stops that wait.
-/

namespace ZswapKernel

namespace PosterScheduler

inductive TickMode
  | inventory
  | reoffer
  | degraded
  | idle
  deriving DecidableEq, Repr

/-- What one tick did. -/
structure TickOutcome where
  ok : Bool
  mode : TickMode
  offerId : Option String := none
  nonce : Option String := none
  inventoryAdopted : Bool := false
  failure : Option String := none
  error : Option String := none
  deriving DecidableEq, Repr

structure SchedulerStats where
  /-- Ticks that have started. -/
  ticks : Nat := 0
  inventoryAdoptions : Nat := 0
  reoffers : Nat := 0
  degraded : Nat := 0
  success : Nat := 0
  failure : Nat := 0
  overruns : Nat := 0
  consecutiveFailures : Nat := 0
  startedAt : ℚ
  lastTickAt : Option ℚ := none
  lastTickMs : Option ℚ := none
  lastMode : Option TickMode := none
  lastOfferId : Option String := none
  lastError : Option String := none
  lastFailure : Option String := none
  p95TickMs : Option ℚ := none
  p50TickMs : Option ℚ := none

/-- Nearest-rank percentile over a sorted copy. -/
def percentile (values : List ℚ) (p : ℚ) : Option ℚ :=
  if values = [] then none
  else
    let sorted := values.insertionSort (· ≤ ·)
    let rank := (p / 100 * sorted.length).ceil
    sorted[(min (sorted.length - 1 : Int) (max 0 (rank - 1))).toNat]?

/-- A timer that is armed. -/
structure ArmedTimer where
  id : Nat
  due : ℚ
  deriving DecidableEq, Repr

/-- A call of `#cycle`: its tick runs, or has settled and the continuation is queued. -/
structure Cycle where
  id : Nat
  startedAt : ℚ
  settled : Bool
  deriving DecidableEq, Repr

/-- A call of `tick()` that has not ended, of a cycle or of `runOnce`. -/
structure RunningTick where
  owner : Option Nat
  startedAt : ℚ
  deriving DecidableEq, Repr

/-- The last tick that a timer started since `start()`. -/
structure ScheduledTick where
  start : ℚ
  finish : Option ℚ
  deriving DecidableEq, Repr

end PosterScheduler

open PosterScheduler

structure PosterScheduler where
  intervalMs : ℚ
  window : Nat := 100
  durations : List ℚ := []
  /-- The timer of `#handle`. -/
  handle : Option Nat := none
  running : Bool := false
  stopped : Bool := true
  /-- The cycle of `#inFlight`. -/
  inFlight : Option Nat := none
  stats : SchedulerStats
  /-- The clock of the event loop. -/
  now : ℚ
  timers : List ArmedTimer := []
  cycles : List Cycle := []
  ticks : List RunningTick := []
  /-- The cycles that unresolved calls of `stop()` wait for. -/
  stops : List Nat := []
  nextId : Nat := 0
  /-- History: what the cadence is about. -/
  lastScheduled : Option ScheduledTick := none

namespace PosterScheduler

inductive SchedulerEvent
  | start
  | stop
  | runOnce
  | fire (timer : Nat)
  | tickEnds (owner : Option Nat) (result : Except String TickOutcome)
  | cycleResumes (id : Nat)
  | stopResolves (id : Nat)
  | advance (now : ℚ)

variable (s : PosterScheduler)

/-- `#arm`. -/
def arm (delayMs : ℚ) : PosterScheduler :=
  if s.stopped then s
  else { s with
    handle := some s.nextId
    timers := s.timers ++ [⟨s.nextId, s.now + delayMs⟩]
    nextId := s.nextId + 1 }

def start : PosterScheduler :=
  if s.stopped then
    { s with
      stopped := false, stats := { s.stats with startedAt := s.now },
      lastScheduled := none }.arm 0
  else s

/-- `stop()` up to its `await`. -/
def stop : PosterScheduler :=
  { s with
    stopped := true
    timers := s.timers.filter fun timer => s.handle ≠ some timer.id
    handle := none
    stops := s.stops ++ s.inFlight.toList }

/-- `#runTick` up to its `await`; where a tick runs it throws. -/
def runTick (owner : Option Nat) : PosterScheduler :=
  if s.running then s
  else { s with
    running := true
    stats := { s.stats with ticks := s.stats.ticks + 1 }
    ticks := s.ticks ++ [⟨owner, s.now⟩] }

/-- `#cycle` up to its `await`: a tick that is refused settles at once. -/
def cycle : PosterScheduler :=
  let id := s.nextId
  { s.runTick (some id) with
    nextId := id + 1
    cycles := s.cycles ++ [⟨id, s.now, s.running⟩]
    inFlight := some id
    lastScheduled := if s.running then s.lastScheduled else some ⟨s.now, none⟩ }

/-- The outcome of a tick that throws. -/
def outcomeOf : Except String TickOutcome → TickOutcome
  | .ok outcome => outcome
  | .error message => ⟨false, .degraded, none, none, false, some "tick_threw", some message⟩

/-- The rest of `#runTick`. -/
def count (tick : RunningTick) (outcome : TickOutcome) : PosterScheduler :=
  let elapsed := max 0 (s.now - tick.startedAt)
  let pushed := s.durations ++ [elapsed]
  let durations := if pushed.length > s.window then pushed.tail else pushed
  { s with
    running := false
    durations
    stats := { s.stats with
      lastTickAt := some tick.startedAt
      lastTickMs := some elapsed
      lastMode := some outcome.mode
      lastError := outcome.error
      lastFailure := outcome.failure
      lastOfferId := outcome.offerId.or s.stats.lastOfferId
      inventoryAdoptions := s.stats.inventoryAdoptions + if outcome.inventoryAdopted then 1 else 0
      reoffers := s.stats.reoffers + if outcome.mode = .reoffer then 1 else 0
      degraded := s.stats.degraded + if outcome.mode = .degraded then 1 else 0
      success := s.stats.success + if outcome.ok then 1 else 0
      failure := s.stats.failure + if outcome.ok then 0 else 1
      consecutiveFailures := if outcome.ok then 0 else s.stats.consecutiveFailures + 1
      p95TickMs := percentile durations 95
      p50TickMs := percentile durations 50 } }

/-- A tick ends: its counts, and the cycle that waits for it settles. -/
def endTick (tick : RunningTick) (result : Except String TickOutcome) : PosterScheduler :=
  { s.count tick (outcomeOf result) with
    ticks := s.ticks.erase tick
    cycles := s.cycles.map fun cycle =>
      if tick.owner = some cycle.id then { cycle with settled := true } else cycle
    lastScheduled :=
      if tick.owner.isSome then s.lastScheduled.map fun last => { last with finish := some s.now }
      else s.lastScheduled }

/-- The rest of `#cycle`. -/
def resume (cycle : Cycle) : PosterScheduler :=
  let resumed := { s with inFlight := none, cycles := s.cycles.erase cycle }
  let dueAt := cycle.startedAt + s.intervalMs
  if s.now ≥ dueAt then
    { resumed with stats := { s.stats with overruns := s.stats.overruns + 1 } }.arm 0
  else resumed.arm (dueAt - s.now)

/-- The tick that the cycle waits for has not settled. -/
def Ticking (id : Nat) : Prop := ∃ cycle ∈ s.cycles, cycle.id = id ∧ cycle.settled = false

instance (id : Nat) : Decidable (s.Ticking id) := by
  unfold Ticking
  infer_instance

/-- No continuation is queued. -/
def Idle : Prop := (∀ cycle ∈ s.cycles, cycle.settled = false) ∧ ∀ id ∈ s.stops, s.Ticking id

instance : Decidable s.Idle := by
  unfold Idle
  infer_instance

/-- One event, or `none` where it cannot happen. -/
def step : SchedulerEvent → Option PosterScheduler
  | .start => some s.start
  | .stop => some s.stop
  | .runOnce => some (s.runTick none)
  | .fire id =>
    (s.timers.find? fun timer => timer.id = id).bind fun timer =>
      if timer.due = s.now ∧ s.Idle then
        some ({ s with handle := none, timers := s.timers.erase timer }.cycle)
      else none
  | .tickEnds owner result =>
    (s.ticks.find? fun tick => tick.owner = owner).map fun tick => s.endTick tick result
  | .cycleResumes id =>
    (s.cycles.find? fun cycle => cycle.id = id ∧ cycle.settled = true).map s.resume
  | .stopResolves id =>
    if id ∈ s.stops ∧ ¬ s.Ticking id then some { s with stops := s.stops.erase id } else none
  | .advance now =>
    if s.now ≤ now ∧ (∀ timer ∈ s.timers, now ≤ timer.due) ∧ s.Idle then some { s with now }
    else none

/-- `new PosterScheduler`. -/
def create (intervalMs : ℚ) (window : Nat) (now : ℚ) : Except String PosterScheduler :=
  if 0 < intervalMs then .ok { intervalMs, window, now, stats := { startedAt := now } }
  else .error "PosterScheduler: intervalMs must be > 0"

/-! ## Every run -/

variable {s} {s' : PosterScheduler} {event : SchedulerEvent}

/-- One tick runs, or none does, as the flag says. -/
def OneTick (s : PosterScheduler) : Prop :=
  s.ticks = [] ∧ s.running = false ∨ ∃ tick, s.ticks = [tick] ∧ s.running = true

theorem arm_ticks (delayMs : ℚ) :
    (s.arm delayMs).ticks = s.ticks ∧ (s.arm delayMs).running = s.running ∧
      (s.arm delayMs).stats = s.stats := by
  unfold arm
  split <;> exact ⟨rfl, rfl, rfl⟩

theorem OneTick.runTick (h : OneTick s) (owner : Option Nat) : OneTick (s.runTick owner) := by
  unfold PosterScheduler.runTick
  rcases h with ⟨hticks, hrunning⟩ | ⟨tick, hticks, hrunning⟩
  · rw [hrunning, if_neg Bool.false_ne_true]
    refine .inr ⟨⟨owner, s.now⟩, ?_, rfl⟩
    rw [hticks, List.nil_append]
  · rw [if_pos hrunning]
    exact .inr ⟨tick, hticks, hrunning⟩

theorem OneTick.endTick (h : OneTick s) {tick : RunningTick} (htick : tick ∈ s.ticks)
    (result : Except String TickOutcome) : OneTick (s.endTick tick result) := by
  rcases h with ⟨hticks, -⟩ | ⟨own, hticks, -⟩
  · rw [hticks] at htick
    exact absurd htick List.not_mem_nil
  · rw [hticks, List.mem_singleton] at htick
    refine .inl ⟨?_, rfl⟩
    unfold PosterScheduler.endTick
    simp only [hticks, htick, List.erase_cons_head]

theorem oneTick_step (h : OneTick s) (hstep : s.step event = some s') : OneTick s' := by
  have hsame : ∀ {t : PosterScheduler}, t.ticks = s.ticks → t.running = s.running → OneTick t := by
    intro t hticks hrunning
    unfold OneTick
    rw [hticks, hrunning]
    exact h
  cases event with
  | start =>
    rw [← Option.some.inj hstep]
    unfold start
    split
    · exact hsame (arm_ticks _).1 (arm_ticks _).2.1
    · exact h
  | stop => exact Option.some.inj hstep ▸ hsame rfl rfl
  | runOnce => exact Option.some.inj hstep ▸ h.runTick none
  | fire id =>
    obtain ⟨timer, -, hfire⟩ := Option.bind_eq_some_iff.1 hstep
    split at hfire
    · rw [← Option.some.inj hfire]
      have hfired : OneTick { s with handle := none, timers := s.timers.erase timer } :=
        hsame rfl rfl
      exact hfired.runTick _
    · cases hfire
  | tickEnds owner result =>
    obtain ⟨tick, htick, rfl⟩ := Option.map_eq_some_iff.1 hstep
    exact h.endTick (List.mem_of_find?_eq_some htick) result
  | cycleResumes id =>
    obtain ⟨cycle, -, rfl⟩ := Option.map_eq_some_iff.1 hstep
    unfold resume
    simp only
    split <;> exact hsame (arm_ticks _).1 (arm_ticks _).2.1
  | stopResolves id =>
    simp only [step] at hstep
    split at hstep
    · exact Option.some.inj hstep ▸ hsame rfl rfl
    · cases hstep
  | advance now =>
    simp only [step] at hstep
    split at hstep
    · exact Option.some.inj hstep ▸ hsame rfl rfl
    · cases hstep

/-- The event ends a tick. -/
def SchedulerEvent.Ends : SchedulerEvent → Prop
  | .tickEnds _ _ => True
  | _ => False

instance : DecidablePred SchedulerEvent.Ends
  | .tickEnds _ _ => isTrue trivial
  | .start | .stop | .runOnce | .fire _ | .cycleResumes _ | .stopResolves _ | .advance _ =>
    isFalse not_false

theorem runTick_counts (owner : Option Nat) :
    (s.runTick owner).stats.success = s.stats.success ∧
      (s.runTick owner).stats.failure = s.stats.failure := by
  unfold runTick
  split <;> exact ⟨rfl, rfl⟩

/-- Only a tick that ends is counted, as one of the two. -/
theorem counts_step (hstep : s.step event = some s') :
    s'.stats.success + s'.stats.failure =
      s.stats.success + s.stats.failure + if event.Ends then 1 else 0 := by
  cases event with
  | start =>
    rw [← Option.some.inj hstep]
    unfold start
    split
    · rw [(arm_ticks _).2.2]
      rfl
    · rfl
  | stop =>
    rw [← Option.some.inj hstep]
    rfl
  | runOnce =>
    rw [← Option.some.inj hstep, (runTick_counts none).1, (runTick_counts none).2]
    rfl
  | fire id =>
    obtain ⟨timer, -, hfire⟩ := Option.bind_eq_some_iff.1 hstep
    split at hfire
    · rw [← Option.some.inj hfire]
      unfold cycle
      simp only
      rw [(runTick_counts _).1, (runTick_counts _).2]
      rfl
    · cases hfire
  | tickEnds owner result =>
    obtain ⟨tick, -, rfl⟩ := Option.map_eq_some_iff.1 hstep
    unfold endTick count
    simp only
    rw [if_pos (show (SchedulerEvent.tickEnds owner result).Ends from trivial)]
    split <;> omega
  | cycleResumes id =>
    obtain ⟨cycle, -, rfl⟩ := Option.map_eq_some_iff.1 hstep
    unfold resume
    simp only
    split <;> rw [(arm_ticks _).2.2] <;> rfl
  | stopResolves id =>
    simp only [step] at hstep
    split at hstep
    · rw [← Option.some.inj hstep]
      rfl
    · cases hstep
  | advance now =>
    simp only [step] at hstep
    split at hstep
    · rw [← Option.some.inj hstep]
      rfl
    · cases hstep

/-- **Of every run**: ticks never overlap, and the finished ones are those counted. -/
theorem counted_ticks {start : PosterScheduler} {events : List SchedulerEvent}
    (hstart : start.ticks = [] ∧ start.running = false)
    (hstats : start.stats.success + start.stats.failure = 0) (hrun : Trace step start events s) :
    s.ticks.length ≤ 1 ∧
      s.stats.success + s.stats.failure = events.countP fun event => event.Ends := by
  constructor
  · have h : OneTick s := hrun.invariant (.inl hstart) fun _ _ _ => oneTick_step
    rcases h with ⟨hticks, -⟩ | ⟨tick, hticks, -⟩
    · rw [hticks]
      exact Nat.zero_le 1
    · rw [hticks]
      exact Nat.le_refl 1
  · refine hrun.traced (p := fun events (t : PosterScheduler) =>
      t.stats.success + t.stats.failure = events.countP fun event => event.Ends) hstats ?_
    intro events t event t' _ h hstep
    rw [counts_step hstep, h, List.countP_append, List.countP_singleton]
    simp only [decide_eq_true_eq]

/-! ## Orderly runs -/

/-- The event does not meet a tick or a cycle that it disregards. -/
def Orderly (s : PosterScheduler) : SchedulerEvent → Prop
  | .start => s.stopped = true → s.cycles = []
  | .stop => ∀ tick ∈ s.ticks, tick.owner ≠ none
  | .runOnce => s.ticks = [] → s.stops = []
  | .fire _ => ∀ tick ∈ s.ticks, tick.owner ≠ none
  | .tickEnds _ _ | .cycleResumes _ | .stopResolves _ | .advance _ => True

instance : DecidablePred s.Orderly
  | .start => inferInstanceAs (Decidable (_ → _))
  | .stop => inferInstanceAs (Decidable (∀ tick ∈ s.ticks, tick.owner ≠ none))
  | .runOnce => inferInstanceAs (Decidable (_ → _))
  | .fire _ => inferInstanceAs (Decidable (∀ tick ∈ s.ticks, tick.owner ≠ none))
  | .tickEnds _ _ | .cycleResumes _ | .stopResolves _ | .advance _ => isTrue trivial

/-- The step of an orderly run. -/
def orderlyStep (s : PosterScheduler) (event : SchedulerEvent) : Option PosterScheduler :=
  if s.Orderly event then s.step event else none

/-- No tick runs but one of `runOnce`, which no stop waits for. -/
def Free (s : PosterScheduler) : Prop :=
  s.ticks = [] ∧ s.running = false ∨
    ∃ startedAt, s.ticks = [⟨none, startedAt⟩] ∧ s.running = true ∧ s.stops = []

/-- **The chain of an orderly run**: none, a timer, a cycle whose tick runs, a cycle that is about
to go on. -/
inductive Sound (s : PosterScheduler) : Prop
  | unchained (timers : s.timers = []) (cycles : s.cycles = []) (inFlight : s.inFlight = none)
    (free : s.Free)
  | armed (timer : ArmedTimer) (timers : s.timers = [timer]) (handle : s.handle = some timer.id)
    (cycles : s.cycles = []) (inFlight : s.inFlight = none) (live : s.stopped = false)
    (due : ∀ last, s.lastScheduled = some last → ∃ finish, last.finish = some finish ∧
      timer.due = max (last.start + s.intervalMs) finish)
    (free : s.Free)
  | ticking (cycle : Cycle) (startedAt : ℚ) (timers : s.timers = []) (cycles : s.cycles = [cycle])
    (inFlight : s.inFlight = some cycle.id) (unsettled : cycle.settled = false)
    (ticks : s.ticks = [⟨some cycle.id, startedAt⟩]) (running : s.running = true)
    (last : s.lastScheduled = some ⟨cycle.startedAt, none⟩)
    (stops : ∀ id ∈ s.stops, id = cycle.id)
  | settled (cycle : Cycle) (timers : s.timers = []) (cycles : s.cycles = [cycle])
    (inFlight : s.inFlight = some cycle.id) (settled : cycle.settled = true)
    (last : s.lastScheduled = some ⟨cycle.startedAt, some s.now⟩) (free : s.Free)

theorem Free.ticks (h : s.Free) (howned : ∀ tick ∈ s.ticks, tick.owner ≠ none) :
    s.ticks = [] ∧ s.running = false := by
  rcases h with hnone | ⟨startedAt, hticks, -, -⟩
  · exact hnone
  · rw [hticks] at howned
    exact absurd rfl (howned _ (List.mem_singleton_self _))

theorem Sound.start (h : Sound s) (horderly : s.Orderly .start) : Sound s.start := by
  unfold PosterScheduler.start
  split
  · rename_i hstopped
    have hcycles := horderly hstopped
    unfold arm
    rw [if_neg (by simp)]
    cases h with
    | unchained timers _ inFlight free =>
      refine .armed ⟨s.nextId, s.now + 0⟩ ?_ rfl hcycles inFlight rfl nofun free
      simp only [timers, List.nil_append]
    | armed _ _ _ _ _ live => rw [live] at hstopped; cases hstopped
    | ticking _ _ _ cycles => rw [cycles] at hcycles; cases hcycles
    | settled _ _ cycles => rw [cycles] at hcycles; cases hcycles
  · exact h

theorem Sound.stop (h : Sound s) (horderly : s.Orderly .stop) : Sound s.stop := by
  cases h with
  | unchained timers cycles inFlight free =>
    refine .unchained ?_ cycles inFlight (.inl (free.ticks horderly))
    unfold PosterScheduler.stop
    simp only [timers, List.filter_nil]
  | armed timer timers handle cycles inFlight live due free =>
    refine .unchained ?_ cycles inFlight (.inl (free.ticks horderly))
    unfold PosterScheduler.stop
    simp [timers, handle]
  | ticking cycle startedAt timers cycles inFlight unsettled ticks running last stops =>
    refine .ticking cycle startedAt ?_ cycles inFlight unsettled ticks running last ?_
    · unfold PosterScheduler.stop
      simp only [timers, List.filter_nil]
    · intro id hid
      unfold PosterScheduler.stop at hid
      rw [inFlight] at hid
      rcases List.mem_append.1 hid with hid | hid
      · exact stops id hid
      · exact List.mem_singleton.1 hid
  | settled cycle timers cycles inFlight settled last free =>
    refine .settled cycle ?_ cycles inFlight settled last (.inl (free.ticks horderly))
    unfold PosterScheduler.stop
    simp only [timers, List.filter_nil]

theorem Sound.runOnce (h : Sound s) (horderly : s.Orderly .runOnce) : Sound (s.runTick none) := by
  unfold runTick
  split
  · exact h
  · rename_i hrunning
    have hfree : s.Free → ({ s with
        running := true
        stats := { s.stats with ticks := s.stats.ticks + 1 }
        ticks := s.ticks ++ [⟨none, s.now⟩] } : PosterScheduler).Free := by
      rintro (⟨hticks, -⟩ | ⟨-, -, hrun, -⟩)
      · refine .inr ⟨s.now, ?_, rfl, horderly hticks⟩
        rw [hticks, List.nil_append]
      · exact absurd hrun hrunning
    cases h with
    | unchained timers cycles inFlight free => exact .unchained timers cycles inFlight (hfree free)
    | armed timer timers handle cycles inFlight live due free =>
      exact .armed timer timers handle cycles inFlight live due (hfree free)
    | ticking _ _ _ _ _ _ _ running => exact absurd running hrunning
    | settled cycle timers cycles inFlight settled last free =>
      exact .settled cycle timers cycles inFlight settled last (hfree free)

/-- **A timer that fires** in an orderly run starts its tick when the cadence says, on a scheduler
that is not stopped. -/
theorem Sound.fire (h : Sound s) {id : Nat} (horderly : s.Orderly (.fire id))
    (hstep : s.step (.fire id) = some s') :
    Sound s' ∧ s.stopped = false ∧ s.ticks = [] ∧
      s'.ticks = [⟨some s.nextId, s.now⟩] ∧
      ∀ last, s.lastScheduled = some last → ∃ finish, last.finish = some finish ∧
        s.now = max (last.start + s.intervalMs) finish := by
  obtain ⟨timer, hfind, hfire⟩ := Option.bind_eq_some_iff.1 hstep
  split at hfire
  case isFalse => cases hfire
  rename_i hdue
  obtain ⟨hdue, -, hidle⟩ := hdue
  have htimer := List.mem_of_find?_eq_some hfind
  cases h with
  | armed own timers handle cycles inFlight live due free =>
    rw [timers, List.mem_singleton] at htimer
    obtain ⟨hticks, hrunning⟩ := free.ticks horderly
    have hstops : s.stops = [] := by
      refine List.eq_nil_iff_forall_not_mem.2 fun id hid => ?_
      obtain ⟨cycle, hcycle, -⟩ := hidle id hid
      rw [cycles] at hcycle
      exact List.not_mem_nil hcycle
    rw [← Option.some.inj hfire]
    have hticks' : ({ s with handle := none, timers := s.timers.erase timer }.cycle).ticks =
        [⟨some s.nextId, s.now⟩] := by
      unfold cycle runTick
      simp [hrunning, hticks]
    refine ⟨.ticking ⟨s.nextId, s.now, false⟩ s.now ?_ ?_ ?_ rfl hticks' ?_ ?_ ?_, live, hticks,
      hticks', fun last hlast => ?_⟩
    · unfold cycle runTick
      simp [hrunning, timers, htimer]
    · unfold cycle runTick
      simp [hrunning, cycles]
    · unfold cycle runTick
      simp
    · unfold cycle runTick
      simp [hrunning]
    · unfold cycle
      simp [hrunning]
    · unfold cycle runTick
      simp [hrunning, hstops]
    · obtain ⟨finish, hfinish, hmax⟩ := due last hlast
      exact ⟨finish, hfinish, by rw [← hdue, htimer, hmax]⟩
  | unchained timers => rw [timers] at htimer; exact absurd htimer List.not_mem_nil
  | ticking _ _ timers => rw [timers] at htimer; exact absurd htimer List.not_mem_nil
  | settled _ timers => rw [timers] at htimer; exact absurd htimer List.not_mem_nil

/-- A tick of `runOnce` leaves the chain alone. -/
theorem Free.endTick (h : s.Free) {tick : RunningTick} (htick : tick ∈ s.ticks)
    (result : Except String TickOutcome) :
    tick.owner = none ∧ (s.endTick tick result).Free := by
  rcases h with ⟨hticks, -⟩ | ⟨startedAt, hticks, -, -⟩
  · rw [hticks] at htick
    exact absurd htick List.not_mem_nil
  · rw [hticks, List.mem_singleton] at htick
    refine ⟨by rw [htick], .inl ⟨?_, rfl⟩⟩
    unfold PosterScheduler.endTick
    simp only [hticks, htick, List.erase_cons_head]

theorem endTick_of_none {tick : RunningTick} (howner : tick.owner = none)
    (result : Except String TickOutcome) :
    (s.endTick tick result).cycles = s.cycles ∧
      (s.endTick tick result).lastScheduled = s.lastScheduled := by
  unfold endTick
  rw [howner]
  refine ⟨(List.map_congr_left fun cycle _ => if_neg nofun).trans (List.map_id _), rfl⟩

theorem Sound.endTick (h : Sound s) {tick : RunningTick} (htick : tick ∈ s.ticks)
    (result : Except String TickOutcome) : Sound (s.endTick tick result) := by
  cases h with
  | unchained timers cycles inFlight free =>
    obtain ⟨howner, hfree⟩ := free.endTick htick result
    obtain ⟨hcycles, -⟩ := endTick_of_none (s := s) howner result
    exact .unchained timers (hcycles.trans cycles) inFlight hfree
  | armed timer timers handle cycles inFlight live due free =>
    obtain ⟨howner, hfree⟩ := free.endTick htick result
    obtain ⟨hcycles, hlast⟩ := endTick_of_none (s := s) howner result
    exact .armed timer timers handle (hcycles.trans cycles) inFlight live
      (fun last h => due last (hlast.symm.trans h)) hfree
  | settled cycle timers cycles inFlight settled last free =>
    obtain ⟨howner, hfree⟩ := free.endTick htick result
    obtain ⟨hcycles, hlast⟩ := endTick_of_none (s := s) howner result
    exact .settled cycle timers (hcycles.trans cycles) inFlight settled (hlast.trans last) hfree
  | ticking cycle startedAt timers cycles inFlight unsettled ticks running last stops =>
    rw [ticks, List.mem_singleton] at htick
    refine .settled { cycle with settled := true } timers ?_ inFlight rfl ?_ (.inl ⟨?_, rfl⟩)
    · unfold PosterScheduler.endTick
      simp [cycles, htick]
    · unfold PosterScheduler.endTick count
      simp [last, htick]
    · unfold PosterScheduler.endTick
      simp only [ticks, htick, List.erase_cons_head]

/-- **A cycle that goes on** arms the next timer where the cadence says. -/
theorem Sound.resume (h : Sound s) {cycle : Cycle} (hcycle : cycle ∈ s.cycles)
    (hsettled : cycle.settled = true) : Sound (s.resume cycle) := by
  cases h with
  | unchained _ cycles => rw [cycles] at hcycle; exact absurd hcycle List.not_mem_nil
  | armed _ _ _ cycles => rw [cycles] at hcycle; exact absurd hcycle List.not_mem_nil
  | ticking own _ _ cycles _ unsettled =>
    rw [cycles, List.mem_singleton] at hcycle
    rw [hcycle, unsettled] at hsettled
    cases hsettled
  | settled own timers cycles inFlight settled last free =>
    rw [cycles, List.mem_singleton] at hcycle
    subst hcycle
    -- the timer of the next tick, with the time that the cadence asks for
    have hrearmed : ∀ (t : PosterScheduler) (delayMs : ℚ), t.timers = [] → t.cycles = [] →
        t.inFlight = none → t.Free → t.lastScheduled = s.lastScheduled → t.now = s.now →
        t.intervalMs = s.intervalMs →
        s.now + delayMs = max (cycle.startedAt + s.intervalMs) s.now → Sound (t.arm delayMs) := by
      intro t delayMs htimers hcycles hinFlight hfree hlast hnow hinterval hdue
      unfold arm
      split
      · exact .unchained htimers hcycles hinFlight hfree
      · rename_i hlive
        refine .armed ⟨t.nextId, t.now + delayMs⟩ ?_ rfl hcycles hinFlight
          (Bool.eq_false_iff.2 hlive) (fun next hnext => ?_) hfree
        · simp only [htimers, List.nil_append]
        · obtain rfl := Option.some.inj ((hlast.trans last).symm.trans hnext)
          refine ⟨s.now, rfl, ?_⟩
          simp only [hnow, hinterval]
          exact hdue
    unfold PosterScheduler.resume
    simp only
    split
    · rename_i hover
      refine hrearmed _ 0 timers ?_ rfl free rfl rfl rfl ?_
      · simp only [cycles, List.erase_cons_head]
      · rw [add_zero, max_eq_right hover]
    · rename_i hover
      refine hrearmed _ _ timers ?_ rfl free rfl rfl rfl ?_
      · simp only [cycles, List.erase_cons_head]
      · rw [add_sub_cancel, max_eq_left (not_le.1 hover).le]

/-- A stop that resolves finds no tick in flight. -/
theorem Sound.stopResolves (h : Sound s) {id : Nat} (hid : id ∈ s.stops)
    (hticking : ¬ s.Ticking id) :
    s.ticks = [] ∧ Sound { s with stops := s.stops.erase id } := by
  have hfree : s.Free → s.ticks = [] ∧
      ({ s with stops := s.stops.erase id } : PosterScheduler).Free := by
    rintro (hnone | ⟨-, -, -, hstops⟩)
    · exact ⟨hnone.1, .inl hnone⟩
    · rw [hstops] at hid
      exact absurd hid List.not_mem_nil
  cases h with
  | unchained timers cycles inFlight free =>
    exact ⟨(hfree free).1, .unchained timers cycles inFlight (hfree free).2⟩
  | armed timer timers handle cycles inFlight live due free =>
    exact ⟨(hfree free).1, .armed timer timers handle cycles inFlight live due (hfree free).2⟩
  | ticking cycle startedAt timers cycles inFlight unsettled ticks running last stops =>
    refine absurd ⟨cycle, ?_, (stops id hid).symm, unsettled⟩ hticking
    rw [cycles]
    exact List.mem_singleton_self _
  | settled cycle timers cycles inFlight settled last free =>
    exact ⟨(hfree free).1, .settled cycle timers cycles inFlight settled last (hfree free).2⟩

theorem Sound.advance (h : Sound s) (hidle : s.Idle) (now : ℚ) : Sound { s with now } := by
  cases h with
  | unchained timers cycles inFlight free => exact .unchained timers cycles inFlight free
  | armed timer timers handle cycles inFlight live due free =>
    exact .armed timer timers handle cycles inFlight live due free
  | ticking cycle startedAt timers cycles inFlight unsettled ticks running last stops =>
    exact .ticking cycle startedAt timers cycles inFlight unsettled ticks running last stops
  | settled cycle timers cycles inFlight settled last free =>
    have := hidle.1 cycle (by rw [cycles]; exact List.mem_singleton_self _)
    rw [settled] at this
    cases this

/-- **One orderly event keeps the chain.** -/
theorem sound_step (h : Sound s) (hstep : s.orderlyStep event = some s') : Sound s' := by
  unfold orderlyStep at hstep
  split at hstep
  case isFalse => cases hstep
  rename_i horderly
  cases event with
  | start => exact Option.some.inj hstep ▸ h.start horderly
  | stop => exact Option.some.inj hstep ▸ h.stop horderly
  | runOnce => exact Option.some.inj hstep ▸ h.runOnce horderly
  | fire id => exact (h.fire horderly hstep).1
  | tickEnds owner result =>
    obtain ⟨tick, htick, rfl⟩ := Option.map_eq_some_iff.1 hstep
    exact h.endTick (List.mem_of_find?_eq_some htick) result
  | cycleResumes id =>
    obtain ⟨cycle, hcycle, rfl⟩ := Option.map_eq_some_iff.1 hstep
    have hfound := List.find?_some hcycle
    simp only [decide_eq_true_eq] at hfound
    exact h.resume (List.mem_of_find?_eq_some hcycle) hfound.2
  | stopResolves id =>
    simp only [step] at hstep
    split at hstep
    · rename_i hresolves
      exact Option.some.inj hstep ▸ (h.stopResolves hresolves.1 hresolves.2).2
    · cases hstep
  | advance now =>
    simp only [step] at hstep
    split at hstep
    · rename_i hadvance
      exact Option.some.inj hstep ▸ h.advance hadvance.2.2 now
    · cases hstep

/-- One chain at most. -/
theorem Sound.chain (h : Sound s) : s.timers.length + s.cycles.length ≤ 1 := by
  cases h with
  | unchained timers cycles => rw [timers, cycles]; exact Nat.zero_le 1
  | armed _ timers _ cycles => rw [timers, cycles]; exact Nat.le_refl 1
  | ticking _ _ timers cycles => rw [timers, cycles]; exact Nat.le_refl 1
  | settled _ timers cycles => rw [timers, cycles]; exact Nat.le_refl 1

theorem interval_step (hstep : s.step event = some s') : s'.intervalMs = s.intervalMs := by
  have harm : ∀ (t : PosterScheduler) (delayMs : ℚ), (t.arm delayMs).intervalMs = t.intervalMs := by
    intro t delayMs
    unfold arm
    split <;> rfl
  have hrun : ∀ (t : PosterScheduler) owner, (t.runTick owner).intervalMs = t.intervalMs := by
    intro t owner
    unfold runTick
    split <;> rfl
  cases event with
  | start =>
    rw [← Option.some.inj hstep]
    unfold start
    split
    · exact harm _ _
    · rfl
  | stop => exact Option.some.inj hstep ▸ rfl
  | runOnce => exact Option.some.inj hstep ▸ hrun _ _
  | fire id =>
    obtain ⟨timer, -, hfire⟩ := Option.bind_eq_some_iff.1 hstep
    split at hfire
    · exact Option.some.inj hfire ▸ hrun _ _
    · cases hfire
  | tickEnds owner result =>
    obtain ⟨tick, -, rfl⟩ := Option.map_eq_some_iff.1 hstep
    rfl
  | cycleResumes id =>
    obtain ⟨cycle, -, rfl⟩ := Option.map_eq_some_iff.1 hstep
    unfold resume
    simp only
    split <;> exact harm _ _
  | stopResolves id =>
    simp only [step] at hstep
    split at hstep
    · exact Option.some.inj hstep ▸ rfl
    · cases hstep
  | advance now =>
    simp only [step] at hstep
    split at hstep
    · exact Option.some.inj hstep ▸ rfl
    · cases hstep

/-- The event resolves a call of `stop()`, at once where there is no cycle to wait for. -/
def Resolves (s : PosterScheduler) : SchedulerEvent → Prop
  | .stop => s.inFlight = none
  | .stopResolves _ => True
  | _ => False

/-- In an orderly run a stop resolves when no tick is in flight. -/
theorem Sound.resolves (h : Sound s) (hresolves : s.Resolves event)
    (hstep : s.orderlyStep event = some s') : s'.ticks = [] := by
  unfold orderlyStep at hstep
  split at hstep
  case isFalse => cases hstep
  rename_i horderly
  cases event with
  | stop =>
    have hnone : s.inFlight = none := hresolves
    rw [← Option.some.inj hstep]
    cases h with
    | unchained _ _ _ free => exact (free.ticks horderly).1
    | armed _ _ _ _ _ _ _ free => exact (free.ticks horderly).1
    | ticking _ _ _ _ inFlight => rw [inFlight] at hnone; cases hnone
    | settled _ _ _ inFlight => rw [inFlight] at hnone; cases hnone
  | stopResolves id =>
    simp only [step] at hstep
    split at hstep
    · rename_i hid
      exact Option.some.inj hstep ▸ (h.stopResolves hid.1 hid.2).1
    · cases hstep
  | _ => exact hresolves.elim

/-- **Poster scheduling.** In an orderly run of any length ticks never overlap and there is one
timer chain at most; a timer that fires starts a tick, never while the scheduler is stopped, at the
later of the previous scheduled tick's start plus the interval and its end; a call of `stop()`
resolves only when no tick is in flight; and the finished ticks are the successes and the
failures. -/
theorem poster_scheduling {intervalMs now : ℚ} {window : Nat} {start s : PosterScheduler}
    {events : List SchedulerEvent} (hcreate : create intervalMs window now = .ok start)
    (hrun : Trace orderlyStep start events s) :
    s.ticks.length ≤ 1 ∧ s.timers.length + s.cycles.length ≤ 1 ∧
      (∀ id s', s.orderlyStep (.fire id) = some s' → s.stopped = false ∧ s.ticks = [] ∧
        (∃ tick, s'.ticks = [tick] ∧ tick.startedAt = s.now) ∧
        ∀ last, s.lastScheduled = some last → ∃ finish, last.finish = some finish ∧
          s.now = max (last.start + intervalMs) finish) ∧
      (∀ event s', s.orderlyStep event = some s' → s.Resolves event → s'.ticks = []) ∧
      s.stats.success + s.stats.failure = events.countP fun event => event.Ends := by
  obtain rfl : { intervalMs, window, now, stats := { startedAt := now } } = start := by
    unfold create at hcreate
    split at hcreate
    · exact Except.ok.inj hcreate
    · cases hcreate
  have hplain : ∀ t event t', orderlyStep t event = some t' → step t event = some t' := by
    intro t event t' hstep
    unfold orderlyStep at hstep
    split at hstep
    · exact hstep
    · cases hstep
  have hsound : Sound s := hrun.invariant (.unchained rfl rfl rfl (.inl ⟨rfl, rfl⟩))
    fun _ _ _ => sound_step
  have hinterval : s.intervalMs = intervalMs :=
    hrun.invariant (p := fun t : PosterScheduler => t.intervalMs = intervalMs) rfl
      fun t _ _ h hstep => (interval_step (hplain _ _ _ hstep)).trans h
  obtain ⟨hone, hcounted⟩ := counted_ticks ⟨rfl, rfl⟩ rfl (hrun.mono hplain)
  refine ⟨hone, hsound.chain, fun id s' hstep => ?_,
    fun event s' hstep hresolves => hsound.resolves hresolves hstep, hcounted⟩
  unfold orderlyStep at hstep
  split at hstep
  · rename_i horderly
    obtain ⟨-, hlive, hticks, hticks', hcadence⟩ := hsound.fire horderly hstep
    rw [hinterval] at hcadence
    exact ⟨hlive, hticks, ⟨_, hticks', rfl⟩, hcadence⟩
  · cases hstep

/-- A whole interval of a scheduler that is started. -/
def oneInterval : List SchedulerEvent :=
  [.start, .fire 0, .advance 10,
    .tickEnds (some 1) (.ok ⟨true, .inventory, none, none, true, none, none⟩), .cycleResumes 1,
    .advance 60000, .fire 2]

theorem poster_scheduling_interval :
    ∃ start s, create 60000 100 0 = .ok start ∧ runEvents orderlyStep start oneInterval = some s ∧
      s.now = 60000 ∧ s.ticks.length ≤ 1 ∧ s.timers.length + s.cycles.length ≤ 1 := by
  have hrun : (runEvents orderlyStep
      { intervalMs := 60000, now := 0, stats := { startedAt := 0 } } oneInterval).map (·.now) =
        some 60000 := by decide +kernel
  obtain ⟨s, hrun, hnow⟩ := Option.map_eq_some_iff.1 hrun
  have hcreate : create 60000 100 0 =
      .ok { intervalMs := 60000, now := 0, stats := { startedAt := 0 } } := rfl
  obtain ⟨hone, hchain, -⟩ := poster_scheduling hcreate (Trace.of_runEvents hrun)
  exact ⟨_, s, rfl, hrun, hnow, hone, hchain⟩

/-- A stop and a start while a tick is in flight. -/
def restart : List SchedulerEvent := [.start, .fire 0, .stop, .start, .fire 2, .cycleResumes 3]

/-- There are two chains then, and the next stop resolves with the tick in flight. -/
theorem restart_two_chains :
    ∃ start s s', create 60000 100 0 = .ok start ∧ runEvents step start restart = some s ∧
      s.timers.length + s.cycles.length = 2 ∧ s.Resolves .stop ∧ s.step .stop = some s' ∧
      s'.ticks.length = 1 := by
  have hrun : (runEvents step
      { intervalMs := 60000, now := 0, stats := { startedAt := 0 } } restart).map
        (fun s => (s.timers.length + s.cycles.length, s.inFlight, s.ticks.length)) =
        some (2, none, 1) := by decide +kernel
  obtain ⟨s, hrun, hend⟩ := Option.map_eq_some_iff.1 hrun
  simp only [Prod.mk.injEq] at hend
  exact ⟨_, s, s.stop, rfl, hrun, hend.1, hend.2.1, rfl, hend.2.2⟩

end PosterScheduler

end ZswapKernel
