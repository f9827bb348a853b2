import Mathlib.Data.List.Basic

/-!
# Runs of a step function with their traces

A system whose step function answers `none` where an event cannot happen. An event may be anything:
a call, a message, a timer. `Trace step start events s`: the events, in order, lead from `start` to
`s`.

* `Trace.invariant`: what holds at the start and is kept by each step holds in every run.
* `runEvents`, `Trace.of_runEvents`: a concrete run, evaluated.
* `Trace.traced`: the same for an invariant that speaks of the trace so far.
* `Trace.mono`: the runs of a restricted step function.
-/

namespace ZswapKernel

variable {σ ε : Type*}

/-- The run of `events` from `start`. -/
inductive Trace (step : σ → ε → Option σ) (start : σ) : List ε → σ → Prop
  | nil : Trace step start [] start
  | snoc {events : List ε} {s s' : σ} {e : ε} :
    Trace step start events s → step s e = some s' → Trace step start (events ++ [e]) s'

namespace Trace

variable {step : σ → ε → Option σ} {start s : σ} {events : List ε}

/-- **A step invariant holds in every run.** -/
theorem invariant {p : σ → Prop} (hstart : p start)
    (hstep : ∀ s e s', p s → step s e = some s' → p s') (h : Trace step start events s) : p s := by
  induction h with
  | nil => exact hstart
  | snoc _ hs ih => exact hstep _ _ _ ih hs

/-- **A trace invariant holds in every run.** -/
theorem traced {p : List ε → σ → Prop} (hstart : p [] start)
    (hstep : ∀ events s e s', Trace step start events s → p events s → step s e = some s' →
      p (events ++ [e]) s') (h : Trace step start events s) : p events s := by
  induction h with
  | nil => exact hstart
  | snoc hrun hs ih => exact hstep _ _ _ _ hrun ih hs

/-- A run whose steps are all steps of another system is one of its runs. -/
theorem mono {step' : σ → ε → Option σ}
    (hstep : ∀ s e s', step s e = some s' → step' s e = some s') (h : Trace step start events s) :
    Trace step' start events s := by
  induction h with
  | nil => exact .nil
  | snoc _ hs ih => exact .snoc ih (hstep _ _ _ hs)

/-- One run after another. -/
theorem append {middle : σ} {later : List ε} (h : Trace step start events middle)
    (hlater : Trace step middle later s) : Trace step start (events ++ later) s := by
  induction hlater with
  | nil => rwa [List.append_nil]
  | snoc _ hs ih =>
    rw [← List.append_assoc]
    exact .snoc ih hs

end Trace

/-- The state that a list of events leads to. -/
def runEvents (step : σ → ε → Option σ) (s : σ) : List ε → Option σ
  | [] => some s
  | e :: events => (step s e).bind fun s' => runEvents step s' events

theorem Trace.of_runEvents {step : σ → ε → Option σ} :
    ∀ {events : List ε} {start s : σ}, runEvents step start events = some s →
      Trace step start events s
  | [], _, _, h => Option.some.inj h ▸ .nil
  | _ :: _, _, _, h => by
    obtain ⟨next, hnext, hrest⟩ := Option.bind_eq_some_iff.1 h
    exact Trace.append (.snoc .nil hnext) (of_runEvents hrest)

end ZswapKernel
