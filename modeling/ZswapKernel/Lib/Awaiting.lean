import Mathlib.Algebra.Order.Ring.Int
import ZswapKernel.Lib.Program

/-!
# Programs that wait in a changing world

A program reads a world that others change between its reads. `world i` is the world while `i` of its
waits have ended; a wait ends with what the world then answers. A program looks at no other moment
than those of its own run, so a run that ends well is a run in any world that answers alike
(`Simulated`).

A world is versioned (`Versioned`) when its state changes only with its version, which never
decreases: a run between two moments of one version has seen one state (`Versioned.between`).
-/

namespace ZswapKernel

/-- A program that waits; the state counts its waits. -/
abbrev Awaiting (ω ε α : Type) := ReaderT (Nat → ω) (Program Nat ε) α

namespace Awaiting

variable {ω ω' ε α β : Type}

/-- The run from the `i`-th wait on. -/
def run (m : Awaiting ω ε α) (world : Nat → ω) (i : Nat) : Except ε α × Nat :=
  Program.outcome (ReaderT.run m world) i

/-- What the world is now. -/
def moment : Awaiting ω ε ω := fun world i => (.ok (world i), i)

/-- Wait for an answer. -/
def await (answer : ω → Except ε α) : Awaiting ω ε α := fun world i => (answer (world i), i + 1)

/-- Throw. -/
def fail (error : ε) : Awaiting ω ε α := fun _ i => (.error error, i)

/-- A computation that does not wait. -/
def settle (result : Except ε α) : Awaiting ω ε α := fun _ i => (result, i)

@[simp] theorem run_pure (a : α) (world : Nat → ω) (i : Nat) :
    (pure a : Awaiting ω ε α).run world i = (.ok a, i) := rfl

@[simp] theorem run_fail (error : ε) (world : Nat → ω) (i : Nat) :
    (fail error : Awaiting ω ε α).run world i = (.error error, i) := rfl

@[simp] theorem run_moment (world : Nat → ω) (i : Nat) :
    (moment : Awaiting ω ε ω).run world i = (.ok (world i), i) := rfl

@[simp] theorem run_await (answer : ω → Except ε α) (world : Nat → ω) (i : Nat) :
    (await answer).run world i = (answer (world i), i + 1) := rfl

@[simp] theorem run_settle (result : Except ε α) (world : Nat → ω) (i : Nat) :
    (settle result : Awaiting ω ε α).run world i = (result, i) := rfl

theorem run_bind (m : Awaiting ω ε α) (f : α → Awaiting ω ε β) (world : Nat → ω) (i : Nat) :
    (m >>= f).run world i = match m.run world i with
      | (.ok a, j) => (f a).run world j
      | (.error e, j) => (.error e, j) := by
  show Program.outcome (m world >>= fun a => f a world) i = _
  rw [Program.outcome_bind, show m.run world i = (m world).outcome i from rfl]
  cases (m world).outcome i with
  | mk result j => cases result <;> rfl

theorem run_bind_eq_ok {m : Awaiting ω ε α} {f : α → Awaiting ω ε β} {world : Nat → ω} {i k : Nat}
    {b : β} : (m >>= f).run world i = (.ok b, k) ↔
      ∃ a j, m.run world i = (.ok a, j) ∧ (f a).run world j = (.ok b, k) :=
  @Program.outcome_bind_eq_ok _ _ _ _ (m world) (fun a => f a world) i k b

/-! ## Runs in another world -/

/-- A run of `m` that ends well ends later, and is a run in every world related to this one in the
meantime. -/
def Simulated (R : ω → ω' → Prop) (m : Awaiting ω ε α) (m' : Awaiting ω' ε α) : Prop :=
  ∀ world i a j, m.run world i = (.ok a, j) → i ≤ j ∧ ∀ world' : Nat → ω',
    (∀ k, i ≤ k → k ≤ j → R (world k) (world' k)) → m'.run world' i = (.ok a, j)

variable {R : ω → ω' → Prop}

theorem Simulated.pure (a : α) : Simulated R (pure a : Awaiting ω ε α) (pure a) := by
  intro world i b j h
  rw [run_pure] at h
  obtain ⟨hb, rfl⟩ := Prod.mk.inj h
  rw [← Except.ok.inj hb]
  exact ⟨le_refl i, fun world' _ => rfl⟩

theorem Simulated.fail {m' : Awaiting ω' ε α} (error : ε) :
    Simulated R (fail error : Awaiting ω ε α) m' := by
  intro world i b j h
  cases (Prod.mk.inj h).1

theorem Simulated.settle (result : Except ε α) :
    Simulated R (settle result : Awaiting ω ε α) (settle result) := by
  intro world i b j h
  obtain ⟨hb, rfl⟩ := Prod.mk.inj h
  exact ⟨le_refl i, fun world' _ => by rw [run_settle, hb]⟩

theorem Simulated.await {answer : ω → Except ε α} {answer' : ω' → Except ε α}
    (hanswer : ∀ now now' a, R now now' → answer now = .ok a → answer' now' = .ok a) :
    Simulated R (await answer) (await answer') := by
  intro world i b j h
  obtain ⟨hb, rfl⟩ := Prod.mk.inj h
  refine ⟨Nat.le_succ i, fun world' hR => ?_⟩
  rw [run_await, hanswer _ _ b (hR i (le_refl i) (Nat.le_succ i)) hb]

theorem Simulated.bind {m : Awaiting ω ε α} {m' : Awaiting ω' ε α} {f : α → Awaiting ω ε β}
    {f' : α → Awaiting ω' ε β} (hm : Simulated R m m') (hf : ∀ a, Simulated R (f a) (f' a)) :
    Simulated R (m >>= f) (m' >>= f') := by
  intro world i b k h
  obtain ⟨a, j, hma, hfa⟩ := run_bind_eq_ok.mp h
  obtain ⟨hij, hmoves⟩ := hm world i a j hma
  obtain ⟨hjk, hgoes⟩ := hf a world j b k hfa
  refine ⟨hij.trans hjk, fun world' hR => run_bind_eq_ok.mpr ⟨a, j, ?_, ?_⟩⟩
  · exact hmoves world' fun k' hi hk' => hR k' hi (hk'.trans hjk)
  · exact hgoes world' fun k' hj hk' => hR k' (hij.trans hj) hk'

theorem Simulated.ite {c : Prop} [Decidable c] {m n : Awaiting ω ε α} {m' n' : Awaiting ω' ε α}
    (hm : c → Simulated R m m') (hn : ¬ c → Simulated R n n') :
    Simulated R (if c then m else n) (if c then m' else n') := by
  by_cases h : c
  · rw [if_pos h, if_pos h]
    exact hm h
  · rw [if_neg h, if_neg h]
    exact hn h

/-! ## Versions -/

/-- The state that a moment shows changes only with its version, which never decreases. -/
structure Versioned {σ ν : Type} [Preorder ν] (state : ω → Option σ) (version : σ → ν)
    (world : Nat → ω) : Prop where
  ordered : ∀ {i j s t}, i ≤ j → state (world i) = some s → state (world j) = some t →
    version s ≤ version t
  same : ∀ {i j s t}, state (world i) = some s → state (world j) = some t →
    version s = version t → s = t

/-- **Two equal versions enclose one state.** -/
theorem Versioned.between {σ ν : Type} [PartialOrder ν] {state : ω → Option σ} {version : σ → ν}
    {world : Nat → ω} (h : Versioned state version world) {i j k : Nat} {s t u : σ} (hij : i ≤ j)
    (hjk : j ≤ k) (hs : state (world i) = some s) (ht : state (world j) = some t)
    (hu : state (world k) = some u) (hversion : version s = version u) : t = s := by
  have hle : version t ≤ version s := hversion ▸ h.ordered hjk ht hu
  exact h.same ht hs (le_antisymm hle (h.ordered hij hs ht))

end Awaiting

end ZswapKernel
