import Mathlib.Data.List.Forall2

/-!
# Programs with state and exceptions, and their triples

`Program σ ε α` is a computation over a state `σ` that returns an `α` or throws an `ε`; a throw
keeps the state reached so far. `Triple P m Q E` is total: from a state satisfying `P`, `m` either
returns a value and a state satisfying `Q`, or throws an exception in a state satisfying `E`.

The rules are syntax-directed, so a proof about a program follows the program's text.
-/

/-! ### Results -/

theorem Except.ite_error_eq_ok {ε α : Type} {c : Prop} [Decidable c] {e : ε} {m : Except ε α}
    {a : α} : (if c then .error e else m) = .ok a ↔ ¬ c ∧ m = .ok a := by
  split <;> simp [*]

theorem Except.bind_eq_ok {ε α β : Type} {m : Except ε α} {f : α → Except ε β} {b : β} :
    (m >>= f) = .ok b ↔ ∃ a, m = .ok a ∧ f a = .ok b := by
  cases m with
  | error e => simp [bind, Except.bind]
  | ok a => simp [bind, Except.bind]

theorem Except.eq_ok_of_toOption {ε α : Type} {m : Except ε α} {a : α}
    (h : m.toOption = some a) : m = .ok a := by
  cases m with
  | error e => cases h
  | ok b => exact congrArg Except.ok (Option.some.inj h)

/-- A search whose steps may fail: it succeeds if no step up to the one it stops at fails. -/
theorem Except.findM?_ok {ε α : Type} {check : α → Except ε Unit} {stops : α → Bool}
    {l : List α} {found : Option α}
    (h : l.findM? (fun a => do check a; return stops a) = .ok found) : found = l.find? stops := by
  induction l with
  | nil => exact (Except.ok.inj h).symm
  | cons a l ih =>
    unfold List.findM? at h
    obtain ⟨stop, hstop, h⟩ := Except.bind_eq_ok.mp h
    obtain ⟨-, -, hstop⟩ := Except.bind_eq_ok.mp hstop
    rw [List.find?_cons, Except.ok.inj hstop]
    cases stop with
    | true => exact (Except.ok.inj h).symm
    | false => exact ih h

/-- It fails if a step fails before it stops. -/
theorem Except.findM?_isOk {ε α : Type} {check : α → Except ε Unit} {stops : α → Bool}
    {l : List α} : (∃ found, l.findM? (fun a => do check a; return stops a) = .ok found) ↔
      ∀ before a after, l = before ++ a :: after → (∀ b ∈ before, stops b = false) →
        check a = .ok () := by
  induction l with
  | nil =>
    refine ⟨fun _ before a after h => absurd h.symm (by simp), fun _ => ⟨none, rfl⟩⟩
  | cons first l ih =>
    constructor
    · rintro ⟨found, h⟩ before a after hsplit hbefore
      unfold List.findM? at h
      obtain ⟨stop, hstop, h⟩ := Except.bind_eq_ok.mp h
      obtain ⟨⟨⟩, hcheck, hstop⟩ := Except.bind_eq_ok.mp hstop
      cases before with
      | nil =>
        obtain ⟨rfl, rfl⟩ := List.cons.inj hsplit
        exact hcheck
      | cons b before =>
        obtain ⟨rfl, rfl⟩ := List.cons.inj hsplit
        have hfirst := hbefore first List.mem_cons_self
        rw [← Except.ok.inj hstop, hfirst] at h
        exact ih.mp ⟨found, h⟩ before a after rfl
          fun b hb => hbefore b (List.mem_cons_of_mem _ hb)
    · intro hall
      have hfirst := hall [] first l rfl (fun _ hb => absurd hb List.not_mem_nil)
      unfold List.findM?
      rw [hfirst]
      cases hstop : stops first with
      | true => exact ⟨some first, by simp [bind, Except.bind, pure, Except.pure, hstop]⟩
      | false =>
        obtain ⟨found, hfound⟩ := ih.mpr fun before a after hsplit hbefore =>
          hall (first :: before) a after (by rw [hsplit]; rfl) fun b hb => by
            rcases List.mem_cons.mp hb with rfl | hb
            · exact hstop
            · exact hbefore b hb
        refine ⟨found, ?_⟩
        simp only [bind, Except.bind, pure, Except.pure, hstop]
        exact hfound

/-- Mapping a fallible function over a list relates its elements to their values. -/
theorem Except.forall₂_of_mapM {ε α β : Type} {f : α → Except ε β} {l : List α} {l' : List β}
    (h : l.mapM f = .ok l') : List.Forall₂ (fun a b => f a = .ok b) l l' := by
  induction l generalizing l' with
  | nil =>
    cases h
    exact .nil
  | cons a l ih =>
    rw [List.mapM_cons, Except.bind_eq_ok] at h
    obtain ⟨b, hb, h⟩ := h
    rw [Except.bind_eq_ok] at h
    obtain ⟨bs, hbs, h⟩ := h
    cases h
    exact .cons hb (ih hbs)

/-! ### Programs -/

/-- A computation over `σ` that may throw an `ε`. -/
abbrev Program (σ ε α : Type) := ExceptT ε (StateM σ) α

namespace Program

variable {σ ε α β γ : Type}

/-- Run `m` from `s`. -/
def outcome (m : Program σ ε α) (s : σ) : Except ε α × σ := (m : StateM σ (Except ε α)) s

/-- From a `P`-state, `m` returns into `Q` or throws into `E`. -/
def Triple (P : σ → Prop) (m : Program σ ε α) (Q : α → σ → Prop) (E : ε → σ → Prop) : Prop :=
  ∀ s, P s → match m.outcome s with
    | (.ok a, s') => Q a s'
    | (.error e, s') => E e s'

/-- Run `body`; on an exception `e`, run `handler e` from the state reached. -/
def catching (body : Program σ ε α) (handler : ε → Program σ ε α) : Program σ ε α :=
  fun s => match body.outcome s with
    | (.ok a, s') => (.ok a, s')
    | (.error e, s') => (handler e).outcome s'

/-- Run `body`, then `f` on the state it reached, whether or not it threw. -/
def ensuring (body : Program σ ε α) (f : σ → σ) : Program σ ε α :=
  fun s => match body.outcome s with
    | (r, s') => (r, f s')

/-! ### Outcomes -/

@[simp] theorem outcome_pure (a : α) (s : σ) :
    outcome (pure a : Program σ ε α) s = (.ok a, s) := rfl

@[simp] theorem outcome_throw (e : ε) (s : σ) :
    outcome (throw e : Program σ ε α) s = (.error e, s) := rfl

@[simp] theorem outcome_get (s : σ) : outcome (get : Program σ ε σ) s = (.ok s, s) := rfl

@[simp] theorem outcome_set (s' s : σ) :
    outcome (set s' : Program σ ε PUnit) s = (.ok ⟨⟩, s') := rfl

@[simp] theorem outcome_modify (f : σ → σ) (s : σ) :
    outcome (modify f : Program σ ε PUnit) s = (.ok ⟨⟩, f s) := rfl

theorem outcome_bind (m : Program σ ε α) (f : α → Program σ ε β) (s : σ) :
    outcome (m >>= f) s = match m.outcome s with
      | (.ok a, s') => (f a).outcome s'
      | (.error e, s') => (.error e, s') := by
  show (match m s with
    | (a, s') => (ExceptT.bindCont f a) s') = _
  unfold outcome
  cases m s with
  | mk r s' => cases r <;> rfl

theorem outcome_bind_ok {m : Program σ ε α} {f : α → Program σ ε β} {s s' : σ} {a : α}
    (h : m.outcome s = (.ok a, s')) : outcome (m >>= f) s = (f a).outcome s' := by
  rw [outcome_bind, h]

theorem outcome_bind_error {m : Program σ ε α} {f : α → Program σ ε β} {s s' : σ} {e : ε}
    (h : m.outcome s = (.error e, s')) : outcome (m >>= f) s = (.error e, s') := by
  rw [outcome_bind, h]

/-- A sequence that returns: both halves did. -/
theorem outcome_bind_eq_ok {m : Program σ ε α} {f : α → Program σ ε β} {s s'' : σ} {b : β} :
    outcome (m >>= f) s = (.ok b, s'') ↔
      ∃ a s', m.outcome s = (.ok a, s') ∧ (f a).outcome s' = (.ok b, s'') := by
  rw [outcome_bind]
  constructor
  · intro h
    cases hm : m.outcome s with
    | mk r s' =>
      rw [hm] at h
      cases r with
      | ok a => exact ⟨a, s', rfl, h⟩
      | error e => exact absurd (congrArg Prod.fst h) (by simp)
  · rintro ⟨a, s', hm, hf⟩
    rw [hm]
    exact hf

/-! ### Rules -/

section Rules

variable {P P' : σ → Prop} {Q Q' : α → σ → Prop} {E E' : ε → σ → Prop}

theorem Triple.pure {a : α} (h : ∀ s, P s → Q a s) : Triple P (pure a) Q E := h

theorem Triple.throw {e : ε} (h : ∀ s, P s → E e s) : Triple P (throw e) Q E := h

theorem Triple.get {Q : σ → σ → Prop} (h : ∀ s, P s → Q s s) : Triple P get Q E := h

theorem Triple.modify {f : σ → σ} {Q : PUnit → σ → Prop} (h : ∀ s, P s → Q ⟨⟩ (f s)) :
    Triple P (modify f) Q E := h

theorem Triple.set {s' : σ} {Q : PUnit → σ → Prop} (h : Q ⟨⟩ s') : Triple P (set s') Q E :=
  fun _ _ => h

theorem Triple.conseq {m : Program σ ε α} (h : Triple P m Q E) (hP : ∀ s, P' s → P s)
    (hQ : ∀ a s, Q a s → Q' a s) (hE : ∀ e s, E e s → E' e s) : Triple P' m Q' E' := by
  intro s hs
  have := h s (hP s hs)
  cases hm : m.outcome s with
  | mk r s' =>
    rw [hm] at this
    cases r with
    | ok a => exact hQ a s' this
    | error e => exact hE e s' this

/-- A weaker precondition is enough. -/
theorem Triple.pre {m : Program σ ε α} (h : Triple P m Q E) (hP : ∀ s, P' s → P s) :
    Triple P' m Q E := fun s hs => h s (hP s hs)

/-- Two specifications of one program. -/
theorem Triple.and {m : Program σ ε α} (h : Triple P m Q E) (h' : Triple P' m Q' E') :
    Triple (fun s => P s ∧ P' s) m (fun a s => Q a s ∧ Q' a s) fun e s => E e s ∧ E' e s := by
  rintro s ⟨hs, hs'⟩
  have hboth := And.intro (h s hs) (h' s hs')
  cases hm : m.outcome s with
  | mk r s' =>
    rw [hm] at hboth
    cases r with
    | ok a => exact hboth
    | error e => exact hboth

theorem Triple.bind {m : Program σ ε α} {f : α → Program σ ε β} {R : β → σ → Prop}
    (hm : Triple P m Q E) (hf : ∀ a, Triple (Q a) (f a) R E) : Triple P (m >>= f) R E := by
  intro s hs
  have h := hm s hs
  rw [outcome_bind]
  cases ho : m.outcome s with
  | mk r s' =>
    rw [ho] at h
    cases r with
    | ok a => exact hf a s' h
    | error e => exact h

theorem outcome_catching (body : Program σ ε α) (handler : ε → Program σ ε α) (s : σ) :
    outcome (catching body handler) s = match body.outcome s with
      | (.ok a, s') => (.ok a, s')
      | (.error e, s') => (handler e).outcome s' := rfl

theorem Triple.catching {body : Program σ ε α} {handler : ε → Program σ ε α}
    (hb : Triple P body Q E) (hh : ∀ e, Triple (E e) (handler e) Q E') :
    Triple P (catching body handler) Q E' := by
  intro s hs
  have h := hb s hs
  rw [outcome_catching]
  cases ho : body.outcome s with
  | mk r s' =>
    rw [ho] at h
    cases r with
    | ok a => exact h
    | error e => exact hh e s' h

theorem outcome_ensuring (body : Program σ ε α) (f : σ → σ) (s : σ) :
    outcome (ensuring body f) s = ((body.outcome s).1, f (body.outcome s).2) := rfl

theorem Triple.ensuring {body : Program σ ε α} {f : σ → σ} (hb : Triple P body Q E)
    (hQ : ∀ a s, Q a s → Q' a (f s)) (hE : ∀ e s, E e s → E' e (f s)) :
    Triple P (ensuring body f) Q' E' := by
  intro s hs
  have h := hb s hs
  rw [outcome_ensuring]
  cases ho : body.outcome s with
  | mk r s' =>
    rw [ho] at h
    cases r with
    | ok a => exact hQ a s' h
    | error e => exact hE e s' h

theorem Triple.ite {c : Prop} [Decidable c] {m n : Program σ ε α}
    (hm : c → Triple P m Q E) (hn : ¬ c → Triple P n Q E) :
    Triple P (if c then m else n) Q E := by
  split
  · exact hm ‹_›
  · exact hn ‹_›

end Rules

/-- A sequence whose first half returns a value that satisfies `R`. -/
theorem Triple.bind_returns {P : σ → Prop} {Q : α → σ → Prop} {E : ε → σ → Prop}
    {m : Program σ ε α} {f : α → Program σ ε β} {R : α → Prop} {Q' : β → σ → Prop}
    (hm : Triple P m Q E) (hR : ∀ s a s', m.outcome s = (.ok a, s') → R a)
    (hf : ∀ a, R a → Triple (Q a) (f a) Q' E) : Triple P (m >>= f) Q' E := by
  intro s hs
  have h := hm s hs
  rw [outcome_bind]
  cases ho : m.outcome s with
  | mk r s' =>
    rw [ho] at h
    cases r with
    | ok a => exact hf a (hR s a s' ho) s' h
    | error e => exact h

/-- A loop: `I` holds of what is left of the list, before every round and after the last. -/
theorem Triple.forM {l : List γ} {f : γ → Program σ ε PUnit} {I : List γ → σ → Prop}
    {E : ε → σ → Prop}
    (step : ∀ x xs, (∃ done, l = done ++ x :: xs) → Triple (I (x :: xs)) (f x) (fun _ => I xs) E) :
    Triple (I l) (l.forM f) (fun _ => I []) E := by
  suffices h : ∀ rest, (∃ done, l = done ++ rest) →
      Triple (I rest) (rest.forM f) (fun _ => I []) E from h l ⟨[], rfl⟩
  intro rest
  induction rest with
  | nil => exact fun _ => Triple.pure fun _ h => h
  | cons x xs ih =>
    rintro ⟨done, hdone⟩
    rw [List.forM_eq_forM, List.forM_cons]
    refine Triple.bind (step x xs ⟨done, hdone⟩) fun _ => ?_
    exact ih ⟨done ++ [x], by rw [hdone, List.append_assoc]; rfl⟩

/-! ### Frames

`Frames view m`: whatever `m` does, it leaves `view` of the state as it was. -/

/-- `m` leaves `view` unchanged, whether it returns or throws. -/
def Frames {τ : Type} (view : σ → τ) (m : Program σ ε α) : Prop :=
  ∀ s, view (m.outcome s).2 = view s

section Frames

variable {τ : Type} {view : σ → τ}

theorem Frames.pure {a : α} : Frames view (pure a : Program σ ε α) := fun _ => rfl

theorem Frames.throw {e : ε} : Frames view (throw e : Program σ ε α) := fun _ => rfl

theorem Frames.get : Frames view (get : Program σ ε σ) := fun _ => rfl

theorem Frames.modify {f : σ → σ} (h : ∀ s, view (f s) = view s) :
    Frames view (modify f : Program σ ε PUnit) := h

theorem Frames.bind {m : Program σ ε α} {f : α → Program σ ε β} (hm : Frames view m)
    (hf : ∀ a, Frames view (f a)) : Frames view (m >>= f) := by
  intro s
  have h := hm s
  rw [outcome_bind]
  cases ho : m.outcome s with
  | mk r s' =>
    rw [ho] at h
    cases r with
    | ok a => exact (hf a s').trans h
    | error e => exact h

theorem Frames.ite {c : Prop} [Decidable c] {m n : Program σ ε α} (hm : Frames view m)
    (hn : Frames view n) : Frames view (if c then m else n) := by
  split
  · exact hm
  · exact hn

theorem Frames.forM {l : List γ} {f : γ → Program σ ε PUnit} (h : ∀ a, Frames view (f a)) :
    Frames view (l.forM f) := by
  induction l with
  | nil => exact Frames.pure
  | cons a l ih =>
    rw [List.forM_eq_forM, List.forM_cons]
    exact Frames.bind (h a) fun _ => ih

/-- A framed program keeps what is said about the view. -/
theorem Frames.triple {m : Program σ ε α} (h : Frames view m) (P : τ → Prop) :
    Triple (fun s => P (view s)) m (fun _ s => P (view s)) (fun _ s => P (view s)) := by
  intro s hs
  have hview := h s
  cases ho : m.outcome s with
  | mk r s' =>
    rw [ho] at hview
    have hs' : P (view s') := by
      rw [show view s' = view s from hview]
      exact hs
    cases r with
    | ok a => exact hs'
    | error e => exact hs'

end Frames

/-! ### Related runs

`Respects R m`: from related states `m` gives the same result and related states. A relation that
hides a part of the state says that `m` neither returns it nor branches on it. -/

/-- `m` gives the same result from related states, and keeps them related. -/
def Respects (R : σ → σ → Prop) (m : Program σ ε α) : Prop :=
  ∀ s s', R s s' → (m.outcome s).1 = (m.outcome s').1 ∧ R (m.outcome s).2 (m.outcome s').2

section Respects

variable {R : σ → σ → Prop}

theorem Respects.pure {a : α} : Respects R (pure a : Program σ ε α) := fun _ _ h => ⟨rfl, h⟩

theorem Respects.throw {e : ε} : Respects R (throw e : Program σ ε α) := fun _ _ h => ⟨rfl, h⟩

theorem Respects.modify {f : σ → σ} (h : ∀ s s', R s s' → R (f s) (f s')) :
    Respects R (modify f : Program σ ε PUnit) := fun s s' hs => ⟨rfl, h s s' hs⟩

theorem Respects.bind {m : Program σ ε α} {f : α → Program σ ε β} (hm : Respects R m)
    (hf : ∀ a, Respects R (f a)) : Respects R (m >>= f) := by
  intro s s' h
  obtain ⟨hresult, hstate⟩ := hm s s' h
  rw [outcome_bind, outcome_bind]
  cases ho : m.outcome s with
  | mk r t =>
    cases ho' : m.outcome s' with
    | mk r' t' =>
      rw [ho, ho'] at hresult hstate
      cases hresult
      cases r with
      | ok a => exact hf a t t' hstate
      | error e => exact ⟨rfl, hstate⟩

/-- What follows a read may depend on what related states share. -/
theorem Respects.get_bind {f : σ → Program σ ε α} (heq : ∀ s s', R s s' → f s = f s')
    (hf : ∀ s, Respects R (f s)) : Respects R (get >>= f) := by
  intro s s' h
  rw [outcome_bind, outcome_bind, outcome_get, outcome_get]
  simp only [heq s s' h]
  exact hf s' s s' h

theorem Respects.ite {c : Prop} [Decidable c] {m n : Program σ ε α} (hm : Respects R m)
    (hn : Respects R n) : Respects R (if c then m else n) := by
  split
  · exact hm
  · exact hn

theorem Respects.foldlM {l : List γ} {f : α → γ → Program σ ε α}
    (h : ∀ a x, Respects R (f a x)) (a : α) : Respects R (l.foldlM f a) := by
  induction l generalizing a with
  | nil => exact Respects.pure
  | cons x l ih =>
    rw [List.foldlM_cons]
    exact (h a x).bind fun a' => ih a'

theorem Respects.forM {l : List γ} {f : γ → Program σ ε PUnit} (h : ∀ x, Respects R (f x)) :
    Respects R (l.forM f) := by
  induction l with
  | nil => exact Respects.pure
  | cons x l ih =>
    rw [List.forM_eq_forM, List.forM_cons]
    exact (h x).bind fun _ => ih

theorem Respects.mapM {l : List γ} {f : γ → Program σ ε α} (h : ∀ x, Respects R (f x)) :
    Respects R (l.mapM f) := by
  induction l with
  | nil => exact Respects.pure
  | cons x l ih =>
    rw [List.mapM_cons]
    exact (h x).bind fun _ => ih.bind fun _ => Respects.pure

theorem Respects.ensuring {m : Program σ ε α} {f : σ → σ} (hm : Respects R m)
    (hf : ∀ s s', R s s' → R (f s) (f s')) : Respects R (m.ensuring f) := by
  intro s s' h
  obtain ⟨hresult, hstate⟩ := hm s s' h
  rw [outcome_ensuring, outcome_ensuring]
  exact ⟨hresult, hf _ _ hstate⟩

end Respects

/-! ### Values returned

`Returns m R`: whenever `m` returns, its value satisfies `R`. The state is not constrained, so a
resource meter threaded through the state drops out of these proofs. -/

/-- Every value `m` returns satisfies `R`. -/
def Returns (m : Program σ ε α) (R : α → Prop) : Prop :=
  ∀ s a s', m.outcome s = (.ok a, s') → R a

theorem Returns.pure {R : α → Prop} {a : α} (h : R a) : Returns (pure a : Program σ ε α) R := by
  intro s b s' hb
  cases hb
  exact h

theorem Returns.throw {R : α → Prop} {e : ε} : Returns (throw e : Program σ ε α) R := by
  intro s a s' h
  exact absurd (congrArg Prod.fst h) (by simp)

theorem Returns.mono {m : Program σ ε α} {R R' : α → Prop} (h : Returns m R)
    (hR : ∀ a, R a → R' a) : Returns m R' :=
  fun s a s' ho => hR a (h s a s' ho)

theorem Returns.trivial (m : Program σ ε α) : Returns m fun _ => True := fun _ _ _ _ => True.intro

theorem Returns.and {m : Program σ ε α} {R R' : α → Prop} (h : Returns m R) (h' : Returns m R') :
    Returns m fun a => R a ∧ R' a := fun s a s' ho => ⟨h s a s' ho, h' s a s' ho⟩

/-- Some run of `m` returns `a`. -/
def Ran (m : Program σ ε α) (a : α) : Prop := ∃ s s', m.outcome s = (.ok a, s')

theorem Returns.ran (m : Program σ ε α) : Returns m (Ran m) := fun s _ s' ho => ⟨s, s', ho⟩

theorem Returns.of_ran {m : Program σ ε α} {R : α → Prop} (h : Returns m R) {a : α}
    (ha : Ran m a) : R a := by
  obtain ⟨s, s', ho⟩ := ha
  exact h s a s' ho

theorem Returns.bind {m : Program σ ε α} {f : α → Program σ ε β} {R : α → Prop} {R' : β → Prop}
    (hm : Returns m R) (hf : ∀ a, R a → Returns (f a) R') : Returns (m >>= f) R' := by
  intro s b s'' h
  obtain ⟨a, s', h1, h2⟩ := outcome_bind_eq_ok.mp h
  exact hf a (hm s a s' h1) s' b s'' h2

theorem Returns.ite {c : Prop} [Decidable c] {m n : Program σ ε α} {R : α → Prop}
    (hm : c → Returns m R) (hn : ¬ c → Returns n R) : Returns (if c then m else n) R := by
  split
  · exact hm ‹_›
  · exact hn ‹_›

/-- A loop over a list keeps what each of its iterations keeps. -/
theorem Returns.foldlM {l : List γ} {f : α → γ → Program σ ε α} {I : α → List γ → Prop} {a : α}
    (h0 : I a l) (step : ∀ a x xs, I a (x :: xs) → Returns (f a x) fun a' => I a' xs) :
    Returns (l.foldlM f a) fun a' => I a' [] := by
  induction l generalizing a with
  | nil => exact Returns.pure h0
  | cons x xs ih =>
    rw [List.foldlM_cons]
    exact Returns.bind (step a x xs h0) fun a' ha' => ih ha'

/-- Mapping over a list relates its elements to their values. -/
theorem Returns.mapM {l : List α} {f : α → Program σ ε β} {R : α → β → Prop}
    (h : ∀ a ∈ l, Returns (f a) (R a)) : Returns (l.mapM f) (List.Forall₂ R l) := by
  induction l with
  | nil => exact Returns.pure .nil
  | cons a l ih =>
    rw [List.mapM_cons]
    refine Returns.bind (h a List.mem_cons_self) fun b hb => ?_
    refine Returns.bind (ih fun x hx => h x (List.mem_cons_of_mem _ hx)) fun bs hbs => ?_
    exact Returns.pure (.cons hb hbs)

end Program
