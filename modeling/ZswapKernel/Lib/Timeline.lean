import Mathlib.Data.Int.Order.Basic
import Mathlib.Data.List.Pairwise

/-!
# Values that replace one another in time

A timeline lists deliveries, the latest first. A delivered value is current from its time on, until
the next delivery; `Held window` is what a store keeps that retains every value that was current
within the last `window` time units, and the current one.

* `held_iff` — what is held, in terms of the last delivery of a value and the one after it.
-/

namespace Timeline

variable {α ρ : Type*} (value : α → ρ) (time : α → Int)

/-- `v` is current at `s`: it was delivered by then, and what was delivered after it came later. -/
def CurrentAt (past : List α) (v : ρ) (s : Int) : Prop :=
  ∃ later d earlier, past = later ++ d :: earlier ∧ value d = v ∧ time d ≤ s ∧
    (s = time d ∨ ∀ x ∈ later, s < time x)

/-- What is held at `now`: the value delivered last, and those current in the window. -/
def Held (window : Int) (past : List α) (now : Int) (v : ρ) : Prop :=
  (∃ d earlier, past = d :: earlier ∧ value d = v) ∨
    ∃ s, now - window ≤ s ∧ s ≤ now ∧ CurrentAt value time past v s

/-- `d` is the last delivery of `v`. -/
structure LastOf (past : List α) (v : ρ) (later : List α) (d : α) (earlier : List α) : Prop where
  split : past = later ++ d :: earlier
  value_eq : value d = v
  last : ∀ x ∈ later, value x ≠ v

/-- Times do not decrease, and none is in the future of `now`. -/
structure Ordered (past : List α) (now : Int) : Prop where
  sorted : past.Pairwise (time · ≥ time ·)
  upTo : ∀ d ∈ past, time d ≤ now

variable {value time} {past later earlier : List α} {now window : Int} {v : ρ} {d : α}

theorem exists_lastOf (h : ∃ d ∈ past, value d = v) :
    ∃ later d earlier, LastOf value past v later d earlier := by
  classical
  induction past with
  | nil =>
    obtain ⟨d, hd, -⟩ := h
    cases hd
  | cons a past ih =>
    by_cases ha : value a = v
    · exact ⟨[], a, past, rfl, ha, fun x hx => absurd hx List.not_mem_nil⟩
    · obtain ⟨d, hd, hv⟩ := h
      have hd : d ∈ past := (List.mem_cons.mp hd).resolve_left fun heq => ha (heq ▸ hv)
      obtain ⟨later, d, earlier, hlast⟩ := ih ⟨d, hd, hv⟩
      refine ⟨a :: later, d, earlier, by rw [hlast.split, List.cons_append], hlast.value_eq, ?_⟩
      intro x hx
      rcases List.mem_cons.mp hx with rfl | hx
      · exact ha
      · exact hlast.last x hx

theorem Held.delivered (h : Held value time window past now v) : ∃ d ∈ past, value d = v := by
  rcases h with ⟨d, earlier, rfl, hv⟩ | ⟨s, -, -, later, d, earlier, rfl, hv, -⟩
  · exact ⟨d, List.mem_cons_self, hv⟩
  · exact ⟨d, List.mem_append_right _ List.mem_cons_self, hv⟩

theorem LastOf.mem (h : LastOf value past v later d earlier) : d ∈ past :=
  h.split ▸ List.mem_append_right _ List.mem_cons_self

/-- Every delivery of a value is the last one or before it. -/
theorem LastOf.time_le (h : LastOf value past v later d earlier) (hordered : Ordered time past now)
    {x : α} (hx : x ∈ past) (hv : value x = v) : time x ≤ time d := by
  have hsorted := hordered.sorted
  rw [h.split] at hx hsorted
  rcases List.mem_append.mp hx with hlater | hx
  · exact absurd hv (h.last x hlater)
  · rcases List.mem_cons.mp hx with rfl | hx
    · exact le_rfl
    · exact List.rel_of_pairwise_cons (List.pairwise_append.mp hsorted).2.1 hx

/-- The delivery right after the last one of `v` is the first that comes later. -/
theorem LastOf.next_le (h : LastOf value past v later d earlier) (hordered : Ordered time past now)
    {next x : α} (hnext : later.getLast? = some next) (hx : x ∈ later) : time next ≤ time x := by
  obtain ⟨init, rfl⟩ := List.getLast?_eq_some_iff.mp hnext
  have hsorted := hordered.sorted
  rw [h.split] at hsorted
  rcases List.mem_append.mp hx with hx | hx
  · exact (List.pairwise_append.mp (List.pairwise_append.mp hsorted).1).2.2 x hx next
      List.mem_cons_self
  · rw [List.mem_singleton.mp hx]

/-- What comes after the last delivery of `v` comes after every delivery of `v`. -/
theorem LastOf.later_subset (h : LastOf value past v later d earlier) {later' earlier' : List α}
    {x : α} (hpast : past = later' ++ x :: earlier') (hx : value x = v) : later ⊆ later' := by
  rcases List.append_eq_append_iff.mp (h.split.symm.trans hpast) with
    ⟨middle, rfl, -⟩ | ⟨middle, rfl, hrest⟩
  · exact List.subset_append_left later middle
  · cases middle with
    | nil => exact fun y hy => by simpa using hy
    | cons y middle =>
      obtain ⟨rfl, -⟩ := List.cons.inj hrest
      exact absurd hx (h.last x (List.mem_append_right _ List.mem_cons_self))

theorem LastOf.unique (h : LastOf value past v later d earlier) {later' earlier' : List α} {d' : α}
    (h' : LastOf value past v later' d' earlier') :
    later = later' ∧ d = d' ∧ earlier = earlier' := by
  rcases List.append_eq_append_iff.mp (h.split.symm.trans h'.split) with
    ⟨middle, rfl, hrest⟩ | ⟨middle, rfl, hrest⟩
  · cases middle with
    | nil =>
      obtain ⟨rfl, rfl⟩ := List.cons.inj hrest
      exact ⟨(List.append_nil _).symm, rfl, rfl⟩
    | cons y middle =>
      obtain ⟨rfl, -⟩ := List.cons.inj hrest
      exact absurd h.value_eq (h'.last d (List.mem_append_right _ List.mem_cons_self))
  · cases middle with
    | nil =>
      obtain ⟨rfl, rfl⟩ := List.cons.inj hrest
      exact ⟨List.append_nil _, rfl, rfl⟩
    | cons y middle =>
      obtain ⟨rfl, -⟩ := List.cons.inj hrest
      exact absurd h'.value_eq (h.last d' (List.mem_append_right _ List.mem_cons_self))

/-- **What is held**: the value delivered last, one delivered in the window, and one whose successor
was delivered in it. -/
theorem held_iff (h : LastOf value past v later d earlier) (hordered : Ordered time past now)
    (hwindow : 0 ≤ window) :
    Held value time window past now v ↔ later = [] ∨ now - window ≤ time d ∨
      ∃ next, later.getLast? = some next ∧ now - window < time next := by
  have hd : time d ≤ now := hordered.upTo d h.mem
  constructor
  · rintro (⟨x, rest, hpast, hx⟩ | ⟨s, hlow, -, later', x, earlier', hpast, hx, hle, hs⟩)
    · left
      exact List.subset_nil.mp (h.later_subset (hpast.trans (List.nil_append _).symm) hx)
    · have hxd := h.time_le hordered (hpast ▸ List.mem_append_right _ List.mem_cons_self) hx
      rcases hs with rfl | hs
      · exact Or.inr (Or.inl (le_trans hlow hxd))
      · cases hnext : later.getLast? with
        | none => exact Or.inl (List.getLast?_eq_none_iff.mp hnext)
        | some next =>
          have hmem := h.later_subset hpast hx (List.mem_of_getLast? hnext)
          exact Or.inr (Or.inr ⟨next, rfl, lt_of_le_of_lt hlow (hs next hmem)⟩)
  · rintro (rfl | hrecent | ⟨next, hnext, hlt⟩)
    · exact Or.inl ⟨d, earlier, h.split, h.value_eq⟩
    · exact Or.inr ⟨time d, hrecent, hd, later, d, earlier, h.split, h.value_eq, le_rfl, .inl rfl⟩
    · by_cases hrecent : now - window ≤ time d
      · exact Or.inr ⟨time d, hrecent, hd, later, d, earlier, h.split, h.value_eq, le_rfl, .inl rfl⟩
      · -- it is still current when the window begins
        refine Or.inr ⟨now - window, le_rfl, by omega, later, d, earlier, h.split, h.value_eq,
          by omega, .inr fun x hx => ?_⟩
        exact lt_of_lt_of_le hlt (h.next_le hordered hnext hx)

end Timeline
