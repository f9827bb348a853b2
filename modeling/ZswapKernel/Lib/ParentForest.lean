import Mathlib.Data.Finset.Card
import Mathlib.Logic.Function.Basic

/-!
# Forests given by parent pointers

A function `parent` whose fixed points are roots. `HasRoot parent v r` says that following the
pointers from `v` ends in the root `r`; the root is unique, and it exists when a rank increases
along the pointers (`Ranked`).

The two updates of a disjoint-set structure are covered for any such function: pointing a vertex at
its own root changes no root (`HasRoot.compress`), and linking one root below another moves the
vertices of the first to the second (`HasRoot.link`).
-/

namespace ParentForest

variable {α : Type*} {parent : α → α}

/-- Following the pointers from `v` ends in the root `r`. -/
inductive HasRoot (parent : α → α) : α → α → Prop
  | root {r : α} (h : parent r = r) : HasRoot parent r r
  | step {v r : α} (hne : parent v ≠ v) (h : HasRoot parent (parent v) r) : HasRoot parent v r

namespace HasRoot

theorem fixed {v r : α} (h : HasRoot parent v r) : parent r = r := by
  induction h with
  | root h => exact h
  | step _ _ ih => exact ih

theorem unique {v r r' : α} (h : HasRoot parent v r) (h' : HasRoot parent v r') : r = r' := by
  induction h with
  | root h =>
    cases h' with
    | root => rfl
    | step hne => exact absurd h hne
  | step hne _ ih =>
    cases h' with
    | root h => exact absurd h hne
    | step _ h' => exact ih h'

theorem eq_of_fixed {v r : α} (h : HasRoot parent v r) (hv : parent v = v) : r = v :=
  h.unique (.root hv)

section Update

variable [DecidableEq α]

/-- Path compression: pointing `c` at its own root changes no root. -/
theorem compress {c r v s : α} (hc : HasRoot parent c r) (hv : HasRoot parent v s) :
    HasRoot (Function.update parent c r) v s := by
  induction hv with
  | @root s hs =>
    by_cases heq : s = c
    · subst heq
      obtain rfl := hc.eq_of_fixed hs
      exact .root (by simp)
    · exact .root (by rw [Function.update_of_ne heq, hs])
  | @step v s hne hv ih =>
    by_cases heq : v = c
    · subst heq
      obtain rfl := hc.unique (.step hne hv)
      have hrv : r ≠ v := fun h => hne (h ▸ hc.fixed)
      exact .step (by simpa using hrv) (by
        rw [Function.update_self]
        exact .root (by rw [Function.update_of_ne hrv, hc.fixed]))
    · exact .step (by rwa [Function.update_of_ne heq]) (by rwa [Function.update_of_ne heq])

/-- Linking the root `b` below the root `a` moves the vertices of `b` to `a`. -/
theorem link {a b v s : α} (ha : parent a = a) (hb : parent b = b) (hab : a ≠ b)
    (hv : HasRoot parent v s) :
    HasRoot (Function.update parent b a) v (if s = b then a else s) := by
  have ha' : Function.update parent b a a = a := by rw [Function.update_of_ne hab, ha]
  induction hv with
  | @root s hs =>
    by_cases heq : s = b
    · subst heq
      rw [if_pos rfl]
      exact .step (by simpa using hab) (by simpa using HasRoot.root ha')
    · rw [if_neg heq]
      exact .root (by rw [Function.update_of_ne heq, hs])
  | @step v s hne hv ih =>
    have hvb : v ≠ b := fun h => hne (h ▸ hb)
    exact .step (by rwa [Function.update_of_ne hvb]) (by rwa [Function.update_of_ne hvb])

end Update

end HasRoot

/-- Below `size`, pointers stay below `size` and lead to vertices of higher rank. -/
structure Ranked (size : Nat) (parent rank : Nat → Nat) : Prop where
  parent_lt : ∀ v < size, parent v < size
  rank_lt : ∀ v < size, parent v ≠ v → rank v < rank (parent v)

/-- The vertices ranked above `v`. -/
def above (size : Nat) (rank : Nat → Nat) (v : Nat) : Finset Nat :=
  (Finset.range size).filter (rank v < rank ·)

theorem card_above_lt {size : Nat} {rank : Nat → Nat} {v : Nat} (hv : v < size) :
    (above size rank v).card < size := by
  have hsub : above size rank v ⊂ Finset.range size := by
    refine (Finset.filter_subset _ _).ssubset_of_not_subset fun h => ?_
    have hmem := h (Finset.mem_range.mpr hv)
    exact absurd (Finset.mem_filter.mp hmem).2 (lt_irrefl _)
  simpa using Finset.card_lt_card hsub

theorem Ranked.card_above_parent {size : Nat} {parent rank : Nat → Nat}
    (h : Ranked size parent rank) {v : Nat} (hv : v < size) (hne : parent v ≠ v) :
    (above size rank (parent v)).card < (above size rank v).card := by
  have hlt := h.rank_lt v hv hne
  have hmem : parent v ∈ above size rank v :=
    Finset.mem_filter.mpr ⟨Finset.mem_range.mpr (h.parent_lt v hv), hlt⟩
  refine Finset.card_lt_card ⟨fun w hw => ?_, fun hsub => ?_⟩
  · obtain ⟨hw, hrank⟩ := Finset.mem_filter.mp hw
    exact Finset.mem_filter.mpr ⟨hw, hlt.trans hrank⟩
  · exact absurd (Finset.mem_filter.mp (hsub hmem)).2 (lt_irrefl _)

/-- Ranks do not decrease on the way to the root. -/
theorem Ranked.rank_le {size : Nat} {parent rank : Nat → Nat} (h : Ranked size parent rank)
    {v r : Nat} (hv : v < size) (hroot : HasRoot parent v r) :
    r < size ∧ rank v ≤ rank r ∧ (v ≠ r → rank v < rank r) := by
  induction hroot with
  | root => exact ⟨hv, le_rfl, fun h => absurd rfl h⟩
  | @step v r hne _ ih =>
    obtain ⟨hr, hle, -⟩ := ih (h.parent_lt v hv)
    have hlt := (h.rank_lt v hv hne).trans_le hle
    exact ⟨hr, hlt.le, fun _ => hlt⟩

end ParentForest
