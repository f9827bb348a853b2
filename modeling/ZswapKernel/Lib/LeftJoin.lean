import Mathlib.Data.List.Dedup
import Mathlib.Order.Lattice

/-!
# Left joins and what they aggregate

Rows joined with the rows of another table that match them, or with none, and the counts and bounds
a query takes over the result. A comparison with an absent value is not true.

* `mem_leftJoin_some`, `exists_mem_leftJoin` — the joined rows.
* `sqlEq_iff`, `eq_of_distinct`, `eq_of_bounds` — what the aggregates say of the rows they are over.
-/

namespace ZswapKernel

variable {α β : Type}

/-- Every row of `l` with each row of `r` that matches it, or alone. -/
def leftJoin (on : α → β → Bool) (l : List α) (r : List β) : List (α × Option β) :=
  l.flatMap fun a => if r.any (on a) then (r.filter (on a)).map fun b => (a, some b)
    else [(a, none)]

theorem mem_leftJoin_some {on : α → β → Bool} {l : List α} {r : List β} {a : α} {b : β} :
    (a, some b) ∈ leftJoin on l r ↔ a ∈ l ∧ b ∈ r ∧ on a b = true := by
  unfold leftJoin
  rw [List.mem_flatMap]
  constructor
  · rintro ⟨other, hother, hmem⟩
    split at hmem
    · obtain ⟨row, hrow, heq⟩ := List.mem_map.mp hmem
      cases heq
      exact ⟨hother, List.mem_filter.mp hrow⟩
    · cases List.mem_singleton.mp hmem
  · rintro ⟨ha, hb, hon⟩
    refine ⟨a, ha, ?_⟩
    rw [if_pos (List.any_eq_true.mpr ⟨b, hb, hon⟩)]
    exact List.mem_map_of_mem (List.mem_filter.mpr ⟨hb, hon⟩)

/-- Every row of the left table is in the join. -/
theorem exists_mem_leftJoin (on : α → β → Bool) {l : List α} (r : List β) {a : α} (ha : a ∈ l) :
    ∃ b, (a, b) ∈ leftJoin on l r := by
  by_cases hany : r.any (on a) = true
  · obtain ⟨b, hb, hon⟩ := List.any_eq_true.mp hany
    exact ⟨some b, mem_leftJoin_some.mpr ⟨ha, hb, hon⟩⟩
  · refine ⟨none, List.mem_flatMap.mpr ⟨a, ha, ?_⟩⟩
    rw [if_neg hany]
    exact List.mem_singleton.mpr rfl

/-- Whether a comparison is true, rather than false or NULL. -/
def sqlEq [DecidableEq α] (a b : Option α) : Bool := a.isSome && a = b

theorem sqlEq_iff [DecidableEq α] {a b : Option α} :
    sqlEq a b = true ↔ ∃ value, a = some value ∧ b = some value := by
  unfold sqlEq
  cases a <;> cases b <;> simp [eq_comm]

/-- `COUNT(DISTINCT …) = 1`. -/
theorem eq_of_distinct [DecidableEq α] {l : List α} (h : l.dedup.length = 1) {a b : α} (ha : a ∈ l)
    (hb : b ∈ l) : a = b := by
  obtain ⟨only, honly⟩ := List.length_eq_one_iff.mp h
  have hall : ∀ x ∈ l, x = only := by
    intro x hx
    rw [← List.mem_dedup, honly] at hx
    exact List.mem_singleton.mp hx
  rw [hall a ha, hall b hb]

/-- `MIN(…) = MAX(…)`. -/
theorem eq_of_bounds {l : List Nat} {bound : Nat} (hmin : l.min? = some bound)
    (hmax : l.max? = some bound) {n : Nat} (hn : n ∈ l) : n = bound :=
  Nat.le_antisymm ((List.max?_eq_some_iff.mp hmax).2 n hn) ((List.min?_eq_some_iff.mp hmin).2 n hn)

end ZswapKernel
