import Mathlib.Algebra.BigOperators.Group.List.Basic
import Mathlib.Algebra.Order.BigOperators.Group.List
import Mathlib.Algebra.Order.Ring.Int
import Mathlib.Data.String.Basic

/-!
# Sums over the entries that count

`total p amount l` adds up the amounts of the entries of `l` that satisfy `p`, as a budget does that
counts the entries of a window only.

* `total_filter` — dropping entries that do not count changes nothing.
* `total_le_total` — over more entries the sum is no smaller, where amounts are not negative.
* `split_of_find?` — with unique keys, changing the entry of a key changes one place of the list.
-/

namespace RollingSum

variable {α κ : Type*} (p q : α → Bool) (amount : α → Int)

def total (l : List α) : Int := ((l.filter p).map amount).sum

@[simp] theorem total_nil : total p amount [] = 0 := rfl

theorem total_cons (x : α) (l : List α) :
    total p amount (x :: l) = (if p x then amount x else 0) + total p amount l := by
  unfold total
  by_cases hx : p x <;> simp [hx]

theorem total_append (l r : List α) :
    total p amount (l ++ r) = total p amount l + total p amount r := by
  unfold total
  rw [List.filter_append, List.map_append, List.sum_append]

theorem total_singleton (x : α) : total p amount [x] = if p x then amount x else 0 := by
  rw [total_cons, total_nil, Int.add_zero]

variable {p q amount}

theorem total_congr {l : List α} (h : ∀ x ∈ l, p x = q x) : total p amount l = total q amount l := by
  unfold total
  rw [List.filter_congr h]

/-- Entries that do not count may be dropped. -/
theorem total_filter {keep : α → Bool} {l : List α} (h : ∀ x ∈ l, p x → keep x) :
    total p amount (l.filter keep) = total p amount l := by
  unfold total
  rw [List.filter_filter]
  congr 2
  refine List.filter_congr fun x hx => ?_
  cases hp : p x with
  | false => rw [Bool.false_and]
  | true => rw [h x hx hp, Bool.true_and]

/-- The sum grows with the entries that count. -/
theorem total_le_total {l : List α} (h : ∀ x ∈ l, p x → q x) (hq : ∀ x ∈ l, 0 ≤ amount x) :
    total p amount l ≤ total q amount l := by
  induction l with
  | nil => exact le_rfl
  | cons x l ih =>
    have htail := ih (fun y hy => h y (List.mem_cons_of_mem x hy))
      fun y hy => hq y (List.mem_cons_of_mem x hy)
    have hx := hq x List.mem_cons_self
    rw [total_cons, total_cons]
    by_cases hp : p x
    · rw [if_pos hp, if_pos (h x List.mem_cons_self hp)]
      omega
    · rw [if_neg hp]
      split <;> omega

/-! ## The entry of a key -/

variable [DecidableEq κ] {key : α → κ} {k : κ} {x : α} {l : List α}

/-- With unique keys, changing the entry of a key leaves the entries around it alone. -/
theorem split_of_find? (hkeys : (l.map key).Nodup) (hfind : l.find? (key · = k) = some x)
    (change : α → α) :
    ∃ left right, l = left ++ x :: right ∧
      l.map (fun y => if key y = k then change y else y) = left ++ change x :: right := by
  have hx : key x = k := by simpa using List.find?_some hfind
  obtain ⟨left, right, rfl⟩ := List.append_of_mem (List.mem_of_find?_eq_some hfind)
  rw [List.map_append, List.map_cons, List.nodup_append] at hkeys
  obtain ⟨-, hright, hapart⟩ := hkeys
  have houtside : ∀ y, y ∈ left ∨ y ∈ right → key y ≠ k := by
    rintro y (hy | hy) hkey
    · exact hapart _ (List.mem_map_of_mem hy) _ List.mem_cons_self (hkey.trans hx.symm)
    · refine (List.nodup_cons.mp hright).1 ?_
      rw [hx, ← hkey]
      exact List.mem_map_of_mem hy
  have hkept : ∀ part : List α, (∀ y ∈ part, key y ≠ k) →
      part.map (fun y => if key y = k then change y else y) = part := fun part hpart => by
    rw [List.map_congr_left fun y hy => if_neg (hpart y hy), List.map_id']
  refine ⟨left, right, rfl, ?_⟩
  rw [List.map_append, List.map_cons, if_pos hx, hkept left fun y hy => houtside y (.inl hy),
    hkept right fun y hy => houtside y (.inr hy)]

end RollingSum
