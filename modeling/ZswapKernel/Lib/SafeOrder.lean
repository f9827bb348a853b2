import Mathlib.Algebra.BigOperators.Group.List.Basic

/-!
# Orders with safe partial sums

Terms of a commutative monoid are added one after another to a starting value, and every partial
sum must satisfy `ok`. `SafeFrom ok a xs` says that the order `xs` does; `Orderable ok a xs` says
that some reordering of `xs` does.

A backtracking search for such an order rests on `orderable_iff_exists_first`: an order exists iff
some term can go first and the rest can be ordered after it.
-/

namespace SafeOrder

variable {A : Type*} [AddCommMonoid A] {ok : A → Prop}

/-- Every partial sum of `xs` started at `a` satisfies `ok`. -/
def SafeFrom (ok : A → Prop) : A → List A → Prop
  | _, [] => True
  | a, x :: xs => ok (a + x) ∧ SafeFrom ok (a + x) xs

@[simp] theorem safeFrom_nil (a : A) : SafeFrom ok a [] := trivial

@[simp] theorem safeFrom_cons (a x : A) (xs : List A) :
    SafeFrom ok a (x :: xs) ↔ ok (a + x) ∧ SafeFrom ok (a + x) xs := Iff.rfl

theorem safeFrom_append (a : A) (xs ys : List A) :
    SafeFrom ok a (xs ++ ys) ↔ SafeFrom ok a xs ∧ SafeFrom ok (a + xs.sum) ys := by
  induction xs generalizing a with
  | nil => simp
  | cons x xs ih => simp [ih, add_assoc, and_assoc]

/-- A safe order ends in an `ok` value. -/
theorem SafeFrom.sum_ok {a : A} {xs : List A} (h : SafeFrom ok a xs) (ha : ok a) :
    ok (a + xs.sum) := by
  induction xs generalizing a with
  | nil => simpa using ha
  | cons x xs ih =>
    rw [List.sum_cons, ← add_assoc]
    exact ih h.2 h.1

/-- The safe orders are those whose nonempty prefixes sum up to an `ok` value. -/
theorem safeFrom_iff_take (a : A) (xs : List A) :
    SafeFrom ok a xs ↔ ∀ n, n < xs.length → ok (a + (xs.take (n + 1)).sum) := by
  induction xs generalizing a with
  | nil => simp
  | cons x xs ih =>
    rw [safeFrom_cons, ih]
    constructor
    · rintro ⟨hx, hxs⟩ n hn
      cases n with
      | zero => simpa using hx
      | succ n =>
        have := hxs n (by simpa using hn)
        simpa [add_assoc] using this
    · intro h
      refine ⟨by simpa using h 0 (by simp), fun n hn => ?_⟩
      have := h (n + 1) (by simpa using hn)
      simpa [add_assoc] using this

/-- Some reordering of `xs` is safe from `a`. -/
def Orderable (ok : A → Prop) (a : A) (xs : List A) : Prop :=
  ∃ order : List A, order.Perm xs ∧ SafeFrom ok a order

theorem orderable_nil (a : A) : Orderable ok a [] := ⟨[], List.Perm.nil, trivial⟩

theorem SafeFrom.orderable {a : A} {xs : List A} (h : SafeFrom ok a xs) : Orderable ok a xs :=
  ⟨xs, List.Perm.refl xs, h⟩

theorem Orderable.perm {a : A} {xs ys : List A} (h : Orderable ok a xs) (hp : xs.Perm ys) :
    Orderable ok a ys := by
  obtain ⟨order, ho, hs⟩ := h
  exact ⟨order, ho.trans hp, hs⟩

/-- A term that fits goes first when the rest can be ordered after it. -/
theorem Orderable.cons {a x : A} {xs : List A} (hx : ok (a + x)) (h : Orderable ok (a + x) xs) :
    Orderable ok a (x :: xs) := by
  obtain ⟨order, ho, hs⟩ := h
  exact ⟨x :: order, ho.cons x, hx, hs⟩

/-- **The backtracking step.** Indexed terms can be ordered iff one of them can go first. -/
theorem orderable_iff_exists_first {ι : Type*} [DecidableEq ι] (d : ι → A) (a : A) {is : List ι}
    (hne : is ≠ []) :
    Orderable ok a (is.map d) ↔
      ∃ i ∈ is, ok (a + d i) ∧ Orderable ok (a + d i) ((is.erase i).map d) := by
  constructor
  · rintro ⟨order, hperm, hsafe⟩
    cases order with
    | nil => exact absurd hperm.symm.eq_nil (by simpa using hne)
    | cons x xs =>
      obtain ⟨i, hi, rfl⟩ := List.mem_map.mp (hperm.mem_iff.mp List.mem_cons_self)
      have hrest : (d i :: xs).Perm (d i :: (is.erase i).map d) :=
        hperm.trans ((List.perm_cons_erase hi).map d)
      exact ⟨i, hi, hsafe.1, xs, hrest.cons_inv, hsafe.2⟩
  · rintro ⟨i, hi, hok, hrest⟩
    exact (hrest.cons hok).perm ((List.perm_cons_erase hi).map d).symm

/-- The order can be read as an order of the indices. -/
theorem Orderable.exists_index_order {ι : Type*} [DecidableEq ι] {d : ι → A} {a : A} {is : List ι}
    (h : Orderable ok a (is.map d)) :
    ∃ order : List ι, order.Perm is ∧ SafeFrom ok a (order.map d) := by
  generalize hlen : is.length = n
  induction n generalizing a is with
  | zero =>
    rw [List.eq_nil_of_length_eq_zero hlen]
    exact ⟨[], List.Perm.nil, trivial⟩
  | succ n ih =>
    have hne : is ≠ [] := by
      rintro rfl
      cases hlen
    obtain ⟨i, hi, hok, hrest⟩ := (orderable_iff_exists_first d a hne).mp h
    obtain ⟨order, hperm, hsafe⟩ := ih hrest (by rw [List.length_erase_of_mem hi, hlen]; rfl)
    exact ⟨i :: order, (hperm.cons i).trans (List.perm_cons_erase hi).symm, hok, hsafe⟩

end SafeOrder
