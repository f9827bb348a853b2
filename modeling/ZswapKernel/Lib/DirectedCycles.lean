import Mathlib.Data.Fintype.EquivFin
import Mathlib.Data.Fintype.Sets
import Mathlib.Logic.Relation
import Mathlib.Order.WellFounded

/-!
# Directed cycles of a finite relation

A relation has a cycle through a vertex that reaches itself. A finite nonempty set in which every
vertex has a predecessor has one, and a numbering that grows along the edges rules one out.

* `exists_cycle_of_predecessors`
* `lt_of_transGen`
-/

namespace DirectedCycles

variable {α : Type} {R : α → α → Prop}

/-- Where every vertex has a predecessor some vertex reaches itself. -/
theorem exists_cycle_of_predecessors (vertices : Finset α) (hne : vertices.Nonempty)
    (hpred : ∀ v ∈ vertices, ∃ u ∈ vertices, R u v) :
    ∃ v ∈ vertices, Relation.TransGen R v v := by
  by_contra hnone
  push Not at hnone
  let reaches : vertices → vertices → Prop := fun u v => Relation.TransGen R u v
  have : IsTrans vertices reaches := ⟨fun _ _ _ hab hbc => hab.trans hbc⟩
  have : Std.Irrefl reaches := ⟨fun v => hnone v v.2⟩
  have hwf := Finite.wellFounded_of_trans_of_irrefl reaches
  obtain ⟨v, hv⟩ := hne
  obtain ⟨first, -, hfirst⟩ := hwf.has_min Set.univ ⟨⟨v, hv⟩, trivial⟩
  obtain ⟨u, hu, hedge⟩ := hpred first first.2
  exact hfirst ⟨u, hu⟩ trivial (Relation.TransGen.single hedge)

/-- A numbering that grows along the edges grows along the paths, where the vertices of the path
satisfy what the growth needs. -/
theorem lt_of_transGen {P : α → Prop} {position : α → Nat}
    (hback : ∀ u v, R u v → P v → P u)
    (hgrows : ∀ u v, R u v → P v → position u < position v) {u v : α}
    (h : Relation.TransGen R u v) (hv : P v) : position u < position v := by
  induction h with
  | single hedge => exact hgrows _ _ hedge hv
  | tail _ hedge ih => exact (ih (hback _ _ hedge hv)).trans (hgrows _ _ hedge hv)

end DirectedCycles
