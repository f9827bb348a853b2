import Mathlib.Data.List.Sort
import Mathlib.Data.String.Basic

/-!
# Joined texts

`String.intercalate` with a separator of one character, read back: the parts are recovered when none
of them is empty or has the separator in it. A sorted join is an identity for the parts up to order.

* `intercalate_injective` — a join determines its parts.
* `perm_of_sorted` — a sorted join determines its parts up to order.
-/

namespace Joined

/-- Two texts cut at their first separator. -/
theorem append_cons_inj_of_notMem_left {α : Type} {separator : α} {left left' right right' : List α}
    (hleft : separator ∉ left) (hleft' : separator ∉ left')
    (h : left ++ separator :: right = left' ++ separator :: right') :
    left = left' ∧ right = right' := by
  induction left generalizing left' with
  | nil =>
    cases left' with
    | nil => exact ⟨rfl, (List.cons.inj h).2⟩
    | cons c left' => exact absurd (List.mem_cons.mpr (Or.inl (List.cons.inj h).1)) hleft'
  | cons c left ih =>
    cases left' with
    | nil => exact absurd (List.mem_cons.mpr (Or.inl (List.cons.inj h).1.symm)) hleft
    | cons c' left' =>
      obtain ⟨rfl, hrest⟩ := List.cons.inj h
      obtain ⟨rfl, hright⟩ := ih (fun hmem => hleft (List.mem_cons_of_mem _ hmem))
        (fun hmem => hleft' (List.mem_cons_of_mem _ hmem)) hrest
      exact ⟨rfl, hright⟩

/-- A part that a join on `separator` gives back. -/
structure Part (separator : Char) (value : String) : Prop where
  nonempty : value ≠ ""
  free : separator ∉ value.toList

variable {separator : Char} {joiner : String} {values others : List String}

/-- The characters of a join. -/
theorem toList_intercalate_cons (hjoiner : joiner.toList = [separator]) (value : String)
    (values : List String) : (String.intercalate joiner (value :: values)).toList =
      value.toList ++
        (if values = [] then [] else separator :: (String.intercalate joiner values).toList) := by
  cases values with
  | nil => simp
  | cons next values =>
    rw [String.intercalate_cons_cons, String.toList_append, String.toList_append, hjoiner,
      if_neg (List.cons_ne_nil next values), List.append_assoc, List.singleton_append]

theorem intercalate_cons_ne_empty (hjoiner : joiner.toList = [separator]) {value : String}
    (hvalue : Part separator value) (values : List String) :
    String.intercalate joiner (value :: values) ≠ "" := by
  intro heq
  have hlist := congrArg String.toList heq
  rw [toList_intercalate_cons hjoiner] at hlist
  have hnil : value.toList = [] := (List.append_eq_nil_iff.mp hlist).1
  exact hvalue.nonempty (String.toList_inj.mp hnil)

/-- **A join determines its parts.** -/
theorem intercalate_injective (hjoiner : joiner.toList = [separator])
    (hvalues : ∀ value ∈ values, Part separator value)
    (hothers : ∀ value ∈ others, Part separator value)
    (h : String.intercalate joiner values = String.intercalate joiner others) :
    values = others := by
  induction values generalizing others with
  | nil =>
    cases others with
    | nil => rfl
    | cons other others =>
      exact absurd h.symm (intercalate_cons_ne_empty hjoiner (hothers other List.mem_cons_self) _)
  | cons value values ih =>
    cases others with
    | nil =>
      exact absurd h (intercalate_cons_ne_empty hjoiner (hvalues value List.mem_cons_self) _)
    | cons other others =>
      have hfree := (hvalues value List.mem_cons_self).free
      have hfree' := (hothers other List.mem_cons_self).free
      have hlist := congrArg String.toList h
      rw [toList_intercalate_cons hjoiner, toList_intercalate_cons hjoiner] at hlist
      by_cases hnil : values = []
      · by_cases hnil' : others = []
        · rw [if_pos hnil, if_pos hnil', List.append_nil, List.append_nil] at hlist
          rw [hnil, hnil', String.toList_inj.mp hlist]
        · rw [if_pos hnil, if_neg hnil', List.append_nil] at hlist
          exact absurd (by rw [hlist]; simp) hfree
      · by_cases hnil' : others = []
        · rw [if_neg hnil, if_pos hnil', List.append_nil] at hlist
          exact absurd (by rw [← hlist]; simp) hfree'
        · rw [if_neg hnil, if_neg hnil'] at hlist
          obtain ⟨hhead, htail⟩ := append_cons_inj_of_notMem_left hfree hfree' hlist
          rw [String.toList_inj.mp hhead,
            ih (fun v hv => hvalues v (List.mem_cons_of_mem _ hv))
              (fun v hv => hothers v (List.mem_cons_of_mem _ hv)) (String.toList_inj.mp htail)]

/-- A character of a join is the separator or in a part. -/
theorem notMem_intercalate {c : Char} (hjoiner : joiner.toList = [separator])
    (hc : c ≠ separator) (hvalues : ∀ value ∈ values, c ∉ value.toList) :
    c ∉ (String.intercalate joiner values).toList := by
  induction values with
  | nil => exact List.not_mem_nil
  | cons value values ih =>
    rw [toList_intercalate_cons hjoiner, List.mem_append, not_or]
    refine ⟨hvalues value List.mem_cons_self, ?_⟩
    split
    · exact List.not_mem_nil
    · rw [List.mem_cons, not_or]
      exact ⟨hc, ih fun v hv => hvalues v (List.mem_cons_of_mem _ hv)⟩

/-- **A sorted join determines its parts up to order.** -/
theorem perm_of_sorted (hjoiner : joiner.toList = [separator])
    (hvalues : ∀ value ∈ values, Part separator value)
    (hothers : ∀ value ∈ others, Part separator value)
    (h : String.intercalate joiner (values.insertionSort (· ≤ ·)) =
      String.intercalate joiner (others.insertionSort (· ≤ ·))) : values.Perm others := by
  have hsorted := intercalate_injective hjoiner
    (fun value hvalue => hvalues value ((List.mem_insertionSort _).mp hvalue))
    (fun value hvalue => hothers value ((List.mem_insertionSort _).mp hvalue)) h
  have hperm := List.perm_insertionSort (· ≤ ·) values
  rw [hsorted] at hperm
  exact hperm.symm.trans (List.perm_insertionSort (· ≤ ·) others)

end Joined
