import Mathlib.Data.List.Sort

/-!
# Keyset pagination over a table that changes

Pages of a table in descending order of a key, each from the key of the last row of the page before.
A row that stays in the table is on one of the pages, whatever is inserted or removed between two
reads, and no row is on two.

* `mem_pageAfter`, `pageAfter_sorted`, `pageAfter_rest` — one page.
* `Walked.page`, `Walked.last` — what full pages have read, and the page that is not full.
-/

namespace Keyset

variable {α κ : Type*} [LinearOrder κ] (key : α → κ)

/-- The row comes after the key. -/
def After (after : Option κ) (row : α) : Prop := ∀ k ∈ after, key row < k

instance (after : Option κ) (row : α) : Decidable (After key after row) :=
  decidable_of_iff (after.all (key row < ·) = true) (by cases after <;> simp [After])

/-- The first rows after the key, in descending order. -/
def pageAfter (limit : Nat) (after : Option κ) (rows : List α) : List α :=
  ((rows.filter (After key after ·)).insertionSort (key · ≥ key ·)).take limit

variable {key} {limit : Nat} {after : Option κ} {rows : List α} {row : α}

theorem mem_pageAfter (h : row ∈ pageAfter key limit after rows) :
    row ∈ rows ∧ After key after row := by
  have hmem := (List.mem_insertionSort _).mp (List.mem_of_mem_take h)
  rw [List.mem_filter, decide_eq_true_eq] at hmem
  exact hmem

theorem length_pageAfter_le : (pageAfter key limit after rows).length ≤ limit :=
  List.length_take_le _ _

/-- Keys strictly descend, where no two rows have the same. -/
theorem pageAfter_sorted (h : (rows.map key).Nodup) :
    (pageAfter key limit after rows).Pairwise (key · > key ·) := by
  have hsorted : ((rows.filter (After key after ·)).insertionSort (key · ≥ key ·)).Pairwise
      (key · ≥ key ·) := List.pairwise_insertionSort (fun a b : α => key a ≥ key b) _
  have hdistinct : ((rows.filter (After key after ·)).insertionSort (key · ≥ key ·)).Pairwise
      (key · ≠ key ·) := by
    have hnodup : ((rows.filter (After key after ·)).map key).Nodup :=
      h.sublist (List.filter_sublist.map key)
    have hperm := (List.perm_insertionSort (key · ≥ key ·)
      (rows.filter (After key after ·))).map key
    exact List.pairwise_map.mp (hperm.nodup_iff.mpr hnodup)
  exact ((hsorted.and hdistinct).imp fun ⟨hge, hne⟩ => lt_of_le_of_ne hge (Ne.symm hne)).sublist
    (List.take_sublist _ _)

/-- A row that is left out comes after a full page. -/
theorem pageAfter_rest (hrow : row ∈ rows) (hafter : After key after row) :
    row ∈ pageAfter key limit after rows ∨ (pageAfter key limit after rows).length = limit ∧
      ∀ read ∈ pageAfter key limit after rows, key row ≤ key read := by
  have hmem : row ∈ (rows.filter (After key after ·)).insertionSort (key · ≥ key ·) :=
    (List.mem_insertionSort _).mpr (List.mem_filter.mpr ⟨hrow, decide_eq_true hafter⟩)
  have hsorted := List.pairwise_insertionSort (fun a b : α => key a ≥ key b)
    (rows.filter (After key after ·))
  unfold pageAfter
  rw [← List.take_append_drop limit ((rows.filter _).insertionSort _)] at hmem hsorted
  rcases List.mem_append.mp hmem with hread | hrest
  · exact .inl hread
  · refine .inr ⟨?_, fun read hread => (List.pairwise_append.mp hsorted).2.2 read hread row hrest⟩
    rw [List.length_take, min_eq_left]
    by_contra hshort
    rw [List.drop_eq_nil_of_le (not_le.mp hshort).le] at hrest
    cases hrest

/-- Full pages read `out` from the tables, up to the key `after`. -/
structure Walked (key : α → κ) (tables : List (List α)) (out : List α) (after : Option κ) :
    Prop where
  sorted : out.Pairwise (key · > key ·)
  /-- What was read does not come after the key. -/
  read : ∀ row ∈ out, ∃ k ∈ after, k ≤ key row
  /-- What stays was read, or comes after it. -/
  complete : ∀ row, (∀ rows ∈ tables, row ∈ rows) → row ∈ out ∨ After key after row

theorem Walked.start : Walked key [] [] none where
  sorted := .nil
  read := fun _ hmem => absurd hmem List.not_mem_nil
  complete := fun _ _ => .inr fun _ hk => nomatch hk

section Page

variable {tables : List (List α)} {out : List α} (h : Walked key tables out after)
include h

theorem Walked.sorted_append (hdistinct : (rows.map key).Nodup) :
    (out ++ pageAfter key limit after rows).Pairwise (key · > key ·) := by
  refine List.pairwise_append.mpr
    ⟨h.sorted, pageAfter_sorted hdistinct, fun read hread row hrow => ?_⟩
  obtain ⟨k, hk, hle⟩ := h.read read hread
  exact ((mem_pageAfter hrow).2 k hk).trans_le hle

/-- One more full page. -/
theorem Walked.page (hdistinct : (rows.map key).Nodup) {last : α}
    (hlast : (pageAfter key limit after rows).getLast? = some last) :
    Walked key (rows :: tables) (out ++ pageAfter key limit after rows) (some (key last)) where
  sorted := h.sorted_append hdistinct
  read row hrow := by
    refine ⟨key last, rfl, ?_⟩
    rcases List.mem_append.mp hrow with hread | hrow
    · obtain ⟨k, hk, hle⟩ := h.read row hread
      exact ((mem_pageAfter (List.mem_of_getLast? hlast)).2 k hk).le.trans hle
    · obtain ⟨init, hinit⟩ := List.getLast?_eq_some_iff.mp hlast
      have hsorted : (pageAfter key limit after rows).Pairwise (key · > key ·) :=
        pageAfter_sorted hdistinct
      rw [hinit] at hrow hsorted
      rcases List.mem_append.mp hrow with hrow | hrow
      · exact ((List.pairwise_append.mp hsorted).2.2 row hrow last
          (List.mem_singleton.mpr rfl)).le
      · rw [List.mem_singleton.mp hrow]
  complete row hstays := by
    obtain ⟨hrow, hbefore⟩ := List.forall_mem_cons.mp hstays
    rcases h.complete row hbefore with hread | hafter
    · exact .inl (List.mem_append_left _ hread)
    · rcases @pageAfter_rest _ _ _ key limit _ _ _ hrow hafter with hread | ⟨-, hrest⟩
      · exact .inl (List.mem_append_right _ hread)
      · by_cases hread : row ∈ pageAfter key limit after rows
        · exact .inl (List.mem_append_right _ hread)
        · refine .inr fun k hk => ?_
          cases hk
          have hmem := List.mem_of_getLast? hlast
          refine lt_of_le_of_ne (hrest last hmem) fun heq => hread ?_
          rwa [List.inj_on_of_nodup_map hdistinct hrow (mem_pageAfter hmem).1 heq]

/-- **The page that is not full** ends the walk: every row that stays was read, and none twice. -/
theorem Walked.last (hshort : (pageAfter key limit after rows).length < limit) {row : α}
    (hstays : ∀ rows' ∈ rows :: tables, row ∈ rows') :
    row ∈ out ++ pageAfter key limit after rows := by
  obtain ⟨hrow, hbefore⟩ := List.forall_mem_cons.mp hstays
  rcases h.complete row hbefore with hread | hafter
  · exact List.mem_append_left _ hread
  · rcases @pageAfter_rest _ _ _ key limit _ _ _ hrow hafter with hread | ⟨hfull, -⟩
    · exact List.mem_append_right _ hread
    · omega

end Page

end Keyset
