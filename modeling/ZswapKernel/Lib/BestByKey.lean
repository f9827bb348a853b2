import Mathlib.Algebra.Order.Ring.Int
import Mathlib.Data.List.Pairwise
import Mathlib.Data.String.Basic
import Mathlib.Order.Basic

/-!
# The best entry for each key

A list that keeps, for each key, the entry of least rank among those recorded so far. `Keeps seen
kept` says that `kept` does so for the entries that satisfy `seen`; recording one more entry keeps
it.
-/

namespace BestByKey

variable {α κ ρ : Type*} [LinearOrder ρ] (key : α → κ) (rank : α → ρ)

/-- Put `entry` in place of the entry with its key, or at the end. -/
def replace [DecidableEq κ] (entry : α) : List α → List α
  | [] => [entry]
  | a :: kept => if key a = key entry then entry :: kept else a :: replace entry kept

/-- Record `entry` unless an entry with its key is at least as good. -/
def record [DecidableEq κ] (kept : List α) (entry : α) : List α :=
  match kept.find? (key · = key entry) with
  | none => replace key entry kept
  | some incumbent => if rank entry < rank incumbent then replace key entry kept else kept

/-- For each key, `kept` holds one entry of least rank among the `seen` ones. -/
structure Keeps (seen : α → Prop) (kept : List α) : Prop where
  distinct : kept.Pairwise (key · ≠ key ·)
  sound : ∀ a ∈ kept, seen a
  best : ∀ a, seen a → ∃ b ∈ kept, key b = key a ∧ rank b ≤ rank a

variable {key rank}

theorem keeps_nil : Keeps key rank (fun _ => False) [] :=
  ⟨.nil, fun _ h => absurd h List.not_mem_nil, fun _ h => h.elim⟩

theorem Keeps.congr {seen seen' : α → Prop} {kept : List α} (h : Keeps key rank seen kept)
    (hs : ∀ a, seen a ↔ seen' a) : Keeps key rank seen' kept :=
  ⟨h.distinct, fun a ha => (hs a).mp (h.sound a ha), fun a ha => h.best a ((hs a).mpr ha)⟩

/-- Two kept entries with one key are the same. -/
theorem Keeps.eq_of_key {seen : α → Prop} {kept : List α} (h : Keeps key rank seen kept)
    {a b : α} (ha : a ∈ kept) (hb : b ∈ kept) (hkey : key a = key b) : a = b := by
  by_contra hne
  have : Std.Symm fun a b => key a ≠ key b := ⟨fun _ _ hab => Ne.symm hab⟩
  exact h.distinct.forall ha hb hne hkey

variable [DecidableEq κ]

theorem mem_replace {kept : List α} (hdistinct : kept.Pairwise (key · ≠ key ·)) {entry b : α} :
    b ∈ replace key entry kept ↔ b = entry ∨ (b ∈ kept ∧ key b ≠ key entry) := by
  induction kept with
  | nil => simp [replace]
  | cons a kept ih =>
    obtain ⟨ha, hkept⟩ := List.pairwise_cons.mp hdistinct
    unfold replace
    by_cases heq : key a = key entry
    · rw [if_pos heq, List.mem_cons, List.mem_cons]
      constructor
      · rintro (rfl | hb)
        · exact Or.inl rfl
        · exact Or.inr ⟨Or.inr hb, fun h => ha b hb (heq.trans h.symm)⟩
      · rintro (rfl | ⟨rfl | hb, hne⟩)
        · exact Or.inl rfl
        · exact absurd heq hne
        · exact Or.inr hb
    · rw [if_neg heq, List.mem_cons, ih hkept, List.mem_cons]
      constructor
      · rintro (rfl | rfl | ⟨hb, hne⟩)
        · exact Or.inr ⟨Or.inl rfl, heq⟩
        · exact Or.inl rfl
        · exact Or.inr ⟨Or.inr hb, hne⟩
      · rintro (rfl | ⟨rfl | hb, hne⟩)
        · exact Or.inr (Or.inl rfl)
        · exact Or.inl rfl
        · exact Or.inr (Or.inr ⟨hb, hne⟩)

theorem pairwise_replace {kept : List α} (hdistinct : kept.Pairwise (key · ≠ key ·)) (entry : α) :
    (replace key entry kept).Pairwise (key · ≠ key ·) := by
  induction kept with
  | nil => simp [replace]
  | cons a kept ih =>
    obtain ⟨ha, hkept⟩ := List.pairwise_cons.mp hdistinct
    unfold replace
    by_cases heq : key a = key entry
    · rw [if_pos heq]
      exact List.pairwise_cons.mpr ⟨fun b hb => heq ▸ ha b hb, hkept⟩
    · rw [if_neg heq]
      refine List.pairwise_cons.mpr ⟨fun b hb => ?_, ih hkept⟩
      rcases (mem_replace hkept).mp hb with rfl | ⟨hb, -⟩
      · exact heq
      · exact ha b hb

/-- An entry with a new key goes to the end. -/
theorem replace_of_forall_ne {kept : List α} {entry : α} (h : ∀ a ∈ kept, key a ≠ key entry) :
    BestByKey.replace key entry kept = kept ++ [entry] := by
  induction kept with
  | nil => rfl
  | cons a kept ih =>
    unfold BestByKey.replace
    rw [if_neg (h a List.mem_cons_self), ih fun b hb => h b (List.mem_cons_of_mem a hb)]
    rfl

/-- Replacing is recording when the entry is the first with its key or the better one. -/
theorem Keeps.replace {seen : α → Prop} {kept : List α} (h : Keeps key rank seen kept) {entry : α}
    (hbetter : ∀ b ∈ kept, key b = key entry → rank entry ≤ rank b) :
    Keeps key rank (fun a => seen a ∨ a = entry) (replace key entry kept) := by
  refine ⟨pairwise_replace h.distinct entry, fun a ha => ?_, fun a ha => ?_⟩
  · rcases (mem_replace h.distinct).mp ha with rfl | ⟨ha, -⟩
    · exact Or.inr rfl
    · exact Or.inl (h.sound a ha)
  · rcases ha with ha | rfl
    · obtain ⟨b, hb, hkey, hrank⟩ := h.best a ha
      by_cases heq : key b = key entry
      · exact ⟨entry, (mem_replace h.distinct).mpr (Or.inl rfl), heq.symm.trans hkey,
          (hbetter b hb heq).trans hrank⟩
      · exact ⟨b, (mem_replace h.distinct).mpr (Or.inr ⟨hb, heq⟩), hkey, hrank⟩
    · exact ⟨a, (mem_replace h.distinct).mpr (Or.inl rfl), rfl, le_rfl⟩

/-- **Recording one entry** extends what is kept by it. -/
theorem Keeps.record {seen : α → Prop} {kept : List α} (h : Keeps key rank seen kept)
    (entry : α) : Keeps key rank (fun a => seen a ∨ a = entry) (record key rank kept entry) := by
  unfold BestByKey.record
  cases hfind : kept.find? (key · = key entry) with
  | none =>
    refine h.replace fun b hb hkey => ?_
    have := List.find?_eq_none.mp hfind b hb
    exact absurd hkey (by simpa using this)
  | some incumbent =>
    have hmem := List.mem_of_find?_eq_some hfind
    have hkey : key incumbent = key entry := by simpa using List.find?_some hfind
    have honly : ∀ b ∈ kept, key b = key entry → b = incumbent := fun b hb hb' =>
      h.eq_of_key hb hmem (hb'.trans hkey.symm)
    by_cases hlt : rank entry < rank incumbent
    · simp only [if_pos hlt]
      exact h.replace fun b hb hb' => (honly b hb hb') ▸ hlt.le
    · simp only [if_neg hlt]
      refine ⟨h.distinct, fun a ha => Or.inl (h.sound a ha), fun a ha => ?_⟩
      rcases ha with ha | rfl
      · exact h.best a ha
      · exact ⟨incumbent, hmem, hkey, not_lt.mp hlt⟩

end BestByKey
