import Mathlib.Data.List.Basic
import Mathlib.Data.List.Nodup
import Mathlib.Data.List.Perm.Basic

/-!
# Statements of several parts

A database statement whose parts write different tables. Every part reads the state the statement
started from; the order in which the parts run is the database's choice. A part that violates a
constraint fails the statement.

* `runParts_perm` — parts that commute give one result in every order.
* `PartOn.commute` — parts that write different tables commute.
* `insertAll_eq` — what inserting rows into a table with a key does.
-/

namespace ZswapKernel

variable {σ τ υ α ρ κ : Type}

/-! ## Parts -/

/-- How a part changes the current state, given the state the statement started from. -/
abbrev Part (σ : Type) := σ → σ → Option σ

/-- The parts one after another. -/
def runParts (start : σ) (parts : List (Part σ)) : Option σ :=
  parts.foldlM (fun current part => part start current) start

/-- The order of two parts does not matter. -/
def Part.Commute (start : σ) (p q : Part σ) : Prop :=
  ∀ current, ((p start current).bind (q start)) = ((q start current).bind (p start))

theorem foldlM_perm {f : σ → α → Option σ} {l l' : List α} (h : l.Perm l')
    (hcomm : ∀ a ∈ l, ∀ b ∈ l, ∀ s, (f s a).bind (f · b) = (f s b).bind (f · a)) (s : σ) :
    l.foldlM f s = l'.foldlM f s := by
  induction h generalizing s with
  | nil => rfl
  | cons a _ ih =>
    rw [List.foldlM_cons, List.foldlM_cons]
    refine congrArg (f s a >>= ·) (funext fun s' => ih ?_ s')
    exact fun b hb c hc => hcomm b (List.mem_cons_of_mem _ hb) c (List.mem_cons_of_mem _ hc)
  | swap a b l =>
    have hswap := hcomm b (by simp) a (by simp) s
    simp only [List.foldlM_cons]
    rw [← bind_assoc, ← bind_assoc]
    exact congrArg (· >>= fun s' => l.foldlM f s') hswap
  | trans hperm _ ih ih' =>
    rw [ih hcomm s]
    refine ih' (fun a ha b hb => hcomm a (hperm.mem_iff.mpr ha) b (hperm.mem_iff.mpr hb)) s

/-- **Parts that commute give one result in every order.** -/
theorem runParts_perm {start : σ} {parts parts' : List (Part σ)} (h : parts.Perm parts')
    (hcomm : ∀ p ∈ parts, ∀ q ∈ parts, Part.Commute start p q) :
    runParts start parts = runParts start parts' :=
  foldlM_perm h hcomm start

/-- A part that writes one table. -/
def PartOn (get : σ → τ) (set : σ → τ → σ) (write : σ → τ → Option τ) : Part σ :=
  fun start current => (write start (get current)).map (set current)

/-- Parts that write different tables commute. -/
theorem PartOn.commute {get : σ → τ} {set : σ → τ → σ} {write : σ → τ → Option τ} {get' : σ → υ}
    {set' : σ → υ → σ} {write' : σ → υ → Option υ} {start : σ}
    (hget : ∀ s table, get' (set s table) = get' s) (hget' : ∀ s table, get (set' s table) = get s)
    (hset : ∀ s table table', set' (set s table) table' = set (set' s table') table) :
    Part.Commute start (PartOn get set write) (PartOn get' set' write') := by
  intro current
  unfold PartOn
  cases hwrite : write start (get current) with
  | none =>
    cases write' start (get' current) with
    | none => rfl
    | some table' => simp [hget', hwrite]
  | some table =>
    cases hwrite' : write' start (get' current) with
    | none => simp [hget, hwrite']
    | some table' => simp [hget, hget', hset, hwrite, hwrite']

/-! ## Inserting rows -/

variable [DecidableEq κ]

/-- Insert one row: it must not have the key of a row that is there. -/
def insertOne (key : ρ → κ) (table : List ρ) (row : ρ) : Option (List ρ) :=
  if key row ∈ table.map key then none else some (table ++ [row])

/-- `INSERT … SELECT`. -/
def insertAll (key : ρ → κ) (rows table : List ρ) : Option (List ρ) :=
  rows.foldlM (insertOne key) table

/-- **Inserting rows appends them, unless a key is there twice.** -/
theorem insertAll_eq (key : ρ → κ) (rows table : List ρ) : insertAll key rows table =
    if (rows.map key).Nodup ∧ ∀ row ∈ rows, key row ∉ table.map key then some (table ++ rows)
    else none := by
  unfold insertAll
  induction rows generalizing table with
  | nil => simp
  | cons row rows ih =>
    rw [List.foldlM_cons]
    unfold insertOne at ih ⊢
    by_cases hrow : key row ∈ table.map key
    · rw [if_pos hrow, if_neg fun h => h.2 row List.mem_cons_self hrow]
      rfl
    · rw [if_neg hrow]
      show List.foldlM _ (table ++ [row]) rows = _
      rw [ih, List.append_assoc, List.singleton_append]
      refine if_congr ?_ rfl rfl
      rw [List.map_cons, List.nodup_cons]
      constructor
      · rintro ⟨hnodup, hfresh⟩
        refine ⟨⟨fun hmem => ?_, hnodup⟩, fun other hother => ?_⟩
        · obtain ⟨other, hother, hkey⟩ := List.mem_map.mp hmem
          exact hfresh other hother (by simp [hkey])
        · rcases List.mem_cons.mp hother with rfl | hother
          · exact hrow
          · exact fun hmem => hfresh other hother
              (by rw [List.map_append]; exact List.mem_append_left _ hmem)
      · rintro ⟨⟨hother, hnodup⟩, hfresh⟩
        refine ⟨hnodup, fun other hmem hkey => ?_⟩
        rw [List.map_append, List.map_singleton, List.mem_append, List.mem_singleton] at hkey
        rcases hkey with hkey | hkey
        · exact hfresh other (List.mem_cons_of_mem _ hmem) hkey
        · exact hother (hkey ▸ List.mem_map_of_mem hmem)

end ZswapKernel
