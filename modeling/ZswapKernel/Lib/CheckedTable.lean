import Mathlib.Data.List.Nodup

/-!
# Tables under constraints

A table holds rows under constraints on all of them: unique columns, references, bounds. A write
stores the rows it leaves if they keep the constraints, and is refused otherwise; an update of
several rows writes one row after the other, and each of them is checked.

`key` is the column that an `ON CONFLICT` names.

* `update_rows`: an update that goes through has rewritten every row it names.
* `update_of_valid`: it goes through when each step of it leaves valid rows.
* `upsert_spec`: what an upsert leaves.
* `nodup_column`: how to see that rewritten rows are still distinct in a column.
* `place_concat`, `nodup_place`, `upsert_place`: rows that are marked first and then replaced one
  by one.
-/

namespace ZswapKernel

variable {ρ κ υ : Type*}

/-- Rows that keep the constraints. -/
structure Table (valid : List ρ → Prop) where
  rows : List ρ
  holds : valid rows

/-- The rows are stored, or the write is refused. -/
def store (valid : List ρ → Prop) [DecidablePred valid] (rows : List ρ) : Option (Table valid) :=
  if h : valid rows then some ⟨rows, h⟩ else none

/-- The rows with those rewritten whose key is in `keys`. -/
def rewriteRows [DecidableEq κ] (key : ρ → κ) (f : ρ → ρ) (keys : List κ) (rows : List ρ) :
    List ρ :=
  rows.map fun row => if key row ∈ keys then f row else row

namespace Table

variable [DecidableEq κ] {valid : List ρ → Prop} [DecidablePred valid]

theorem store_eq_some {rows : List ρ} {table : Table valid} :
    store valid rows = some table ↔ table.rows = rows := by
  unfold store
  constructor
  · intro h
    split at h
    · exact Option.some.inj h ▸ rfl
    · cases h
  · rintro rfl
    rw [dif_pos table.holds]

theorem store_of_valid {rows : List ρ} (h : valid rows) :
    ∃ table, store valid rows = some table ∧ table.rows = rows :=
  ⟨⟨rows, h⟩, store_eq_some.2 rfl, rfl⟩

/-- `UPDATE … SET …` of the rows whose keys are given, one after the other. -/
def update (key : ρ → κ) (f : ρ → ρ) : List κ → Table valid → Option (Table valid)
  | [], table => some table
  | k :: keys, table => do
    let next ← store valid (rewriteRows key f [k] table.rows)
    next.update key f keys

/-- `INSERT … ON CONFLICT (key) DO UPDATE SET …`: the row is new, or it is merged into the row of
its key. -/
def upsert (key : ρ → κ) (merge : ρ → ρ) (row : ρ) (table : Table valid) : Option (Table valid) :=
  if key row ∈ table.rows.map key then store valid (rewriteRows key merge [key row] table.rows)
  else store valid (table.rows ++ [row])

end Table

/-! ## Rewritten rows -/

section Rewrite

variable [DecidableEq κ] {key : ρ → κ} {f : ρ → ρ}

theorem rewriteRows_nil (rows : List ρ) : rewriteRows key f [] rows = rows := by
  unfold rewriteRows
  simp

/-- Keys that no row has make no difference. -/
theorem rewriteRows_filter (names : List κ) (rows : List ρ) :
    rewriteRows key f ((rows.map key).filter (· ∈ names)) rows = rewriteRows key f names rows := by
  unfold rewriteRows
  refine List.map_congr_left fun row hrow => ?_
  have hiff : key row ∈ (rows.map key).filter (· ∈ names) ↔ key row ∈ names := by
    rw [List.mem_filter, decide_eq_true_iff]
    exact and_iff_right (List.mem_map_of_mem hrow)
  simp only [hiff]

/-- One key after the others. -/
theorem rewriteRows_concat {keys : List κ} {k : κ} (hkey : ∀ row, key (f row) = key row)
    (hnew : k ∉ keys) (rows : List ρ) :
    rewriteRows key f [k] (rewriteRows key f keys rows) = rewriteRows key f (keys ++ [k]) rows := by
  unfold rewriteRows
  rw [List.map_map]
  refine List.map_congr_left fun row _ => ?_
  simp only [Function.comp, List.mem_singleton, List.mem_append]
  by_cases hmem : key row ∈ keys
  · have hne : key row ≠ k := fun h => hnew (h ▸ hmem)
    rw [if_pos hmem, hkey, if_neg hne, if_pos (.inl hmem)]
  · rw [if_neg hmem]
    by_cases hk : key row = k
    · rw [if_pos hk, if_pos (.inr hk)]
    · rw [if_neg hk, if_neg (by simp [hmem, hk])]

theorem rewriteRows_keys (hkey : ∀ row, key (f row) = key row) (keys : List κ) (rows : List ρ) :
    (rewriteRows key f keys rows).map key = rows.map key := by
  unfold rewriteRows
  rw [List.map_map]
  refine List.map_congr_left fun row _ => ?_
  simp only [Function.comp]
  split
  · exact hkey row
  · rfl

/-- The other rows stay as they are. -/
theorem rewriteRows_others (hkey : ∀ row, key (f row) = key row) {keys names : List κ}
    (hkeys : ∀ k ∈ keys, k ∈ names) (rows : List ρ) :
    (rewriteRows key f keys rows).filter (fun row => key row ∉ names) =
      rows.filter fun row => key row ∉ names := by
  unfold rewriteRows
  rw [List.filter_map]
  have hsame : ((fun row => decide (key row ∉ names)) ∘ fun row =>
      if key row ∈ keys then f row else row) = fun row => decide (key row ∉ names) := by
    funext row
    simp only [Function.comp]
    split
    · rw [hkey]
    · rfl
  rw [hsame]
  refine (List.map_congr_left fun row hrow => ?_).trans (List.map_id _)
  have hout : key row ∉ names := of_decide_eq_true (List.mem_filter.1 hrow).2
  rw [if_neg fun hmem => hout (hkeys _ hmem)]
  rfl

theorem mem_rewriteRows {keys : List κ} {rows : List ρ} {row : ρ} :
    row ∈ rewriteRows key f keys rows ↔
      (∃ old ∈ rows, key old ∈ keys ∧ f old = row) ∨ row ∈ rows ∧ key row ∉ keys := by
  unfold rewriteRows
  rw [List.mem_map]
  constructor
  · rintro ⟨old, hold, hrow⟩
    split at hrow
    · exact .inl ⟨old, hold, ‹_›, hrow⟩
    · exact .inr ⟨hrow ▸ hold, hrow ▸ ‹_›⟩
  · rintro (⟨old, hold, hmem, rfl⟩ | ⟨hrow, hout⟩)
    · exact ⟨old, hold, if_pos hmem⟩
    · exact ⟨row, hrow, if_neg hout⟩

/-- **Rewritten rows stay distinct in a column** when no two of them meet there. -/
theorem nodup_column {rows : List ρ} (hkeys : (rows.map key).Nodup) {column : ρ → υ} {g : ρ → ρ}
    (h : ∀ a ∈ rows, ∀ b ∈ rows, column (g a) = column (g b) → key a = key b) :
    ((rows.map g).map column).Nodup := by
  rw [List.map_map]
  refine List.Nodup.map_on (fun a ha b hb hsame => ?_) (List.Nodup.of_map _ hkeys)
  exact List.inj_on_of_nodup_map hkeys ha hb (h a ha b hb hsame)

end Rewrite

/-! ## Marked rows and their replacements

The rows of `names` are rewritten with `mark`, and then each item of a list is merged into the row
of its name. -/

section Place

variable {τ : Type*} [DecidableEq κ] (key : ρ → κ) (name : τ → κ) (mark : ρ → ρ)
  (merge : τ → ρ → ρ)

/-- The row when `names` are marked and `done` are merged. -/
def place (names : List κ) (done : List τ) (row : ρ) : ρ :=
  match done.find? fun item => name item = key row with
  | some item => merge item row
  | none => if key row ∈ names then mark row else row

variable {key name mark merge} {names : List κ} {done : List τ}

theorem key_place (hmark : ∀ row, key (mark row) = key row)
    (hmerge : ∀ item row, key (merge item row) = key row) (row : ρ) :
    key (place key name mark merge names done row) = key row := by
  unfold place
  split
  · exact hmerge _ row
  · split
    · exact hmark row
    · rfl

theorem place_nil (rows : List ρ) :
    rows.map (place key name mark merge names []) = rewriteRows key mark names rows := rfl

/-- **One more item is merged.** -/
theorem place_concat {item : τ} (hmark : ∀ row, key (mark row) = key row)
    (hmerge : ∀ item row, key (merge item row) = key row)
    (hover : ∀ row, merge item (mark row) = merge item row) (hnew : name item ∉ done.map name)
    (rows : List ρ) :
    rewriteRows key (merge item) [name item] (rows.map (place key name mark merge names done)) =
      rows.map (place key name mark merge names (done ++ [item])) := by
  unfold rewriteRows
  rw [List.map_map]
  refine List.map_congr_left fun row _ => ?_
  simp only [Function.comp, key_place hmark hmerge, List.mem_singleton]
  by_cases hkey : key row = name item
  · have hnone : done.find? (fun item => decide (name item = key row)) = none := by
      rw [List.find?_eq_none]
      intro other hother hsame
      exact hnew (List.mem_map.2 ⟨other, hother, (of_decide_eq_true hsame).trans hkey⟩)
    have hlast : [item].find? (fun item => decide (name item = key row)) = some item := by
      simp [hkey]
    rw [if_pos hkey]
    unfold place
    rw [List.find?_append, hnone, hlast]
    simp only [Option.none_or]
    split
    · exact hover row
    · rfl
  · rw [if_neg hkey]
    unfold place
    rw [List.find?_append, List.find?_cons_of_neg (by simpa using Ne.symm hkey), List.find?_nil,
      Option.or_none]

/-- The values of a column do not meet: those of the items, of the marked rows and of the rest. -/
structure Apart (key : ρ → κ) (name : τ → κ) (mark : ρ → ρ) (column : ρ → υ) (color : τ → υ)
    (names : List κ) (done : List τ) (rows : List ρ) : Prop where
  items : ∀ item ∈ done, ∀ other ∈ done, color item = color other → name item = name other
  marks : ∀ a ∈ rows, key a ∈ names → ∀ b ∈ rows, key b ∈ names →
    column (mark a) = column (mark b) → key a = key b
  rest : ∀ a ∈ rows, ∀ b ∈ rows, column a = column b → key a = key b
  itemMark : ∀ item ∈ done, ∀ row ∈ rows, key row ∈ names → color item ≠ column (mark row)
  itemRest : ∀ item ∈ done, ∀ row ∈ rows, key row ∉ names → color item ≠ column row
  markRest : ∀ a ∈ rows, key a ∈ names → ∀ b ∈ rows, key b ∉ names → column (mark a) ≠ column b

/-- **The column stays distinct.** -/
theorem nodup_place {column : ρ → υ} {color : τ → υ} {rows : List ρ}
    (hmerge : ∀ item row, column (merge item row) = color item)
    (hkeys : (rows.map key).Nodup) (h : Apart key name mark column color names done rows) :
    ((rows.map (place key name mark merge names done)).map column).Nodup := by
  refine nodup_column hkeys fun a ha b hb hsame => ?_
  unfold place at hsame
  cases hfa : done.find? fun item => decide (name item = key a) with
  | some item =>
    have hitem := List.mem_of_find?_eq_some hfa
    have hname : name item = key a := by simpa using List.find?_some hfa
    rw [hfa] at hsame
    cases hfb : done.find? fun item => decide (name item = key b) with
    | some other =>
      have hname' : name other = key b := by simpa using List.find?_some hfb
      rw [hfb, hmerge, hmerge] at hsame
      rw [← hname, ← hname', h.items item hitem other (List.mem_of_find?_eq_some hfb) hsame]
    | none =>
      rw [hfb, hmerge] at hsame
      by_cases hmem : key b ∈ names
      · rw [if_pos hmem] at hsame
        exact absurd hsame (h.itemMark item hitem b hb hmem)
      · rw [if_neg hmem] at hsame
        exact absurd hsame (h.itemRest item hitem b hb hmem)
  | none =>
    rw [hfa] at hsame
    cases hfb : done.find? fun item => decide (name item = key b) with
    | some other =>
      have hother := List.mem_of_find?_eq_some hfb
      rw [hfb, hmerge] at hsame
      by_cases hmem : key a ∈ names
      · rw [if_pos hmem] at hsame
        exact absurd hsame.symm (h.itemMark other hother a ha hmem)
      · rw [if_neg hmem] at hsame
        exact absurd hsame.symm (h.itemRest other hother a ha hmem)
    | none =>
      rw [hfb] at hsame
      by_cases hma : key a ∈ names
      · rw [if_pos hma] at hsame
        by_cases hmb : key b ∈ names
        · rw [if_pos hmb] at hsame
          exact h.marks a ha hma b hb hmb hsame
        · rw [if_neg hmb] at hsame
          exact absurd hsame (h.markRest a ha hma b hb hmb)
      · rw [if_neg hma] at hsame
        by_cases hmb : key b ∈ names
        · rw [if_pos hmb] at hsame
          exact absurd hsame.symm (h.markRest b hb hmb a ha hma)
        · rw [if_neg hmb] at hsame
          exact h.rest a ha b hb hsame

end Place

/-! ## Updates and upserts -/

namespace Table

variable [DecidableEq κ] {valid : List ρ → Prop} [DecidablePred valid] {key : ρ → κ} {f : ρ → ρ}

/-- The rest of an update, where `done` is written already. -/
theorem update_from {start : List ρ} (hkey : ∀ row, key (f row) = key row) :
    ∀ {keys done : List κ} {table : Table valid}, (done ++ keys).Nodup →
      table.rows = rewriteRows key f done start →
      (∀ table', table.update key f keys = some table' →
        table'.rows = rewriteRows key f (done ++ keys) start) ∧
      ((∀ written, written <+: done ++ keys → valid (rewriteRows key f written start)) →
        ∃ table', table.update key f keys = some table')
  | [], done, table, _, hrows => by
    rw [List.append_nil]
    refine ⟨fun table' h => ?_, fun _ => ⟨table, rfl⟩⟩
    obtain rfl := Option.some.inj h
    exact hrows
  | k :: keys, done, table, hnodup, hrows => by
    have hsplit : done ++ k :: keys = done ++ [k] ++ keys := by rw [List.append_cons]
    have hnew : k ∉ done := fun hmem =>
      (List.nodup_append.1 hnodup).2.2 k hmem k List.mem_cons_self rfl
    have hnext : rewriteRows key f [k] table.rows = rewriteRows key f (done ++ [k]) start := by
      rw [hrows, rewriteRows_concat hkey hnew]
    have hrest := fun (next : Table valid)
        (h : next.rows = rewriteRows key f (done ++ [k]) start) =>
      update_from hkey (hsplit ▸ hnodup) h
    rw [hsplit]
    unfold update
    rw [hnext]
    refine ⟨fun table' h => ?_, fun hvalid => ?_⟩
    · obtain ⟨next, hstore, h⟩ := Option.bind_eq_some_iff.1 h
      exact (hrest next (store_eq_some.1 hstore)).1 table' h
    · obtain ⟨next, hstore, hrows'⟩ :=
        store_of_valid (hvalid (done ++ [k]) (List.prefix_append _ _))
      obtain ⟨table', h⟩ := (hrest next hrows').2 hvalid
      exact ⟨table', Option.bind_eq_some_iff.2 ⟨next, hstore, h⟩⟩

/-- **An update that goes through** has rewritten every row it names. -/
theorem update_rows (hkey : ∀ row, key (f row) = key row) {keys : List κ} (hnodup : keys.Nodup)
    {table table' : Table valid} (h : table.update key f keys = some table') :
    table'.rows = rewriteRows key f keys table.rows := by
  have hall : ([] ++ keys).Nodup := hnodup
  exact (update_from hkey hall (rewriteRows_nil table.rows).symm).1 table' h

/-- **An update goes through** when the rows after each of its writes are valid. -/
theorem update_of_valid (hkey : ∀ row, key (f row) = key row) {keys : List κ}
    (hnodup : keys.Nodup) {table : Table valid}
    (h : ∀ written, written <+: keys → valid (rewriteRows key f written table.rows)) :
    ∃ table', table.update key f keys = some table' := by
  have hall : ([] ++ keys).Nodup := hnodup
  exact (update_from hkey hall (rewriteRows_nil table.rows).symm).2 h

/-- **What an upsert leaves**: the row or the row of its key merged, and the others. -/
theorem upsert_spec {merge : ρ → ρ} {row : ρ} (hkey : ∀ old, key (merge old) = key old)
    {table table' : Table valid} (h : table.upsert key merge row = some table') :
    (row ∈ table'.rows ∨ ∃ old ∈ table.rows, key old = key row ∧ merge old ∈ table'.rows) ∧
      (∀ other ∈ table.rows, key other ≠ key row → other ∈ table'.rows) ∧
      ∀ names : List κ, key row ∈ names → table'.rows.filter (fun row => key row ∉ names) =
        table.rows.filter fun row => key row ∉ names := by
  unfold upsert at h
  split at h
  · rename_i hmem
    rw [store_eq_some.1 h]
    obtain ⟨old, hold, hsame⟩ := List.mem_map.1 hmem
    refine ⟨.inr ⟨old, hold, hsame, mem_rewriteRows.2 (.inl ⟨old, hold, by simp [hsame], rfl⟩)⟩,
      fun other hother hne => mem_rewriteRows.2 (.inr ⟨hother, by simpa using hne⟩),
      fun names hnames => rewriteRows_others hkey (by simpa using hnames) _⟩
  · rw [store_eq_some.1 h]
    refine ⟨.inl (List.mem_append_right _ (List.mem_singleton_self row)),
      fun other hother _ => List.mem_append_left _ hother, fun names hnames => ?_⟩
    rw [List.filter_append, List.filter_cons_of_neg (by simpa using hnames), List.filter_nil,
      List.append_nil]

/-- **An upsert of one more item** into marked rows that have its key. -/
theorem upsert_place {τ : Type*} {name : τ → κ} {mark : ρ → ρ} {merge : τ → ρ → ρ}
    {names : List κ} {done : List τ} {item : τ} {row : ρ} {start : List ρ} {table : Table valid}
    (hmark : ∀ row, key (mark row) = key row)
    (hmerge : ∀ item row, key (merge item row) = key row)
    (hover : ∀ row, merge item (mark row) = merge item row) (hnew : name item ∉ done.map name)
    (hrow : key row = name item) (hmem : name item ∈ start.map key)
    (htable : table.rows = start.map (place key name mark merge names done)) :
    table.upsert key (merge item) row =
      store valid (start.map (place key name mark merge names (done ++ [item]))) := by
  have hkeys : table.rows.map key = start.map key := by
    rw [htable, List.map_map]
    exact List.map_congr_left fun row _ => key_place hmark hmerge row
  unfold upsert
  rw [hrow, if_pos (hkeys ▸ hmem), htable, place_concat hmark hmerge hover hnew]

end Table

end ZswapKernel
