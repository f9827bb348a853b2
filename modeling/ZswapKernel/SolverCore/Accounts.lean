import Mathlib.Algebra.BigOperators.Group.List.Basic
import Mathlib.Algebra.Group.Pi.Basic
import Mathlib.Algebra.Group.Pi.Lemmas
import Mathlib.Data.String.Basic
import ZswapKernel.SolverCore.WholeOfferBalance

/-!
# What the rows account for

`Accounts rows gives wants` says that `rows` is the accounting of the gross amounts `gives` and
`wants`: one row for each token with an amount, in token order. There is only one such list, so
the rows of `accountWholeOfferBalances`, of `canonicalBalances` and of the pair search agree as
soon as they account for the same amounts.

* `accountWholeOfferBalances_ok` — valid sources are accounted for by their gross amounts.
* `canonicalBalances_of_accounts` — canonical rows are their own canonical form.
-/

namespace ZswapKernel

/-- Gross amounts by token. -/
abbrev Amounts := String → Int

/-- The row of `token`. -/
def rowAt (gives wants : Amounts) (token : String) : WholeOfferTokenBalance :=
  ⟨token, gives token, wants token, gives token - wants token⟩

/-- One row for each token with an amount, in token order. -/
structure Accounts (rows : List WholeOfferTokenBalance) (gives wants : Amounts) : Prop where
  sorted : rows.Pairwise (·.token < ·.token)
  mem_iff : ∀ row, row ∈ rows ↔
    ∃ token, (gives token ≠ 0 ∨ wants token ≠ 0) ∧ row = rowAt gives wants token

namespace Accounts

variable {rows rows' : List WholeOfferTokenBalance} {gives wants : Amounts}

theorem nodup (h : Accounts rows gives wants) : rows.Nodup :=
  h.sorted.imp fun hlt heq => absurd (heq ▸ hlt) (lt_irrefl _)

theorem nodup_tokens (h : Accounts rows gives wants) : (rows.map (·.token)).Nodup := by
  rw [List.nodup_map_iff_inj_on h.nodup]
  intro row hrow row' hrow' heq
  obtain ⟨t, -, rfl⟩ := (h.mem_iff row).mp hrow
  obtain ⟨t', -, rfl⟩ := (h.mem_iff row').mp hrow'
  have heq : t = t' := heq
  rw [heq]

/-- **Uniqueness.** The amounts determine the rows. -/
theorem unique (h : Accounts rows gives wants) (h' : Accounts rows' gives wants) :
    rows = rows' := by
  have hperm : rows.Perm rows' := (List.perm_ext_iff_of_nodup h.nodup h'.nodup).mpr
    fun row => (h.mem_iff row).trans (h'.mem_iff row).symm
  exact hperm.eq_of_pairwise (fun _ _ _ _ hab hba => absurd (hab.trans hba) (lt_irrefl _))
    h.sorted h'.sorted

theorem eq_rowAt (h : Accounts rows gives wants) {row : WholeOfferTokenBalance} (hrow : row ∈ rows) :
    row = rowAt gives wants row.token := by
  obtain ⟨t, -, rfl⟩ := (h.mem_iff row).mp hrow
  rfl

theorem mem_token_iff (h : Accounts rows gives wants) (token : String) :
    token ∈ rows.map (·.token) ↔ gives token ≠ 0 ∨ wants token ≠ 0 := by
  constructor
  · intro hmem
    obtain ⟨row, hrow, rfl⟩ := List.mem_map.mp hmem
    obtain ⟨t, ht, rfl⟩ := (h.mem_iff row).mp hrow
    exact ht
  · intro hne
    exact List.mem_map.mpr ⟨rowAt gives wants token, (h.mem_iff _).mpr ⟨token, hne, rfl⟩, rfl⟩

end Accounts

/-! ## The totals map -/

instance : Std.Total byToken := ⟨fun left right => le_total left.token right.token⟩

instance : IsTrans TokenTotal byToken := ⟨fun _ _ _ hab hbc => le_trans hab hbc⟩

/-- `totals` holds the gross amounts so far, one entry for each token that has some. -/
structure Tallies (totals : List TokenTotal) (gives wants : Amounts) : Prop where
  nodup : (totals.map (·.token)).Nodup
  entry : ∀ total ∈ totals, total = ⟨total.token, gives total.token, wants total.token⟩
  present : ∀ token, token ∈ totals.map (·.token) ↔ gives token ≠ 0 ∨ wants token ≠ 0
  gives_nonneg : ∀ token, 0 ≤ gives token
  wants_nonneg : ∀ token, 0 ≤ wants token

theorem tallies_nil : Tallies [] 0 0 where
  nodup := List.nodup_nil
  entry := by simp
  present := by simp
  gives_nonneg := by simp
  wants_nonneg := by simp

theorem mem_addTotal {token : String} {gives wants : Int} {totals : List TokenTotal}
    (hnodup : (totals.map (·.token)).Nodup) {total : TokenTotal} :
    total ∈ addTotal token gives wants totals ↔
      (total ∈ totals ∧ total.token ≠ token) ∨
      (∃ old ∈ totals, old.token = token ∧ total = ⟨token, old.gives + gives, old.wants + wants⟩) ∨
      (token ∉ totals.map (·.token) ∧ total = ⟨token, gives, wants⟩) := by
  induction totals with
  | nil => simp [addTotal]
  | cons head totals ih =>
    have hnot : head.token ∉ totals.map (·.token) := (List.nodup_cons.mp hnodup).1
    have ih := ih (List.nodup_cons.mp hnodup).2
    unfold addTotal
    by_cases heq : head.token = token
    · subst heq
      have hne : ∀ total' ∈ totals, total'.token ≠ head.token := fun total' hmem htok =>
        hnot (htok ▸ List.mem_map_of_mem hmem)
      rw [if_pos rfl, List.mem_cons]
      constructor
      · rintro (rfl | hmem)
        · exact Or.inr (Or.inl ⟨head, by simp, rfl, rfl⟩)
        · exact Or.inl ⟨List.mem_cons_of_mem _ hmem, hne _ hmem⟩
      · rintro (⟨hmem, htok⟩ | ⟨old, hold, htok, rfl⟩ | ⟨habs, -⟩)
        · rcases List.mem_cons.mp hmem with rfl | hmem
          · exact absurd rfl htok
          · exact Or.inr hmem
        · rcases List.mem_cons.mp hold with rfl | hold
          · exact Or.inl rfl
          · exact absurd htok (hne _ hold)
        · exact absurd (by simp) habs
    · rw [if_neg heq, List.mem_cons, ih]
      have hne : token ≠ head.token := fun h => heq h.symm
      simp only [List.mem_cons, List.map_cons, not_or, exists_eq_or_imp]
      constructor
      · rintro (rfl | ⟨hmem, htok⟩ | ⟨old, hold, htok, rfl⟩ | ⟨hnone, rfl⟩)
        · exact Or.inl ⟨Or.inl rfl, heq⟩
        · exact Or.inl ⟨Or.inr hmem, htok⟩
        · exact Or.inr (Or.inl (Or.inr ⟨old, hold, htok, rfl⟩))
        · exact Or.inr (Or.inr ⟨⟨hne, hnone⟩, rfl⟩)
      · rintro (⟨rfl | hmem, htok⟩ | (⟨hhead, -⟩ | ⟨old, hold, htok, rfl⟩) | ⟨⟨-, hnone⟩, rfl⟩)
        · exact Or.inl rfl
        · exact Or.inr (Or.inl ⟨hmem, htok⟩)
        · exact absurd hhead heq
        · exact Or.inr (Or.inr (Or.inl ⟨old, hold, htok, rfl⟩))
        · exact Or.inr (Or.inr (Or.inr ⟨hnone, rfl⟩))

theorem map_token_addTotal (token : String) (gives wants : Int) (totals : List TokenTotal) :
    (addTotal token gives wants totals).map (·.token) =
      if token ∈ totals.map (·.token) then totals.map (·.token)
      else totals.map (·.token) ++ [token] := by
  induction totals with
  | nil => simp [addTotal]
  | cons head totals ih =>
    unfold addTotal
    by_cases heq : head.token = token
    · simp [heq]
    · have hne : token ≠ head.token := fun h => heq h.symm
      rw [if_neg heq, List.map_cons, ih]
      by_cases hmem : token ∈ totals.map (·.token)
      · simp only [List.map_cons, List.mem_cons, hmem, or_true, if_true]
      · simp only [List.map_cons, List.mem_cons, hmem, hne, or_false, if_false,
          List.cons_append]

/-- Adding positive amounts to one token keeps the tally. -/
theorem Tallies.add {totals : List TokenTotal} {gives wants : Amounts}
    (h : Tallies totals gives wants) (token : String) {give want : Int} (hgive : 0 ≤ give)
    (hwant : 0 ≤ want) (hpos : give ≠ 0 ∨ want ≠ 0) :
    Tallies (addTotal token give want totals) (gives + Pi.single token give)
      (wants + Pi.single token want) := by
  have htokens := map_token_addTotal token give want totals
  refine ⟨?_, ?_, ?_, ?_, ?_⟩
  · rw [htokens]
    split
    · exact h.nodup
    · rename_i hnot
      exact List.nodup_append.mpr ⟨h.nodup, List.nodup_singleton _, by
        intro a ha b hb hab
        exact hnot (by rwa [← List.mem_singleton.mp hb, ← hab])⟩
  · intro total hmem
    rcases (mem_addTotal h.nodup).mp hmem with ⟨hmem, hne⟩ | ⟨old, hold, rfl, rfl⟩ | ⟨hnot, rfl⟩
    · rw [h.entry total hmem]
      simp [Pi.single_eq_of_ne hne]
    · rw [h.entry old hold]
      simp
    · have hzero := (not_congr (h.present token)).mp hnot
      push Not at hzero
      simp [hzero.1, hzero.2]
  · intro t
    have hg := h.gives_nonneg t
    have hw := h.wants_nonneg t
    rw [htokens]
    by_cases heq : t = token
    · subst heq
      have hne : (gives + Pi.single t give : Amounts) t ≠ 0 ∨
          (wants + Pi.single t want : Amounts) t ≠ 0 := by
        simp only [Pi.add_apply, Pi.single_eq_same]
        omega
      split
      · exact iff_of_true ‹_› hne
      · exact iff_of_true (by simp) hne
    · have hstep : t ∈ (if token ∈ totals.map (·.token) then totals.map (·.token)
          else totals.map (·.token) ++ [token]) ↔ t ∈ totals.map (·.token) := by
        split
        · rfl
        · simp [heq]
      rw [hstep, h.present t]
      simp [Pi.single_eq_of_ne heq]
  · intro t
    have := h.gives_nonneg t
    by_cases heq : t = token
    · subst heq
      simp only [Pi.add_apply, Pi.single_eq_same]
      omega
    · simpa [Pi.single_eq_of_ne heq] using this
  · intro t
    have := h.wants_nonneg t
    by_cases heq : t = token
    · subst heq
      simp only [Pi.add_apply, Pi.single_eq_same]
      omega
    · simpa [Pi.single_eq_of_ne heq] using this

/-- The rows sorted from a tally account for it. -/
theorem Tallies.accounts {totals : List TokenTotal} {gives wants : Amounts}
    (h : Tallies totals gives wants) : Accounts (sortedRows totals) gives wants := by
  have hperm : (totals.insertionSort byToken).Perm totals := List.perm_insertionSort byToken totals
  constructor
  · have hle : (totals.insertionSort byToken).Pairwise byToken :=
      List.pairwise_insertionSort byToken totals
    have hne : (totals.insertionSort byToken).Pairwise fun a b => a.token ≠ b.token :=
      List.pairwise_map.mp ((hperm.map TokenTotal.token).nodup_iff.mpr h.nodup)
    exact List.pairwise_map.mpr ((hle.and hne).imp fun hab => lt_of_le_of_ne hab.1 hab.2)
  · intro row
    unfold sortedRows
    rw [List.mem_map]
    constructor
    · rintro ⟨total, hmem, rfl⟩
      have hmem := hperm.mem_iff.mp hmem
      refine ⟨total.token, (h.present _).mp (List.mem_map_of_mem hmem), ?_⟩
      rw [h.entry total hmem]
      rfl
    · rintro ⟨token, hne, rfl⟩
      obtain ⟨total, hmem, rfl⟩ := List.mem_map.mp ((h.present token).mpr hne)
      refine ⟨total, hperm.mem_iff.mpr hmem, ?_⟩
      rw [h.entry total hmem]
      rfl

/-! ## Accounting of sources -/

/-- A canonical token id: 64 lowercase hex digits. -/
structure CanonicalToken (token : String) : Prop where
  hex : hex64 token = true
  lower : toLowerCase token = token

theorem canonicalToken_of_hex64 {token : String} (h : hex64 token = true) :
    canonicalToken token = .ok (toLowerCase token) := by
  unfold canonicalToken
  rw [if_pos h]

theorem CanonicalToken.eq_ok {token : String} (h : CanonicalToken token) :
    canonicalToken token = .ok token := by
  rw [canonicalToken_of_hex64 h.hex, h.lower]

theorem canonicalToken_toLowerCase {token : String} (h : hex64 token = true) :
    CanonicalToken (toLowerCase token) :=
  ⟨(hex64_toLowerCase token).trans h, toLowerCase_toLowerCase token⟩

/-- A leg `accountWholeOfferBalances` accepts. -/
structure ValidLeg (leg : WholeOfferBalanceLeg) : Prop where
  hex : hex64 leg.token = true
  pos : 0 < leg.amount

/-- The gross amounts of a list of legs. -/
def legAmounts (legs : List WholeOfferBalanceLeg) : Amounts :=
  (legs.map fun leg => (Pi.single (toLowerCase leg.token) leg.amount : Amounts)).sum

/-- The gross amounts the sources give. -/
def sourceGives (sources : List WholeOfferBalanceSource) : Amounts :=
  (sources.map fun source => legAmounts source.gives).sum

/-- The gross amounts the sources want. -/
def sourceWants (sources : List WholeOfferBalanceSource) : Amounts :=
  (sources.map fun source => legAmounts source.wants).sum

theorem addLeg_ok (side : Side) (totals : List TokenTotal) {leg : WholeOfferBalanceLeg}
    (h : ValidLeg leg) : addLeg side totals leg = .ok (match side with
      | .gives => addTotal (toLowerCase leg.token) leg.amount 0 totals
      | .wants => addTotal (toLowerCase leg.token) 0 leg.amount totals) := by
  unfold addLeg
  rw [canonicalToken_of_hex64 h.hex]
  have hpos : ¬ leg.amount ≤ 0 := not_le.mpr h.pos
  cases side <;> simp only [bind, Except.bind, hpos, if_false, pure, Except.pure]

theorem foldlM_addLeg_gives {legs : List WholeOfferBalanceLeg} (hlegs : ∀ leg ∈ legs, ValidLeg leg)
    {totals : List TokenTotal} {gives wants : Amounts} (h : Tallies totals gives wants) :
    ∃ totals', legs.foldlM (addLeg .gives) totals = .ok totals' ∧
      Tallies totals' (gives + legAmounts legs) wants := by
  induction legs generalizing totals gives with
  | nil => exact ⟨totals, rfl, by simpa [legAmounts] using h⟩
  | cons leg legs ih =>
    have hleg := hlegs leg List.mem_cons_self
    have hadd := h.add (toLowerCase leg.token) hleg.pos.le le_rfl (Or.inl hleg.pos.ne')
    rw [Pi.single_zero, add_zero] at hadd
    obtain ⟨totals', hfold, htallies⟩ := ih (fun l hl => hlegs l (List.mem_cons_of_mem _ hl)) hadd
    refine ⟨totals', ?_, ?_⟩
    · rw [List.foldlM_cons, addLeg_ok .gives totals hleg]
      exact hfold
    · simpa [legAmounts, add_assoc] using htallies

theorem foldlM_addLeg_wants {legs : List WholeOfferBalanceLeg} (hlegs : ∀ leg ∈ legs, ValidLeg leg)
    {totals : List TokenTotal} {gives wants : Amounts} (h : Tallies totals gives wants) :
    ∃ totals', legs.foldlM (addLeg .wants) totals = .ok totals' ∧
      Tallies totals' gives (wants + legAmounts legs) := by
  induction legs generalizing totals wants with
  | nil => exact ⟨totals, rfl, by simpa [legAmounts] using h⟩
  | cons leg legs ih =>
    have hleg := hlegs leg List.mem_cons_self
    have hadd := h.add (toLowerCase leg.token) le_rfl hleg.pos.le (Or.inr hleg.pos.ne')
    rw [Pi.single_zero, add_zero] at hadd
    obtain ⟨totals', hfold, htallies⟩ := ih (fun l hl => hlegs l (List.mem_cons_of_mem _ hl)) hadd
    refine ⟨totals', ?_, ?_⟩
    · rw [List.foldlM_cons, addLeg_ok .wants totals hleg]
      exact hfold
    · simpa [legAmounts, add_assoc] using htallies

/-- A source whose legs `accountWholeOfferBalances` accepts. -/
structure ValidSource (source : WholeOfferBalanceSource) : Prop where
  gives : ∀ leg ∈ source.gives, ValidLeg leg
  wants : ∀ leg ∈ source.wants, ValidLeg leg

theorem foldlM_addSource {sources : List WholeOfferBalanceSource}
    (hsources : ∀ source ∈ sources, ValidSource source) {totals : List TokenTotal}
    {gives wants : Amounts} (h : Tallies totals gives wants) :
    ∃ totals', sources.foldlM addSource totals = .ok totals' ∧
      Tallies totals' (gives + sourceGives sources) (wants + sourceWants sources) := by
  induction sources generalizing totals gives wants with
  | nil => exact ⟨totals, rfl, by simpa [sourceGives, sourceWants] using h⟩
  | cons source sources ih =>
    have hsource := hsources source List.mem_cons_self
    obtain ⟨totals1, hfold1, h1⟩ := foldlM_addLeg_gives hsource.gives h
    obtain ⟨totals2, hfold2, h2⟩ := foldlM_addLeg_wants hsource.wants h1
    obtain ⟨totals', hfold, htallies⟩ := ih (fun s hs => hsources s (List.mem_cons_of_mem _ hs)) h2
    refine ⟨totals', ?_, ?_⟩
    · have hadd : addSource totals source = .ok totals2 := by
        unfold addSource
        rw [hfold1]
        exact hfold2
      rw [List.foldlM_cons, hadd]
      exact hfold
    · simpa [sourceGives, sourceWants, add_assoc] using htallies

/-- **`accountWholeOfferBalances` on valid sources**: it succeeds, and its rows account for the
gross amounts. -/
theorem accountWholeOfferBalances_ok {sources : List WholeOfferBalanceSource}
    (hsources : ∀ source ∈ sources, ValidSource source) :
    ∃ rows, accountWholeOfferBalances sources = .ok rows ∧
      Accounts rows (sourceGives sources) (sourceWants sources) := by
  obtain ⟨totals, hfold, htallies⟩ := foldlM_addSource hsources tallies_nil
  rw [zero_add, zero_add] at htallies
  refine ⟨sortedRows totals, ?_, htallies.accounts⟩
  unfold accountWholeOfferBalances
  rw [hfold]
  rfl

/-! ## Canonical rows -/

theorem addTotal_of_not_mem {token : String} {gives wants : Int} {totals : List TokenTotal}
    (h : token ∉ totals.map (·.token)) :
    addTotal token gives wants totals = totals ++ [⟨token, gives, wants⟩] := by
  induction totals with
  | nil => rfl
  | cons total totals ih =>
    rw [List.map_cons, List.mem_cons, not_or] at h
    unfold addTotal
    rw [if_neg (fun heq => h.1 heq.symm), ih h.2, List.cons_append]

/-- The total a row is read back into. -/
def WholeOfferTokenBalance.total (row : WholeOfferTokenBalance) : TokenTotal :=
  ⟨row.token, row.gives, row.wants⟩

/-- A row `canonicalBalances` accepts as it is. -/
structure CanonicalRow (row : WholeOfferTokenBalance) : Prop where
  token : CanonicalToken row.token
  gives : 0 ≤ row.gives
  wants : 0 ≤ row.wants
  net : row.net = row.gives - row.wants

theorem addBalance_ok (totals : List TokenTotal) {row : WholeOfferTokenBalance}
    (h : CanonicalRow row) :
    addBalance totals row = .ok (addTotal row.token row.gives row.wants totals) := by
  have hvalid : ¬ (row.gives < 0 ∨ row.wants < 0 ∨ row.net ≠ row.gives - row.wants) := by
    have := h.gives
    have := h.wants
    have := h.net
    omega
  unfold addBalance
  rw [h.token.eq_ok]
  simp only [bind, Except.bind, if_neg hvalid, pure, Except.pure]

theorem foldlM_addBalance {rows : List WholeOfferTokenBalance} {totals : List TokenTotal}
    (hrows : ∀ row ∈ rows, CanonicalRow row)
    (hnodup : (totals.map (·.token) ++ rows.map (·.token)).Nodup) :
    rows.foldlM addBalance totals = .ok (totals ++ rows.map (·.total)) := by
  induction rows generalizing totals with
  | nil => simp [pure, Except.pure]
  | cons row rows ih =>
    have hfresh : row.token ∉ totals.map (·.token) := fun hmem =>
      (List.nodup_append.mp hnodup).2.2 row.token hmem row.token List.mem_cons_self rfl
    rw [List.foldlM_cons, addBalance_ok totals (hrows row List.mem_cons_self),
      addTotal_of_not_mem hfresh]
    refine (ih (fun r hr => hrows r (List.mem_cons_of_mem _ hr)) (by simpa using hnodup)).trans ?_
    simp [WholeOfferTokenBalance.total]

/-- The canonical form of canonical rows on distinct tokens: the same rows, sorted. -/
theorem canonicalBalances_ok {rows : List WholeOfferTokenBalance}
    (hrows : ∀ row ∈ rows, CanonicalRow row) (hnodup : (rows.map (·.token)).Nodup) :
    canonicalBalances rows = .ok (sortedRows (rows.map (·.total))) := by
  unfold canonicalBalances
  rw [foldlM_addBalance hrows (by simpa using hnodup), List.nil_append]
  rfl

/-- Canonical rows are their own canonical form. -/
theorem canonicalBalances_of_accounts {rows : List WholeOfferTokenBalance} {gives wants : Amounts}
    (h : Accounts rows gives wants) (hrows : ∀ row ∈ rows, CanonicalRow row) :
    canonicalBalances rows = .ok rows := by
  have hpairwise : (rows.map (·.total)).Pairwise byToken :=
    List.pairwise_map.mpr (h.sorted.imp fun hlt => le_of_lt hlt)
  have hrow : (rows.map (·.total)).map TokenTotal.row = rows := by
    rw [List.map_map]
    refine (List.map_congr_left fun row hmem => ?_).trans (List.map_id rows)
    have hnet := (hrows row hmem).net
    cases row
    simp_all [WholeOfferTokenBalance.total, TokenTotal.row]
  rw [canonicalBalances_ok hrows h.nodup_tokens, sortedRows, hpairwise.insertionSort_eq, hrow]

/-- What is written on the wire for canonical rows. -/
theorem serializeWholeOfferTokenBalances_of_accounts {rows : List WholeOfferTokenBalance}
    {gives wants : Amounts} (h : Accounts rows gives wants)
    (hrows : ∀ row ∈ rows, CanonicalRow row) :
    serializeWholeOfferTokenBalances rows = .ok (rows.map fun row =>
      ⟨row.token, decimal row.gives, decimal row.wants, decimal row.net⟩) := by
  unfold serializeWholeOfferTokenBalances
  rw [canonicalBalances_of_accounts h hrows]
  rfl

end ZswapKernel
