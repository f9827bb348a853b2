import Mathlib.Algebra.Order.Floor.Semifield
import Mathlib.Data.Int.Log
import Mathlib.Data.Rat.Floor
import Mathlib.Tactic.Linarith
import Mathlib.Tactic.NormNum
import Mathlib.Tactic.Positivity

/-!
# Double precision

The binary64 numbers as exact rationals, each operation the exact result rounded to the nearest
double, ties to even. A magnitude that rounds to `2 ^ 1024` or more is infinite. Zero has one sign:
nothing here divides by zero.
-/

/-- A binary64 number. -/
inductive Double
  | nan
  | infinity (negative : Bool)
  | finite (value : ℚ)
  deriving DecidableEq, Repr

namespace Double

/-- The integer nearest to `q`, the even one of two. -/
def roundHalfEven (q : ℚ) : ℤ :=
  let below := ⌊q⌋
  if q - below < 1 / 2 then below
  else if 1 / 2 < q - below then below + 1
  else below + below % 2

/-- The exponent of the last bit of a double near `q`. -/
def lastBit (q : ℚ) : ℤ := max (Int.log 2 |q| - 52) (-1074)

/-- The double nearest to `q`. -/
def ofRat (q : ℚ) : Double :=
  let ulp : ℚ := 2 ^ lastBit q
  let rounded := roundHalfEven (q / ulp) * ulp
  if |rounded| < 2 ^ 1024 then finite rounded else infinity (q < 0)

instance : OfNat Double n := ⟨ofRat n⟩

def isFinite : Double → Bool
  | finite _ => true
  | nan | infinity _ => false

def add : Double → Double → Double
  | finite a, finite b => ofRat (a + b)
  | nan, _ | _, nan => nan
  | infinity s, infinity t => if s = t then infinity s else nan
  | infinity s, finite _ | finite _, infinity s => infinity s

def neg : Double → Double
  | nan => nan
  | infinity s => infinity !s
  | finite a => finite (-a)

def mul : Double → Double → Double
  | finite a, finite b => ofRat (a * b)
  | nan, _ | _, nan => nan
  | infinity s, infinity t => infinity (s ^^ t)
  | infinity s, finite a | finite a, infinity s =>
    if a = 0 then nan else infinity (s ^^ decide (a < 0))

/-- Division by a finite divisor that is not zero, or by an infinite one. -/
def div : Double → Double → Double
  | finite a, finite b => if b = 0 then nan else ofRat (a / b)
  | nan, _ | _, nan => nan
  | infinity _, infinity _ => nan
  | infinity s, finite b => infinity (s ^^ decide (b < 0))
  | finite _, infinity _ => finite 0

instance : Add Double := ⟨add⟩
instance : Neg Double := ⟨neg⟩
instance : Sub Double := ⟨fun a b => add a (neg b)⟩
instance : Mul Double := ⟨mul⟩
instance : Div Double := ⟨div⟩

/-- `a < b`, false when one of them is no number. -/
def lt : Double → Double → Bool
  | finite a, finite b => decide (a < b)
  | nan, _ | _, nan => false
  | infinity s, infinity t => s && !t
  | infinity s, finite _ => s
  | finite _, infinity s => !s

/-- `a ≤ b`, false when one of them is no number. -/
def le : Double → Double → Bool
  | finite a, finite b => decide (a ≤ b)
  | nan, _ | _, nan => false
  | infinity s, infinity t => s || !t
  | infinity s, finite _ => s
  | finite _, infinity s => !s

theorem zero_eq : (0 : Double) = finite 0 := by decide +kernel

theorem one_eq : (1 : Double) = finite 1 := by decide +kernel

/-! ## Rounding below one -/

theorem roundHalfEven_bounds (q : ℚ) : ⌊q⌋ ≤ roundHalfEven q ∧ roundHalfEven q ≤ ⌊q⌋ + 1 := by
  have hnonneg := Int.emod_nonneg ⌊q⌋ (by norm_num : (2 : ℤ) ≠ 0)
  have hlt := Int.emod_lt_of_pos ⌊q⌋ (by norm_num : (0 : ℤ) < 2)
  unfold roundHalfEven
  dsimp only
  split_ifs <;> omega

/-- Rounding does not pass an integer. -/
theorem roundHalfEven_le {q : ℚ} {m : ℤ} (h : q ≤ m) : roundHalfEven q ≤ m := by
  rcases lt_or_ge ⌊q⌋ m with hlt | hge
  · have := (roundHalfEven_bounds q).2
    omega
  · have hfloor : ⌊q⌋ = m := le_antisymm (Int.floor_le_iff.mpr (by linarith)) hge
    have hq : q = m := le_antisymm h (Int.le_floor.mp hge)
    unfold roundHalfEven
    rw [hq]
    simp

theorem roundHalfEven_nonneg {q : ℚ} (h : 0 ≤ q) : 0 ≤ roundHalfEven q :=
  (Int.floor_nonneg.mpr h).trans (roundHalfEven_bounds q).1

theorem lastBit_of_lt_one {q : ℚ} (hpos : 0 < q) (hlt : q < 1) : lastBit q ≤ -53 := by
  have hlog : Int.log 2 |q| < 0 := by
    rw [abs_of_pos hpos, ← Int.lt_zpow_iff_log_lt (by norm_num) hpos]
    simpa using hlt
  unfold lastBit
  omega

/-- A fraction that keeps a distance of `2 ^ (-53)` from one rounds to a fraction. -/
theorem ofRat_fraction {q : ℚ} (hq : 0 ≤ q) (hlt : q ≤ 1 - 2 ^ (-53 : ℤ)) :
    ∃ value, ofRat q = finite value ∧ 0 ≤ value ∧ value < 1 := by
  rcases hq.eq_or_lt with rfl | hpos
  · refine ⟨0, ?_, le_rfl, one_pos⟩
    simp [ofRat, roundHalfEven]
  have hone : q < 1 := by
    have : (0 : ℚ) < 2 ^ (-53 : ℤ) := by positivity
    linarith
  have hbit := lastBit_of_lt_one hpos hone
  obtain ⟨n, hn⟩ : ∃ n : ℕ, lastBit q = -(n : ℤ) := ⟨(-lastBit q).toNat, by omega⟩
  have hulp : (0 : ℚ) < 2 ^ lastBit q := zpow_pos two_pos _
  have hscale : (2 : ℚ) ^ lastBit q * (2 ^ n : ℤ) = 1 := by
    rw [hn, zpow_neg, zpow_natCast]
    push_cast
    exact inv_mul_cancel₀ (pow_ne_zero _ two_ne_zero)
  have hstep : (2 : ℚ) ^ lastBit q ≤ 2 ^ (-53 : ℤ) := zpow_le_zpow_right₀ (by norm_num) hbit
  have hbelow : q / 2 ^ lastBit q ≤ ((2 ^ n - 1 : ℤ) : ℚ) := by
    rw [div_le_iff₀ hulp]
    push_cast
    push_cast at hscale
    nlinarith
  have hrounded := roundHalfEven_le hbelow
  have hnonneg : (0 : ℚ) ≤ roundHalfEven (q / 2 ^ lastBit q) :=
    by exact_mod_cast roundHalfEven_nonneg (div_nonneg hq hulp.le)
  have hvalue : roundHalfEven (q / 2 ^ lastBit q) * (2 : ℚ) ^ lastBit q < 1 := by
    have hcast : (roundHalfEven (q / 2 ^ lastBit q) : ℚ) ≤ (2 ^ n - 1 : ℤ) :=
      Int.cast_le.mpr hrounded
    push_cast at hcast hscale
    nlinarith
  refine ⟨_, ?_, mul_nonneg hnonneg hulp.le, hvalue⟩
  unfold ofRat
  dsimp only
  rw [if_pos]
  rw [abs_of_nonneg (mul_nonneg hnonneg hulp.le)]
  exact hvalue.trans (one_lt_pow₀ (by norm_num) (by norm_num))

end Double
