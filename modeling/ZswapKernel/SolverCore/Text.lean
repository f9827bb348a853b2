import Mathlib.Algebra.Order.Ring.Int
import Mathlib.Data.String.Basic

/-!
# Text: hex identities and decimal amounts

The strings the solver core computes with: 64-digit hex token ids, offer hashes and nullifiers,
which are compared in lower case, and decimal amounts, which stand for big integers on the wire.
-/

namespace ZswapKernel

/-- `[0-9a-f]` with the `i` flag. -/
def isHexDigit (c : Char) : Bool :=
  ('0' ≤ c && c ≤ '9') || ('a' ≤ c && c ≤ 'f') || ('A' ≤ c && c ≤ 'F')

/-- `HEX64.test`, `TOKEN_ID.test`: `/^[0-9a-f]{64}$/i`. -/
def hex64 (value : String) : Bool :=
  value.length == 64 && value.toList.all isHexDigit

/-- `value.length`: UTF-16 code units. -/
def utf16Length (value : String) : Nat :=
  (value.toList.map fun c => if c.toNat < 0x10000 then 1 else 2).sum

/-- `value.toLowerCase()`. -/
def toLowerCase (value : String) : String :=
  String.ofList (value.toList.map Char.toLower)

/-- White space or a line terminator. -/
def isBlank (c : Char) : Bool :=
  (9 ≤ c.toNat && c.toNat ≤ 13) || c.toNat ∈ [0x20, 0xA0, 0x1680, 0x2028, 0x2029, 0x202F, 0x205F,
    0x3000, 0xFEFF] || (0x2000 ≤ c.toNat && c.toNat ≤ 0x200A)

/-- `value.trim()`. -/
def trim (value : String) : String :=
  String.ofList ((value.toList.dropWhile isBlank).reverse.dropWhile isBlank).reverse

/-- `amount.toString()` of a bigint. -/
def decimal (amount : Int) : String := amount.repr

/-- `BigInt(value)` of a decimal string; the callers have checked the grammar. -/
def bigInt (value : String) : Int :=
  match value.toList with
  | '-' :: digits => -(Nat.ofDigitChars 10 digits 0 : Int)
  | digits => Nat.ofDigitChars 10 digits 0

@[simp] theorem bigInt_decimal (amount : Int) : bigInt (decimal amount) = amount := by
  unfold bigInt decimal
  cases amount with
  | ofNat n =>
    have hdigit : ∀ c ∈ Nat.toDigits 10 n, c ≠ '-' := by
      rintro c hc rfl
      exact absurd (Nat.isDigit_of_mem_toDigits (by decide) (by decide) hc) (by decide)
    rw [Int.repr, Nat.toList_repr]
    split
    · rename_i digits hdigits
      exact absurd rfl (hdigit '-' (by rw [hdigits]; exact List.mem_cons_self))
    · rw [Nat.ofDigitChars_ten_toDigits]
      rfl
  | negSucc n =>
    have hminus : ("-" : String).toList = ['-'] := rfl
    rw [Int.repr, String.toList_append, hminus, Nat.toList_repr, List.singleton_append]
    simp only [Nat.ofDigitChars_ten_toDigits]
    rfl

theorem decimal_injective {a b : Int} (h : decimal a = decimal b) : a = b := by
  rw [← bigInt_decimal a, h, bigInt_decimal]

/-! ### Lower case -/

/-- A character and its code point. -/
theorem toNat_toLower (c : Char) :
    c.toLower.toNat = if 65 ≤ c.toNat ∧ c.toNat ≤ 90 then c.toNat + 32 else c.toNat := by
  unfold Char.toLower
  split
  · rename_i h
    have h1 : 65 ≤ c.toNat := UInt32.le_iff_toNat_le.mp h.1
    have h2 : c.toNat ≤ 90 := UInt32.le_iff_toNat_le.mp h.2
    rw [if_pos ⟨h1, h2⟩]
    show (c.val + 32).toNat = c.toNat + 32
    rw [UInt32.toNat_add]
    show (c.toNat + 32) % 2 ^ 32 = c.toNat + 32
    omega
  · rename_i h
    rw [if_neg]
    rintro ⟨h1, h2⟩
    exact h ⟨UInt32.le_iff_toNat_le.mpr h1, UInt32.le_iff_toNat_le.mpr h2⟩

theorem toLower_toLower (c : Char) : c.toLower.toLower = c.toLower := by
  apply Char.toNat_inj.mp
  rw [toNat_toLower c.toLower, toNat_toLower c]
  split_ifs <;> omega

theorem isBlank_iff (c : Char) : isBlank c = true ↔
    (9 ≤ c.toNat ∧ c.toNat ≤ 13) ∨ c.toNat ∈ [0x20, 0xA0, 0x1680, 0x2028, 0x2029, 0x202F, 0x205F,
      0x3000, 0xFEFF] ∨ (0x2000 ≤ c.toNat ∧ c.toNat ≤ 0x200A) := by
  unfold isBlank
  rw [Bool.or_eq_true, Bool.or_eq_true, Bool.and_eq_true, Bool.and_eq_true, or_assoc]
  simp only [decide_eq_true_eq]

theorem isBlank_toLower (c : Char) : isBlank c.toLower = isBlank c := by
  rw [Bool.eq_iff_iff, isBlank_iff, isBlank_iff, toNat_toLower]
  simp only [List.mem_cons, List.not_mem_nil, or_false]
  split_ifs <;> omega

/-- A digit is not blank. -/
theorem isBlank_of_isDigit {c : Char} (h : c.isDigit = true) : isBlank c = false := by
  rw [← Bool.not_eq_true, isBlank_iff]
  have hdigit : 48 ≤ c.toNat ∧ c.toNat ≤ 57 := by
    simpa [Char.isDigit, UInt32.le_iff_toNat_le] using h
  simp only [List.mem_cons, List.not_mem_nil, or_false]
  omega

/-- Where nothing is blank, nothing is removed. -/
theorem trim_of_forall {value : String} (h : ∀ c ∈ value.toList, isBlank c = false) :
    trim value = value := by
  have hkeep : ∀ l : List Char, (∀ c ∈ l, isBlank c = false) → l.dropWhile isBlank = l := by
    intro l hl
    cases l with
    | nil => rfl
    | cons c rest => exact List.dropWhile_cons_of_neg (by simp [hl c List.mem_cons_self])
  unfold trim
  rw [hkeep _ h, hkeep _ fun c hc => h c (List.mem_reverse.mp hc), List.reverse_reverse,
    String.ofList_toList]

theorem isHexDigit_iff (c : Char) : isHexDigit c = true ↔
    (48 ≤ c.toNat ∧ c.toNat ≤ 57) ∨ (97 ≤ c.toNat ∧ c.toNat ≤ 102) ∨
      (65 ≤ c.toNat ∧ c.toNat ≤ 70) := by
  simp only [isHexDigit, Bool.or_eq_true, Bool.and_eq_true, decide_eq_true_eq, Char.le_def,
    UInt32.le_iff_toNat_le, or_assoc]
  rfl

theorem isHexDigit_toLower (c : Char) : isHexDigit c.toLower = isHexDigit c := by
  rw [Bool.eq_iff_iff, isHexDigit_iff, isHexDigit_iff, toNat_toLower]
  split_ifs <;> omega

@[simp] theorem toLowerCase_toLowerCase (value : String) :
    toLowerCase (toLowerCase value) = toLowerCase value := by
  unfold toLowerCase
  rw [String.toList_ofList, List.map_map]
  congr 2
  funext c
  exact toLower_toLower c

/-- The hex grammar ignores case. -/
@[simp] theorem hex64_toLowerCase (value : String) : hex64 (toLowerCase value) = hex64 value := by
  unfold hex64 toLowerCase
  rw [String.toList_ofList, String.length_ofList, List.length_map, List.all_map]
  congr 1
  exact congrArg (value.toList.all ·) (funext isHexDigit_toLower)

end ZswapKernel
