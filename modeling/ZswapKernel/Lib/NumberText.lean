import ZswapKernel.Lib.Double
import ZswapKernel.Lib.Json

/-!
# The text of a number

`String(x)` of a double: the fewest decimal digits that read back as `x`, plain where the point lies
within 21 digits and at most six zeros follow it, else with an exponent. `JSON.stringify` writes
values with it.

* `Numeral`: a text of digits with an optional point and exponent.
* `numberText_numeral`: the text of a positive double is one.
-/

namespace ZswapKernel

/-- A `k`-digit decimal near `x` that reads back as `x`, the nearest one if it does. -/
def shortestAt (x : ℚ) (n k : Int) : Option Nat :=
  let scaled := x / 10 ^ (n - k)
  let candidates : List Int := [Double.roundHalfEven scaled, ⌊scaled⌋, ⌊scaled⌋ + 1]
  candidates.findSome? fun (s : Int) =>
    if Double.ofRat ((s : ℚ) * 10 ^ (n - k)) = .finite x then some s.toNat else none

/-- The digits of `x`, and where the point is after the first of them; 17 digits always suffice. -/
def shortestDigits (x : ℚ) : List Char × Int :=
  let n := Int.log 10 x + 1
  let k : Nat :=
    ((List.range 17).find? fun k : Nat => (shortestAt x n (k + 1)).isSome).elim 17 Nat.succ
  let s := (shortestAt x n k).getD ⌊x / 10 ^ (n - k)⌋.toNat
  -- a carry to the next power of ten moves the point
  if 10 ^ k ≤ s then (['1'], n + 1) else (Nat.toDigits 10 s, n)

/-- The exponent part. -/
def exponentText (e : Int) : List Char :=
  'e' :: (if e < 0 then '-' else '+') :: Nat.toDigits 10 e.natAbs

/-- The layout of digits whose point comes after `n` of them. -/
def layoutDigits (digits : List Char) (n : Int) : List Char :=
  let k : Int := digits.length
  if k ≤ n ∧ n ≤ 21 then digits ++ List.replicate (n - k).toNat '0'
  else if 0 < n ∧ n ≤ 21 then digits.take n.toNat ++ '.' :: digits.drop n.toNat
  else if -6 < n ∧ n ≤ 0 then '0' :: '.' :: (List.replicate (-n).toNat '0' ++ digits)
  else digits.take 1 ++ (if digits.length ≤ 1 then [] else '.' :: digits.drop 1) ++
    exponentText (n - 1)

/-- `String(x)`. -/
def numberText : Double → String
  | .nan => "NaN"
  | .infinity negative => if negative then "-Infinity" else "Infinity"
  | .finite x =>
    if x = 0 then "0"
    else
      let (digits, n) := shortestDigits |x|
      String.ofList ((if x < 0 then ['-'] else []) ++ layoutDigits digits n)

/-! ## The shape of the text -/

/-- Digits with an optional point and an optional exponent. -/
def Numeral (text : List Char) : Prop :=
  ∃ whole point tail, text = whole ++ (point ++ tail) ∧ whole ≠ [] ∧
    (∀ c ∈ whole, c.isDigit = true) ∧
    (point = [] ∨ ∃ fraction, point = '.' :: fraction ∧ ∀ c ∈ fraction, c.isDigit = true) ∧
    (tail = [] ∨ ∃ e, tail = exponentText e)

theorem layoutDigits_numeral {digits : List Char} (hne : digits ≠ [])
    (hdigits : ∀ c ∈ digits, c.isDigit = true) (n : Int) : Numeral (layoutDigits digits n) := by
  have hzeros : ∀ k, ∀ c ∈ List.replicate k '0', c.isDigit = true := by
    intro k c hc
    rw [List.eq_of_mem_replicate hc]
    decide
  have htake : ∀ k, k ≠ 0 → digits.take k ≠ [] := fun k hk h =>
    (List.take_eq_nil_iff.1 h).elim hk hne
  unfold layoutDigits
  simp only
  split_ifs with hwhole hpoint hsmall hone
  · refine ⟨_, [], [], (List.append_nil _).symm, ?_, fun c hc => ?_, .inl rfl, .inl rfl⟩
    · exact List.append_ne_nil_of_left_ne_nil hne _
    · exact (List.mem_append.1 hc).elim (hdigits c) (hzeros _ c)
  · refine ⟨digits.take n.toNat, '.' :: digits.drop n.toNat, [], ?_, ?_, ?_, .inr ⟨_, rfl, ?_⟩,
      .inl rfl⟩
    · rw [List.append_nil]
    · exact htake _ (by omega)
    · exact fun c hc => hdigits c (List.mem_of_mem_take hc)
    · exact fun c hc => hdigits c (List.mem_of_mem_drop hc)
  · refine ⟨['0'], '.' :: (List.replicate (-n).toNat '0' ++ digits), [], ?_, nofun, ?_,
      .inr ⟨_, rfl, fun c hc => ?_⟩, .inl rfl⟩
    · rw [List.append_nil]
      rfl
    · intro c hc
      rw [List.mem_singleton.1 hc]
      decide
    · exact (List.mem_append.1 hc).elim (hzeros _ c) (hdigits c)
  · refine ⟨digits.take 1, [], _, ?_, ?_, fun c hc => hdigits c (List.mem_of_mem_take hc),
      .inl rfl, .inr ⟨n - 1, rfl⟩⟩
    · rw [List.append_nil, List.nil_append]
    · exact htake 1 one_ne_zero
  · refine ⟨digits.take 1, _, _, List.append_assoc _ _ _, ?_,
      fun c hc => hdigits c (List.mem_of_mem_take hc),
      .inr ⟨_, rfl, fun c hc => hdigits c (List.mem_of_mem_drop hc)⟩, .inr ⟨n - 1, rfl⟩⟩
    exact htake 1 one_ne_zero

theorem shortestDigits_digits (x : ℚ) :
    (shortestDigits x).1 ≠ [] ∧ ∀ c ∈ (shortestDigits x).1, c.isDigit = true := by
  unfold shortestDigits
  simp only
  split_ifs
  · exact ⟨nofun, fun c hc => by rw [List.mem_singleton.1 hc]; decide⟩
  · exact ⟨Nat.toDigits_ne_nil, fun c hc =>
      Nat.isDigit_of_mem_toDigits (by decide) (by decide) hc⟩

/-- **The text of a positive number is a numeral.** -/
theorem numberText_numeral {x : ℚ} (h : 0 < x) : Numeral (numberText (.finite x)).toList := by
  obtain ⟨hne, hdigits⟩ := shortestDigits_digits |x|
  unfold numberText
  simp only [h.ne', if_false, h.not_gt, List.nil_append, String.toList_ofList]
  exact layoutDigits_numeral hne hdigits _

/-! ## `JSON.stringify` -/

/-- One character inside a quoted text. -/
def quoteChar (c : Char) : List Char :=
  if c = '"' then ['\\', '"']
  else if c = '\\' then ['\\', '\\']
  else if c = '\n' then ['\\', 'n']
  else if c = '\r' then ['\\', 'r']
  else if c = '\t' then ['\\', 't']
  else if c.toNat = 8 then ['\\', 'b']
  else if c.toNat = 12 then ['\\', 'f']
  else if c.toNat < 32 then
    '\\' :: 'u' :: '0' :: '0' :: Nat.digitChar (c.toNat / 16) :: [Nat.digitChar (c.toNat % 16)]
  else [c]

def quote (text : String) : String :=
  String.ofList ('"' :: (text.toList.flatMap quoteChar ++ ['"']))

mutual

/-- `JSON.stringify(value)`. -/
def Json.stringify : Json → String
  | .null => "null"
  | .bool value => if value then "true" else "false"
  | .number value => if value.isFinite then numberText value else "null"
  | .string value => quote value
  | .array values => "[" ++ String.intercalate "," (stringifyAll values) ++ "]"
  | .object fields => "\x7b" ++ String.intercalate "," (stringifyFields fields) ++ "\x7d"

def Json.stringifyAll : List Json → List String
  | [] => []
  | value :: values => value.stringify :: stringifyAll values

def Json.stringifyFields : List (String × Json) → List String
  | [] => []
  | (name, value) :: fields => (quote name ++ ":" ++ value.stringify) :: stringifyFields fields

end

end ZswapKernel
