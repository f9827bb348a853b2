import Mathlib.Data.List.Infix
import Mathlib.Tactic.IntervalCases
import ZswapKernel.Validator.Derive

/-!
# Reading the root of a serialized input

`extractInputRoot` (`extract-root.ts`) finds the nullifier in a serialized `ZswapInput` and reads
the run that starts 65 bytes after it. The pinned layout (`InputHead`, `InputBody`) is a tagged
header, the nullifier, the value commitment, the absent contract option, the root and any tail.

"The first occurrence is the struct's first field" is what the extraction rests on, and it is not
always so: a nullifier whose first bytes close the header (`InputHead.Overlaps`) is found inside it.

Results:
* `indexOf_eq_some_iff`: `indexOf` is the first occurrence.
* `hexToBytes_bytesToHex`: the hex of the getter reads back as the bytes.
* `extractInputRoot_ok`: what every answer is, for any bytes and any nullifier.
* `extractInputRoot_input`: without an overlap the answer is the root.
* `extractInputRoot_blind`: with one the answer does not depend on the root.
* `extractInputRoot_exact`: the extraction is exact for the inputs of a head iff the head has no
  overlap, and it fails closed everywhere.
-/

namespace ZswapKernel

/-! ## First occurrences -/

/-- `indexOf` is the first place where the needle occurs. -/
theorem indexOf_eq_some_iff {α : Type} [BEq α] [LawfulBEq α] (needle : List α) :
    ∀ (xs : List α) (p : Nat), indexOf needle xs = some p ↔
      p ≤ xs.length ∧ needle <+: xs.drop p ∧ ∀ q < p, ¬ needle <+: xs.drop q
  | [], p => by
    unfold indexOf
    cases needle with
    | nil =>
      constructor
      · rintro ⟨⟩
        simp
      · rintro ⟨hp, -, -⟩
        simp only [List.length_nil, Nat.le_zero] at hp
        simp [hp]
    | cons a needle => simp
  | x :: xs, p => by
    have ih := indexOf_eq_some_iff needle xs
    unfold indexOf
    by_cases hx : needle <+: x :: xs
    · rw [if_pos (List.isPrefixOf_iff_prefix.2 hx)]
      constructor
      · rintro ⟨⟩
        exact ⟨Nat.zero_le _, hx, fun q hq => absurd hq (Nat.not_lt_zero q)⟩
      · rintro ⟨-, -, hfirst⟩
        cases p with
        | zero => rfl
        | succ p => exact absurd hx (hfirst 0 (Nat.succ_pos p))
    · rw [if_neg (mt List.isPrefixOf_iff_prefix.1 hx), Option.map_eq_some_iff]
      constructor
      · rintro ⟨p, hp, rfl⟩
        obtain ⟨hle, hat, hfirst⟩ := (ih p).1 hp
        refine ⟨Nat.succ_le_succ hle, hat, fun q hq => ?_⟩
        cases q with
        | zero => exact hx
        | succ q => exact hfirst q (Nat.lt_of_succ_lt_succ hq)
      · rintro ⟨hle, hat, hfirst⟩
        cases p with
        | zero => exact absurd hat hx
        | succ p =>
          refine ⟨p, (ih p).2 ⟨Nat.le_of_succ_le_succ hle, hat, fun q hq => ?_⟩, rfl⟩
          exact hfirst (q + 1) (Nat.succ_lt_succ hq)

/-- A needle that occurs inside a prefix of the list occurs there first. -/
theorem indexOf_append_of_eq_some {α : Type} [BEq α] [LawfulBEq α] {needle xs : List α} {p : Nat}
    (h : indexOf needle xs = some p) (ys : List α) : indexOf needle (xs ++ ys) = some p := by
  obtain ⟨hle, hat, hfirst⟩ := (indexOf_eq_some_iff needle xs p).1 h
  have hlen : needle.length + p ≤ xs.length := by
    have := hat.length_le
    rw [List.length_drop] at this
    omega
  refine (indexOf_eq_some_iff needle (xs ++ ys) p).2 ⟨?_, ?_, fun q hq hocc => hfirst q hq ?_⟩
  · rw [List.length_append]
    omega
  · rw [List.drop_append_of_le_length hle]
    exact hat.trans (List.prefix_append _ _)
  · rw [List.drop_append_of_le_length (by omega)] at hocc
    refine List.prefix_of_prefix_length_le hocc (List.prefix_append _ ys) ?_
    rw [List.length_drop]
    omega

/-! ## Hex digits -/

theorem hexDigitValue_hexDigit (n : Nat) (h : n < 16) : hexDigitValue (hexDigit n) = some n := by
  interval_cases n <;> rfl

/-- A digit is its own lower case and no letter of the `0x` prefix. -/
theorem hexDigit_plain (n : Nat) (h : n < 16) :
    (hexDigit n).toLower = hexDigit n ∧ hexDigit n ≠ 'x' ∧ hexDigit n ≠ 'X' := by
  interval_cases n <;> decide

theorem toNat_div_lt (b : UInt8) : b.toNat / 16 < 16 := by
  have := b.toNat_lt
  omega

theorem toNat_mod_lt (b : UInt8) : b.toNat % 16 < 16 := Nat.mod_lt _ (by decide)

@[simp] theorem toList_bytesToHex (bytes : List UInt8) :
    (bytesToHex bytes).toList =
      bytes.flatMap fun b => [hexDigit (b.toNat / 16), hexDigit (b.toNat % 16)] :=
  String.toList_ofList

/-- **Bytes read back from their hex.** -/
theorem hexToBytes_bytesToHex (bytes : List UInt8) :
    hexToBytes (bytesToHex bytes).toList = bytes := by
  rw [toList_bytesToHex]
  induction bytes with
  | nil => rfl
  | cons b bytes ih =>
    rw [List.flatMap_cons]
    unfold hexToBytes
    simp only [List.cons_append, List.nil_append]
    rw [hexDigitValue_hexDigit _ (toNat_div_lt b), hexDigitValue_hexDigit _ (toNat_mod_lt b)]
    have hb : 16 * (b.toNat / 16) + b.toNat % 16 = b.toNat := Nat.div_add_mod _ _
    simp only [hb, UInt8.ofNat_toNat, ih]

theorem bytesToHex_injective {a b : List UInt8} (h : bytesToHex a = bytesToHex b) : a = b := by
  rw [← hexToBytes_bytesToHex a, h, hexToBytes_bytesToHex]

/-- The hex of bytes has no `0x` to strip. -/
theorem stripHexPrefix_bytesToHex (bytes : List UInt8) :
    stripHexPrefix (bytesToHex bytes) = bytesToHex bytes := by
  unfold stripHexPrefix
  cases bytes with
  | nil => rfl
  | cons b bytes =>
    rw [toList_bytesToHex, List.flatMap_cons]
    obtain ⟨-, hx, hX⟩ := hexDigit_plain _ (toNat_mod_lt b)
    split
    · rename_i heq
      exact absurd (List.cons.inj (List.cons.inj heq).2).1 hx
    · rename_i heq
      exact absurd (List.cons.inj (List.cons.inj heq).2).1 hX
    · rfl

/-- The hex of bytes is canonical: the getter and the extraction spell a value the same way. -/
theorem canonicalRootHex_bytesToHex (bytes : List UInt8) :
    canonicalRootHex (bytesToHex bytes) = bytesToHex bytes := by
  unfold canonicalRootHex toLowerCase
  rw [stripHexPrefix_bytesToHex, ← String.toList_inj, String.toList_ofList, toList_bytesToHex]
  refine (List.map_congr_left fun c hc => ?_).trans (List.map_id _)
  obtain ⟨b, -, hc⟩ := List.mem_flatMap.1 hc
  rcases List.mem_pair.1 hc with rfl | rfl
  · exact (hexDigit_plain _ (toNat_div_lt b)).1
  · exact (hexDigit_plain _ (toNat_mod_lt b)).1

/-! ## The pinned layout -/

/-- The part of a serialized input up to its nullifier, and the getter that reports it. -/
structure InputHead where
  header : List UInt8
  nullifier : List UInt8
  /-- `String(input.nullifier)`. -/
  getter : String
  tagged :
    (indexOf pinnedInputTag.toList (header.map fun b => Char.ofNat b.toNat)).isSome = true
  nullifier_length : nullifier.length = 32
  reported : hexToBytes (canonicalRootHex getter).toList = nullifier

/-- The rest of it: the value commitment, the root as a SCALE-compact run, and what follows. -/
structure InputBody where
  commitment : List UInt8
  mode : UInt8
  digits : List UInt8
  tail : List UInt8
  commitment_length : commitment.length = 32
  root_length : (mode :: digits).length = scaleRunLength mode
  root_short : (mode :: digits).length ≤ 33

/-- The bytes of the root. -/
def InputBody.root (body : InputBody) : List UInt8 := body.mode :: body.digits

/-- The absent contract option, one byte. -/
def absentContract : UInt8 := 0

/-- A serialized input of the pinned layout. -/
def InputHead.input (head : InputHead) (body : InputBody) : ZswapInput where
  nullifier := .text head.getter
  serialized :=
    head.header ++ head.nullifier ++ (body.commitment ++ [absentContract]) ++ body.root ++ body.tail

/-- The nullifier occurs before its own place: its first bytes close the header. -/
def InputHead.Overlaps (head : InputHead) : Prop :=
  ∃ p < head.header.length, head.nullifier <+: (head.header ++ head.nullifier).drop p

/-- A one-byte root. -/
def shortRoot (mode : UInt8) (h : scaleRunLength mode = 1) : InputBody where
  commitment := List.replicate 32 0
  mode := mode
  digits := []
  tail := []
  commitment_length := List.length_replicate
  root_length := h.symm
  root_short := Nat.le_of_lt_succ (by simp)

variable {head : InputHead}

/-- The place where the extraction finds the nullifier. -/
theorem InputHead.indexOf_some (head : InputHead) :
    ∃ p ≤ head.header.length, indexOf head.nullifier (head.header ++ head.nullifier) = some p ∧
      (p < head.header.length ↔ head.Overlaps) := by
  have hown : head.nullifier <+: (head.header ++ head.nullifier).drop head.header.length := by
    rw [List.drop_left]
  -- the least place at which it occurs, its own place being one
  classical
  have hex : ∃ p, head.nullifier <+: (head.header ++ head.nullifier).drop p := ⟨_, hown⟩
  have hle : Nat.find hex ≤ head.header.length := Nat.find_min' hex hown
  refine ⟨Nat.find hex, hle, ?_, fun h => ⟨_, h, Nat.find_spec hex⟩, ?_⟩
  · refine (indexOf_eq_some_iff _ _ _).2 ⟨?_, Nat.find_spec hex, fun q hq => Nat.find_min hex hq⟩
    rw [List.length_append]
    omega
  · rintro ⟨p, hp, hocc⟩
    exact (Nat.find_min' hex hocc).trans_lt hp

/-! ## What an answer is -/

/-- **Every answer is a run inside the input**: it starts 65 bytes after the first occurrence of the
nullifier and is as long as its first byte says. -/
theorem extractInputRoot_ok {input : ZswapInput} {root : String}
    (h : extractInputRoot input = .ok root) :
    ∃ nulOff firstByte,
      indexOf (hexToBytes (canonicalRootHex input.nullifier.toText).toList) input.serialized =
          some nulOff ∧
        input.serialized[nulOff + 65]? = some firstByte ∧
        1 ≤ scaleRunLength firstByte ∧ scaleRunLength firstByte ≤ 33 ∧
        nulOff + 65 + scaleRunLength firstByte ≤ input.serialized.length ∧
        root = bytesToHex
          ((input.serialized.drop (nulOff + 65)).take (scaleRunLength firstByte)) := by
  unfold extractInputRoot at h
  simp only at h
  by_cases hlen : (hexToBytes (canonicalRootHex input.nullifier.toText).toList).length ≠ 32
  · rw [if_pos hlen] at h
    cases h
  rw [if_neg hlen] at h
  cases hoff : indexOf (hexToBytes (canonicalRootHex input.nullifier.toText).toList)
      input.serialized with
  | none =>
    simp only [hoff] at h
    cases h
  | some nulOff =>
    simp only [hoff] at h
    split at h
    · cases h
    cases hbyte : input.serialized[nulOff + 32 + rootGapAfterNullifier]? with
    | none =>
      simp only [hbyte] at h
      cases h
    | some firstByte =>
      simp only [hbyte] at h
      split at h
      · cases h
      rename_i hrun
      refine ⟨nulOff, firstByte, rfl, hbyte, ?_, ?_, ?_, (Except.ok.inj h).symm⟩ <;>
      · simp only [rootGapAfterNullifier] at hrun
        omega

/-- The extraction once the nullifier is found. -/
theorem extractInputRoot_of_indexOf {input : ZswapInput} {nul : List UInt8} {p : Nat}
    (hnul : hexToBytes (canonicalRootHex input.nullifier.toText).toList = nul)
    (hlen : nul.length = 32) (hoff : indexOf nul input.serialized = some p) :
    extractInputRoot input =
      if (indexOf pinnedInputTag.toList
          ((input.serialized.take p).map fun b => Char.ofNat b.toNat)).isNone then
        .error ("input tag header missing \"" ++ pinnedInputTag ++ "\"")
      else
        match input.serialized[p + 65]? with
        | none => .error "root offset past end of input"
        | some firstByte =>
          if scaleRunLength firstByte < 1 ∨ scaleRunLength firstByte > 33 ∨
              p + 65 + scaleRunLength firstByte > input.serialized.length then
            .error s!"implausible root run length {scaleRunLength firstByte}"
          else
            .ok (bytesToHex
              ((input.serialized.drop (p + 65)).take (scaleRunLength firstByte))) := by
  unfold extractInputRoot
  simp only [hnul]
  rw [if_neg (not_not.2 hlen)]
  simp only [hoff]
  rfl

/-! ## With and without an overlap -/

/-- The nullifier is first found at the same place in every input of a head. -/
theorem InputHead.indexOf_input {p : Nat}
    (h : indexOf head.nullifier (head.header ++ head.nullifier) = some p) (body : InputBody) :
    indexOf head.nullifier (head.input body).serialized = some p := by
  unfold InputHead.input
  simp only [List.append_assoc]
  rw [← List.append_assoc head.header]
  exact indexOf_append_of_eq_some h _

/-- **Without an overlap the answer is the root.** -/
theorem extractInputRoot_input (h : ¬ head.Overlaps) (body : InputBody) :
    extractInputRoot (head.input body) = .ok (bytesToHex body.root) := by
  obtain ⟨p, hp, hoff, hover⟩ := head.indexOf_some
  obtain rfl : p = head.header.length := Nat.le_antisymm hp (not_lt.1 (mt hover.1 h))
  have hser : (head.input body).serialized =
      head.header ++
        (head.nullifier ++ (body.commitment ++ [absentContract]) ++ (body.root ++ body.tail)) := by
    unfold InputHead.input
    simp only [List.append_assoc]
  have hmid : (head.nullifier ++ (body.commitment ++ [absentContract])).length = 65 := by
    simp [head.nullifier_length, body.commitment_length]
  have hdrop : (head.input body).serialized.drop (head.header.length + 65) =
      body.root ++ body.tail := by
    rw [hser, ← List.drop_drop, List.drop_left, List.drop_left' hmid]
  have hbyte : (head.input body).serialized[head.header.length + 65]? = some body.mode := by
    have := congrArg (fun ys : List UInt8 => ys[0]?) hdrop
    simpa [InputBody.root] using this
  have hroot : body.root.length = scaleRunLength body.mode := body.root_length
  have hshort : body.root.length ≤ 33 := body.root_short
  have hend : head.header.length + 65 + body.root.length ≤ (head.input body).serialized.length := by
    rw [hser, List.length_append, List.length_append, hmid, List.length_append]
    omega
  have hpos : 1 ≤ body.root.length := Nat.succ_le_succ (Nat.zero_le _)
  have htag : (indexOf pinnedInputTag.toList
      (((head.input body).serialized.take head.header.length).map
        fun b => Char.ofNat b.toNat)).isNone = false := by
    rw [hser, List.take_left, ← Bool.not_eq_true', Option.not_isNone]
    exact head.tagged
  rw [@extractInputRoot_of_indexOf (head.input body) _ _ head.reported head.nullifier_length
    (head.indexOf_input hoff body), htag, if_neg Bool.false_ne_true, hbyte, hdrop]
  have hrun : ¬ (scaleRunLength body.mode < 1 ∨ scaleRunLength body.mode > 33 ∨
      head.header.length + 65 + scaleRunLength body.mode >
        (head.input body).serialized.length) := by
    omega
  simp only
  rw [if_neg hrun, ← hroot, List.take_left]

/-- **With an overlap the answer is blind to the root**: the run is read before the root starts. -/
theorem extractInputRoot_blind (h : head.Overlaps) {a b : UInt8} (ha : scaleRunLength a = 1)
    (hb : scaleRunLength b = 1) :
    extractInputRoot (head.input (shortRoot a ha)) =
      extractInputRoot (head.input (shortRoot b hb)) := by
  obtain ⟨p, -, hoff, hover⟩ := head.indexOf_some
  have hp := hover.2 h
  -- the bytes before the root, which the two inputs share, end in 33 zeros
  obtain ⟨P, hP⟩ : ∃ P, P = head.header ++ head.nullifier ++ List.replicate 33 absentContract :=
    ⟨_, rfl⟩
  have hser : ∀ (c : UInt8) (hc : scaleRunLength c = 1),
      (head.input (shortRoot c hc)).serialized = P ++ [c] := by
    intro c hc
    rw [hP]
    unfold InputHead.input shortRoot InputBody.root
    rw [List.append_nil]
    rfl
  have hlen : P.length = head.header.length + 65 := by
    rw [hP, List.length_append, List.length_append, head.nullifier_length, List.length_replicate]
  -- a run that is read from the zeros is one byte, any other ends among them
  have hend : ∀ firstByte, P[p + 65]? = some firstByte → scaleRunLength firstByte ≤ 33 →
      p + 65 + scaleRunLength firstByte ≤ P.length := by
    intro firstByte hbyte hrun
    by_cases hzero : head.header.length + 32 ≤ p + 65
    · have hpre : (head.header ++ head.nullifier).length ≤ p + 65 := by
        rw [List.length_append, head.nullifier_length]
        exact hzero
      rw [hP, List.getElem?_append_right hpre, List.getElem?_replicate] at hbyte
      split at hbyte
      · obtain rfl := Option.some.inj hbyte
        have : scaleRunLength absentContract = 1 := rfl
        omega
      · cases hbyte
    · omega
  have hfound := fun c hc => @extractInputRoot_of_indexOf (head.input (shortRoot c hc)) _ _
    head.reported head.nullifier_length (head.indexOf_input hoff _)
  rw [hfound a ha, hfound b hb, hser a ha, hser b hb, List.take_append_of_le_length (by omega),
    List.take_append_of_le_length (by omega), List.getElem?_append_left (by omega),
    List.getElem?_append_left (by omega), List.drop_append_of_le_length (by omega),
    List.drop_append_of_le_length (by omega)]
  cases hbyte : P[p + 65]? with
  | none => rfl
  | some firstByte =>
    simp only [List.length_append, List.length_singleton]
    by_cases hrun : scaleRunLength firstByte ≤ 33
    · have := hend firstByte hbyte hrun
      rw [List.take_append_of_le_length, List.take_append_of_le_length] <;>
      · rw [List.length_drop]
        omega
    · have hrefused : ∀ n, scaleRunLength firstByte < 1 ∨ scaleRunLength firstByte > 33 ∨
          p + 65 + scaleRunLength firstByte > n := fun n => .inr (.inl (not_le.1 hrun))
      rw [if_pos (hrefused _), if_pos (hrefused _)]

/-! ## The result -/

/-- **Root extraction is exact for the inputs of a head iff its nullifier has no earlier
occurrence**, and so it tells roots apart iff it has none. For any bytes and any nullifier it throws
or answers with a run of 1 to 33 bytes inside the input. -/
theorem extractInputRoot_exact (head : InputHead) (input : ZswapInput) :
    ((∀ body, extractInputRoot (head.input body) = .ok (bytesToHex body.root)) ↔
        ¬ head.Overlaps) ∧
      ((∀ body body', body.root ≠ body'.root →
          extractInputRoot (head.input body) ≠ extractInputRoot (head.input body')) ↔
        ¬ head.Overlaps) ∧
      ((∃ message, extractInputRoot input = .error message) ∨
        ∃ offset length, 1 ≤ length ∧ length ≤ 33 ∧ offset + length ≤ input.serialized.length ∧
          extractInputRoot input =
            .ok (bytesToHex ((input.serialized.drop offset).take length))) := by
  have hdiffer : (∀ body, extractInputRoot (head.input body) = .ok (bytesToHex body.root)) →
      ∀ body body', body.root ≠ body'.root →
        extractInputRoot (head.input body) ≠ extractInputRoot (head.input body') := by
    intro hexact body body' hne heq
    rw [hexact, hexact] at heq
    exact hne (bytesToHex_injective (Except.ok.inj heq))
  have hclear : (∀ body body', body.root ≠ body'.root →
      extractInputRoot (head.input body) ≠ extractInputRoot (head.input body')) →
      ¬ head.Overlaps := by
    intro hall hover
    refine hall (shortRoot 0 rfl) (shortRoot 4 rfl) ?_ (extractInputRoot_blind hover rfl rfl)
    unfold InputBody.root shortRoot
    decide
  refine ⟨⟨fun h => hclear (hdiffer h), extractInputRoot_input⟩,
    ⟨hclear, fun h => hdiffer (extractInputRoot_input h)⟩, ?_⟩
  cases hroot : extractInputRoot input with
  | error message => exact .inl ⟨message, rfl⟩
  | ok root =>
    obtain ⟨nulOff, firstByte, -, -, hpos, hshort, hend, rfl⟩ := extractInputRoot_ok hroot
    exact .inr ⟨nulOff + 65, scaleRunLength firstByte, hpos, hshort, hend, rfl⟩

/-- A nullifier of colons after a header that ends in one. -/
def colonHead : InputHead where
  header := "midnight:zswap-input[v2](proof[v5]):".toList.map fun c => UInt8.ofNat c.toNat
  nullifier := List.replicate 32 0x3a
  getter := bytesToHex (List.replicate 32 0x3a)
  tagged := by decide +kernel
  nullifier_length := by decide +kernel
  reported := by
    rw [canonicalRootHex_bytesToHex, hexToBytes_bytesToHex]

/-- Its input with root `04` is read one byte early, as the contract option. -/
theorem extractInputRoot_inexact :
    ∃ (head : InputHead) (body : InputBody),
      extractInputRoot (head.input body) = .ok "00" ∧ bytesToHex body.root = "04" :=
  ⟨colonHead, shortRoot 4 rfl, by decide +kernel, by decide +kernel⟩

end ZswapKernel
