/-
  ChatMarkup/Proofs/Decimal/Numeral.lean
  ======================================
  **What the readers of integers read** — for each of them exactly the texts that spell an
  integer, and the integer that they spell.

  All of them take a plus sign, also where none is ever written, and any number of zeros in
  front.  So a number has many texts, of which `ofNat` is the shortest: every numeral is that
  text behind zeros (`IsNumeral.exists_zeros`).
-/
import ChatMarkup.Decimal.Spelling

namespace ChatMarkup.Decimal

variable {text digits zeros : List Char} {c : Char}

/-! ### Signs -/

theorem isDigits_iff : isDigits text = true ↔ IsNumeral text := by
  simp [isDigits, IsNumeral]

theorem IsNumeral.head_ne (numeral : IsNumeral (c :: digits)) : c ≠ '+' ∧ c ≠ '-' := by
  have first := numeral.2 c List.mem_cons_self
  constructor
  · rintro rfl
    cases first
  · rintro rfl
    cases first

theorem readNat?_eq_some_iff {n : Nat} :
    readNat? text = some n ↔
      ∃ digits, IsNumeral digits ∧ value digits = n ∧ (text = digits ∨ text = '+' :: digits) := by
  constructor
  · intro h
    unfold readNat? at h
    dsimp only at h
    split at h
    · rename_i digits
      split at h
      · rename_i numeral
        cases h
        exact ⟨digits, isDigits_iff.mp numeral, rfl, Or.inr rfl⟩
      · cases h
    · split at h
      · rename_i numeral
        cases h
        exact ⟨text, isDigits_iff.mp numeral, rfl, Or.inl rfl⟩
      · cases h
  -- without a sign the first character is a digit, so the reader takes no plus sign off
  · rintro ⟨digits, numeral, rfl, rfl | rfl⟩
    · have digits' : isDigits text = true := isDigits_iff.mpr numeral
      cases text with
      | nil => exact absurd rfl numeral.1
      | cons c rest =>
        have first := numeral.head_ne.1
        simp [readNat?, first, digits']
    · simp [readNat?, isDigits_iff.mpr numeral]

theorem readInt?_eq_some_iff {n : Int} : readInt? text = some n ↔ SpellsInt text n := by
  constructor
  · intro h
    unfold readInt? at h
    split at h
    · split at h
      · rename_i numeral
        cases h
        exact .minus (isDigits_iff.mp numeral)
      · cases h
    · obtain ⟨m, read, rfl⟩ := Option.map_eq_some_iff.mp h
      obtain ⟨digits, numeral, rfl, rfl | rfl⟩ := readNat?_eq_some_iff.mp read
      · exact .unsigned numeral
      · exact .plus numeral
  · intro h
    have natural {text : List Char} (sign : ∀ rest, text ≠ '-' :: rest) :
        readInt? text = (readNat? text).map Int.ofNat := by
      unfold readInt?
      split
      · exact absurd rfl (sign _)
      · rfl
    cases h with
    | unsigned numeral =>
      have read := readNat?_eq_some_iff.mpr ⟨_, numeral, rfl, Or.inl rfl⟩
      rw [natural, read]
      · rfl
      · rintro rest rfl
        exact numeral.head_ne.2 rfl
    | plus numeral =>
      have read := readNat?_eq_some_iff.mpr ⟨_, numeral, rfl, Or.inr rfl⟩
      rw [natural (by simp), read]
      rfl
    | minus numeral => simp [readInt?, isDigits_iff.mpr numeral]

/-! ### Leading zeros -/

theorem isNumeral_ofNat (n : Nat) : IsNumeral (ofNat n) :=
  ⟨Nat.toDigits_ne_nil, fun _ => Nat.isDigit_of_mem_toDigits (by decide) (by decide)⟩

theorem value_zeros_append (all : ∀ c ∈ zeros, c = '0') (digits : List Char) :
    value (zeros ++ digits) = value digits := by
  induction zeros with
  | nil => rfl
  | cons c zeros ih =>
    obtain ⟨rfl, others⟩ := List.forall_mem_cons.mp all
    exact ih others

theorem value_append (first second : List Char) :
    value (first ++ second) = tenPow second.length * value first + value second := by
  rw [value, Nat.ofDigitChars_append, Nat.ofDigitChars_eq_ofDigitChars_zero]
  rfl

theorem value_zeros (all : ∀ c ∈ zeros, c = '0') : value zeros = 0 := by
  have nothing := value_zeros_append all []
  rw [List.append_nil] at nothing
  exact nothing

theorem ofNat_of_isDigit (digit : c.isDigit = true) : ofNat (c.toNat - '0'.toNat) = [c] := by
  obtain ⟨low, high⟩ := Char.isDigit_iff_toNat.mp digit
  have small : c.toNat - '0'.toNat < 10 := by
    simp only [Char.reduceToNat] at low high ⊢
    omega
  rw [ofNat, Nat.toDigits_of_lt_base small, List.singleton_inj, ← Char.toNat_inj,
    Nat.toNat_digitChar_of_lt_ten small]
  simp only [Char.reduceToNat] at low ⊢
  omega

/-- More digits behind a number that is not zero. -/
theorem ofNat_append {n : Nat} (positive : 0 < n) (all : ∀ c ∈ digits, c.isDigit = true) :
    ofNat n ++ digits = ofNat (Nat.ofDigitChars 10 digits n) := by
  induction digits generalizing n with
  | nil => exact List.append_nil _
  | cons c digits ih =>
    obtain ⟨digit, others⟩ := List.forall_mem_cons.mp all
    have small : c.toNat - '0'.toNat < 10 := by
      have := Char.isDigit_iff_toNat.mp digit
      simp only [Char.reduceToNat] at this ⊢
      omega
    -- one digit more; it is appended to a positive number, so no zero ends up in front
    have grown : ofNat n ++ [c] = ofNat (10 * n + (c.toNat - '0'.toNat)) := by
      rw [← ofNat_of_isDigit digit]
      exact Nat.toDigits_append_toDigits (by decide) positive small
    calc
      ofNat n ++ c :: digits = ofNat n ++ [c] ++ digits := by simp
      _ = ofNat (10 * n + (c.toNat - '0'.toNat)) ++ digits := by rw [grown]
      _ = ofNat (Nat.ofDigitChars 10 (c :: digits) n) := ih (by omega) others

/-- **A numeral is the shortest text of its number, behind zeros.** -/
theorem IsNumeral.exists_zeros (numeral : IsNumeral digits) :
    ∃ zeros, (∀ c ∈ zeros, c = '0') ∧ digits = zeros ++ ofNat (value digits) := by
  obtain ⟨some, all⟩ := numeral
  induction digits with
  | nil => exact absurd rfl some
  | cons c digits ih =>
    obtain ⟨digit, others⟩ := List.forall_mem_cons.mp all
    by_cases zero : c = '0'
    · subst zero
      by_cases last : digits = []
      · subst last
        exact ⟨[], by simp, rfl⟩
      · obtain ⟨zeros, allZero, split⟩ := ih last others
        refine ⟨'0' :: zeros, List.forall_mem_cons.mpr ⟨rfl, allZero⟩, ?_⟩
        rw [List.cons_append, List.cons_inj_right]
        exact split
    -- the first digit other than zero, and from here on the digits are those of the number
    · have positive : 0 < c.toNat - '0'.toNat := by
        have low := (Char.isDigit_iff_toNat.mp digit).1
        have other : c.toNat ≠ '0'.toNat := fun same => zero (Char.toNat_inj.mp same)
        omega
      refine ⟨[], by simp, ?_⟩
      have whole := ofNat_append positive others
      rw [ofNat_of_isDigit digit, List.singleton_append] at whole
      rw [List.nil_append, value, Nat.ofDigitChars_cons, Nat.mul_zero, Nat.zero_add]
      exact whole

theorem IsNumeral.value_eq_zero_iff (numeral : IsNumeral digits) :
    value digits = 0 ↔ ∀ c ∈ digits, c = '0' := by
  constructor
  · intro zero
    obtain ⟨zeros, all, split⟩ := numeral.exists_zeros
    rw [split, zero, List.forall_mem_append]
    exact ⟨all, List.forall_mem_singleton.mpr rfl⟩
  · exact value_zeros

/-! ### Base sixteen -/

/-- Beyond the ASCII characters there are no digits. -/
theorem hexDigit?_eq_none_of_le (large : 128 ≤ c.toNat) :
    hexDigit? c = none ∧ c.toLower ∉ hexDigits := by
  have above {d : Char} (below : d.toNat < 128) : ¬c ≤ d := by
    rw [Char.le_def, UInt32.le_iff_toNat_le]
    exact Nat.not_le_of_lt (Nat.lt_of_lt_of_le below large)
  have noDigit : c.isDigit = false := by
    rw [← Bool.not_eq_true, Char.isDigit_iff_toNat]
    simp only [Char.reduceToNat]
    omega
  have same : c.toLower = c := dif_neg fun upper => above (d := 'Z') (by decide) upper.2
  constructor
  · simp [hexDigit?, noDigit, above (d := 'f') (by decide), above (d := 'F') (by decide)]
  · rw [same]
    intro member
    have below : hexDigits.all (fun d => d.toNat < 128) = true := by decide
    exact Nat.not_lt_of_le large (of_decide_eq_true (List.all_eq_true.mp below c member))

theorem hexDigit?_eq (c : Char) :
    hexDigit? c = if c.toLower ∈ hexDigits then some (hexDigits.idxOf c.toLower) else none := by
  have table : ∀ n : Fin 128, hexDigit? (Char.ofNat n) =
      if (Char.ofNat n).toLower ∈ hexDigits then
        some (hexDigits.idxOf (Char.ofNat n).toLower) else none := by decide +kernel
  by_cases small : c.toNat < 128
  · simpa using table ⟨c.toNat, small⟩
  · obtain ⟨none, absent⟩ := hexDigit?_eq_none_of_le (Nat.le_of_not_lt small)
    rw [none, if_neg absent]

theorem foldlM_hexDigit?_eq_some_iff {start n : Nat} :
    digits.foldlM (fun acc c => (hexDigit? c).map (16 * acc + ·)) start = some n ↔
      (∀ c ∈ digits, c.toLower ∈ hexDigits) ∧
        digits.foldl (fun n c => 16 * n + hexDigits.idxOf c.toLower) start = n := by
  induction digits generalizing start with
  | nil => simp
  | cons c digits ih =>
    rw [List.foldlM_cons, hexDigit?_eq, List.forall_mem_cons, List.foldl_cons]
    by_cases digit : c.toLower ∈ hexDigits
    · rw [if_pos digit]
      simpa [digit] using ih
    · rw [if_neg digit]
      simp [digit]

theorem readHex?_eq_some_iff {n : Nat} :
    readHex? text = some n ↔ ∃ digits, IsHexNumeral digits ∧ hexValue digits = n ∧
      (text = digits ∨ text = '+' :: digits) := by
  have unsigned {digits : List Char} :
      (if digits.isEmpty then none
        else digits.foldlM (fun acc c => (hexDigit? c).map (16 * acc + ·)) 0) = some n ↔
        IsHexNumeral digits ∧ hexValue digits = n := by
    cases digits with
    | nil => simp [IsHexNumeral]
    | cons c digits =>
      rw [List.isEmpty_cons, if_neg Bool.false_ne_true, foldlM_hexDigit?_eq_some_iff, IsHexNumeral,
        hexValue, and_iff_right (List.cons_ne_nil _ _)]
  constructor
  · intro h
    unfold readHex? at h
    dsimp only at h
    split at h
    · rename_i digits
      obtain ⟨numeral, value⟩ := unsigned.mp h
      exact ⟨digits, numeral, value, Or.inr rfl⟩
    · obtain ⟨numeral, value⟩ := unsigned.mp h
      exact ⟨text, numeral, value, Or.inl rfl⟩
  · rintro ⟨digits, numeral, value, rfl | rfl⟩
    · unfold readHex?
      dsimp only
      split
      · -- a plus sign is no digit
        exact absurd (numeral.2 '+' List.mem_cons_self) (by decide)
      · exact unsigned.mpr ⟨numeral, value⟩
    · exact unsigned.mpr ⟨numeral, value⟩

end ChatMarkup.Decimal
