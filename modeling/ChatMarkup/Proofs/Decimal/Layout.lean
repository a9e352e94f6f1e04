/-
  ChatMarkup/Proofs/Decimal/Layout.lean
  =====================================
  **What the layouts of reals are read as** — digits with a point among them, the same without
  trailing zeros (`exists_trimFraction`), and with an exponent behind them.

  The zeros that are left out are worth nothing (`toRat_append_zeros`), because behind a point
  each of them also makes the unit of the last digit smaller.
-/
import ChatMarkup.Decimal.Exact
import ChatMarkup.Proofs.Decimal.Numeral
import ChatMarkup.Proofs.Text.Run
import Mathlib.Tactic.FieldSimp
import Mathlib.Tactic.NormNum

namespace ChatMarkup.Decimal

variable {text front whole fraction rest kept zeros : List Char} {parts : DecimalParts} {e : ℤ}

/-! ### Digits -/

theorem point_notMem (digits : ∀ c ∈ text, c.isDigit = true) : '.' ∉ text := by
  intro member
  cases digits '.' member

theorem length_padded {width n : Nat} (small : n < tenPow width) (some : 0 < width) :
    (padded width n).length = width := by
  have short : (ofNat n).length ≤ width :=
    (Nat.length_toDigits_le_iff (by decide) some).mpr small
  rw [padded, List.length_append, List.length_replicate]
  omega

theorem isDigit_padded (width n : Nat) : ∀ c ∈ padded width n, c.isDigit = true := by
  intro c member
  rcases List.mem_append.mp member with zero | digit
  · rw [List.eq_of_mem_replicate zero]
    rfl
  · exact (isNumeral_ofNat n).2 c digit

theorem value_padded (width n : Nat) : value (padded width n) = n := by
  rw [padded, value_zeros_append (fun _ => List.eq_of_mem_replicate), value_ofNat]

theorem pointed_cons (c : Char) (whole fraction : List Char) :
    pointed (c :: whole) fraction = c :: pointed whole fraction := by
  rw [pointed, pointed]
  split
  · rfl
  · rfl

/-- Numbers of decimal places are written with so many digits behind the point. -/
theorem exists_withPlaces (places n : Nat) :
    ∃ whole fraction, IsNumeral whole ∧ (∀ c ∈ fraction, c.isDigit = true) ∧
      fraction.length = places ∧ value (whole ++ fraction) = n ∧
      withPlaces places n = pointed whole fraction := by
  by_cases none : places = 0
  · subst none
    refine ⟨ofNat n, [], isNumeral_ofNat n, by simp, rfl, ?_, rfl⟩
    rw [List.append_nil, value_ofNat]
  · have small : n % tenPow places < tenPow places := Nat.mod_lt n (tenPow_pos places)
    have length := length_padded small (Nat.pos_of_ne_zero none)
    refine ⟨ofNat (n / tenPow places), padded places (n % tenPow places), isNumeral_ofNat _,
      isDigit_padded _ _, length, ?_, ?_⟩
    · rw [value_append, value_ofNat, value_padded, length]
      exact Nat.div_add_mod n (tenPow places)
    · have some : padded places (n % tenPow places) ≠ [] := by
        rw [← List.length_pos_iff_ne_nil, length]
        exact Nat.pos_of_ne_zero none
      rw [withPlaces, if_neg none, pointed, if_neg some]

/-! ### Trailing zeros -/

theorem exists_zeros_behind (fraction : List Char) :
    ∃ kept zeros, fraction = kept ++ zeros ∧ (∀ c ∈ zeros, c = '0') ∧
      kept.getLast? ≠ some '0' := by
  refine ⟨fraction.rdropWhile (· == '0'), fraction.rtakeWhile (· == '0'), ?_, ?_, ?_⟩
  · exact List.rdropWhile_append_rtakeWhile.symm
  · intro c member
    simpa using List.mem_rtakeWhile_imp member
  · intro last
    have some : fraction.rdropWhile (· == '0') ≠ [] := by
      intro none
      rw [none] at last
      cases last
    have other := List.rdropWhile_last_not (· == '0') fraction some
    rw [List.getLast?_eq_some_getLast some, Option.some_inj] at last
    rw [last] at other
    exact other rfl

theorem getLast?_point (whole : List Char) (some : kept ≠ []) :
    (whole ++ '.' :: kept).getLast? = kept.getLast? := by
  rw [List.append_cons, List.getLast?_append_of_ne_nil _ some]

theorem trimFraction_eq_rdropWhile (point : '.' ∈ text) :
    trimFraction text = (text.rdropWhile (· == '0')).rdropWhile (· == '.') := by
  rw [trimFraction, if_pos point, List.rdropWhile, List.rdropWhile, List.reverse_reverse]

/-- Zeros behind the last digit are left out, and so is the point if there is no digit left
    behind it. -/
theorem trimFraction_pointed (numeral : IsNumeral whole)
    (decimals : ∀ c ∈ kept, c.isDigit = true) (last : kept.getLast? ≠ some '0')
    (all : ∀ c ∈ zeros, c = '0') :
    trimFraction (pointed whole (kept ++ zeros)) = pointed whole kept := by
  by_cases none : kept ++ zeros = []
  · obtain ⟨rfl, rfl⟩ := List.append_eq_nil_iff.mp none
    exact if_neg (point_notMem numeral.2)
  · have zeros' : ∀ c ∈ zeros, (c == '0') = true := fun c among => beq_iff_eq.mpr (all c among)
    have split : whole ++ '.' :: (kept ++ zeros) = whole ++ '.' :: kept ++ zeros := by simp
    rw [pointed, if_neg none, trimFraction_eq_rdropWhile (by simp), split]
    -- without decimals the point goes as well, and the digit in front of it stops that
    by_cases bare : kept = []
    · subst bare
      rw [pointed, if_pos rfl, Text.rdropWhile_append_of_run zeros',
        Text.rdropWhile_append_of_run]
      · simp
      · intro c behind
        have digit := numeral.2 c (List.mem_of_getLast? behind)
        rw [beq_eq_false_iff_ne]
        rintro rfl
        cases digit
      · intro c behind
        rw [List.getLast?_concat] at behind
        cases behind
        rfl
    · have ends {d : Char} (other : kept.getLast? ≠ some d) :
          ∀ c ∈ (whole ++ '.' :: kept).getLast?, (c == d) = false := by
        intro c behind
        rw [getLast?_point whole bare] at behind
        rw [beq_eq_false_iff_ne]
        rintro rfl
        exact other behind
      -- the last decimal is neither a zero nor a point, so both runs stop there
      have point : kept.getLast? ≠ some '.' := fun behind =>
        point_notMem decimals (List.mem_of_getLast? behind)
      have kept' : (whole ++ '.' :: kept ++ []).rdropWhile (· == '.') = whole ++ '.' :: kept :=
        Text.rdropWhile_append_of_run (List.forall_mem_nil _) (ends point)
      rw [List.append_nil] at kept'
      rw [pointed, if_neg bare, Text.rdropWhile_append_of_run zeros' (ends last), kept']

/-- Zeros behind a point are worth nothing. -/
theorem toRat_append_zeros (all : ∀ c ∈ zeros, c = '0') :
    DecimalParts.toRat ⟨whole ++ (kept ++ zeros), (kept ++ zeros).length, e⟩ =
      DecimalParts.toRat ⟨whole ++ kept, kept.length, e⟩ := by
  have worth : value (whole ++ (kept ++ zeros)) = 10 ^ zeros.length * value (whole ++ kept) := by
    rw [← List.append_assoc, value_append, value_zeros all]
    rfl
  have unit : e - ((kept ++ zeros).length : ℤ) = -(zeros.length : ℤ) + (e - kept.length) := by
    rw [List.length_append]
    omega
  rw [DecimalParts.toRat, DecimalParts.toRat]
  dsimp only
  rw [worth, unit, zpow_add₀ (by norm_num), zpow_neg, zpow_natCast]
  push_cast
  field_simp

/-! ### Reading -/

theorem exponentText_spells (e : ℤ) : SpellsInt (exponentText e) e := by
  have numeral := isNumeral_ofNat e.natAbs
  by_cases negative : e < 0
  · have spelt := SpellsInt.minus numeral
    rw [value_ofNat] at spelt
    rw [exponentText, if_pos negative]
    convert spelt using 1
    omega
  · have spelt := SpellsInt.plus numeral
    rw [value_ofNat] at spelt
    rw [exponentText, if_neg negative]
    convert spelt using 1
    omega

theorem point_notMem_exponentText (e : ℤ) : '.' ∉ exponentText e := by
  rw [exponentText, List.mem_cons, not_or]
  refine ⟨?_, point_notMem (isNumeral_ofNat _).2⟩
  split
  · decide
  · decide

theorem readDecimal?_whole (numeral : IsNumeral whole) :
    readDecimal? whole = some ⟨whole, 0, 0⟩ := by
  have front : whole.takeWhile Char.isDigit = whole := List.takeWhile_eq_self_iff.mpr numeral.2
  have behind : whole.dropWhile Char.isDigit = [] := List.dropWhile_eq_nil_iff.mpr numeral.2
  have some : whole.isEmpty = false := List.isEmpty_eq_false_iff.mpr numeral.1
  simp [readDecimal?, front, behind, some]

section
variable (numeral : IsNumeral whole) (decimals : ∀ c ∈ fraction, c.isDigit = true)
include numeral decimals

/-- Up to the digits behind the point, that is how a decimal is read. -/
theorem readDecimal?_point (ends : ∀ c ∈ rest.head?, c.isDigit = false) :
    readDecimal? (whole ++ '.' :: (fraction ++ rest)) =
      match rest with
      | [] => some ⟨whole ++ fraction, fraction.length, 0⟩
      | mark :: tail =>
        if mark = 'e' ∨ mark = 'E' then
          (readExponent? tail).map fun e => ⟨whole ++ fraction, fraction.length, e⟩
        else none := by
  have point : ∀ c ∈ ('.' :: (fraction ++ rest)).head?, c.isDigit = false := Text.ends_cons rfl _
  have some : (whole ++ fraction).isEmpty = false :=
    List.isEmpty_eq_false_iff.mpr (List.append_ne_nil_of_left_ne_nil numeral.1 _)
  simp only [readDecimal?, Text.takeWhile_append_of_run numeral.2 point,
    Text.dropWhile_append_of_run numeral.2 point, Text.takeWhile_append_of_run decimals ends,
    Text.dropWhile_append_of_run decimals ends, some, Bool.false_eq_true, if_false]
  cases rest with
  | nil => rfl
  | cons => rfl

theorem readDecimal?_pointed :
    readDecimal? (pointed whole fraction) = some ⟨whole ++ fraction, fraction.length, 0⟩ := by
  by_cases none : fraction = []
  · subst none
    rw [pointed, if_pos rfl, readDecimal?_whole numeral, List.append_nil]
    rfl
  · have read := readDecimal?_point numeral decimals Text.ends_nil
    rw [List.append_nil] at read
    rw [pointed, if_neg none, read]

theorem readDecimal?_exponent (e : ℤ) :
    readDecimal? (whole ++ '.' :: (fraction ++ 'E' :: exponentText e)) =
      some ⟨whole ++ fraction, fraction.length, e⟩ := by
  have read : readExponent? (exponentText e) = some e :=
    readInt?_eq_some_iff.mpr (exponentText_spells e)
  rw [readDecimal?_point numeral decimals (Text.ends_cons rfl _)]
  dsimp only
  rw [if_pos (Or.inr rfl), read]
  rfl

end

/-- A sign is read as one, since what begins with one is no unsigned decimal. -/
theorem readRat?_signed {negative : Bool} (read : readDecimal? text = some parts) :
    readRat? (signed negative text) =
      some (if negative = true then -parts.toRat else parts.toRat) := by
  cases negative with
  | true =>
    rw [signed, if_pos rfl, readRat?, read]
    rfl
  | false =>
    rw [signed, if_neg Bool.false_ne_true, readRat?, read]
    · rfl
    · rintro rest rfl
      cases read

/-! ### Nothing left to trim -/

theorem trimmed_of_notMem (absent : '.' ∉ text) : Trimmed text := by
  intro front fraction rest same
  exact absurd (same ▸ by simp) absent

theorem trimmed_of_point (before : '.' ∉ front) (decimals : ∀ c ∈ fraction, c.isDigit = true)
    (ends : ∀ c ∈ rest.head?, c.isDigit = false) (after : '.' ∉ rest)
    (present : fraction ≠ [])
    (last : fraction.getLast? = some '0' → fraction = ['0'] ∧ ∃ exponent, rest = 'E' :: exponent) :
    Trimmed (front ++ '.' :: (fraction ++ rest)) := by
  intro front' fraction' rest' same decimals' ends'
  have behind : '.' ∉ fraction ++ rest := by
    rw [List.mem_append, not_or]
    exact ⟨point_notMem decimals, after⟩
  obtain ⟨rfl, -, same'⟩ := (List.append_cons_inj_of_notMem before behind).mp same
  obtain ⟨rfl, rfl⟩ := Text.append_inj_of_runs decimals decimals' ends ends' same'
  exact ⟨present, last⟩

theorem Trimmed.signed {negative : Bool} (trimmed : Trimmed text) :
    Trimmed (signed negative text) := by
  cases negative with
  | false => exact trimmed
  | true =>
    intro front fraction rest same
    cases front with
    | nil => cases same
    | cons sign front =>
      obtain ⟨-, same'⟩ := List.cons.inj same
      exact trimmed front fraction rest same'

end ChatMarkup.Decimal
