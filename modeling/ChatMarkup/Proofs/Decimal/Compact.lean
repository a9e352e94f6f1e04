/-
  ChatMarkup/Proofs/Decimal/Compact.lean
  ======================================
  **A computed real is written to fourteen significant digits** — the text is read as the exact
  value of the real rounded to them, it has an exponent just where the layout promises one, and
  no zero at its end could be left out (`readRat?_compact`).

  In both notations the digits are those that the value is rounded to.  For the positional one
  that has to be shown, since the value is rounded once more then, to decimal places.
-/
import ChatMarkup.Proofs.Decimal.Layout
import ChatMarkup.Proofs.Decimal.Rounding

namespace ChatMarkup.Decimal

variable {whole kept : List Char} {m : Magnitude} {q r : ℚ} {count : Nat}

/-- Decimal places without the zeros behind them. -/
theorem exists_trimmed (places n : Nat) :
    ∃ whole kept, IsNumeral whole ∧ (∀ c ∈ kept, c.isDigit = true) ∧ kept.getLast? ≠ some '0' ∧
      trimFraction (withPlaces places n) = pointed whole kept ∧
      ∀ e : ℤ, DecimalParts.toRat ⟨whole ++ kept, kept.length, e⟩ = n * 10 ^ (e - places) := by
  obtain ⟨whole, fraction, numeral, decimals, length, worth, written⟩ := exists_withPlaces places n
  obtain ⟨kept, zeros, rfl, all, last⟩ := exists_zeros_behind fraction
  have decimals' : ∀ c ∈ kept, c.isDigit = true := (List.forall_mem_append.mp decimals).1
  refine ⟨whole, kept, numeral, decimals', last, ?_, ?_⟩
  · rw [written, trimFraction_pointed numeral decimals' last all]
  · intro e
    rw [← toRat_append_zeros all, DecimalParts.toRat]
    dsimp only
    rw [worth, length]

theorem withPoint_pointed (numeral : IsNumeral whole) :
    withPoint (pointed whole kept) = whole ++ '.' :: (if kept = [] then ['0'] else kept) := by
  by_cases none : kept = []
  · rw [pointed, if_pos none, if_pos none, withPoint, if_neg (point_notMem numeral.2)]
  · rw [pointed, if_neg none, if_neg none, withPoint, if_pos (by simp)]

/-- The mantissa of the exponent notation always has a fraction, if need be a lone zero. -/
theorem Magnitude.exists_mantissa (n : Nat) :
    ∃ whole fraction, IsNumeral whole ∧ (∀ c ∈ fraction, c.isDigit = true) ∧ fraction ≠ [] ∧
      (fraction.getLast? = some '0' → fraction = ['0']) ∧
      mantissa n = whole ++ '.' :: fraction ∧
      ∀ e : ℤ, DecimalParts.toRat ⟨whole ++ fraction, fraction.length, e⟩ =
        n * 10 ^ (e - (compactDigits - 1 : ℕ)) := by
  obtain ⟨whole, kept, numeral, decimals, last, written, worth⟩ :=
    exists_trimmed (compactDigits - 1) n
  have written' : mantissa n = whole ++ '.' :: (if kept = [] then ['0'] else kept) := by
    rw [mantissa, written, withPoint_pointed numeral]
  -- nothing is left of the fraction: the zero that is put back adds nothing
  by_cases none : kept = []
  · subst none
    rw [if_pos rfl] at written'
    refine ⟨whole, ['0'], numeral, by simp, by simp, fun _ => rfl, written', ?_⟩
    intro e
    have lone : DecimalParts.toRat ⟨whole ++ ([] ++ ['0']), ([] ++ ['0'] : List Char).length, e⟩ =
        DecimalParts.toRat ⟨whole ++ [], 0, e⟩ := toRat_append_zeros (by simp)
    rw [← worth e]
    exact lone
  · rw [if_neg none] at written'
    exact ⟨whole, kept, numeral, decimals, none, fun zero => absurd zero last, written', worth⟩

/-! ### Magnitudes -/

theorem exponentMark_notMem (digits : ∀ c ∈ kept, c.isDigit = true) : 'E' ∉ kept := by
  intro member
  cases digits 'E' member

namespace Magnitude

section
variable (nonzero : m.significand ≠ 0)
include nonzero

/-- The exponent that decides about the notation is the one of the rounded value. -/
theorem compact_eq : m.compact =
    let rounded := m.significant compactDigits
    let exponent := Int.log 10 rounded.toRat
    if exponent < -4 ∨ compactDigits ≤ exponent then
      mantissa rounded.digits ++ 'E' :: exponentText exponent
    else trimFraction (withPlaces (compactDigits - 1 - exponent).toNat rounded.digits) := by
  have some : 1 ≤ compactDigits := by decide
  obtain ⟨-, -, digits⟩ := significant_digits nonzero some
  have leading := log_significant nonzero some
  rw [compact]
  dsimp only
  rw [← leading]
  split
  · rfl
  · rename_i between
    have reach : ((compactDigits - 1 - Int.log 10 (m.significant compactDigits).toRat).toNat : ℤ) =
        -(m.significant compactDigits).exponent := by omega
    rw [fixed, reach, digits]

/-- The positional notation. -/
theorem compact_positional (low : -4 ≤ Int.log 10 (m.significant compactDigits).toRat)
    (high : Int.log 10 (m.significant compactDigits).toRat < compactDigits) :
    ∃ parts, readDecimal? m.compact = some parts ∧
      parts.toRat = (m.significant compactDigits).toRat ∧ 'E' ∉ m.compact ∧ Trimmed m.compact := by
  have leading := log_significant nonzero (show 1 ≤ compactDigits by decide)
  obtain ⟨whole, kept, numeral, decimals, last, written, worth⟩ := exists_trimmed
    (compactDigits - 1 - Int.log 10 (m.significant compactDigits).toRat).toNat
    (m.significant compactDigits).digits
  have shown : m.compact = pointed whole kept := by
    rw [compact_eq nonzero]
    dsimp only
    rw [if_neg (by omega), written]
  -- between the two bounds the places are not negative, so no `toNat` cuts anything off
  have reach : (0 : ℤ) - (compactDigits - 1 -
      Int.log 10 (m.significant compactDigits).toRat).toNat =
      (m.significant compactDigits).exponent := by omega
  rw [shown]
  refine ⟨_, readDecimal?_pointed numeral decimals, ?_, ?_, ?_⟩
  · rw [worth, reach, Scaled.toRat]
  · rw [pointed]
    split
    · exact exponentMark_notMem numeral.2
    · simp [exponentMark_notMem numeral.2, exponentMark_notMem decimals]
  · rw [pointed]
    split
    · exact trimmed_of_notMem (point_notMem numeral.2)
    · rename_i present
      rw [← List.append_nil kept]
      exact trimmed_of_point (point_notMem numeral.2) decimals Text.ends_nil List.not_mem_nil present
        fun zero => absurd zero last

/-- The notation with an exponent. -/
theorem compact_scientific (far : Int.log 10 (m.significant compactDigits).toRat < -4 ∨
      compactDigits ≤ Int.log 10 (m.significant compactDigits).toRat) :
    ∃ parts, readDecimal? m.compact = some parts ∧
      parts.toRat = (m.significant compactDigits).toRat ∧ 'E' ∈ m.compact ∧ Trimmed m.compact := by
  have some : 1 ≤ compactDigits := by decide
  have leading := log_significant nonzero some
  obtain ⟨whole, fraction, numeral, decimals, present, last, written, worth⟩ :=
    exists_mantissa (m.significant compactDigits).digits
  have shown : m.compact = whole ++ '.' :: (fraction ++
      'E' :: exponentText (Int.log 10 (m.significant compactDigits).toRat)) := by
    rw [compact_eq nonzero]
    dsimp only
    rw [if_pos far, written, List.append_assoc, List.cons_append]
  have reach : Int.log 10 (m.significant compactDigits).toRat - (compactDigits - 1 : ℕ) =
      (m.significant compactDigits).exponent := by omega
  rw [shown]
  refine ⟨_, readDecimal?_exponent numeral decimals _, ?_, by simp, ?_⟩
  · rw [worth, reach, Scaled.toRat]
  · refine trimmed_of_point (point_notMem numeral.2) decimals (Text.ends_cons rfl _) ?_ present ?_
    · rw [List.mem_cons, not_or]
      exact ⟨by decide, point_notMem_exponentText _⟩
    · intro zero
      exact ⟨last zero, _, rfl⟩

/-- What a text of fourteen digits tells, and how it is written. -/
theorem exists_compact : ∃ parts, readDecimal? m.compact = some parts ∧
    parts.toRat = (m.significant compactDigits).toRat ∧
    ('E' ∉ m.compact ↔ -4 ≤ Int.log 10 (m.significant compactDigits).toRat ∧
      Int.log 10 (m.significant compactDigits).toRat < compactDigits) ∧ Trimmed m.compact := by
  by_cases near : -4 ≤ Int.log 10 (m.significant compactDigits).toRat ∧
      Int.log 10 (m.significant compactDigits).toRat < compactDigits
  · obtain ⟨parts, read, worth, absent, trimmed⟩ := compact_positional nonzero near.1 near.2
    exact ⟨parts, read, worth, iff_of_true absent near, trimmed⟩
  · obtain ⟨parts, read, worth, member, trimmed⟩ := compact_scientific nonzero (by omega)
    exact ⟨parts, read, worth, iff_of_false (not_not_intro member) near, trimmed⟩

end

end Magnitude

/-! ### Signs -/

theorem RoundsTo.neg (rounds : RoundsTo count q r) : RoundsTo count (-q) (-r) := by
  obtain ⟨n, nearest, rfl⟩ := rounds
  refine ⟨-n, ?_, ?_⟩
  · rw [abs_neg, neg_div]
    exact nearest.neg
  · rw [abs_neg, Int.cast_neg, neg_mul]

/-- **A computed real is written to fourteen significant digits.** -/
theorem readRat?_compact {x : Binary64} (finite : x.isFinite = true) (nonzero : x.toRat ≠ 0) :
    ∃ y, readRat? x.compact = some y ∧ RoundsTo 14 x.toRat y ∧
      ('E' ∉ x.compact ↔ -4 ≤ Int.log 10 |y| ∧ Int.log 10 |y| < 14) ∧ Trimmed x.compact := by
  cases x with
  | nan => cases finite
  | infinite => cases finite
  | finite negative m =>
    have nonzero' : m.significand ≠ 0 := by
      intro zero
      apply nonzero
      simp [Binary64.toRat, Magnitude.toRat, zero]
    obtain ⟨parts, read, worth, marked, trimmed⟩ := Magnitude.exists_compact nonzero'
    have written : (Binary64.finite negative m).compact = signed negative m.compact := by
      rw [Binary64.compact, if_neg nonzero']
    have fourteen : 1 ≤ Magnitude.compactDigits := by decide
    have rounds := Magnitude.roundsTo_significant nonzero' fourteen
    -- the sign changes neither the digits nor the notation
    have magnitude : |if negative = true then -parts.toRat else parts.toRat| =
        (m.significant Magnitude.compactDigits).toRat := by
      rw [apply_ite abs, abs_neg, ite_self, worth]
      exact abs_of_pos (Magnitude.toRat_significant_pos nonzero' fourteen)
    refine ⟨_, written ▸ readRat?_signed read, ?_, ?_, written ▸ trimmed.signed⟩
    · rw [worth]
      cases negative with
      | true => exact rounds.neg
      | false => exact rounds
    · have mark : 'E' ∉ signed negative m.compact ↔ 'E' ∉ m.compact := by
        cases negative with
        | true => simp [signed]
        | false => rfl
      rw [magnitude, written, mark]
      exact marked

/-- Just below a power of ten, rounding leads up to it, and to the other notation. -/
theorem readRat?_compact_below_power :
    let x := Binary64.ofBits 0xC2D6BCC41E8FFFFF
    x.isFinite = true ∧ x.toRat ≠ 0 ∧ x.compact = "-1.0E+14".toList ∧
      RoundsTo 14 x.toRat (-10 ^ 14) ∧ Trimmed x.compact := by
  intro x
  -- just below the power of ten: fourteen digits round it up to one
  have bits : x = .finite true ⟨6399999999999999, -6⟩ := by decide +kernel
  have text : x.compact = "-1.0E+14".toList := by decide +kernel
  have finite : x.isFinite = true := by rw [bits]; rfl
  have nonzero : x.toRat ≠ 0 := by
    rw [bits]
    norm_num [Binary64.toRat, Magnitude.toRat]
  obtain ⟨y, read, rounds, -, trimmed⟩ := readRat?_compact finite nonzero
  have unsigned : readDecimal? "1.0E+14".toList = some ⟨"10".toList, 1, 14⟩ := rfl
  have worth : readRat? (signed true "1.0E+14".toList) =
      some (-DecimalParts.toRat ⟨"10".toList, 1, 14⟩) := readRat?_signed unsigned
  have digits : DecimalParts.toRat ⟨"10".toList, 1, 14⟩ = 10 ^ 14 := by
    have ten : value "10".toList = 10 := rfl
    rw [DecimalParts.toRat]
    dsimp only
    rw [ten]
    norm_num
  rw [digits] at worth
  rw [text] at read
  have same : y = -10 ^ 14 := Option.some_inj.mp (read.symm.trans worth)
  exact ⟨finite, nonzero, text, same ▸ rounds, trimmed⟩

end ChatMarkup.Decimal
