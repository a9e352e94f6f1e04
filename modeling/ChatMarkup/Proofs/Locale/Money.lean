/-
  ChatMarkup/Proofs/Locale/Money.lean
  ===================================
  **The sign of an amount** — an amount of money has a sign just if it is negative and is not
  rounded to zero, and minus infinity has none (`head?_formatAmount`).

  Whether there is a sign is seen from the digits of the amount.  They are those of the rounded
  number (`hasNonzeroDigit_withPlaces`), but infinity is a word and has no digits.
-/
import ChatMarkup.Locale.Money
import ChatMarkup.Proofs.Decimal.Layout
import ChatMarkup.Proofs.Decimal.Rounding
import ChatMarkup.Proofs.Locale.Number

namespace ChatMarkup.Locale

open Decimal

variable {text : List Char} {code : String}

/-! ### Digits -/

/-- A point is no digit. -/
theorem hasNonzeroDigit_pointed (whole fraction : List Char) :
    hasNonzeroDigit (pointed whole fraction) = hasNonzeroDigit (whole ++ fraction) := by
  rw [pointed]
  split
  · rename_i none
    rw [none, List.append_nil]
  · rw [hasNonzeroDigit, hasNonzeroDigit, List.any_append, List.any_append, List.any_cons]
    rfl

theorem hasNonzeroDigit_iff_value_ne_zero (numeral : IsNumeral text) :
    hasNonzeroDigit text = true ↔ value text ≠ 0 := by
  rw [← Bool.not_eq_false, not_iff_not, numeral.value_eq_zero_iff, hasNonzeroDigit,
    List.any_eq_false]
  constructor
  · intro none c member
    simpa [numeral.2 c member] using none c member
  · intro all c member
    simp [all c member]

/-- Of a number that is not zero, a digit other than zero is shown. -/
theorem hasNonzeroDigit_withPlaces (places n : Nat) :
    hasNonzeroDigit (withPlaces places n) = true ↔ n ≠ 0 := by
  obtain ⟨whole, fraction, numeral, decimals, -, worth, written⟩ := exists_withPlaces places n
  have numeral' : IsNumeral (whole ++ fraction) :=
    ⟨List.append_ne_nil_of_left_ne_nil numeral.1 _,
      List.forall_mem_append.mpr ⟨numeral.2, decimals⟩⟩
  rw [written, hasNonzeroDigit_pointed, hasNonzeroDigit_iff_value_ne_zero numeral', worth]

/-! ### The first character -/

/-- Grouping changes nothing at the front. -/
theorem head?_localizeDigits (symbols : NumberSymbols) {first : Char} (rest : List Char)
    (other : first ≠ '.') : (localizeDigits symbols (first :: rest)).head? = some first := by
  have grouped (digits : List Char) :
      ∃ more, groupDigits symbols.group (first :: digits) = first :: more := by
    rw [groupDigits]
    split
    · exact ⟨_, rfl⟩
    · exact ⟨_, rfl⟩
  have whole : (first :: rest).takeWhile (· != '.') = first :: rest.takeWhile (· != '.') :=
    List.takeWhile_cons_of_pos (bne_iff_ne.mpr other)
  obtain ⟨more, front⟩ := grouped (rest.takeWhile (· != '.'))
  rw [localizeDigits, whole, front]
  split
  · rfl
  · rfl

theorem exists_cons_fixed (amount : Binary64) (places : Nat) :
    ∃ first rest, amount.abs.fixed places = first :: rest ∧ first ≠ '.' ∧ first ≠ '-' := by
  cases amount with
  | nan => exact ⟨'N', _, rfl, by decide, by decide⟩
  | infinite => exact ⟨'i', _, rfl, by decide, by decide⟩
  | finite negative m =>
    obtain ⟨whole, fraction, numeral, -, -, -, written⟩ :=
      exists_withPlaces places (m.roundTo places)
    obtain ⟨first, digits, rfl⟩ := List.exists_cons_of_ne_nil numeral.1
    have digit := numeral.2 first List.mem_cons_self
    have shown : (Binary64.finite negative m).abs.fixed places =
        first :: pointed digits fraction := written.trans (pointed_cons first digits fraction)
    exact ⟨first, _, shown, ne_of_isDigit digit rfl, ne_of_isDigit digit rfl⟩

/-- An unknown currency has its code for a symbol, and no symbol of the others is a sign. -/
theorem head?_symbol_ne (unsigned : code.toList.head? ≠ some '-') :
    (currencyOf code).symbol.toList.head? ≠ some '-' := by
  have known : ∀ record ∈ currencies, record.symbol.toList.head? ≠ some '-' := by decide
  rw [currencyOf]
  cases found : currencies.find? fun record =>
      record.code.toList == code.toList.map Char.toUpper with
  | none => exact unsigned
  | some record => exact known record (List.mem_of_find?_eq_some found)

theorem head?_append_ne {c : Char} {front behind : List Char} (first : front.head? ≠ some c)
    (next : behind.head? ≠ some c) : (front ++ behind).head? ≠ some c := by
  cases front with
  | nil => exact next
  | cons => exact first

theorem head?_signed (negative : Bool) (unsigned : text.head? ≠ some '-') :
    (signed negative text).head? = some '-' ↔ negative = true := by
  cases negative with
  | true => exact iff_of_true rfl rfl
  | false => exact iff_of_false unsigned Bool.false_ne_true

/-- A digit other than zero is shown of what is not rounded to zero. -/
theorem signShown_iff (amount : Binary64) (places : Nat) :
    (amount.isNegative && hasNonzeroDigit (amount.abs.fixed places)) = true ↔
      amount.isNegative = true ∧ ¬amount.RoundsToZero places ∧ amount ≠ .infinite true := by
  rw [Bool.and_eq_true]
  refine and_congr_right fun below => ?_
  cases amount with
  | nan => cases below
  | infinite negative =>
    -- infinity is written in letters, so no digit of it can call for a sign
    have wordless : hasNonzeroDigit ((Binary64.infinite negative).abs.fixed places) = false := rfl
    cases below
    simp [wordless]
  | finite negative m =>
    have shown : hasNonzeroDigit ((Binary64.finite negative m).abs.fixed places) = true ↔
        m.roundTo places ≠ 0 := hasNonzeroDigit_withPlaces places _
    rw [shown, Binary64.roundsToZero_finite]
    simp

/-- **An amount of money has a sign if it is negative and is not rounded to zero.**  The amounts
    with a sign are all of these but one, since minus infinity has none. -/
theorem head?_formatAmount (language : String) (amount : Binary64)
    (unsigned : code.toList.head? ≠ some '-') :
    (formatAmount language code amount).head? = some '-' ↔
      amount.isNegative = true ∧ ¬amount.RoundsToZero (currencyOf code).places ∧
        amount ≠ .infinite true := by
  have symbol := head?_symbol_ne unsigned
  have space (behind : List Char) : (noBreakSpace :: behind).head? ≠ some '-' := by
    intro same
    cases same
  -- the only minus sign can be the one in front: neither the symbol nor the digits begin with one
  have body : (localizeDigits (numberSymbols language)
      (amount.abs.fixed (currencyOf code).places)).head? ≠ some '-' := by
    obtain ⟨first, rest, plain, point, sign⟩ := exists_cons_fixed amount (currencyOf code).places
    rw [plain, head?_localizeDigits _ rest point]
    exact fun same => sign (Option.some_inj.mp same)
  rw [← signShown_iff, formatAmount]
  apply head?_signed
  split
  · exact head?_append_ne body (space _)
  · split
    · exact head?_append_ne symbol (space _)
    · exact head?_append_ne symbol body

/-- Half a unit is rounded to none of a currency without minor units, and has no sign then. -/
theorem head?_formatAmount_half :
    let half := Binary64.ofBits 0xBFE0000000000000
    "JPY".toList.head? ≠ some '-' ∧ "USD".toList.head? ≠ some '-' ∧
      formatAmount "en" "JPY" half = "¥0".toList ∧ half.RoundsToZero 0 ∧
      formatAmount "en" "USD" half = "-$0.50".toList ∧ ¬half.RoundsToZero 2 := by
  intro half
  have yen : "JPY".toList.head? ≠ some '-' := by decide
  have dollar : "USD".toList.head? ≠ some '-' := by decide
  have yenText : formatAmount "en" "JPY" half = "¥0".toList := by decide +kernel
  have dollarText : formatAmount "en" "USD" half = "-$0.50".toList := by decide +kernel
  have below : half.isNegative = true := by decide +kernel
  have finite : half ≠ .infinite true := by decide +kernel
  refine ⟨yen, dollar, yenText, ?_, dollarText, ?_⟩
  · by_contra kept
    have sign := (head?_formatAmount "en" half yen).mpr ⟨below, kept, finite⟩
    rw [yenText] at sign
    cases sign
  · have sign : (formatAmount "en" "USD" half).head? = some '-' := by rw [dollarText]; rfl
    exact ((head?_formatAmount "en" half dollar).mp sign).2.1

/-- Minus infinity is not rounded to zero, and looks the same as infinity. -/
theorem minus_infinity_unsigned :
    let owed := Binary64.ofBits 0xFFF0000000000000
    (∀ c ∈ "USD".toList, c.isAlpha = true) ∧ owed ≠ .nan ∧ owed.isNegative = true ∧
      ¬owed.RoundsToZero (currencyOf "USD").places ∧
      formatAmount "en" "USD" owed = "$inf".toList ∧
      formatAmount "en" "USD" (.infinite false) = "$inf".toList := by
  intro owed
  have bits : owed = .infinite true := by decide +kernel
  rw [bits]
  refine ⟨by simp, by decide, rfl, ?_, by decide +kernel, by decide +kernel⟩
  rintro ⟨finite, -⟩
  cases finite

end ChatMarkup.Locale
