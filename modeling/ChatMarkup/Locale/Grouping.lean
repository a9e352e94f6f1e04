/-
  ChatMarkup/Locale/Grouping.lean
  ===============================
  **Grouped digits** — the numerals that are given the symbols of a language, what they look
  like with these symbols, and the numeral that a text with the symbols stands for.
-/
import ChatMarkup.Decimal.Spelling
import ChatMarkup.Locale.Number
import ChatMarkup.Text.Segments

namespace ChatMarkup.Locale

/-- One or more digits, and perhaps a point with more digits behind it. -/
inductive PlainNumeral : List Char → Prop where
  | whole {digits} (numeral : Decimal.IsNumeral digits) : PlainNumeral digits
  | point {digits fraction} (numeral : Decimal.IsNumeral digits)
      (decimals : ∀ c ∈ fraction, c.isDigit = true) : PlainNumeral (digits ++ '.' :: fraction)

/-- Digits in groups of three, with one to three of them in the first group. -/
structure Grouped (first : List Char) (groups : List (List Char)) : Prop where
  digits : ∀ c ∈ first ++ groups.flatten, c.isDigit = true
  filled : 1 ≤ first.length ∧ first.length ≤ 3
  three : ∀ group ∈ groups, group.length = 3

/-- A numeral as it is written with the symbols of a language: the groups apart, and no groups
    behind the decimal symbol. -/
inductive Localized (symbols : NumberSymbols) : List Char → List Char → Prop where
  | whole {first groups} (grouped : Grouped first groups) :
      Localized symbols (first ++ groups.flatten)
        (Text.joinWith [symbols.group] (first :: groups))
  | point {first groups fraction} (grouped : Grouped first groups)
      (decimals : ∀ c ∈ fraction, c.isDigit = true) :
      Localized symbols (first ++ groups.flatten ++ '.' :: fraction)
        (Text.joinWith [symbols.group] (first :: groups) ++ symbols.decimal :: fraction)

def restore (symbols : NumberSymbols) (text : List Char) : List Char :=
  (text.filter fun c => c != symbols.group).map fun c => if c = symbols.decimal then '.' else c

end ChatMarkup.Locale
