/-
  ChatMarkup/Decimal/Spelling.lean
  ================================
  **How integers are spelt** — the texts of digits and what they are worth, in base ten with
  or without a sign and in base sixteen, told without the readers of
  `ChatMarkup.Decimal.Numeral`.
-/
import ChatMarkup.Decimal.Numeral

namespace ChatMarkup.Decimal

def IsNumeral (text : List Char) : Prop := text ≠ [] ∧ ∀ c ∈ text, c.isDigit = true

inductive SpellsInt : List Char → Int → Prop where
  | unsigned {digits} (numeral : IsNumeral digits) : SpellsInt digits (value digits)
  | plus {digits} (numeral : IsNumeral digits) : SpellsInt ('+' :: digits) (value digits)
  | minus {digits} (numeral : IsNumeral digits) :
      SpellsInt ('-' :: digits) (-(value digits : Int))

def hexDigits : List Char := "0123456789abcdef".toList

def IsHexNumeral (text : List Char) : Prop := text ≠ [] ∧ ∀ c ∈ text, c.toLower ∈ hexDigits

def hexValue (text : List Char) : Nat :=
  text.foldl (fun n c => 16 * n + hexDigits.idxOf c.toLower) 0

end ChatMarkup.Decimal
