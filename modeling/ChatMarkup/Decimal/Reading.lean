/-
  ChatMarkup/Decimal/Reading.lean
  ===============================
  **Reading reals** — decimal texts with an optional point and exponent, and the
  words for infinity and NaN, read as the nearest floating-point number.
-/
import ChatMarkup.Decimal.Numeral

namespace ChatMarkup.Decimal

/-- The floating-point number nearest to `digits * 10 ^ exponent`. Magnitudes far
    outside the range of floating-point numbers are settled by the number of digits, so
    that no huge power is ever computed. -/
def nearestFloat (digits : Nat) (exponent : Int) : Float :=
  -- the value is less than `10 ^ scale`, and no less than a tenth of it
  let scale := exponent + (ofNat digits).length
  if digits = 0 ∨ scale < -400 then 0.0
  else if 400 < scale then 1.0 / 0.0
  else Float.ofScientific digits (decide (exponent < 0)) exponent.natAbs

/-- The parts of an unsigned decimal: its digits without the point, how many of them
    followed the point, and the power of ten after the exponent mark. -/
structure DecimalParts where
  digits : List Char
  places : Nat
  exponent : Int

def DecimalParts.toFloat (parts : DecimalParts) : Float :=
  nearestFloat (value parts.digits) (parts.exponent - parts.places)

def readExponent? (text : List Char) : Option Int := readInt? text

/-- Reads an unsigned decimal: digits with an optional point somewhere among them, at
    least one digit in all, and an optional exponent. -/
def readDecimal? (text : List Char) : Option DecimalParts :=
  let whole := text.takeWhile Char.isDigit
  let afterWhole := text.dropWhile Char.isDigit
  let (fraction, rest) := match afterWhole with
    | '.' :: tail => (tail.takeWhile Char.isDigit, tail.dropWhile Char.isDigit)
    | _ => ([], afterWhole)
  let digits := whole ++ fraction
  if digits.isEmpty then none
  else match rest with
    | [] => some ⟨digits, fraction.length, 0⟩
    | mark :: tail =>
      if mark = 'e' ∨ mark = 'E' then
        (readExponent? tail).map fun exponent => ⟨digits, fraction.length, exponent⟩
      else none

def readMagnitude? (text : List Char) : Option Float :=
  let word := text.map Char.toLower
  if word = "inf".toList ∨ word = "infinity".toList then some (1.0 / 0.0)
  else if word = "nan".toList then some (0.0 / 0.0)
  else (readDecimal? text).map DecimalParts.toFloat

def readFloat? (text : List Char) : Option Float :=
  match text with
  | '-' :: rest => (readMagnitude? rest).map fun x => -x
  | '+' :: rest => readMagnitude? rest
  | _ => readMagnitude? text

end ChatMarkup.Decimal
