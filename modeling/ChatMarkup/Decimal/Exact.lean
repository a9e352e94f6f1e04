/-
  ChatMarkup/Decimal/Exact.lean
  =============================
  **Exact values** — what reals and their texts are worth as rational numbers, and what it
  means for one number to be another one rounded.

  None of this is computed with when a real is printed.  It is what the printed digits are
  measured by.
-/
import ChatMarkup.Decimal.Layout
import ChatMarkup.Decimal.Reading
import Mathlib.Algebra.Order.Field.Power
import Mathlib.Data.Int.Log
import Mathlib.Data.Rat.Floor

namespace ChatMarkup.Decimal

def Magnitude.toRat (m : Magnitude) : ℚ := m.significand * 2 ^ m.exponent

def Binary64.toRat : Binary64 → ℚ
  | .finite negative m => if negative then -m.toRat else m.toRat
  | _ => 0

def Scaled.toRat (d : Scaled) : ℚ := d.digits * 10 ^ d.exponent

def DecimalParts.toRat (parts : DecimalParts) : ℚ :=
  value parts.digits * 10 ^ (parts.exponent - parts.places)

/-- Digits, and a point in front of those that belong to the fraction. -/
def pointed (whole fraction : List Char) : List Char :=
  if fraction = [] then whole else whole ++ '.' :: fraction

def readRat? : List Char → Option ℚ
  | '-' :: text => (readDecimal? text).map fun parts => -parts.toRat
  | text => (readDecimal? text).map DecimalParts.toRat

/-- The nearest integer, and halfway between two of them the even one. -/
def IsNearest (q : ℚ) (n : ℤ) : Prop := |q - n| ≤ 1 / 2 ∧ (|q - n| = 1 / 2 → Even n)

/-- Nothing is left of the number when it is rounded to decimal places. That never happens to
    infinity. -/
def Binary64.RoundsToZero (places : Nat) (x : Binary64) : Prop :=
  x.isFinite = true ∧ IsNearest (x.toRat * 10 ^ places) 0

/-- A number rounded to significant digits. The last of them stands in units of a power of ten,
    and the nearest multiple of it is taken, or halfway the one with an even last digit. -/
def RoundsTo (count : Nat) (q r : ℚ) : Prop :=
  let unit : ℚ := 10 ^ (Int.log 10 |q| + 1 - count)
  ∃ n : ℤ, IsNearest (q / unit) n ∧ r = n * unit

/-- No digit behind a decimal point could be left out: the last of them is not zero. In front of
    an exponent there may be a lone zero. -/
def Trimmed (text : List Char) : Prop :=
  ∀ front fraction rest, text = front ++ '.' :: (fraction ++ rest) →
    (∀ c ∈ fraction, c.isDigit = true) → (∀ c ∈ rest.head?, c.isDigit = false) →
    fraction ≠ [] ∧
      (fraction.getLast? = some '0' → fraction = ['0'] ∧ ∃ exponent, rest = 'E' :: exponent)

end ChatMarkup.Decimal
