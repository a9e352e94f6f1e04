/-
  ChatMarkup/Decimal/Rounding.lean
  ================================
  **Rounding to a decimal grid** — a quotient of naturals rounded to the nearest
  integer, a half going to the even neighbour, and with it the value of a real to a
  given number of decimal places or of significant digits.

  `roundDiv_near` and `roundDiv_tie` determine the rounded quotient.
-/
import ChatMarkup.Decimal.Binary64

namespace ChatMarkup.Decimal

/-- The integer nearest to `num / den`; a half goes to the even neighbour. -/
def roundDiv (num den : Nat) : Nat :=
  let twice := 2 * (num % den)
  if twice < den ∨ (twice = den ∧ num / den % 2 = 0) then num / den else num / den + 1

/-- The rounded quotient is at most half a unit away from the exact one. -/
theorem roundDiv_near (num den : Nat) (h : 0 < den) :
    2 * (den * roundDiv num den) ≤ 2 * num + den ∧
      2 * num ≤ 2 * (den * roundDiv num den) + den := by
  have split := Nat.div_add_mod num den
  have small := Nat.mod_lt num h
  have step : den * (num / den + 1) = den * (num / den) + den := Nat.mul_succ ..
  simp only [roundDiv]
  split
  · omega
  · rw [step]; omega

/-- Halfway between two integers the even one is taken. -/
theorem roundDiv_tie (num den : Nat) (h : 2 * (num % den) = den) :
    roundDiv num den % 2 = 0 := by
  unfold roundDiv
  simp only [h, Nat.lt_irrefl, true_and, false_or]
  split <;> omega

/-- A natural number scaled by a power of ten: `digits * 10 ^ exponent`. -/
structure Scaled where
  digits : Nat
  exponent : Int
  deriving DecidableEq, Repr

namespace Magnitude

def scaledNum (m : Magnitude) (places : Int) : Nat := m.num * tenPow places.toNat

def scaledDen (m : Magnitude) (places : Int) : Nat := m.den * tenPow (-places).toNat

theorem scaledDen_pos (m : Magnitude) (places : Int) : 0 < m.scaledDen places :=
  Nat.mul_pos m.den_pos (tenPow_pos _)

def roundTo (m : Magnitude) (places : Int) : Nat :=
  roundDiv (m.scaledNum places) (m.scaledDen places)

/-- The number of decimal digits of a natural number, none for zero. -/
def digitCount (n : Nat) : Nat := if n = 0 then 0 else (ofNat n).length

def leading (m : Magnitude) : Int :=
  if m.den ≤ m.num then (digitCount (m.num / m.den) : Int) - 1
  -- below one, counted in the reciprocal; `den - 1` puts exact powers of ten where they belong
  else -(digitCount ((m.den - 1) / m.num) : Int)

/-- A non-zero value rounded to `count` significant digits: the digits are at least
    `10 ^ (count - 1)` and less than `10 ^ count`. -/
def significant (m : Magnitude) (count : Nat) : Scaled :=
  let unit := m.leading + 1 - count
  let digits := m.roundTo (-unit)
  if digits = tenPow count then ⟨tenPow (count - 1), unit + 1⟩ else ⟨digits, unit⟩

end Magnitude

end ChatMarkup.Decimal
