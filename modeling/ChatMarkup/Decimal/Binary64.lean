/-
  ChatMarkup/Decimal/Binary64.lean
  ================================
  **What the bits of a real stand for** — a real of the template language is a 64-bit
  binary floating-point number; everything printed about one is computed from its
  exact value `significand * 2 ^ exponent` by arithmetic on naturals.
-/
import ChatMarkup.Decimal.Numeral

namespace ChatMarkup.Decimal

/-- The exact value `significand * 2 ^ exponent`. -/
structure Magnitude where
  significand : Nat
  exponent : Int
  deriving DecidableEq, Repr

namespace Magnitude

def num (m : Magnitude) : Nat := m.significand * twoPow m.exponent.toNat

def den (m : Magnitude) : Nat := twoPow (-m.exponent).toNat

theorem den_pos (m : Magnitude) : 0 < m.den := twoPow_pos _

def floor (m : Magnitude) : Nat := m.num / m.den

end Magnitude

/-- A floating-point number as its bits describe it. -/
inductive Binary64 where
  | nan
  | infinite (negative : Bool)
  | finite (negative : Bool) (magnitude : Magnitude)
  deriving DecidableEq, Repr

namespace Binary64

/-- The number written in 64 bits: a sign, eleven bits of exponent and 52 of fraction. -/
def ofBits (bits : UInt64) : Binary64 :=
  let negative := decide (twoPow 63 ≤ bits.toNat)
  let biased : Nat := bits.toNat / twoPow 52 % twoPow 11
  let fraction : Nat := bits.toNat % twoPow 52
  if biased = 2047 then
    if fraction = 0 then .infinite negative else .nan
  -- subnormal numbers have no leading bit beyond the fraction
  else if biased = 0 then .finite negative ⟨fraction, -1074⟩
  else .finite negative ⟨twoPow 52 + fraction, (biased : Int) - 1075⟩

def ofFloat (x : Float) : Binary64 := ofBits x.toBits

/-- Less than zero; neither zero nor NaN is. -/
def isNegative : Binary64 → Bool
  | .nan => false
  | .infinite negative => negative
  | .finite negative m => negative && m.significand != 0

def abs : Binary64 → Binary64
  | .nan => .nan
  | .infinite _ => .infinite false
  | .finite _ m => .finite false m

def isFinite : Binary64 → Bool
  | .finite .. => true
  | _ => false

/-- The integer nearest to `n` among those of 64 signed bits. -/
def clamp (n : Int) : Int64 :=
  if n < Int64.minValue.toInt then Int64.minValue
  else if Int64.maxValue.toInt < n then Int64.maxValue
  else Int64.ofInt n

/-- The number without its fractional part, clamped to 64 signed bits; NaN counts as zero. -/
def truncate : Binary64 → Int64
  | .nan => 0
  | .infinite negative => if negative then Int64.minValue else Int64.maxValue
  | .finite negative m => clamp (if negative then -(m.floor : Int) else m.floor)

end Binary64

end ChatMarkup.Decimal
