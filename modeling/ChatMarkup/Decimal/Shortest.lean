/-
  ChatMarkup/Decimal/Shortest.lean
  ================================
  **The fewest digits that read back** — the decimal with the fewest significant
  digits among those that round to a given floating-point number, and the closest
  to it of these. Where two are equally close, a rule for ties chooses.

  The decimals that round to a number form an interval around it, halfway to the two
  neighbouring numbers, whose ends belong to it exactly when the significand is even.
  On the grid of decimals with a given number of digits only the two neighbours of the
  value have to be tried.
-/
import ChatMarkup.Decimal.Rounding

namespace ChatMarkup.Decimal

/-- Which of two neighbouring decimals is taken for a value halfway between them. -/
inductive Tie where
  | up  -- the greater one
  | even  -- the one whose last digit is even
  deriving DecidableEq, Repr

def Tie.takesLower (tie : Tie) (digits : Nat) : Bool :=
  match tie with
  | .up => false
  | .even => digits % 2 == 0

namespace Magnitude

/-- Whether the gap to the number below is half the gap to the number above, as it is
    at the powers of two. -/
def narrowBelow (m : Magnitude) : Bool :=
  m.significand == twoPow 52 && decide (-1074 < m.exponent)

/-- How `a * 10 ^ i` compares with `b * 2 ^ j`. -/
def compareScaled (a : Nat) (i : Int) (b : Nat) (j : Int) : Ordering :=
  compare (a * tenPow i.toNat * twoPow (-j).toNat) (b * twoPow j.toNat * tenPow (-i).toNat)

/-- Whether a decimal rounds to the value: it lies between the midpoints to the two
    neighbouring floating-point numbers, ends included when the significand is even. -/
def readsBack (m : Magnitude) (d : Scaled) : Bool :=
  -- in quarters of the significand both midpoints are whole, also below a power of two
  let lower := 4 * m.significand - (if m.narrowBelow then 1 else 2)
  let upper := 4 * m.significand + 2
  let closed := m.significand % 2 == 0
  let low := compareScaled d.digits d.exponent lower (m.exponent - 2)
  let high := compareScaled d.digits d.exponent upper (m.exponent - 2)
  (low == .gt || (closed && low == .eq)) && (high == .lt || (closed && high == .eq))

/-- Whether the value is closer to `num / den` rounded down than to the next integer, or
    as close and the lower one is taken. -/
def prefersLower (tie : Tie) (num den : Nat) : Bool :=
  2 * (num % den) < den || (2 * (num % den) == den && tie.takesLower (num / den))

/-- The decimal in units of `10 ^ unit` that reads back, if there is one; of two the
    closer to the value, and the one that the rule for ties takes if they are equally
    close. -/
def onGrid (m : Magnitude) (tie : Tie) (unit : Int) : Option Scaled :=
  let num := m.scaledNum (-unit)
  let den := m.scaledDen (-unit)
  let below : Scaled := ⟨num / den, unit⟩
  let above : Scaled := ⟨num / den + 1, unit⟩
  -- the lower neighbour is taken if it is the better one or the only one
  if m.readsBack below && (prefersLower tie num den || !m.readsBack above) then some below
  else if m.readsBack above then some above
  else none

def exact (m : Magnitude) : Scaled :=
  if 0 ≤ m.exponent then ⟨m.num, 0⟩
  else ⟨m.significand * Nat.pow 5 (-m.exponent).toNat, m.exponent⟩

/-- The shortest decimal that reads back; seventeen digits are always enough. -/
def shortest (m : Magnitude) (tie : Tie) : Scaled :=
  ((List.range 17).findSome? fun n : Nat => m.onGrid tie (m.leading - n)).getD m.exact

end Magnitude

end ChatMarkup.Decimal
