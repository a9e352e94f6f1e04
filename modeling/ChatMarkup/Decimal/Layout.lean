/-
  ChatMarkup/Decimal/Layout.lean
  ==============================
  **How reals are written** — four layouts of a real:

  * `plain` writes the shortest decimal that reads back, always positionally;
  * `general` writes it with at least one decimal place, or with an exponent for
    magnitudes below `1e-5` and from `1e16` on. It is the layout of a real in a message
    about JSON;
  * `fixed` writes a given number of decimal places;
  * `compact` writes fourteen significant digits without trailing zeros, and an
    exponent for magnitudes below `1e-4` or from `1e14` on. It is the layout of a
    real that a formula has computed.
-/
import ChatMarkup.Decimal.Shortest

namespace ChatMarkup.Decimal

/-- The digits of `n` in a field of at least `width` digits, with leading zeros. -/
def padded (width n : Nat) : List Char :=
  let digits := ofNat n
  List.replicate (width - digits.length) '0' ++ digits

/-- The text of `n / 10 ^ places` with exactly `places` digits after the point, and no
    point when there are none. -/
def withPlaces (places n : Nat) : List Char :=
  if places = 0 then ofNat n
  else ofNat (n / tenPow places) ++ '.' :: padded places (n % tenPow places)

def positional (d : Scaled) : List Char :=
  if 0 ≤ d.exponent then ofNat (d.digits * tenPow d.exponent.toNat)
  else withPlaces (-d.exponent).toNat d.digits

/-- The text without trailing zeros after a decimal point, and without a point that
    nothing follows. -/
def trimFraction (text : List Char) : List Char :=
  if '.' ∈ text then
    -- the zeros first, then the point, so that `10.0` keeps the zero of its ten
    ((text.reverse.dropWhile (· == '0')).dropWhile (· == '.')).reverse
  else text

/-- The text with a decimal place, if it has none. -/
def withPoint (text : List Char) : List Char :=
  if '.' ∈ text then text else text ++ ['.', '0']

def exponentText (exponent : Int) : List Char :=
  (if exponent < 0 then '-' else '+') :: ofNat exponent.natAbs

def signed (negative : Bool) (text : List Char) : List Char :=
  if negative then '-' :: text else text

namespace Magnitude

/-- The shortest decimal text that reads back to the value; a tie goes up. -/
def plain (m : Magnitude) : List Char :=
  if m.significand = 0 then ['0'] else trimFraction (positional (m.shortest .up))

/-- The shortest decimal that reads back to a non-zero value, a tie going to the even
    digit: positionally for decimal exponents from -5 to 15, else with an exponent and no
    more decimal places than its digits need. -/
def general (m : Magnitude) : List Char :=
  let d := m.shortest .even
  let places := digitCount d.digits - 1
  let exponent := d.exponent + places
  if -5 ≤ exponent ∧ exponent ≤ 15 then withPoint (trimFraction (positional d))
  else trimFraction (withPlaces places d.digits) ++ 'e' :: exponentText exponent

def fixed (m : Magnitude) (places : Nat) : List Char := withPlaces places (m.roundTo places)

def compactDigits : Nat := 14

/-- The mantissa of the exponent notation: one digit before the point, at least one
    after it. -/
def mantissa (digits : Nat) : List Char :=
  withPoint (trimFraction (withPlaces (compactDigits - 1) digits))

/-- A non-zero value with fourteen significant digits: positionally for decimal
    exponents from -4 to 13, else with an exponent. -/
def compact (m : Magnitude) : List Char :=
  let rounded := m.significant compactDigits
  let exponent := rounded.exponent + compactDigits - 1
  if exponent < -4 ∨ compactDigits ≤ exponent then
    mantissa rounded.digits ++ 'E' :: exponentText exponent
  -- the exponent is that of the rounded value: rounding anew to these places cannot carry further
  else trimFraction (m.fixed (compactDigits - 1 - exponent).toNat)

end Magnitude

namespace Binary64

def nanText : List Char := "NaN".toList

def infinityText : List Char := "inf".toList

/-- The shortest text that reads back, with the sign of a negative zero. -/
def plain : Binary64 → List Char
  | .nan => nanText
  | .infinite negative => signed negative infinityText
  | .finite negative m => signed negative m.plain

def fixed (places : Nat) : Binary64 → List Char
  | .nan => nanText
  | .infinite negative => signed negative infinityText
  | .finite negative m => signed negative (m.fixed places)

/-- The shortest text that reads back, with a decimal place or an exponent. -/
def general : Binary64 → List Char
  | .finite negative m =>
    signed negative (if m.significand = 0 then withPoint m.plain else m.general)
  | other => other.plain

def compact : Binary64 → List Char
  | .finite negative m =>
    signed negative (if m.significand = 0 then m.plain else m.compact)
  | other => other.plain

end Binary64

def plainText (x : Float) : List Char := (Binary64.ofFloat x).plain

def generalText (x : Float) : List Char := (Binary64.ofFloat x).general

def compactText (x : Float) : List Char := (Binary64.ofFloat x).compact

end ChatMarkup.Decimal
