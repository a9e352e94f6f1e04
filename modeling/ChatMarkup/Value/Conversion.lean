/-
  ChatMarkup/Value/Conversion.lean
  ================================
  **Values from numbers and lists** — how numbers of other widths and lists of plain
  scalars become values.
-/
import ChatMarkup.Value.Entries

namespace ChatMarkup.Value

/-- A natural number, as far as it fits 64 bits; the upper half of them is negative. -/
def ofNat (n : Nat) : Value := .int (Int64.ofNat n)

/-- A real of single precision, which every real of double precision can stand for. -/
def ofSingle (x : Float32) : Value := .real x.toFloat

def ofInts (numbers : List Int64) : Value := .array (Entries.ofValues (numbers.map .int))

def ofStrings (texts : List String) : Value := .array (Entries.ofValues (texts.map .str))

end ChatMarkup.Value
