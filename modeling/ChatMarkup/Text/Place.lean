/-
  ChatMarkup/Text/Place.lean
  ==========================
  **Places in a text** — lines and columns, both counted from one and in characters,
  as error messages report them.
-/

namespace ChatMarkup.Text

/-- A line and a column, both counted from one. -/
structure Place where
  line : Nat
  column : Nat
  deriving DecidableEq, Repr

def Place.next (place : Place) (c : Char) : Place :=
  if c = '\n' then ⟨place.line + 1, 1⟩ else ⟨place.line, place.column + 1⟩

def placeAfter (read : List Char) : Place :=
  read.foldl Place.next ⟨1, 1⟩

/-- The place in `whole` at which its final part `rest` begins. -/
def placeOf (whole rest : List Char) : Place :=
  placeAfter (whole.take (whole.length - rest.length))

/-- The place of a final part depends only on what stands before it. -/
theorem placeOf_append (before rest : List Char) :
    placeOf (before ++ rest) rest = placeAfter before := by
  simp [placeOf]

end ChatMarkup.Text
