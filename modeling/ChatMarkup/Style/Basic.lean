/-
  ChatMarkup/Style/Basic.lean
  ===========================
  **Styles** — whether text is bold or underlined and which colours are set, and the
  control characters that switch between styles on the wire.

  Bold and underline are toggles. A colour sequence begins with its own control
  character and names a foreground, a background or both in two digits each; one that
  names a single channel is followed by a double bold toggle, so that digits or a comma
  in the text behind it are not taken for a part of it.
-/
import ChatMarkup.Palette

namespace ChatMarkup

structure Style where
  bold : Bool := false
  underline : Bool := false
  foreground : Option Color := none
  background : Option Color := none
  deriving DecidableEq, Repr

namespace Style

def plain : Style := {}

end Style

namespace Wire

def bold : Char := '\x02'

def color : Char := '\x03'

def underline : Char := '\x1f'

/-- The double toggle behind a sequence that names one channel. -/
def padding : List Char := [bold, bold]

/-- The sequence that switches the given channels, if any; the others stay as they are. -/
def colorSequence? : Option Color → Option Color → Option (List Char)
  | some fg, some bg => some (color :: fg.digits ++ ',' :: bg.digits)
  | some fg, none => some (color :: fg.digits ++ padding)
  | none, some bg => some (color :: ',' :: bg.digits ++ padding)
  | none, none => none

def colorSequence (fg bg : Option Color) : List Char := (colorSequence? fg bg).getD []

end Wire

end ChatMarkup
