/-
  ChatMarkup/Style/Guard.lean
  ===========================
  **Guarded styles** — a current style and the styles saved by the guards that are open.

  Opening a guard saves the current style, closing the innermost one restores what it
  saved, whatever was written in between.
-/
import ChatMarkup.Style.Basic

namespace ChatMarkup

/-- A current style and what the open guards saved, the innermost first. -/
structure GuardedStyle where
  current : Style
  saved : List Style
  deriving DecidableEq, Repr

namespace GuardedStyle

def unguarded (style : Style) : GuardedStyle := ⟨style, []⟩

def write (change : Style → Style) (guarded : GuardedStyle) : GuardedStyle :=
  { guarded with current := change guarded.current }

def enter (guarded : GuardedStyle) : GuardedStyle :=
  ⟨guarded.current, guarded.current :: guarded.saved⟩

/-- Closes the innermost guard, if one is open. -/
def leave (guarded : GuardedStyle) : GuardedStyle :=
  match guarded.saved with
  | [] => guarded
  | style :: rest => ⟨style, rest⟩

def saved? (guarded : GuardedStyle) : Option Style := guarded.saved.head?

end GuardedStyle

end ChatMarkup
