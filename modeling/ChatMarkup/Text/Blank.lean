/-
  ChatMarkup/Text/Blank.lean
  ==========================
  **White space** — the Unicode property White_Space as ranges of code points, and
  the trimming of a text at both ends.

  Numbers and colour names may be surrounded by any of these characters; the ASCII
  blanks of the template grammar and of formulas are smaller classes and live with
  their readers.
-/
import ChatMarkup.Text.Ranges

namespace ChatMarkup.Text

/-- Closed ranges of the code points with the property White_Space, ascending and apart. -/
def blankRanges : List (Nat × Nat) :=
  [(0x09, 0x0D), (0x20, 0x20), (0x85, 0x85), (0xA0, 0xA0), (0x1680, 0x1680), (0x2000, 0x200A),
   (0x2028, 0x2029), (0x202F, 0x202F), (0x205F, 0x205F), (0x3000, 0x3000)]

def isBlank (c : Char) : Bool := inRanges blankRanges c

def trim (text : List Char) : List Char :=
  ((text.dropWhile isBlank).reverse.dropWhile isBlank).reverse

theorem blankRanges_count : rangesCount blankRanges = 25 := by decide

theorem blankRanges_apart : rangesApart 0 blankRanges = true := by decide

end ChatMarkup.Text
