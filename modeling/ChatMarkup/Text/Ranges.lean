/-
  ChatMarkup/Text/Ranges.lean
  ===========================
  **Ranges of characters** — a class of characters as a list of closed ranges of code
  points, with what such a list holds and how much of it.
-/

namespace ChatMarkup.Text

def inRanges (ranges : List (Nat × Nat)) (c : Char) : Bool :=
  ranges.any fun range => decide (range.1 ≤ c.toNat) && decide (c.toNat ≤ range.2)

/-- How many code points some ranges hold that do not overlap. -/
def rangesCount (ranges : List (Nat × Nat)) : Nat :=
  ranges.foldl (fun count range => count + (range.2 + 1 - range.1)) 0

/-- Whether ranges ascend from a code point on and leave gaps between them. -/
def rangesApart (start : Nat) : List (Nat × Nat) → Bool
  | [] => true
  | range :: rest =>
    decide (start ≤ range.1) && decide (range.1 ≤ range.2) && rangesApart (range.2 + 2) rest

end ChatMarkup.Text
