/-
  ChatMarkup/Suggestion.lean
  ==========================
  **Suggestions for a misspelt name** — the known names within a small edit distance,
  closest first.

  `editDistance` counts the insertions, deletions and substitutions of characters that
  turn one text into another. It is computed row by row: `distances a b` lists the
  distances from `a` to the final parts of `b`, the longest first.
-/
import ChatMarkup.Text.Order

namespace ChatMarkup.Suggestion

/-- The distances from `c :: a` to the final parts of `b`, given those from `a`. -/
def extend (c : Char) : List Char → List Nat → List Nat
  | [], row => row.map (· + 1)
  | d :: b, row =>
    let rest := extend c b row.tail
    -- `row` holds the distances from `a`: to `d :: b` first, then to `b`
    let here := row.headD 0
    let skipped := row.tail.headD 0
    (if c = d then skipped else 1 + min skipped (min here (rest.headD 0))) :: rest

/-- The distances from `a` to the final parts of `b`, `b` itself first. -/
def distances : List Char → List Char → List Nat
  | [], b => (List.range (b.length + 1)).reverse
  | c :: a, b => extend c b (distances a b)

/-- The least number of single-character edits between two texts. -/
def editDistance (a b : List Char) : Nat := (distances a b).headD 0

/-- The largest distance of a suggestion: two edits, but one for a name of at most three
    characters. -/
def cutoff (name : List Char) : Nat := if 3 < name.length then 2 else 1

def limit : Nat := 3

def ranksBefore (a b : Nat × String) : Bool :=
  Nat.blt a.1 b.1 || (a.1 == b.1 && Text.nameAtMost a.2 b.2)

/-- The names within the cutoff with their distances, closest first. Equal names have equal
    distances, so they end up side by side, and one of each is left. -/
def candidates (name : String) (available : List String) : List (Nat × String) :=
  let scored := available.map fun known => (editDistance name.toList known.toList, known)
  let near := scored.filter fun entry => Nat.ble entry.1 (cutoff name.toList)
  (near.mergeSort ranksBefore).eraseRepsBy fun a b => a.2 == b.2

def closest (name : String) (available : List String) : List String :=
  ((candidates name available).take limit).map Prod.snd

end ChatMarkup.Suggestion
