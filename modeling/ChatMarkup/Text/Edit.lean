/-
  ChatMarkup/Text/Edit.lean
  =========================
  **Edits of texts** — what it takes to turn one text into another, a character at a time,
  and the least number of such steps.
-/
import Mathlib.Order.Bounds.Defs

namespace ChatMarkup.Text

/-- A character is inserted, deleted or replaced somewhere in a text. -/
inductive Edit : List Char → List Char → Prop where
  | insert (c : Char) (text : List Char) : Edit text (c :: text)
  | delete (c : Char) (text : List Char) : Edit (c :: text) text
  | replace (c d : Char) (text : List Char) : Edit (c :: text) (d :: text)
  | behind (c : Char) {text edited : List Char} (edit : Edit text edited) :
      Edit (c :: text) (c :: edited)

inductive Edits : Nat → List Char → List Char → Prop where
  | none (text : List Char) : Edits 0 text text
  | more {n : Nat} {text edited result : List Char} (edit : Edit text edited)
      (rest : Edits n edited result) : Edits (n + 1) text result

/-- So many edits are needed to turn a text into another, and so many are enough. -/
def LeastEdits (text result : List Char) (n : Nat) : Prop :=
  IsLeast {count | Edits count text result} n

end ChatMarkup.Text
