/-
  ChatMarkup/Locale/Alias.lean
  ============================
  **Spellings of a tag** — which tags differ only in what the names of system locales write in
  another way.
-/
import ChatMarkup.Locale.Tag
import Mathlib.Data.List.Forall2

namespace ChatMarkup.Locale

def SameInTag (c d : Char) : Prop := c = d ∨ (c = '-' ∧ d = '_') ∨ (c = '_' ∧ d = '-')

/-- The end of a tag that is ignored: nothing, or something from a point or an at sign on. -/
def IsSuffix (text : List Char) : Prop := ∀ c ∈ text.head?, c = '.' ∨ c = '@'

/-- Two spellings of a tag: they differ in hyphens and underscores, or in a suffix from the first
    point or at sign on. -/
def SpeltAlike (tag tag' : String) : Prop :=
  ∃ front suffix front' suffix', tag.toList = front ++ suffix ∧ tag'.toList = front' ++ suffix' ∧
    (∀ c ∈ front, c ≠ '.' ∧ c ≠ '@') ∧ List.Forall₂ SameInTag front front' ∧
    IsSuffix suffix ∧ IsSuffix suffix'

end ChatMarkup.Locale
