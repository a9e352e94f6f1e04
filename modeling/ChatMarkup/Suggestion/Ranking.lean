/-
  ChatMarkup/Suggestion/Ranking.lean
  ==================================
  **The best suggestions** — the rank of a known name for a misspelt one, and which names are
  the best to suggest.
-/
import ChatMarkup.Suggestion
import ChatMarkup.Text.Edit
import Mathlib.Data.Prod.Lex
import Mathlib.Data.String.Basic

namespace ChatMarkup.Suggestion

def rank (name known : String) : Nat ×ₗ String :=
  toLex (editDistance name.toList known.toList, known)

/-- One edit away at most from a name of up to three characters, two edits from a longer one. -/
def IsNear (name known : String) : Prop :=
  editDistance name.toList known.toList ≤ if name.length ≤ 3 then 1 else 2

/-- Some of the available names are the best to suggest for a misspelt one. -/
structure Best (name : String) (available suggestions : List String) : Prop where
  few : suggestions.length ≤ 3
  distinct : suggestions.Nodup
  known : ∀ known ∈ suggestions, known ∈ available
  near : ∀ known ∈ suggestions, IsNear name known
  ascending : suggestions.Pairwise fun known later => rank name known < rank name later
  /-- A name is left out only for three that come before it. -/
  omitted : ∀ known ∈ available, IsNear name known → known ∉ suggestions →
    suggestions.length = 3 ∧ ∀ better ∈ suggestions, rank name better < rank name known

end ChatMarkup.Suggestion
