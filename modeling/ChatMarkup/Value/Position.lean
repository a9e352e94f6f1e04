/-
  ChatMarkup/Value/Position.lean
  ==============================
  **Keys that are positions** — the arrays whose keys are their positions in decimal, and
  those whose keys are taken for positions when arrays are concatenated.

  The second are more: a key is taken for a position if it is read as that number, and a
  number may be written with a plus sign and with zeros in front of it.
-/
import ChatMarkup.Value.Entries

namespace ChatMarkup.Entries

def keys (entries : Entries) : List String := entries.map Prod.fst

/-- Every key is the position of its entry in decimal. -/
def InSequence (entries : Entries) : Prop :=
  keys entries = (List.range entries.length).map positionKey

instance (entries : Entries) : Decidable (InSequence entries) :=
  inferInstanceAs (Decidable (_ = _))

/-- A key that is read as a position. Positions are machine-sized numbers. -/
def TakenFor (index : Nat) (key : String) : Prop :=
  index < UInt64.size ∧ ∃ sign zeros, (sign = [] ∨ sign = ['+']) ∧ (∀ c ∈ zeros, c = '0') ∧
    key.toList = sign ++ (zeros ++ Decimal.ofNat index)

def Numbered (entries : Entries) : Prop :=
  ∀ index entry, entries[index]? = some entry → TakenFor index entry.1

end ChatMarkup.Entries
