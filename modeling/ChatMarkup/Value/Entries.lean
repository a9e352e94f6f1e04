/-
  ChatMarkup/Value/Entries.lean
  =============================
  **Arrays** — sequences keyed by position, and the concatenation of arrays.

  Concatenating two sequences gives a sequence again, so its keys are numbered anew;
  the entries of any other array keep their keys.
-/
import ChatMarkup.Value.Basic

namespace ChatMarkup.Entries

def positionKey (index : Nat) : String := String.ofList (Decimal.ofNat index)

def ofValues (values : List Value) : Entries :=
  values.zipIdx.map fun entry => (positionKey entry.2, entry.1)

def values (entries : Entries) : List Value := entries.map Prod.snd

/-- Whether a key reads as a given position: a machine-sized number, which may have a
    plus sign and leading zeros. -/
def isKeyOf (index : Nat) (key : String) : Bool :=
  Decimal.readBelow? UInt64.size key.toList == some index

def isPositional (entries : Entries) : Bool :=
  entries.zipIdx.all fun entry => isKeyOf entry.2 entry.1.1

/-- The entries of one array followed by those of another. -/
def merge (first second : Entries) : Entries :=
  let all := first ++ second
  -- each array has to be positional by itself, from zero on
  if isPositional first && isPositional second then ofValues (values all) else all

@[simp] theorem values_ofValues (vs : List Value) : values (ofValues vs) = vs := by
  simp only [values, ofValues, List.map_map]
  exact List.zipIdx_map_fst 0 vs

/-- Concatenation keeps every value in order, whatever happens to the keys. -/
theorem values_merge (first second : Entries) :
    values (merge first second) = values first ++ values second := by
  unfold merge
  split
  · rw [values_ofValues]; simp [values]
  · simp [values]

@[simp] theorem length_ofValues (vs : List Value) : (ofValues vs).length = vs.length := by
  simp [ofValues]

end ChatMarkup.Entries
