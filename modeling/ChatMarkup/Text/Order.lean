/-
  ChatMarkup/Text/Order.lean
  ==========================
  **The order of texts** — texts are ordered by their code points, and lists of names
  that appear in messages and answers are sorted in this order.
-/

namespace ChatMarkup.Text

/-- Whether a text equals another or comes before it, comparing code points. -/
def atMost : List Char → List Char → Bool
  | [], _ => true
  | _ :: _, [] => false
  | a :: as, b :: bs => if a = b then atMost as bs else Nat.blt a.toNat b.toNat

def nameAtMost (a b : String) : Bool := atMost a.toList b.toList

def sortNames (names : List String) : List String := names.mergeSort nameAtMost

def nameSet (names : List String) : List String := sortNames names.eraseDups

@[simp] theorem mem_nameSet {names : List String} {name : String} :
    name ∈ nameSet names ↔ name ∈ names := by
  rw [nameSet, sortNames, List.mem_mergeSort, List.mem_eraseDups]

def leastName? : List String → Option String
  | [] => none
  | name :: rest =>
    match leastName? rest with
    | none => some name
    | some least => if nameAtMost name least then some name else some least

end ChatMarkup.Text
