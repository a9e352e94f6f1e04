/-
  ChatMarkup/Json/Document.lean
  =============================
  **JSON documents** — trees of atoms, lists and objects, and what it means to interpret
  one: atoms may be refused, the parts are interpreted in the order of the text, and the
  first refusal counts.
-/
import ChatMarkup.Json.Token

namespace ChatMarkup.Json

/-- A JSON document. Objects keep the order of their members, and a key may repeat. -/
inductive Document where
  | atom (atom : Atom)
  | list (items : List Document)
  | object (members : List (String × Document))

/-- How the parts of a document are understood: an atom can be refused, whatever the
    composition of understood parts cannot. -/
structure Interpretation (ε α : Type) where
  atom : Atom → Except ε α
  list : List α → α
  object : List (String × α) → α

namespace Document

mutual

def interpret {ε α : Type} (meaning : Interpretation ε α) : Document → Except ε α
  | .atom leaf => meaning.atom leaf
  | .list items => (interpretItems meaning items).map meaning.list
  | .object members => (interpretMembers meaning members).map meaning.object

def interpretItems {ε α : Type} (meaning : Interpretation ε α) :
    List Document → Except ε (List α)
  | [] => .ok []
  | item :: rest => do
    let value ← interpret meaning item
    let values ← interpretItems meaning rest
    .ok (value :: values)

def interpretMembers {ε α : Type} (meaning : Interpretation ε α) :
    List (String × Document) → Except ε (List (String × α))
  | [] => .ok []
  | (key, member) :: rest => do
    let value ← interpret meaning member
    let values ← interpretMembers meaning rest
    .ok ((key, value) :: values)

end

def itself : Interpretation Empty Document := ⟨fun leaf => .ok (.atom leaf), .list, .object⟩

end Document

end ChatMarkup.Json
