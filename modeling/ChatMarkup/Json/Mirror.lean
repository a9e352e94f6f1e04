/-
  ChatMarkup/Json/Mirror.lean
  ===========================
  **Documents and their values** — the tokens that a document is written in, the value that
  mirrors a document, and the tokens that keep a document from having one.
-/
import ChatMarkup.Json.Import
import ChatMarkup.Value.Position
import Mathlib.Algebra.Group.Int.Defs

namespace ChatMarkup.Json

namespace Document

mutual

def tokens : Document → List Token
  | .atom leaf => [.atom leaf]
  | .list items => .openList :: itemTokens [] items
  | .object members => .openObject :: memberTokens [] members

/-- The tokens of the items of a list, given what stands in front of the first of them. -/
def itemTokens (lead : List Token) : List Document → List Token
  | [] => [.closeList]
  | item :: items => lead ++ tokens item ++ itemTokens [.comma] items

def memberTokens (lead : List Token) : List (String × Document) → List Token
  | [] => [.closeObject]
  | (name, member) :: members =>
    lead ++ .atom (.string name) :: .colon :: tokens member ++ memberTokens [.comma] members

end

mutual

/-- How many lists and objects are open at once in a document. -/
def depth : Document → Nat
  | .atom _ => 0
  | .list items => itemDepth items + 1
  | .object members => memberDepth members + 1

def itemDepth : List Document → Nat
  | [] => 0
  | item :: items => max (depth item) (itemDepth items)

def memberDepth : List (String × Document) → Nat
  | [] => 0
  | (_, member) :: members => max (depth member) (memberDepth members)

end

end Document

mutual

/-- A value with the structure of a document. -/
inductive Mirrors : Document → Value → Prop where
  | integer {n : Int} {word : Int64} (same : word.toInt = n) :
      Mirrors (.atom (.integer n)) (.int word)
  | real (x : Float) : Mirrors (.atom (.real x)) (.real x)
  | string (s : String) : Mirrors (.atom (.string s)) (.str s)
  /-- A list is an array with the positions for keys. -/
  | list {items : List Document} {entries : Entries} (sequence : Entries.InSequence entries)
      (each : MirrorsItems items (Entries.values entries)) :
      Mirrors (.list items) (.array entries)
  /-- An object is an array with its names for keys, in order, be they repeated or not. -/
  | object {members : List (String × Document)} {entries : Entries}
      (each : MirrorsMembers members entries) : Mirrors (.object members) (.array entries)

inductive MirrorsItems : List Document → List Value → Prop where
  | nil : MirrorsItems [] []
  | cons {item : Document} {value : Value} {items : List Document} {values : List Value}
      (first : Mirrors item value) (others : MirrorsItems items values) :
      MirrorsItems (item :: items) (value :: values)

inductive MirrorsMembers : List (String × Document) → Entries → Prop where
  | nil : MirrorsMembers [] []
  | cons (name : String) {member : Document} {value : Value}
      {members : List (String × Document)} {entries : Entries} (first : Mirrors member value)
      (others : MirrorsMembers members entries) :
      MirrorsMembers ((name, member) :: members) ((name, value) :: entries)

end

/-- The tokens that are no part of a value, and why.  An integer beyond 64 unsigned bits is a
    real. -/
inductive MisfitOf : Token → Misfit → Prop where
  | null : MisfitOf (.atom .null) .null
  | bool (b : Bool) : MisfitOf (.atom (.bool b)) (.bool b)
  | tooLarge {n : Int} (least : 2 ^ 63 ≤ n) (most : n < 2 ^ 64) :
      MisfitOf (.atom (.integer n)) (.tooLarge n)

end ChatMarkup.Json
