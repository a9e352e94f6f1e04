/-
  ChatMarkup/Markup/Node.lean
  ===========================
  **Markup trees** — what a template is read into: texts and tagged elements with
  attributes and children, under a root element.
-/

namespace ChatMarkup.Markup

/-- The name of the root element, which no template writes out. -/
def rootName : String := "msg"

/-- How many elements may be open at once below the root. -/
def maxDepth : Nat := 64

structure Tag where
  name : String
  attributes : List (String × String)
  deriving DecidableEq, Repr

namespace Tag

/-- The value of an attribute; the first one counts should the name repeat. -/
def attribute? (tag : Tag) (name : String) : Option String := tag.attributes.lookup name

def firstAttribute? (tag : Tag) (names : List String) : Option String :=
  names.findSome? tag.attribute?

end Tag

/-- A text, with references decoded, or an element. -/
inductive Node where
  | text (text : String)
  | element (tag : Tag) (children : List Node)
  deriving BEq, Repr

structure Element where
  tag : Tag
  children : List Node
  deriving BEq, Repr

def Node.asElement? : Node → Option Element
  | .text _ => none
  | .element tag children => some ⟨tag, children⟩

def elementsOf (nodes : List Node) : List Element := nodes.filterMap Node.asElement?

def root (nodes : List Node) : Element := ⟨⟨rootName, []⟩, nodes⟩

end ChatMarkup.Markup
