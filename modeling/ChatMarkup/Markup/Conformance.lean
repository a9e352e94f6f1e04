/-
  ChatMarkup/Markup/Conformance.lean
  ==================================
  **Conforming trees** — what the schema of templates asks for, element by element and
  without regard to how a tree is checked, and the paths to the elements of a tree.
-/
import ChatMarkup.Formula.Token
import ChatMarkup.Markup.Node
import ChatMarkup.Text.Blank

namespace ChatMarkup.Markup

/-- A tag has all the attributes that it must have and no others than it may have; those
    that name variables hold valid names. -/
structure Tag.Fits (tag : Tag) (required optional names : List String) : Prop where
  complete : ∀ name ∈ required, ∃ value, tag.attribute? name = some value
  admissible : ∀ attr ∈ tag.attributes, attr.1 ∈ required ∨ attr.1 ∈ optional
  named : ∀ attr ∈ tag.attributes, attr.1 ∈ names → Formula.isName attr.2 = true

def Tag.Sets (tag : Tag) (name : String) : Prop :=
  ∃ value, tag.attribute? name = some value ∧ value ≠ ""

/-- A node that may stand in a `plural`: a case, or white space. -/
inductive InPlural : Node → Prop where
  | case {tag children} (name : tag.name = "case") : InPlural (.element tag children)
  | space {text : String} (blank : ∀ c ∈ text.toList, Text.isBlank c = true) :
      InPlural (.text text)

/-- A node that conforms to the schema as a child of the element with a given name. -/
inductive Conforms : String → Node → Prop where
  | text {parent text} : Conforms parent (.text text)
  | var {parent tag} (name : tag.name = "var") (fits : tag.Fits ["name"] [] []) :
      Conforms parent (.element tag [])
  | toggle {parent tag children} (name : tag.name = "b" ∨ tag.name = "u")
      (fits : tag.Fits [] [] []) (inside : ∀ node ∈ children, Conforms tag.name node) :
      Conforms parent (.element tag children)
  | color {parent tag children} (name : tag.name = "color") (fits : tag.Fits [] ["fg", "bg"] [])
      (sets : tag.Sets "fg" ∨ tag.Sets "bg")
      (inside : ∀ node ∈ children, Conforms tag.name node) :
      Conforms parent (.element tag children)
  | loop {parent tag children} (name : tag.name = "for")
      (fits : tag.Fits ["from", "item"] ["key", "separator", "sep", "last_separator", "last"]
        ["from", "item", "key"])
      (inside : ∀ node ∈ children, Conforms tag.name node) :
      Conforms parent (.element tag children)
  | plural {parent tag children} (name : tag.name = "plural") (fits : tag.Fits ["var"] [] [])
      (some : elementsOf children ≠ []) (only : ∀ node ∈ children, InPlural node)
      (inside : ∀ node ∈ children, Conforms tag.name node) :
      Conforms parent (.element tag children)
  -- a case conforms in a plural only, everything else in any element
  | case {tag children} (name : tag.name = "case") (fits : tag.Fits ["form"] [] [])
      (inside : ∀ node ∈ children, Conforms tag.name node) :
      Conforms "plural" (.element tag children)

structure Element.Conforms (root : Element) : Prop where
  name : root.tag.name = rootName
  inside : ∀ node ∈ root.children, Markup.Conforms rootName node

/-- A path leads to an element of a tree: it has the names of the elements on the way there,
    from the root to the element itself. -/
inductive Element.LeadsTo (root : Element) : List String → Element → Prop where
  | root : Element.LeadsTo root [root.tag.name] root
  | child {path : List String} {outer : Element} {tag : Tag} {children : List Node}
      (way : Element.LeadsTo root path outer) (member : .element tag children ∈ outer.children) :
      Element.LeadsTo root (path ++ [tag.name]) ⟨tag, children⟩

end ChatMarkup.Markup
