/-
  ChatMarkup/Markup/Unfinished.lean
  =================================
  **Templates that are not finished** — the elements that are open behind a part of a
  template, how deep a tree is, and the places where a template can stop without the reader
  seeing that it was cut off.

  Which elements are open is said by the grammar alone: what is missing are their closing
  tags, and with these the part is a template of its own.  No part of a tag, of a value or of
  a reference can be followed by a closing tag, so such a part always ends between nodes.
-/
import ChatMarkup.Markup.Spelling

namespace ChatMarkup.Markup

/-- The closing tags of elements, the innermost first. -/
def closings (names : List String) : List Char :=
  names.flatMap fun name => '<' :: '/' :: (name.toList ++ ['>'])

/-- Behind a text these elements are open, the innermost first. -/
structure OpenAfter (before : List Char) (names : List String) : Prop where
  areNames : ∀ name ∈ names, IsTagName name
  -- the rest of the template is the closing tags alone
  closable : ∃ tree : Element, tree.Canonical ∧
    SpellsNodes tree.children (before ++ closings names)

/-! ### Depth -/

mutual

/-- How many elements are nested in a node, the node itself included. -/
def Node.depth : Node → Nat
  | .text _ => 0
  | .element _ children => depthOf children + 1

def depthOf : List Node → Nat
  | [] => 0
  | node :: rest => max node.depth (depthOf rest)

end

/-! ### Stranded templates -/

/-- The unfinished parts that the reader gives back, by the elements open around them.  A `<`
    alone could begin anything, the name of a closing tag counts as a whole only, an attribute
    is none before its equals sign, and a slash needs the bracket behind it. -/
inductive Stranded : List String → List Char → Prop where
  | bracket {names} : Stranded names ['<']
  | closing {name names half more} (some : half ≠ []) (unfinished : more ≠ [])
      (whole : String.toList name = half ++ more) : Stranded (name :: names) ('<' :: '/' :: half)
  | unassigned {names} {tag : Tag} {attributes gap after} {attr : String}
      (canonical : tag.Canonical) (inner : SpellsAttributes tag.attributes attributes)
      (separate : gap ≠ []) (space : IsSpace (gap ++ after)) (isName : IsTagName attr) :
      Stranded names ('<' :: (tag.name.toList ++ (attributes ++ (gap ++ (attr.toList ++ after)))))
  | slash {names} {tag : Tag} {attributes gap} (canonical : tag.Canonical)
      (inner : SpellsAttributes tag.attributes attributes) (space : IsSpace gap) :
      Stranded names ('<' :: (tag.name.toList ++ (attributes ++ (gap ++ ['/']))))

/-- A text stops in a part that the reader gives back. -/
def StopsShort (text : List Char) : Prop :=
  ∃ before names rest, text = before ++ rest ∧ OpenAfter before names ∧ Stranded names rest

end ChatMarkup.Markup
