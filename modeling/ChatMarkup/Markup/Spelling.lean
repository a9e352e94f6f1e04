/-
  ChatMarkup/Markup/Spelling.lean
  ===============================
  **How trees are spelt** — the grammar of templates as a relation between trees and
  texts. A tree has many spellings: every character can be written by a reference, tags
  leave room for white space, values take either quote, and an element without children
  may be closed in its opening tag.

  Only canonical trees have a spelling: names are names, no attribute repeats, no text is
  empty or follows another, and no element is nested too deeply.
-/
import ChatMarkup.Markup.Piece

namespace ChatMarkup.Markup

/-! ### Spellings -/

/-- The ways to write a character where those of some class stand for themselves. -/
inductive SpellsChar (plain : Char → Prop) : Char → List Char → Prop where
  | raw {c} (self : plain c) : SpellsChar plain c [c]
  | reference {c name} (some : name ≠ []) (inner : ∀ d ∈ name, endsReference d = false)
      (decoded : decode? name = Option.some c) : SpellsChar plain c ('&' :: name ++ [';'])

inductive SpellsText (plain : Char → Prop) : List Char → List Char → Prop where
  | nil : SpellsText plain [] []
  | cons {c spelling text rest} (head : SpellsChar plain c spelling)
      (tail : SpellsText plain text rest) : SpellsText plain (c :: text) (spelling ++ rest)

def IsSpace (text : List Char) : Prop := ∀ c ∈ text, isSpace c = true

/-- What stands for itself between tags. -/
def PlainText (c : Char) : Prop := c ≠ '<' ∧ c ≠ '&'

/-- What stands for itself between quotes. -/
def PlainValue (quote c : Char) : Prop := c ≠ quote ∧ c ≠ '<' ∧ c ≠ '&'

/-- The ways to write an attribute, with the white space before it. -/
inductive SpellsAttribute : String × String → List Char → Prop where
  | mk {name value gap before after quote spelling}
      (separate : gap ≠ []) (space : IsSpace (gap ++ before ++ after))
      (quoted : quote = '"' ∨ quote = '\'')
      (content : SpellsText (PlainValue quote) (String.toList value) spelling) :
      SpellsAttribute (name, value)
        (gap ++ name.toList ++ before ++ '=' :: after ++ quote :: spelling ++ [quote])

inductive SpellsAttributes : List (String × String) → List Char → Prop where
  | nil : SpellsAttributes [] []
  | cons {attr spelling attributes rest} (head : SpellsAttribute attr spelling)
      (tail : SpellsAttributes attributes rest) :
      SpellsAttributes (attr :: attributes) (spelling ++ rest)

mutual

inductive SpellsNode : Node → List Char → Prop where
  | text {text : String} {spelling} (content : SpellsText PlainText text.toList spelling) :
      SpellsNode (.text text) spelling
  -- only without children: `<b></b>` and `<b/>` are the same element
  | closed {tag attributes gap} (inner : SpellsAttributes tag.attributes attributes)
      (space : IsSpace gap) :
      SpellsNode (.element tag [])
        ('<' :: tag.name.toList ++ attributes ++ gap ++ "/>".toList)
  | enclosing {tag children attributes gap content last}
      (inner : SpellsAttributes tag.attributes attributes) (space : IsSpace (gap ++ last))
      (inside : SpellsNodes children content) :
      SpellsNode (.element tag children)
        ('<' :: tag.name.toList ++ attributes ++ gap ++ '>' :: content ++
          "</".toList ++ tag.name.toList ++ last ++ ['>'])

inductive SpellsNodes : List Node → List Char → Prop where
  | nil : SpellsNodes [] []
  | cons {node spelling nodes rest} (head : SpellsNode node spelling)
      (tail : SpellsNodes nodes rest) : SpellsNodes (node :: nodes) (spelling ++ rest)

end

/-! ### Canonical trees -/

inductive IsTagName : String → Prop where
  | mk {name : String} {c rest} (whole : name.toList = c :: rest) (start : isNameStart c = true)
      (more : ∀ d ∈ rest, isNameChar d = true) : IsTagName name

/-- A tag with names for names and no attribute twice. -/
structure Tag.Canonical (tag : Tag) : Prop where
  name : IsTagName tag.name
  names : ∀ attr ∈ tag.attributes, IsTagName attr.1
  distinct : (tag.attributes.map Prod.fst).Nodup

/-- No text follows another. -/
def TextsApart : List Node → Prop
  | .text _ :: .text _ :: _ => False
  | _ :: rest => TextsApart rest
  | [] => True

/-- A node with room for some levels of elements. -/
inductive Canonical : Nat → Node → Prop where
  | text {room text} (some : text ≠ "") : Canonical room (.text text)
  | element {room tag children} (canonical : tag.Canonical) (apart : TextsApart children)
      (inside : ∀ node ∈ children, Canonical room node) :
      Canonical (room + 1) (.element tag children)

structure Element.Canonical (tree : Element) : Prop where
  tag : tree.tag = ⟨rootName, []⟩
  apart : TextsApart tree.children
  inside : ∀ node ∈ tree.children, Markup.Canonical maxDepth node

end ChatMarkup.Markup
