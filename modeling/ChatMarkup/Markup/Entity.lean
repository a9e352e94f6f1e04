/-
  ChatMarkup/Markup/Entity.lean
  =============================
  **What references stand for** — the references to characters that templates are meant to be
  written with, and the places in a template where a reference can stand: in a text, or in
  the value of an attribute.

  `Documented` is the list of the forms.  The reader takes one form more, a number with a plus
  sign in front of its digits.
-/
import ChatMarkup.Decimal.Spelling
import ChatMarkup.Markup.Unfinished

namespace ChatMarkup.Markup

inductive Named : List Char → Char → Prop where
  | amp : Named ['a', 'm', 'p'] '&'
  | lt : Named ['l', 't'] '<'
  | gt : Named ['g', 't'] '>'
  | quot : Named ['q', 'u', 'o', 't'] '"'
  | apos : Named ['a', 'p', 'o', 's'] '\''

/-- The references by number, with a given sign in front of the digits. The number is that of a
    character. -/
inductive Numeric (sign : List Char) : List Char → Char → Prop where
  | decimal {digits c} (numeral : Decimal.IsNumeral digits)
      (number : c.toNat = Decimal.value digits) : Numeric sign ('#' :: (sign ++ digits)) c
  | hexadecimal {mark digits c} (marked : mark = 'x' ∨ mark = 'X')
      (numeral : Decimal.IsHexNumeral digits) (number : c.toNat = Decimal.hexValue digits) :
      Numeric sign ('#' :: mark :: (sign ++ digits)) c

/-- What stands between `&` and `;` in the references that are documented. -/
def Documented (name : List Char) (c : Char) : Prop := Named name c ∨ Numeric [] name c

/-- What stands between `&` and `;` in the references that the reader takes. -/
def Taken (name : List Char) (c : Char) : Prop := Documented name c ∨ Numeric ['+'] name c

/-- An element without content and with one attribute, whose value is written in a given way. -/
def lone (tag attr : String) (quote : Char) (value : List Char) : List Char :=
  '<' :: (tag.toList ++ ' ' :: (attr.toList ++ '=' :: quote :: (value ++ [quote, '/', '>'])))

/-- A template ends where characters of some class stand for themselves: in a text, or in the
    value of an attribute. -/
inductive EndsInContent : (Char → Prop) → List Char → Prop where
  | text {before names} (opened : OpenAfter before names) : EndsInContent PlainText before
  | value {before names attributes spelling gap between after quote run written}
      {tag name : String} (opened : OpenAfter before names) (room : names.length < maxDepth)
      (isTag : IsTagName tag) (areNames : ∀ attr ∈ attributes, IsTagName attr.1)
      (inner : SpellsAttributes attributes spelling) (separate : gap ≠ [])
      (space : IsSpace (gap ++ between ++ after)) (isName : IsTagName name)
      (quoted : quote = '"' ∨ quote = '\'')
      (content : SpellsText (PlainValue quote) run written) :
      EndsInContent (PlainValue quote)
        (before ++ '<' :: (tag.toList ++ (spelling ++
          (gap ++ name.toList ++ between ++ '=' :: after ++ quote :: written))))

end ChatMarkup.Markup
