/-
  ChatMarkup/Markup/Error.lean
  ============================
  **Templates that cannot be read** — what was wrong and where.

  A failure knows the part of the template that was still to be read. Where nothing is
  left the template is truncated, whatever was expected; nesting that is too deep is
  reported as such in any case.
-/
import ChatMarkup.Decimal.Numeral
import ChatMarkup.Markup.Node
import ChatMarkup.Text.Place

namespace ChatMarkup.Markup

inductive Cause where
  | tag  -- an opening tag does not end after its attributes
  | closingTag
  | attributeValue
  | reference
  | duplicateAttribute
  | unopened  -- a closing tag where no element is open
  | unexpected (c : Char)  -- a character that begins neither text nor an element
  | nestingTooDeep
  deriving DecidableEq, Repr

def Cause.message : Cause → String
  | .tag => "invalid tag; expected `/>`, `>`"
  | .closingTag => "invalid closing tag; expected `</`"
  | .attributeValue => "invalid attribute value"
  | .reference => "invalid entity reference"
  | .duplicateAttribute => "invalid attribute list: duplicate attribute name"
  | .unopened => "closing tag without a matching opening tag"
  | .unexpected c => "unexpected character: '" ++ String.singleton c ++ "'"
  | .nestingTooDeep => "elements nested too deeply"

/-- A cause and the text that was left when it arose. -/
structure Failure where
  cause : Cause
  rest : List Char
  deriving DecidableEq, Repr

inductive Error where
  | malformed (place : Text.Place) (cause : Cause)
  | truncated (place : Text.Place)
  | nestingTooDeep (place : Text.Place)
  deriving DecidableEq, Repr

def Failure.toError (template : List Char) (failure : Failure) : Error :=
  let place := Text.placeOf template failure.rest
  match failure.cause, failure.rest with
  -- reported at the bracket that opens one element too many, so something is left there
  | .nestingTooDeep, _ => .nestingTooDeep place
  | _, [] => .truncated place
  | cause, _ => .malformed place cause

def placeText (place : Text.Place) : String :=
  String.ofList (Decimal.ofNat place.line) ++ ":" ++ String.ofList (Decimal.ofNat place.column)

def Error.message : Error → String
  | .malformed place cause => "markup error at " ++ placeText place ++ ": " ++ cause.message
  | .truncated place => "unexpected end of template at " ++ placeText place
  | .nestingTooDeep place =>
    "elements nested deeper than " ++ String.ofList (Decimal.ofNat maxDepth) ++ " levels at " ++
      placeText place

end ChatMarkup.Markup
