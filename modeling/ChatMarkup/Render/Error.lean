/-
  ChatMarkup/Render/Error.lean
  ============================
  **Why a template cannot be rendered** — an error in the markup, in a formula or in the
  locale, or an attribute that does not say what it has to.

  Rendering is all or nothing: any of these takes the place of the whole text.
-/
import ChatMarkup.Formula.Error
import ChatMarkup.Locale.Error
import ChatMarkup.Markup.Error
import ChatMarkup.Markup.Schema

namespace ChatMarkup.Render

inductive Error where
  | formula (error : Formula.Error)
  | markup (error : Markup.Error)
  | locale (error : Locale.Error)
  /-- A variable is given, or a loop asks for one, whose name no variable can have. -/
  | invalidName (name : String)
  | missingAttribute (element attr : String)
  | missingColor  -- a `color` element names neither a foreground nor a background
  | unknownColor (name : String) (suggestions : List String)
  | colorOutOfRange (code : String)  -- a colour is given by a number that is no code
  /-- No case has the plural form that the count asks for. -/
  | missingCase (form : String) (available : List String)
  | invalidTemplate (diagnostics : List Markup.Diagnostic)
  deriving DecidableEq

def Error.unfit (fault : Fault) : Error := .formula (.unfit fault)

inductive Category where
  | lexical  -- a character that belongs in no formula
  | grammar  -- a formula that breaks the grammar
  | kind  -- a value of the wrong kind
  | argument  -- anything else that the template or the variables get wrong
  deriving DecidableEq, Repr

namespace Error

def category : Error → Category
  | .formula (.strayCharacter ..) => .lexical
  | .formula (.unexpectedToken ..) => .grammar
  | .formula .nestingTooDeep => .grammar
  | .formula (.unfit _) => .kind
  | _ => .argument

def enumerated (names : List String) : String := ", ".intercalate names

def suggestionText (suggestions : List String) : String :=
  if suggestions.isEmpty then "" else ", did you mean: " ++ enumerated suggestions ++ "?"

def message : Error → String
  | .formula error => error.message
  | .markup error => error.message
  | .locale error => error.message
  | .invalidName name =>
    "invalid variable name '" ++ name ++
      "': names may only contain alphanumeric characters, underscores and dots"
  | .missingAttribute element attr => "<" ++ element ++ "> requires a '" ++ attr ++ "' attribute"
  | .missingColor => "<color> requires an 'fg' attribute, a 'bg' attribute, or both"
  | .unknownColor name suggestions =>
    "unknown color '" ++ name ++ "'" ++ suggestionText suggestions
  | .colorOutOfRange code => "color code '" ++ code ++ "' is out of range (0-99)"
  | .missingCase form available =>
    "no <case> for plural form '" ++ form ++ "', available: " ++ enumerated available
  | .invalidTemplate diagnostics =>
    "template failed validation: " ++ "; ".intercalate (diagnostics.map Markup.Diagnostic.text)

end Error

end ChatMarkup.Render
