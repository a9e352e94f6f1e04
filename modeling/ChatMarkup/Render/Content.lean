/-
  ChatMarkup/Render/Content.lean
  ==============================
  **What the value of a formula is good for** — the text that stands for it, and the
  count that it selects a plural form by.

  A locale writes typed values; everything else has the same text in every locale.
-/
import ChatMarkup.Formula.Operand
import ChatMarkup.Locale.Service
import ChatMarkup.Markup.Schema
import ChatMarkup.Render.Error

namespace ChatMarkup.Render

/-- How templates are rendered: the locale and the service that knows it, the check that
    templates have to pass, and the typing of the variables. -/
structure Styler where
  locale : String := "en"
  service : Locale.Service := Locale.Service.standard
  validator : Markup.Validator := Markup.Validator.schema
  wrappers : Wrappers := {}

def Styler.display (styler : Styler) : Value → Except Error (List Char)
  | .typed value => (styler.service.render styler.locale value).mapError .locale
  | .int n => .ok (Decimal.ofInt n.toInt)
  | .real x => .ok (Decimal.compactText x)
  | .str text => .ok text.toList
  | .array _ => .error (.unfit .shownArray)

/-- The count that a real stands for: its whole part, as far as 64 signed bits go. -/
def truncated (x : Float) : Int64 := (Decimal.Binary64.ofFloat x).truncate

def countOfText? (text : String) : Option Int64 :=
  match Formula.numberOfText? text with
  | some (.int n) => some n
  -- a text is a count only if it is finite, a real always
  | some (.real x) => if (Decimal.Binary64.ofFloat x).isFinite then some (truncated x) else none
  | none => none

def countOfScalar : Scalar → Except Error Int64
  | .int n => .ok n
  | .float x => .ok (truncated x)
  | .str text =>
    match countOfText? text with
    | some n => .ok n
    | none => .error (.unfit (.notACount text))

/-- The count that a value selects a plural form by; that of an array is its length. -/
def countOf : Value → Except Error Int64
  | .int n => .ok n
  | .real x => .ok (truncated x)
  | .typed value => countOfScalar value.raw
  | .array entries =>
    match Decimal.int64? entries.length with
    | some n => .ok n
    | none => .error (.unfit .tooManyEntries)
  | .str text => countOfScalar (.str text)

end ChatMarkup.Render
