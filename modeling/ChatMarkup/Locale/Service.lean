/-
  ChatMarkup/Locale/Service.lean
  ==============================
  **Locale services** — the two decisions that rendering leaves to a locale: the text of
  a typed value, and the plural form for a count. The standard service is the one with
  the number, date and plural rules of the other modules.
-/
import ChatMarkup.Locale.Duration
import ChatMarkup.Locale.Moment
import ChatMarkup.Locale.Money
import ChatMarkup.Locale.PluralCache

namespace ChatMarkup.Locale

/-- What rendering asks of a locale, given by its tag. -/
structure Service where
  render : String → Typed → Except Error (List Char)  -- the text of a typed value
  /-- The plural form for a count, given the forms that there are. The answer need not be
      one of them. -/
  chooseForm : String → Int64 → List String → Except Error String

def exactForm (count : Int64) : String := String.ofList ('=' :: Decimal.ofInt count.toInt)

def otherForm : String := Category.other.name

def formatTyped (tag : String) (value : Typed) : Except Error (List Char) := do
  let locale ← readTag tag
  match value with
  | .int n => pure (Decimal.ofInt n.toInt)
  | .float x => pure (formatFloat locale.language x)
  | .str text => pure text.toList
  | .currency money =>
    let code := money.code.getD (localCurrency locale.language locale.region?)
    pure (formatMoney locale.language code money.amount)
  | .moment moment => formatMoment moment
  | .duration seconds => pure (formatDuration seconds.toNat)

/-- The plural form for a count under a tag: the exact form if there is one, then the
    category if it has a form or there is no `other`, then `other`. -/
def selectForm (tag : String) (count : Int64) (forms : List String) : Except Error String :=
  if exactForm count ∈ forms then .ok (exactForm count)
  else do
    let category ← pluralCategory tag count
    -- without an `other` the category is answered, be there a case for it or not
    if category.name ∈ forms ∨ otherForm ∉ forms then pure category.name else pure otherForm

def Service.standard : Service := ⟨formatTyped, selectForm⟩

end ChatMarkup.Locale
