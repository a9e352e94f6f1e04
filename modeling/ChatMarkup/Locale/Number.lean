/-
  ChatMarkup/Locale/Number.lean
  =============================
  **Numbers in a language** — digits in groups of three from the right, with the
  decimal and grouping symbols of the language.
-/
import ChatMarkup.Decimal.Layout

namespace ChatMarkup.Locale

structure NumberSymbols where
  decimal : Char
  group : Char
  deriving DecidableEq, Repr

/-- The symbols of a language; those of English where nothing else is known. -/
def numberSymbols (language : String) : NumberSymbols :=
  if ["de", "es", "it", "nl", "pt", "id", "tr", "el", "ro", "da", "vi"].contains language then
    ⟨',', '.'⟩
  else if language == "fr" then ⟨',', '\u202f'⟩
  else if ["ru", "uk", "pl", "cs", "sk", "fi", "sv", "nb", "hu", "bg"].contains language then
    ⟨',', '\u00a0'⟩
  else ⟨'.', ','⟩

/-- Digits with a symbol before every group of three, counted from the right, that has
    digits before it. -/
def groupDigits (group : Char) : List Char → List Char
  | [] => []
  | d :: rest =>
    if rest ≠ [] ∧ rest.length % 3 = 0 then d :: group :: groupDigits group rest
    else d :: groupDigits group rest

/-- A plain numeral with the symbols of a language: grouped before the point, as it is
    behind it. -/
def localizeDigits (symbols : NumberSymbols) (plain : List Char) : List Char :=
  let whole := plain.takeWhile (· != '.')
  match plain.dropWhile (· != '.') with
  | [] => groupDigits symbols.group whole
  | _ :: fraction => groupDigits symbols.group whole ++ symbols.decimal :: fraction

def formatReal (language : String) (x : Decimal.Binary64) : List Char :=
  match x with
  | .nan => Decimal.Binary64.nanText
  | .infinite negative => Decimal.signed negative ['∞']
  | .finite _ m =>
    Decimal.signed x.isNegative (localizeDigits (numberSymbols language) m.plain)

def formatFloat (language : String) (x : Float) : List Char :=
  formatReal language (Decimal.Binary64.ofFloat x)

end ChatMarkup.Locale
