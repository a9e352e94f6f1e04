/-
  ChatMarkup/Locale/Money.lean
  ============================
  **Amounts of money** — rounded to the minor units of the currency, with its symbol on
  the side where the language puts it, and the currency of a region where none is given.
-/
import ChatMarkup.Locale.Number

namespace ChatMarkup.Locale

structure CurrencyRecord where
  code : String
  symbol : String
  places : Nat
  deriving DecidableEq, Repr

def currencies : List CurrencyRecord :=
  [⟨"USD", "$", 2⟩, ⟨"EUR", "€", 2⟩, ⟨"GBP", "£", 2⟩, ⟨"JPY", "¥", 0⟩, ⟨"CNY", "CN¥", 2⟩,
   ⟨"KRW", "₩", 0⟩, ⟨"INR", "₹", 2⟩, ⟨"RUB", "₽", 2⟩, ⟨"BRL", "R$", 2⟩, ⟨"CAD", "CA$", 2⟩,
   ⟨"AUD", "A$", 2⟩, ⟨"CHF", "CHF", 2⟩]

/-- The record of a code, in any case; an unknown code is its own symbol and has two
    decimal places. -/
def currencyOf (code : String) : CurrencyRecord :=
  let spelling := code.toList.map Char.toUpper
  (currencies.find? fun record => record.code.toList == spelling).getD ⟨code, code, 2⟩

def symbolFollows (language : String) : Bool :=
  ["de", "fr", "es", "it", "ru", "uk", "pl", "cs", "sk", "fi", "sv", "nb", "da", "ro", "el",
    "hu", "bg"].contains language

def regionCurrencies : List (String × String) :=
  [("US", "USD"), ("GB", "GBP"), ("JP", "JPY"), ("CN", "CNY"), ("KR", "KRW"), ("IN", "INR"),
   ("RU", "RUB"), ("BR", "BRL"), ("CA", "CAD"), ("AU", "AUD"), ("CH", "CHF"),
   ("DE", "EUR"), ("FR", "EUR"), ("ES", "EUR"), ("IT", "EUR"), ("NL", "EUR"), ("BE", "EUR"),
   ("AT", "EUR"), ("PT", "EUR"), ("FI", "EUR"), ("IE", "EUR"), ("GR", "EUR")]

/-- The currencies that languages suggest where the region does not tell. -/
def languageCurrencies : List (String × String) :=
  [("en", "USD"), ("de", "EUR"), ("fr", "EUR"), ("es", "EUR"), ("it", "EUR"), ("nl", "EUR"),
   ("pt", "EUR"), ("fi", "EUR"), ("el", "EUR"), ("ja", "JPY"), ("zh", "CNY"), ("ko", "KRW"),
   ("ru", "RUB")]

/-- The code for no currency in particular. -/
def noCurrency : String := "XXX"

def localCurrency (language : String) (region : Option String) : String :=
  match region.bind fun code => regionCurrencies.lookup code with
  | some code => code
  | none => (languageCurrencies.lookup language).getD noCurrency

def noBreakSpace : Char := '\u00a0'

def hasNonzeroDigit (text : List Char) : Bool := text.any fun c => c.isDigit && c != '0'

/-- An amount with its symbol. Only a negative amount of which a digit other than zero is
    shown has a sign. -/
def formatAmount (language code : String) (amount : Decimal.Binary64) : List Char :=
  let currency := currencyOf code
  let symbol := currency.symbol.toList
  -- the sign is decided by the digits, so they are written without it
  let plain := amount.abs.fixed currency.places
  let body := localizeDigits (numberSymbols language) plain
  Decimal.signed (amount.isNegative && hasNonzeroDigit plain) <|
    if symbolFollows language then body ++ noBreakSpace :: symbol
    else if symbol.all Char.isAlpha then symbol ++ noBreakSpace :: body
    else symbol ++ body

def formatMoney (language code : String) (amount : Float) : List Char :=
  formatAmount language code (Decimal.Binary64.ofFloat amount)

end ChatMarkup.Locale
