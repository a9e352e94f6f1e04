/-
  ChatMarkup/Locale/Plural.lean
  =============================
  **Plural categories** — which of six categories a count falls into in a language.

  Every language follows one of a few systems of rules. A system belongs to the script
  that the language is usually written in: a tag with another script has no categories
  but `other`. Regions matter for Portuguese alone.
-/
import ChatMarkup.Locale.Tag

namespace ChatMarkup.Locale

inductive Category where
  | zero
  | one
  | two
  | few
  | many
  | other
  deriving DecidableEq, Repr

def Category.name : Category → String
  | .zero => "zero"
  | .one => "one"
  | .two => "two"
  | .few => "few"
  | .many => "many"
  | .other => "other"

/-- The systems of plural rules, each named for what it tells apart. -/
inductive PluralSystem where
  | uniform  -- everything is `other`
  | singular
  | zeroSingular
  | zeroSingularMillions
  | singularMillions
  | eastSlavic
  | southSlavic
  | polish
  | czech
  | romanian
  | lithuanian
  | latvian
  | arabic
  | dual
  | slovenian
  | irish
  | welsh
  | maltese
  | singularByLastDigit
  deriving DecidableEq, Repr

namespace PluralSystem

def endsInOne (n : Nat) : Bool := n % 10 == 1 && n % 100 != 11

def endsInFew (n : Nat) : Bool :=
  Nat.ble 2 (n % 10) && Nat.ble (n % 10) 4 && !(Nat.ble 12 (n % 100) && Nat.ble (n % 100) 14)

def isMillions (n : Nat) : Bool := n != 0 && n % 1000000 == 0

def between (low high n : Nat) : Bool := Nat.ble low n && Nat.ble n high

def category (system : PluralSystem) (n : Nat) : Category :=
  match system with
  | .uniform => .other
  | .singular => if n = 1 then .one else .other
  | .zeroSingular => if n ≤ 1 then .one else .other
  | .zeroSingularMillions => if n ≤ 1 then .one else if isMillions n then .many else .other
  | .singularMillions => if n = 1 then .one else if isMillions n then .many else .other
  | .eastSlavic => if endsInOne n then .one else if endsInFew n then .few else .many
  | .southSlavic => if endsInOne n then .one else if endsInFew n then .few else .other
  | .polish => if n = 1 then .one else if endsInFew n then .few else .many
  | .czech => if n = 1 then .one else if between 2 4 n then .few else .other
  | .romanian =>
    if n = 1 then .one else if n = 0 ∨ between 1 19 (n % 100) then .few else .other
  | .lithuanian =>
    if between 11 19 (n % 100) then .other
    else if n % 10 = 1 then .one
    else if between 2 9 (n % 10) then .few
    else .other
  | .latvian =>
    if n % 10 = 0 ∨ between 11 19 (n % 100) then .zero
    else if endsInOne n then .one
    else .other
  | .arabic =>
    if n = 0 then .zero
    else if n = 1 then .one
    else if n = 2 then .two
    else if between 3 10 (n % 100) then .few
    else if between 11 99 (n % 100) then .many
    else .other
  | .dual => if n = 1 then .one else if n = 2 then .two else .other
  | .slovenian =>
    if n % 100 = 1 then .one
    else if n % 100 = 2 then .two
    else if between 3 4 (n % 100) then .few
    else .other
  | .irish =>
    if n = 1 then .one
    else if n = 2 then .two
    else if between 3 6 n then .few
    else if between 7 10 n then .many
    else .other
  | .welsh =>
    if n = 0 then .zero
    else if n = 1 then .one
    else if n = 2 then .two
    else if n = 3 then .few
    else if n = 6 then .many
    else .other
  | .maltese =>
    if n = 1 then .one
    else if n = 2 then .two
    else if n = 0 ∨ between 3 10 (n % 100) then .few
    else if between 11 19 (n % 100) then .many
    else .other
  | .singularByLastDigit => if endsInOne n then .one else .other

/-- The languages with a system of their own, and the script each is written in. -/
def languages : List (PluralSystem × String × List String) :=
  [(.singular, "latn", ["en", "de", "nl", "fi", "sv", "nb", "da", "hu", "tr", "et"]),
   (.singular, "cyrl", ["bg"]),
   (.singular, "grek", ["el"]),
   (.zeroSingular, "deva", ["hi"]),
   (.zeroSingular, "arab", ["fa"]),
   (.zeroSingular, "beng", ["bn"]),
   (.zeroSingular, "gujr", ["gu"]),
   (.zeroSingular, "ethi", ["am"]),
   (.zeroSingular, "latn", ["vi"]),
   (.singularMillions, "latn", ["es", "it", "ca"]),
   (.zeroSingularMillions, "latn", ["fr", "pt"]),
   (.eastSlavic, "cyrl", ["ru", "uk", "be"]),
   (.southSlavic, "cyrl", ["sr"]),
   (.southSlavic, "latn", ["hr", "bs"]),
   (.polish, "latn", ["pl"]),
   (.czech, "latn", ["cs", "sk"]),
   (.romanian, "latn", ["ro"]),
   (.lithuanian, "latn", ["lt"]),
   (.latvian, "latn", ["lv"]),
   (.arabic, "arab", ["ar"]),
   (.dual, "hebr", ["he"]),
   (.slovenian, "latn", ["sl"]),
   (.irish, "latn", ["ga"]),
   (.welsh, "latn", ["cy"]),
   (.maltese, "latn", ["mt"]),
   (.singularByLastDigit, "latn", ["is"]),
   (.singularByLastDigit, "cyrl", ["mk"])]

/-- The regions that follow the Portuguese of Portugal, where zero is not singular. -/
def europeanPortuguese : List String :=
  ["PT", "AO", "CH", "CV", "FR", "GQ", "GW", "LU", "MO", "MZ", "ST", "TL"]

def ofTag (tag : Tag) : PluralSystem :=
  match languages.find? fun entry => entry.2.2.contains tag.language with
  | none => .uniform
  | some (system, script, _) =>
    if tag.id.script.getD script.toList != script.toList then .uniform
    else if tag.language == "pt" && europeanPortuguese.contains (tag.region?.getD "") then
      .singularMillions
    else system

end PluralSystem

end ChatMarkup.Locale
