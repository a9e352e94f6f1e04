/-
  ChatMarkup/Locale/Breakdown.lean
  ================================
  **Durations told in units** — what a duration in words says, without the way in which it
  is written: amounts of units of time in a row (`Tells`).  And which amounts break a number
  of seconds down into units, as many as there are of each before the next (`Breakdown`).
-/
import ChatMarkup.Locale.Duration
import Mathlib.Data.List.Forall2

namespace ChatMarkup.Locale

/-- An amount of a unit in words, in the singular for one and in the plural for any other
    number. -/
inductive SpellsAmount (unit : TimeUnit) : Nat → List Char → Prop where
  | one : SpellsAmount unit 1 ('1' :: ' ' :: unit.singular.toList)
  | many {n : Nat} (other : n ≠ 1) :
      SpellsAmount unit n (Decimal.ofNat n ++ ' ' :: unit.plural.toList)

/-- A text tells amounts of units: commas between them, and the word before the last of two or
    more. -/
def Tells (text : List Char) (parts : List (Nat × TimeUnit)) : Prop :=
  ∃ texts, List.Forall₂ (fun part said => SpellsAmount part.2 part.1 said) parts texts ∧
    Text.Series ", ".toList " and ".toList texts text

def totalSeconds (parts : List (Nat × TimeUnit)) : Nat :=
  parts.foldr (fun part rest => part.1 * part.2.seconds + rest) 0

/-- How many there are at most of each unit but the longest. -/
def limits : List (String × Nat) := [("day", 6), ("hour", 23), ("minute", 59), ("second", 59)]

def zeroSeconds : Nat × TimeUnit := (0, ⟨1, "second", "seconds"⟩)

/-- A number of seconds broken down into units, from the longest to the shortest. -/
structure Breakdown (seconds : Nat) (parts : List (Nat × TimeUnit)) : Prop where
  units : ∀ part ∈ parts, part.2 ∈ timeUnits
  descending : parts.Pairwise fun part later => later.2.seconds < part.2.seconds
  positive : (parts ≠ [] ∧ ∀ part ∈ parts, 1 ≤ part.1) ∨ parts = [zeroSeconds]
  limited : ∀ part ∈ parts, ∀ most, (part.2.singular, most) ∈ limits → part.1 ≤ most
  total : totalSeconds parts = seconds

end ChatMarkup.Locale
