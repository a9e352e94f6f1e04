/-
  ChatMarkup/Locale/Duration.lean
  ===============================
  **Durations in words** — weeks, days, hours, minutes and seconds, without the units
  of which there are none.
-/
import ChatMarkup.Decimal.Numeral
import ChatMarkup.Text.Segments

namespace ChatMarkup.Locale

/-- A unit of time: its length in seconds and its two names. -/
structure TimeUnit where
  seconds : Nat
  singular : String
  plural : String
  deriving DecidableEq, Repr

def timeUnits : List TimeUnit :=
  [⟨604800, "week", "weeks"⟩, ⟨86400, "day", "days"⟩, ⟨3600, "hour", "hours"⟩,
   ⟨60, "minute", "minutes"⟩, ⟨1, "second", "seconds"⟩]

/-- How many of each unit a number of seconds makes up, as many as possible of each unit
    before the next. -/
def splitSeconds : List TimeUnit → Nat → List (Nat × TimeUnit)
  | [], _ => []
  | unit :: rest, seconds =>
    (seconds / unit.seconds, unit) :: splitSeconds rest (seconds % unit.seconds)

def unitText (part : Nat × TimeUnit) : List Char :=
  Decimal.ofNat part.1 ++ ' ' :: (if part.1 = 1 then part.2.singular else part.2.plural).toList

/-- A number of seconds in words: the parts in a row, with "and" before the last. -/
def formatDuration (seconds : Nat) : List Char :=
  let parts := (splitSeconds timeUnits seconds).filter fun part => part.1 != 0
  if parts.isEmpty then "0 seconds".toList
  else Text.joinSeries ", ".toList " and ".toList (parts.map unitText)

end ChatMarkup.Locale
