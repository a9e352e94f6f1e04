/-
  ChatMarkup/Value/Typed.lean
  ===========================
  **Typed scalars** — values that know what they are, so that a locale can write them:
  grouped digits, currency symbols, dates, spelt-out durations.

  `Typed.raw` is what such a value is worth in a formula, `Typed.kind` what messages
  call it.
-/
import ChatMarkup.Decimal.Layout

namespace ChatMarkup

/-- The plain scalar behind a typed value. -/
inductive Scalar where
  | int (n : Int64)
  | float (x : Float)
  | str (s : String)
  deriving DecidableEq

/-- The text of a scalar, without regard to any locale. -/
def Scalar.text : Scalar → List Char
  | .int n => Decimal.ofInt n.toInt
  | .float x => Decimal.plainText x
  | .str s => s.toList

/-- A sum of money. Without a code it is in the currency of the rendering locale. -/
structure Currency where
  amount : Float
  code : Option String
  deriving DecidableEq

inductive Width where
  | full
  | long
  | medium
  | short
  deriving DecidableEq, Repr

/-- The offset of a local time from universal time in seconds, less than 26 hours in
    either direction. -/
structure Offset where
  seconds : Int
  bounded : -93599 ≤ seconds ∧ seconds ≤ 93599
  deriving DecidableEq, Repr

def Offset.utc : Offset := ⟨0, by decide⟩

def Offset.ofSeconds? (seconds : Int) : Option Offset :=
  if h : -93599 ≤ seconds ∧ seconds ≤ 93599 then some ⟨seconds, h⟩ else none

/-- A moment in seconds since the beginning of 1970, with the widths and the offset in
    which it is shown; an absent width leaves that part out. -/
structure Moment where
  timestamp : Int64
  date : Option Width := some .medium
  time : Option Width := some .medium
  offset : Offset := Offset.utc
  deriving DecidableEq, Repr

/-- A scalar that a locale knows how to write. -/
inductive Typed where
  | int (n : Int64)
  | float (x : Float)
  | str (s : String)
  | currency (money : Currency)
  | moment (m : Moment)
  | duration (seconds : UInt64)
  deriving DecidableEq

namespace Typed

/-- What a typed value is worth: the amount of a currency, the timestamp of a moment,
    the seconds of a duration as far as 64 signed bits go. -/
def raw : Typed → Scalar
  | .int n => .int n
  | .float x => .float x
  | .str s => .str s
  | .currency money => .float money.amount
  | .moment m => .int m.timestamp
  | .duration seconds => .int (Decimal.Binary64.clamp seconds.toNat)

def kind : Typed → String
  | .int _ => "integer"
  | .float _ => "float"
  | .str _ => "string"
  | .currency _ => "currency"
  | .moment _ => "date/time"
  | .duration _ => "duration"

end Typed

end ChatMarkup
