/-
  ChatMarkup/Value/Basic.lean
  ===========================
  **Values of variables** — plain and typed scalars and arrays of keyed entries, with
  the wrapping that turns a plain scalar into a typed one when it enters a scope.
-/
import ChatMarkup.Value.Typed

namespace ChatMarkup

/-- What a name is bound to. Arrays hold keyed entries in order; keys may repeat. -/
inductive Value where
  | int (n : Int64)
  | real (x : Float)
  | str (s : String)
  | typed (t : Typed)
  | array (entries : List (String × Value))

abbrev Entries := List (String × Value)

namespace Value

/-- What messages call the value. -/
def kind : Value → String
  | .int _ => "integer"
  | .real _ => "real"
  | .str _ => "string"
  | .typed t => t.kind
  | .array _ => "array"

def asInt? : Value → Option Int64
  | .int n => some n
  | _ => none

def asReal? : Value → Option Float
  | .int n => some n.toFloat
  | .real x => some x
  | _ => none

def asStr? : Value → Option String
  | .str s => some s
  | _ => none

def asTyped? : Value → Option Typed
  | .typed t => some t
  | _ => none

def asArray? : Value → Option Entries
  | .array entries => some entries
  | _ => none

end Value

/-- How plain scalars become typed ones. -/
structure Wrappers where
  int : Int64 → Typed := .int
  real : Float → Typed := .float
  str : String → Typed := .str  -- also applied to the keys that a loop binds

/-- The value as a scope holds it: plain scalars are wrapped, all else is unchanged. -/
def Value.wrap (wrappers : Wrappers) : Value → Value
  | .int n => .typed (wrappers.int n)
  | .real x => .typed (wrappers.real x)
  | .str s => .typed (wrappers.str s)
  | other => other

end ChatMarkup
