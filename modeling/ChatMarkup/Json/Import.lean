/-
  ChatMarkup/Json/Import.lean
  ===========================
  **Values from JSON** — numbers, strings, lists and objects become values; truth values,
  `null` and integers beyond 64 signed bits have no counterpart and are refused.

  A list becomes a sequence; an object becomes an array with its members in order, keys
  repeated or not. The variables of a template are the members of a single object.
-/
import ChatMarkup.Json.Reader
import ChatMarkup.Text.Order
import ChatMarkup.Text.Quoted
import ChatMarkup.Value.Entries

namespace ChatMarkup.Json

/-- A part of a document that is no value. -/
inductive Misfit where
  | bool (b : Bool)
  | null
  | tooLarge (n : Int)
  | listOfVariables  -- a list where the variables of a template have to be
  | atomForVariables (atom : Atom)  -- an atom where the variables of a template have to be
  deriving DecidableEq

def valueOfAtom : Atom → Except Misfit Value
  | .null => .error .null
  | .bool b => .error (.bool b)
  | .integer n =>
    match Decimal.int64? n with
    | some word => .ok (.int word)
    | none => .error (.tooLarge n)
  | .real x => .ok (.real x)
  | .string s => .ok (.str s)

def asValue : Interpretation Misfit Value :=
  ⟨valueOfAtom, fun items => .array (Entries.ofValues items), .array⟩

def readValue (text : String) : Except (Error Misfit) Value := read asValue text.toList

/-- The variables that some members define, in the order of their names; a later member
    replaces an earlier one of the same name. -/
def definitions (members : Entries) : Entries :=
  (Text.nameSet (members.map Prod.fst)).filterMap fun name =>
    (members.reverse.lookup name).map fun value => (name, value)

def readVariables (text : String) : Except (Error Misfit) Entries :=
  match tokens text.toList with
  | .atom atom :: _ => .error (.refused (.atomForVariables atom))
  | .openList :: _ => .error (.refused .listOfVariables)
  -- an object, or no JSON at all; `asArray?` always succeeds on an object
  | _ => (readValue text).map fun value => definitions (value.asArray?.getD [])

/-! ### Messages -/

def valueKinds : String := "a number, a string, a sequence or a map"

def describe : Atom → String
  | .null => "null"
  | .bool b => "boolean `" ++ (if b then "true" else "false") ++ "`"
  | .integer n => "integer `" ++ String.ofList (Decimal.ofInt n) ++ "`"
  | .real x => "floating point `" ++ String.ofList (Decimal.generalText x) ++ "`"
  | .string s => "string " ++ Text.quoted s

def wrongType (found expected : String) : String :=
  "invalid type: " ++ found ++ ", expected " ++ expected

def Misfit.message : Misfit → String
  | .bool b => wrongType (describe (.bool b)) valueKinds
  | .null => wrongType (describe .null) valueKinds
  | .tooLarge n =>
    "integer " ++ String.ofList (Decimal.ofInt n) ++ " does not fit in 64 signed bits"
  | .listOfVariables => wrongType "sequence" "a map"
  | .atomForVariables atom => wrongType (describe atom) "a map"

end ChatMarkup.Json
