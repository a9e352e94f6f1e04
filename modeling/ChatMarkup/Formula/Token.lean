/-
  ChatMarkup/Formula/Token.lean
  =============================
  **Tokens of formulas** — numbers, names of variables, parentheses and the three
  operators, with the words for them in error messages.
-/
import ChatMarkup.Decimal.Layout

namespace ChatMarkup.Formula

def isNameChar (c : Char) : Bool := c.isAlphanum || c == '_' || c == '.'

/-- Names of variables are one or more ASCII letters, digits, underscores and dots. -/
def isName (name : String) : Bool := !name.toList.isEmpty && name.toList.all isNameChar

inductive Number where
  | int (n : Int64)
  | real (x : Float)
  deriving DecidableEq

def Number.text : Number → List Char
  | .int n => Decimal.ofInt n.toInt
  | .real x => Decimal.plainText x

inductive Kind where
  | number (n : Number)
  | named (name : String)
  | opening
  | closing
  | plus
  | minus
  | count
  | endOfInput
  | stray (c : Char)  -- a character that begins no token
  deriving DecidableEq

def Kind.text : Kind → String
  | .number n => "number " ++ String.ofList n.text
  | .named name => "variable '" ++ name ++ "'"
  | .opening => "'('"
  | .closing => "')'"
  | .plus => "'+'"
  | .minus => "'-'"
  | .count => "'#'"
  | .endOfInput => "end of formula"
  | .stray c => "character '" ++ String.singleton c ++ "'"

/-- A token and where it begins, in bytes from the beginning of the formula. -/
structure Token where
  kind : Kind
  position : Nat
  deriving DecidableEq

end ChatMarkup.Formula
