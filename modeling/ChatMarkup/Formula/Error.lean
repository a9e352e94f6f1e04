/-
  ChatMarkup/Formula/Error.lean
  =============================
  **What can go wrong in a formula** — a character or a token that does not belong
  there, parentheses nested too deeply, a name without a value, or an operand of the
  wrong kind.
-/
import ChatMarkup.Formula.Token
import ChatMarkup.Value.Fault

namespace ChatMarkup.Formula

def maxDepth : Nat := 64

inductive Error where
  | strayCharacter (c : Char) (position : Nat)
  | unexpectedToken (kind : Kind) (position : Nat)
  | nestingTooDeep
  | undefinedVariable (name : String)
  | unfit (fault : Fault)
  deriving DecidableEq

def Error.unexpected (token : Token) : Error :=
  match token.kind with
  | .stray c => .strayCharacter c token.position
  | kind => .unexpectedToken kind token.position

def Error.message : Error → String
  | .strayCharacter c position =>
    "unexpected character '" ++ String.singleton c ++ "' at offset " ++
      String.ofList (Decimal.ofNat position) ++ " in formula"
  | .unexpectedToken kind position =>
    "syntax error at offset " ++ String.ofList (Decimal.ofNat position) ++
      " in formula: unexpected " ++ kind.text
  | .nestingTooDeep =>
    "formula nests parentheses deeper than " ++ String.ofList (Decimal.ofNat maxDepth) ++
      " levels"
  | .undefinedVariable name => "undefined variable '" ++ name ++ "'"
  | .unfit fault => "type error: " ++ fault.message

end ChatMarkup.Formula
