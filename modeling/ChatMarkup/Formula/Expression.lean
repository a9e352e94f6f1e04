/-
  ChatMarkup/Formula/Expression.lean
  ==================================
  **Formulas as trees** — the grammar of formulas as inductive types, so that a formula
  is derived by the grammar exactly if some tree writes its tokens:

      Expr    := Term | Expr ('+' | '-') Term
      Term    := Primary | '#' Primary
      Primary := Number | Name | '(' Expr ')'

  A tree has a value of its own, computed from the leaves to the root.
-/
import ChatMarkup.Formula.Lexer
import ChatMarkup.Formula.Operand

namespace ChatMarkup.Formula

mutual

inductive Primary where
  | number (n : Number)
  | named (name : String)
  | group (inner : Expr)

inductive Term where
  | plain (operand : Primary)
  | counted (operand : Primary)

/-- A sum; its operators associate to the left. -/
inductive Expr where
  | single (term : Term)
  | chain (left : Expr) (op : Op) (right : Term)

end

def Op.kind : Op → Kind
  | .add => .plus
  | .sub => .minus

/-! ### The tokens that a tree writes -/

mutual

def Primary.kinds : Primary → List Kind
  | .number n => [.number n]
  | .named name => [.named name]
  | .group inner => .opening :: inner.kinds ++ [.closing]

def Term.kinds : Term → List Kind
  | .plain operand => operand.kinds
  | .counted operand => .count :: operand.kinds

def Expr.kinds : Expr → List Kind
  | .single term => term.kinds
  | .chain left op right => left.kinds ++ op.kind :: right.kinds

end

/-! ### How deep parentheses are nested in a tree -/

mutual

def Primary.depth : Primary → Nat
  | .number _ => 0
  | .named _ => 0
  | .group inner => inner.depth + 1

def Term.depth : Term → Nat
  | .plain operand => operand.depth
  | .counted operand => operand.depth

def Expr.depth : Expr → Nat
  | .single term => term.depth
  | .chain left _ right => max left.depth right.depth

end

/-! ### The value of a tree -/

mutual

def Primary.eval (scope : Scope) : Primary → Except Error Value
  | .number n => .ok n.toValue
  | .named name => resolve scope name
  | .group inner => inner.eval scope

def Term.eval (scope : Scope) : Term → Except Error Value
  | .plain operand => operand.eval scope
  | .counted operand => do
    let value ← operand.eval scope
    count value

def Expr.eval (scope : Scope) : Expr → Except Error Value
  | .single term => term.eval scope
  | .chain left op right => do
    let a ← left.eval scope
    let b ← right.eval scope
    combine op a b

end

/-- A tree that writes the tokens of a formula, up to the end of input. -/
def Derives (formula : String) (tree : Expr) : Prop :=
  (tokens formula).map Token.kind = tree.kinds ++ [.endOfInput]

end ChatMarkup.Formula
