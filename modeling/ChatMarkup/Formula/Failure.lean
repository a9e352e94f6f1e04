/-
  ChatMarkup/Formula/Failure.lean
  ===============================
  **Where a formula fails** — which tokens the grammar lets follow which, and how far a
  reduction from left to right gets before the first error.

  A strict reduction does not look ahead.  It takes an operand or an operation in hand with
  the token that completes it, so the error comes with that token, whatever is behind it.
-/
import ChatMarkup.Formula.Meaning

namespace ChatMarkup.Formula

/-- The offset of a token that cannot stand where it does. Errors about names, values and the
    depth of parentheses have none. -/
def Error.position? : Error → Option Nat
  | .strayCharacter _ position => some position
  | .unexpectedToken _ position => some position
  | _ => none

/-- Some formula begins with these tokens, its end being one of them. Here parentheses may be
    nested to any depth. -/
def Viable (kinds : List Kind) : Prop := ∃ tree : Expr, kinds <+: tree.kinds ++ [.endOfInput]

mutual

/-- With so many parentheses open around a primary, its reduction fails as soon as these
    tokens of it have been read, and not before. -/
inductive Primary.Stops (scope : Scope) : Nat → Primary → List Kind → Error → Prop where
  | named {opened : Nat} {name : String} (unbound : ∀ value, ¬Bound name value scope.layers) :
      Primary.Stops scope opened (.named name) [.named name] (.undefinedVariable name)
  | tooDeep {opened : Nat} {inner : Expr} (full : maxDepth ≤ opened) :
      Primary.Stops scope opened (.group inner) [.opening] .nestingTooDeep
  | group {opened : Nat} {inner : Expr} {read : List Kind} {error : Error}
      (room : opened < maxDepth) (inside : Expr.Stops scope (opened + 1) inner read error) :
      Primary.Stops scope opened (.group inner) (.opening :: read) error

/-- The same for a term. Its operand is counted once it is complete. -/
inductive Term.Stops (scope : Scope) : Nat → Term → List Kind → Error → Prop where
  | plain {opened : Nat} {operand : Primary} {read : List Kind} {error : Error}
      (stops : Primary.Stops scope opened operand read error) :
      Term.Stops scope opened (.plain operand) read error
  | operand {opened : Nat} {operand : Primary} {read : List Kind} {error : Error}
      (stops : Primary.Stops scope opened operand read error) :
      Term.Stops scope opened (.counted operand) (.count :: read) error
  | counting {opened : Nat} {operand : Primary} {value : Value} {error : Error}
      (denotes : operand.Denotes scope value) (shallow : opened + operand.depth ≤ maxDepth)
      (failed : count value = .error error) :
      Term.Stops scope opened (.counted operand) (.count :: operand.kinds) error

/-- The same for an expression. An operation is carried out once its right operand is
    complete. -/
inductive Expr.Stops (scope : Scope) : Nat → Expr → List Kind → Error → Prop where
  | single {opened : Nat} {term : Term} {read : List Kind} {error : Error}
      (stops : Term.Stops scope opened term read error) :
      Expr.Stops scope opened (.single term) read error
  | left {opened : Nat} {left : Expr} {op : Op} {right : Term} {read : List Kind} {error : Error}
      (stops : Expr.Stops scope opened left read error) :
      Expr.Stops scope opened (.chain left op right) read error
  -- the left operand is complete, so it is worth something and nothing in it is too deep
  | right {opened : Nat} {left : Expr} {op : Op} {right : Term} {a : Value} {read : List Kind}
      {error : Error} (denotes : left.Denotes scope a) (shallow : opened + left.depth ≤ maxDepth)
      (stops : Term.Stops scope opened right read error) :
      Expr.Stops scope opened (.chain left op right) (left.kinds ++ op.kind :: read) error
  | operation {opened : Nat} {left : Expr} {op : Op} {right : Term} {a b : Value} {error : Error}
      (first : left.Denotes scope a) (second : right.Denotes scope b)
      (shallow : opened + max left.depth right.depth ≤ maxDepth)
      (failed : combine op a b = .error error) :
      Expr.Stops scope opened (.chain left op right) (left.kinds ++ op.kind :: right.kinds) error

end

/-- No reduction of a formula that begins with these tokens fails within them. -/
def Reduced (scope : Scope) (kinds : List Kind) : Prop :=
  ∀ tree : Expr, kinds <+: tree.kinds → ∀ read error, tree.Stops scope 0 read error →
    ¬read <+: kinds

end ChatMarkup.Formula
