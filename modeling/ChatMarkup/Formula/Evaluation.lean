/-
  ChatMarkup/Formula/Evaluation.lean
  ==================================
  **Evaluating a formula** — in one pass over its tokens, without a syntax tree:

      Expr    := Term (('+' | '-') Term)*
      Term    := '#' Primary | Primary
      Primary := Number | Name | '(' Expr ')'

  The state of the pass is what stands to the left of the next token: an operator that
  waits for its right operand, a count sign that waits for its operand, and one such
  level for every parenthesis that is still open. An operation is carried out as soon as
  its last operand is complete, so the first error of a reading from left to right is
  the one that is reported.
-/
import ChatMarkup.Formula.Lexer
import ChatMarkup.Formula.Operand

namespace ChatMarkup.Formula

/-- What waits for an operand inside one pair of parentheses. -/
structure Level where
  left : Option (Value × Op)  -- a left operand and the operator behind it
  counted : Bool  -- whether the operand is to be counted

def Level.fresh : Level := ⟨none, false⟩

def Level.complete (level : Level) (operand : Value) : Except Error Value := do
  let term ← if level.counted then count operand else pure operand
  match level.left with
  | none => pure term
  | some (left, op) => combine op left term

/-- What stands to the left of the next token. `outer` holds a level for every open
    parenthesis, the innermost first. -/
inductive State where
  | operand (level : Level) (outer : List Level)  -- an operand has to follow
  /-- An operand is complete, with everything to its left in the same parentheses. -/
  | operator (value : Value) (outer : List Level)

namespace State

def initial : State := .operand .fresh []

def afterOperand (level : Level) (outer : List Level) (operand : Value) : Except Error State := do
  let value ← level.complete operand
  pure (.operator value outer)

def step (scope : Scope) (state : State) (token : Token) : Except Error State :=
  match state with
  | .operand level outer =>
    match token.kind with
    | .number n => afterOperand level outer n.toValue
    | .named name => do
      let value ← resolve scope name
      afterOperand level outer value
    | .opening =>
      if outer.length < maxDepth then .ok (.operand .fresh (level :: outer))
      else .error .nestingTooDeep
    | .count =>
      -- a count sign takes a primary, so a second one cannot follow the first
      if level.counted then .error (.unexpected token)
      else .ok (.operand { level with counted := true } outer)
    | _ => .error (.unexpected token)
  | .operator value outer =>
    match token.kind, outer with
    | .plus, _ => .ok (.operand ⟨some (value, .add), false⟩ outer)
    | .minus, _ => .ok (.operand ⟨some (value, .sub), false⟩ outer)
    -- the value in the parentheses is an operand of the level around them
    | .closing, level :: outer => afterOperand level outer value
    | _, _ => .error (.unexpected token)

end State

def run (scope : Scope) : State → List Token → Except Error Value
  | .operator value [], ⟨.endOfInput, _⟩ :: _ => .ok value
  | state, token :: rest => do
    let next ← state.step scope token
    run scope next rest
  -- never reached from a formula: the last of its tokens is the end of input
  | _, [] => .error (.unexpectedToken .endOfInput 0)

/-- The value of a formula in a scope. -/
def evaluate (scope : Scope) (formula : String) : Except Error Value :=
  run scope .initial (tokens formula)

end ChatMarkup.Formula
