/-
  ChatMarkup/Formula/Concatenation.lean
  =====================================
  **Sums of arrays** — formulas that can stand in a sum as they are, and the tree of two
  formulas with a plus sign between them.

  That tree is not the sum of the two trees.  Operators associate to the left, so the terms of
  the second formula are added to the first one by one.
-/
import ChatMarkup.Formula.Evaluation
import ChatMarkup.Formula.Meaning
import ChatMarkup.Formula.Tiling

namespace ChatMarkup.Formula

def Nested (depth : Nat) (formula : String) : Prop :=
  ∃ tree : Expr, Derives formula tree ∧ tree.depth ≤ depth

/-- An operand of a sum that is worth an array: a name, or a formula in parentheses. -/
inductive Summand (scope : Scope) : String → Entries → Prop where
  | named {name : String} {entries : Entries} (valid : isName name = true)
      (proper : beginsNumber name.toList = false)
      (bound : Bound name (.array entries) scope.layers) : Summand scope name entries
  | group {formula : String} {entries : Entries} (nested : Nested (maxDepth - 1) formula)
      (value : evaluate scope formula = .ok (.array entries)) :
      Summand scope ("(" ++ formula ++ ")") entries

def Expr.plus (left : Expr) : Expr → Expr
  | .single term => .chain left .add term
  | .chain inner op term => .chain (left.plus inner) op term

end ChatMarkup.Formula
