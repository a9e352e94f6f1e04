/-
  ChatMarkup/Formula/Integer.lean
  ===============================
  **Formulas over integers** — how they are written, the integers that their operands are
  worth, and the exact results of the operations in them.

  The exact results are integers of any size.  Whether an evaluation can produce them is not
  asked here; that depends on each of them, not just on the last one.
-/
import ChatMarkup.Decimal.Spelling
import ChatMarkup.Formula.Meaning
import ChatMarkup.Formula.Tiling

namespace ChatMarkup.Formula

def Fits (n : Int) : Prop := Int64.minValue.toInt ≤ n ∧ n ≤ Int64.maxValue.toInt

instance (n : Int) : Decidable (Fits n) := inferInstanceAs (Decidable (_ ∧ _))

/-! ### Operands -/

/-- The ways to write an integer of 64 signed bits as a text, with white space around it. -/
inductive SpellsWord : List Char → Int → Prop where
  | mk {before digits after n} (blank : ∀ c ∈ before ++ after, Text.isBlank c = true)
      (spelt : Decimal.SpellsInt digits n) (fits : Fits n) :
      SpellsWord (before ++ digits ++ after) n

inductive Integral : Value → Int → Prop where
  | int (n : Int64) : Integral (.int n) n.toInt
  | str {text : String} {n : Int} (spelt : SpellsWord text.toList n) : Integral (.str text) n
  | typedInt (n : Int64) : Integral (.typed (.int n)) n.toInt
  | typedStr {text : String} {n : Int} (spelt : SpellsWord text.toList n) :
      Integral (.typed (.str text)) n
  | moment (m : Moment) : Integral (.typed (.moment m)) m.timestamp.toInt
  -- a longer duration is clamped to the largest word, which is not its exact worth
  | duration {seconds : UInt64} (fits : Fits seconds.toNat) :
      Integral (.typed (.duration seconds)) seconds.toNat

/-! ### How formulas over integers are written -/

def Op.sign : Op → Char
  | .add => '+'
  | .sub => '-'

mutual

inductive Primary.Spelt : Primary → List Char → Prop where
  | literal {digits : List Char} {n : Int64} (numeral : Decimal.IsNumeral digits)
      (number : n.toInt = Decimal.value digits) : Primary.Spelt (.number (.int n)) digits
  -- a name such as `12ab` cannot be written: its digits would be read as a number
  | named {name : String} (valid : isName name = true)
      (proper : beginsNumber name.toList = false) : Primary.Spelt (.named name) name.toList
  | group {inner : Expr} {text : List Char} (spelt : Expr.Spelt inner text) :
      Primary.Spelt (.group inner) ('(' :: (text ++ [')']))

inductive Term.Spelt : Term → List Char → Prop where
  | plain {operand : Primary} {before text after : List Char} (blank : AllGaps (before ++ after))
      (spelt : Primary.Spelt operand text) : Term.Spelt (.plain operand) (before ++ text ++ after)
  | counted {operand : Primary} {before between text after : List Char}
      (blank : AllGaps (before ++ between ++ after)) (spelt : Primary.Spelt operand text) :
      Term.Spelt (.counted operand) (before ++ '#' :: between ++ text ++ after)

inductive Expr.Spelt : Expr → List Char → Prop where
  | single {term : Term} {text : List Char} (spelt : Term.Spelt term text) :
      Expr.Spelt (.single term) text
  | chain {left : Expr} {op : Op} {right : Term} {first second : List Char}
      (spelt : Expr.Spelt left first) (spelt' : Term.Spelt right second) :
      Expr.Spelt (.chain left op right) (first ++ op.sign :: second)

end

/-! ### Exact results -/

mutual

/-- The exact value of an operand, and the exact results of the operations in it, in the order
    in which they are carried out. -/
inductive Primary.Totals (scope : Scope) : Primary → Int → List Int → Prop where
  | literal (n : Int64) : Primary.Totals scope (.number (.int n)) n.toInt []
  | named {name : String} {value : Value} {n : Int} (bound : Bound name value scope.layers)
      (worth : Integral value n) : Primary.Totals scope (.named name) n []
  | group {inner : Expr} {n : Int} {partials : List Int}
      (totals : Expr.Totals scope inner n partials) :
      Primary.Totals scope (.group inner) n partials

/-- The exact value of an operand of a sum. An array counts for its entries. -/
inductive Term.Totals (scope : Scope) : Term → Int → List Int → Prop where
  | plain {operand : Primary} {n : Int} {partials : List Int}
      (totals : Primary.Totals scope operand n partials) :
      Term.Totals scope (.plain operand) n partials
  | counted {operand : Primary} {entries : Entries}
      (denotes : Primary.Denotes scope operand (.array entries)) (fits : Fits entries.length) :
      Term.Totals scope (.counted operand) entries.length []

inductive Expr.Totals (scope : Scope) : Expr → Int → List Int → Prop where
  | single {term : Term} {n : Int} {partials : List Int}
      (totals : Term.Totals scope term n partials) : Expr.Totals scope (.single term) n partials
  | add {left : Expr} {right : Term} {a b : Int} {before after : List Int}
      (first : Expr.Totals scope left a before) (second : Term.Totals scope right b after) :
      Expr.Totals scope (.chain left .add right) (a + b) (before ++ after ++ [a + b])
  | sub {left : Expr} {right : Term} {a b : Int} {before after : List Int}
      (first : Expr.Totals scope left a before) (second : Term.Totals scope right b after) :
      Expr.Totals scope (.chain left .sub right) (a - b) (before ++ after ++ [a - b])

end

/-- A name alone, in any number of parentheses. -/
inductive Lone (name : String) : Expr → Prop where
  | bare : Lone name (.single (.plain (.named name)))
  | group {inner : Expr} (lone : Lone name inner) : Lone name (.single (.plain (.group inner)))

end ChatMarkup.Formula
