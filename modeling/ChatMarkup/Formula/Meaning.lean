/-
  ChatMarkup/Formula/Meaning.lean
  ===============================
  **What a formula means** — the value that a tree denotes, told by rules of its own, without
  the order in which an evaluation goes about it and without its errors: where no rule
  applies, the tree denotes nothing.

  Two numbers are added exactly as integers if both are integers, and as reals otherwise.
  An exact sum that does not fit 64 signed bits denotes nothing, nor does anything that
  mixes arrays with numbers or subtracts arrays.
-/
import ChatMarkup.Decimal.Spelling
import ChatMarkup.Formula.Expression

namespace ChatMarkup.Formula

/-! ### Operands

A text counts as the number in it and a duration as its seconds, but for no more than the
largest word.  The rules say so without the functions that an evaluation reads its operands with; the
reading of a real alone is shared. -/

/-- The number that a text spells, white space around it aside: an integer if there is a word
    for it, and a real otherwise. -/
inductive SpellsNumber : List Char → Number → Prop where
  | int {before digits after : List Char} {n : Int64}
      (blank : ∀ c ∈ before ++ after, Text.isBlank c = true)
      (spelt : Decimal.SpellsInt digits n.toInt) :
      SpellsNumber (before ++ digits ++ after) (.int n)
  -- the word is what the text is without the blanks at its two ends
  | real {before word after : List Char} {x : Float}
      (blank : ∀ c ∈ before ++ after, Text.isBlank c = true)
      (solid : ∀ c, c ∈ word.head? ∨ c ∈ word.getLast? → Text.isBlank c = false)
      (noWord : ∀ n : Int64, ¬Decimal.SpellsInt word n.toInt)
      (read : Decimal.readFloat? word = some x) :
      SpellsNumber (before ++ word ++ after) (.real x)

inductive Contributes : Value → Number → Prop where
  | int (n : Int64) : Contributes (.int n) (.int n)
  | real (x : Float) : Contributes (.real x) (.real x)
  | str {text : String} {n : Number} (spelt : SpellsNumber text.toList n) :
      Contributes (.str text) n
  | typedInt (n : Int64) : Contributes (.typed (.int n)) (.int n)
  | typedReal (x : Float) : Contributes (.typed (.float x)) (.real x)
  | typedStr {text : String} {n : Number} (spelt : SpellsNumber text.toList n) :
      Contributes (.typed (.str text)) n
  | currency (money : Currency) : Contributes (.typed (.currency money)) (.real money.amount)
  | moment (m : Moment) : Contributes (.typed (.moment m)) (.int m.timestamp)
  | duration {seconds : UInt64} {n : Int64} (fits : n.toInt = seconds.toNat) :
      Contributes (.typed (.duration seconds)) (.int n)
  -- beyond the largest word every duration counts as that word
  | longDuration {seconds : UInt64} (large : Int64.maxValue.toInt < seconds.toNat) :
      Contributes (.typed (.duration seconds)) (.int Int64.maxValue)

/-! ### Sums -/

def Number.IsReal (n : Number) : Prop := ∃ x, n = .real x

/-- A number as a real, next to which an integer has to become one. -/
inductive Number.Promotes : Number → Float → Prop where
  | int (n : Int64) : Promotes (.int n) n.toFloat
  | real (x : Float) : Promotes (.real x) x

inductive Sums : Op → Value → Value → Value → Prop where
  | arrays (first second : Entries) :
      Sums .add (.array first) (.array second) (.array (Entries.merge first second))
  | addInts {left right : Value} {a b n : Int64} (first : Contributes left (.int a))
      (second : Contributes right (.int b)) (result : n.toInt = a.toInt + b.toInt) :
      Sums .add left right (.int n)
  | subInts {left right : Value} {a b n : Int64} (first : Contributes left (.int a))
      (second : Contributes right (.int b)) (result : n.toInt = a.toInt - b.toInt) :
      Sums .sub left right (.int n)
  | addReals {left right : Value} {a b : Number} {x y : Float} (first : Contributes left a)
      (second : Contributes right b) (real : a.IsReal ∨ b.IsReal) (promoted : a.Promotes x)
      (promoted' : b.Promotes y) : Sums .add left right (.real (x + y))
  | subReals {left right : Value} {a b : Number} {x y : Float} (first : Contributes left a)
      (second : Contributes right b) (real : a.IsReal ∨ b.IsReal) (promoted : a.Promotes x)
      (promoted' : b.Promotes y) : Sums .sub left right (.real (x - y))

/-! ### Names -/

/-- The innermost of some layers that binds a name binds it to this value. -/
inductive Bound (name : String) (value : Value) : List Bindings → Prop where
  | here {layer : Bindings} {outer : List Bindings} (bound : layer.lookup name = some value) :
      Bound name value (layer :: outer)
  | further {layer : Bindings} {outer : List Bindings} (unbound : layer.lookup name = none)
      (bound : Bound name value outer) : Bound name value (layer :: outer)

/-! ### Trees -/

mutual

inductive Primary.Denotes (scope : Scope) : Primary → Value → Prop where
  | int (n : Int64) : Primary.Denotes scope (.number (.int n)) (.int n)
  | real (x : Float) : Primary.Denotes scope (.number (.real x)) (.real x)
  | named {name : String} {value : Value} (bound : Bound name value scope.layers) :
      Primary.Denotes scope (.named name) value
  | group {inner : Expr} {value : Value} (denotes : Expr.Denotes scope inner value) :
      Primary.Denotes scope (.group inner) value

inductive Term.Denotes (scope : Scope) : Term → Value → Prop where
  | plain {operand : Primary} {value : Value} (denotes : Primary.Denotes scope operand value) :
      Term.Denotes scope (.plain operand) value
  | counted {operand : Primary} {entries : Entries} {n : Int64}
      (denotes : Primary.Denotes scope operand (.array entries)) (count : n.toInt = entries.length) :
      Term.Denotes scope (.counted operand) (.int n)

inductive Expr.Denotes (scope : Scope) : Expr → Value → Prop where
  | single {term : Term} {value : Value} (denotes : Term.Denotes scope term value) :
      Expr.Denotes scope (.single term) value
  | chain {left : Expr} {op : Op} {right : Term} {a b value : Value}
      (first : Expr.Denotes scope left a) (second : Term.Denotes scope right b)
      (sum : Sums op a b value) : Expr.Denotes scope (.chain left op right) value

end

end ChatMarkup.Formula
