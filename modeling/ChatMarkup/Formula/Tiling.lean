/-
  ChatMarkup/Formula/Tiling.lean
  ==============================
  **What formulas are made of** — the patterns of the texts of tokens, the order in which
  they are tried, and how tokens and the gaps between them make up a formula.

  At each place the first pattern that applies decides, with the longest text that it
  accepts there.  A character at which none applies is a token of its own, a stray one.
-/
import ChatMarkup.Formula.Lexer

namespace ChatMarkup.Formula

def AllDigits (text : List Char) : Prop := ∀ c ∈ text, c.isDigit = true

def AllGaps (text : List Char) : Prop := ∀ c ∈ text, isGap c = true

def InAlphabet (c : Char) : Prop :=
  c ∈ ['(', ')', '+', '-', '#', ' ', '\t'] ∨ isNameChar c = true

/-! ### Patterns -/

inductive Pattern where
  | operator  -- a single operator character
  | fraction  -- digits with a point before the last of them, or between any two
  | pointed  -- digits and a point behind them
  | digits  -- digits alone
  | name  -- name characters

namespace Pattern

/-- The patterns in the order in which they are tried. -/
def order : List Pattern := [operator, fraction, pointed, digits, name]

inductive Accepts : Pattern → List Char → Kind → Prop where
  | opening : Accepts operator ['('] .opening
  | closing : Accepts operator [')'] .closing
  | plus : Accepts operator ['+'] .plus
  | minus : Accepts operator ['-'] .minus
  | count : Accepts operator ['#'] .count
  | fraction {whole places : List Char} (left : AllDigits whole) (right : AllDigits places)
      (some : places ≠ []) :
      Accepts fraction (whole ++ '.' :: places) (.number (numberOfParts whole places))
  | pointed {whole : List Char} (left : AllDigits whole) (some : whole ≠ []) :
      Accepts pointed (whole ++ ['.']) (.number (numberOfParts whole []))
  /-- Digits are an integer if it fits 64 signed bits. -/
  | integer {text : List Char} {n : Int64} (all : AllDigits text) (some : text ≠ [])
      (fits : n.toInt = Decimal.value text) : Accepts digits text (.number (.int n))
  /-- Otherwise they are a real. -/
  | large {text : List Char} (all : AllDigits text) (some : text ≠ [])
      (large : ∀ n : Int64, n.toInt ≠ Decimal.value text) :
      Accepts digits text (.number (.real (Decimal.nearestFloat (Decimal.value text) 0)))
  | name {text : List Char} (all : ∀ c ∈ text, isNameChar c = true) (some : text ≠ []) :
      Accepts name text (.named (String.ofList text))

/-- A pattern applies where it accepts some beginning of what follows. -/
def Applies (pattern : Pattern) (source : List Char) : Prop :=
  ∃ text kind, text <+: source ∧ pattern.Accepts text kind

/-- A pattern accepts a text, and no longer beginning of the source that the text comes
    from. -/
structure Longest (pattern : Pattern) (source text : List Char) (kind : Kind) : Prop where
  accepts : pattern.Accepts text kind
  longest : ∀ other kind', other <+: source → pattern.Accepts other kind' →
    other.length ≤ text.length

end Pattern

/-- The text of the token at the front of a source, its kind, and what follows the token. -/
inductive Chosen : Kind → List Char → List Char → Prop where
  /-- The longest text that the first of the patterns which apply accepts. -/
  | matched {pattern : Pattern} {earlier later : List Pattern} {kind : Kind}
      {text rest : List Char} (order : Pattern.order = earlier ++ pattern :: later)
      (inapplicable : ∀ other ∈ earlier, ¬other.Applies (text ++ rest))
      (longest : pattern.Longest (text ++ rest) text kind) : Chosen kind text rest
  -- a gap is not stray either, or the tokens of a text would not be unique
  | stray {c : Char} {rest : List Char} (solid : isGap c = false)
      (inapplicable : ∀ pattern : Pattern, ¬pattern.Applies (c :: rest)) :
      Chosen (.stray c) [c] rest

/-- The tokens of a text that begins at some offset. Gaps and the texts of tokens make up the
    text, each token is where its text begins, and the end of input is where the text ends. -/
inductive Tiles : Nat → List Char → List Token → Prop where
  | done {offset : Nat} {gap : List Char} (blank : AllGaps gap) :
      Tiles offset gap [⟨.endOfInput, offset + Text.byteLength gap⟩]
  | token {offset : Nat} {gap text rest : List Char} {kind : Kind} {tokens : List Token}
      (blank : AllGaps gap) (chosen : Chosen kind text rest)
      (more : Tiles (offset + Text.byteLength gap + Text.byteLength text) rest tokens) :
      Tiles offset (gap ++ text ++ rest) (⟨kind, offset + Text.byteLength gap⟩ :: tokens)

/-- Whether a text begins with a number: with a digit, or with a point and a digit. -/
def beginsNumber : List Char → Bool
  | '.' :: c :: _ => c.isDigit
  | c :: _ => c.isDigit
  | [] => false

end ChatMarkup.Formula
