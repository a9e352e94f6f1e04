/-
  ChatMarkup/Formula/Lexer.lean
  =============================
  **Reading a formula as tokens** — at each place the first rule that applies decides:

  1. a single operator character;
  2. a real, digits with a point and at least one digit on either side of it;
  3. a run of digits, an integer if it fits 64 signed bits and a real otherwise;
  4. a name, the longest run of name characters;
  5. a stray character.

  Spaces and tabs before a token are skipped. `scan_text` says that a lexeme and what is
  left make up the text it was read from.
-/
import ChatMarkup.Decimal.Reading
import ChatMarkup.Formula.Token
import ChatMarkup.Text.Bytes

namespace ChatMarkup.Formula

def isGap (c : Char) : Bool := c == ' ' || c == '\t'

def operator? : Char → Option Kind
  | '(' => some .opening
  | ')' => some .closing
  | '+' => some .plus
  | '-' => some .minus
  | '#' => some .count
  | _ => none

def numberOfDigits (digits : List Char) : Number :=
  match Decimal.readInt64? digits with
  -- no sign can stand in front of the digits here, so this reads them all or overflows
  | some n => .int n
  | none => .real (Decimal.nearestFloat (Decimal.value digits) 0)

def numberOfParts (whole fraction : List Char) : Number :=
  .real (Decimal.DecimalParts.toFloat ⟨whole ++ fraction, fraction.length, 0⟩)

/-- A token read from the front of a text, with its own text and what follows it. -/
structure Lexeme where
  kind : Kind
  text : List Char
  rest : List Char

def scan (c : Char) (tail : List Char) : Lexeme :=
  match operator? c with
  | some kind => ⟨kind, [c], tail⟩
  | none =>
    let digits := (c :: tail).takeWhile Char.isDigit
    let afterDigits := (c :: tail).dropWhile Char.isDigit
    let fraction := afterDigits.tail.takeWhile Char.isDigit
    -- rule 2 wants a digit on one side of the point at least, so that a lone point begins a name
    if afterDigits.head? = some '.' ∧ (digits ≠ [] ∨ fraction ≠ []) then
      ⟨.number (numberOfParts digits fraction), digits ++ '.' :: fraction,
        afterDigits.tail.dropWhile Char.isDigit⟩
    else if digits ≠ [] then ⟨.number (numberOfDigits digits), digits, afterDigits⟩
    else
      let name := (c :: tail).takeWhile isNameChar
      if name ≠ [] then
        ⟨.named (String.ofList name), name, (c :: tail).dropWhile isNameChar⟩
      else ⟨.stray c, [c], tail⟩

/-- A lexeme and the rest make up the text. -/
theorem scan_text (c : Char) (tail : List Char) :
    (scan c tail).text ++ (scan c tail).rest = c :: tail := by
  unfold scan
  split
  · rfl
  · dsimp only
    split
    · rename_i h
      obtain ⟨h, -⟩ := h
      have split := List.takeWhile_append_dropWhile (p := Char.isDigit) (l := c :: tail)
      -- the point is the head of what follows the first run of digits
      generalize hd : (c :: tail).dropWhile Char.isDigit = after at h split ⊢
      cases after with
      | nil => simp at h
      | cons d after =>
        simp only [List.head?_cons, Option.some.injEq] at h
        subst h
        simpa [List.takeWhile_append_dropWhile] using split
    · split
      · exact List.takeWhile_append_dropWhile
      · split
        · exact List.takeWhile_append_dropWhile
        · rfl

/-- A lexeme is never empty. -/
theorem scan_text_ne_nil (c : Char) (tail : List Char) : (scan c tail).text ≠ [] := by
  unfold scan
  split
  · simp
  · dsimp only
    split
    · simp
    · split
      · assumption
      · split
        · assumption
        · simp

theorem scan_rest_length (c : Char) (tail : List Char) :
    (scan c tail).rest.length < (c :: tail).length := by
  have whole := congrArg List.length (scan_text c tail)
  have some := List.length_pos_iff.mpr (scan_text_ne_nil c tail)
  rw [List.length_append] at whole
  omega

/-- A place in a formula from which tokens are read one by one. -/
structure Lexer where
  rest : List Char
  position : Nat
  finished : Bool  -- whether the end of the formula has been reported

namespace Lexer

def start (formula : String) : Lexer := ⟨formula.toList, 0, false⟩

/-- The next token, and the place behind it. At the end of the formula this is the end of
    input, any number of times. -/
def next (lexer : Lexer) : Token × Lexer :=
  let position := lexer.position + Text.byteLength (lexer.rest.takeWhile isGap)
  match lexer.rest.dropWhile isGap with
  | [] => (⟨.endOfInput, position⟩, ⟨[], position, true⟩)
  | c :: tail =>
    let lexeme := scan c tail
    (⟨lexeme.kind, position⟩,
      ⟨lexeme.rest, position + Text.byteLength lexeme.text, lexer.finished⟩)

/-- How much is left to read, counting the report of the end as one. -/
def left (lexer : Lexer) : Nat := lexer.rest.length + (if lexer.finished then 0 else 1)

theorem left_next (lexer : Lexer) (h : lexer.finished = false) :
    lexer.next.2.left < lexer.left := by
  have shorter := (List.dropWhile_sublist isGap (l := lexer.rest)).length_le
  unfold next left
  dsimp only
  split
  -- the end: nothing gets shorter, but its report is made
  · simp [h]
  · rename_i c tail e
    rw [e] at shorter
    have := scan_rest_length c tail
    simp only [h]
    omega

def toList (lexer : Lexer) : List Token :=
  match _h : lexer.finished with
  | true => []
  | false => lexer.next.1 :: toList lexer.next.2
termination_by lexer.left
decreasing_by exact left_next lexer _h

end Lexer

/-- The tokens of a formula; the last one is the end of input. -/
def tokens (formula : String) : List Token := (Lexer.start formula).toList

end ChatMarkup.Formula
