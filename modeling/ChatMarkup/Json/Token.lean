/-
  ChatMarkup/Json/Token.lean
  ==========================
  **Tokens of JSON** — the punctuation and the atoms of a JSON text: `null`, truth
  values, numbers and strings.

  A number without fraction and exponent is an integer if it fits 64 bits, signed or
  unsigned, and a real otherwise; so is a negative zero, which no integer is. A number
  too large for any finite real is no token, nor is a string with an unpaired surrogate.
  What is no token ends the list of tokens as `stray`.
-/
import ChatMarkup.Decimal.Binary64
import ChatMarkup.Decimal.Reading

namespace ChatMarkup.Json

inductive Atom where
  | null
  | bool (b : Bool)
  | integer (n : Int)
  | real (x : Float)
  | string (s : String)
  deriving DecidableEq

inductive Token where
  | atom (atom : Atom)
  | openList
  | closeList
  | openObject
  | closeObject
  | colon
  | comma
  | stray  -- something that begins no token
  deriving DecidableEq

def isGap (c : Char) : Bool := c == ' ' || c == '\n' || c == '\t' || c == '\r'

/-! ### Numbers -/

/-- The digits at the front of a text, at least one of them. -/
def scanDigits (text : List Char) : Option (List Char × List Char) :=
  let digits := text.takeWhile Char.isDigit
  if digits.isEmpty then none else some (digits, text.dropWhile Char.isDigit)

/-- The digits behind a point; none if there is no point. -/
def scanFraction (text : List Char) : Option (List Char × List Char) :=
  match text with
  | '.' :: rest => scanDigits rest
  | _ => some ([], text)

def scanExponent (text : List Char) : Option (Option Int × List Char) :=
  match text with
  | [] => some (none, [])
  | mark :: rest =>
    if mark = 'e' ∨ mark = 'E' then
      -- digits have to follow the mark, with or without a sign
      let (negative, unsigned) := match rest with
        | '-' :: digits => (true, digits)
        | '+' :: digits => (false, digits)
        | _ => (false, rest)
      (scanDigits unsigned).map fun (digits, rest) =>
        let magnitude : Int := Decimal.value digits
        (some (if negative then -magnitude else magnitude), rest)
    else some (none, text)

/-- Whether an integer fits 64 bits, be they signed or unsigned. -/
def fitsWord (n : Int) : Bool := decide (Int64.minValue.toInt ≤ n) && decide (n < UInt64.size)

structure NumberText where
  whole : List Char
  fraction : List Char
  exponent : Option Int
  deriving DecidableEq, Repr

/-- Reads a number behind its sign. There are no leading zeros. -/
def scanNumber (text : List Char) : Option (NumberText × List Char) := do
  let (whole, rest) ← scanDigits text
  let (fraction, rest) ← scanFraction rest
  let (exponent, rest) ← scanExponent rest
  -- a zero in front is the whole of the number before the point
  if whole.head? = some '0' ∧ whole ≠ ['0'] then none
  else some (⟨whole, fraction, exponent⟩, rest)

namespace NumberText

/-- The nearest real, unless the number is too large for any. -/
def real? (negative : Bool) (number : NumberText) : Option Atom :=
  let magnitude := Decimal.DecimalParts.toFloat
    ⟨number.whole ++ number.fraction, number.fraction.length, number.exponent.getD 0⟩
  if (Decimal.Binary64.ofFloat magnitude).isFinite then
    some (.real (if negative then -magnitude else magnitude))
  else none

def isWhole (number : NumberText) : Bool := number.fraction.isEmpty && number.exponent.isNone

def atom? (negative : Bool) (number : NumberText) : Option Atom :=
  let magnitude : Int := Decimal.value number.whole
  let n := if negative then -magnitude else magnitude
  if number.isWhole && fitsWord n && !(negative && n == 0) then some (.integer n)
  else number.real? negative

end NumberText

theorem length_of_scanDigits {text digits rest : List Char}
    (h : scanDigits text = some (digits, rest)) : rest.length < text.length := by
  unfold scanDigits at h
  dsimp only at h
  split at h
  · simp at h
  · rename_i found
    cases h
    have whole := congrArg List.length
      (List.takeWhile_append_dropWhile (p := Char.isDigit) (l := text))
    rw [List.length_append] at whole
    have : (text.takeWhile Char.isDigit).length ≠ 0 := by simpa using found
    omega

theorem length_of_scanFraction {text digits rest : List Char}
    (h : scanFraction text = some (digits, rest)) : rest.length ≤ text.length := by
  unfold scanFraction at h
  split at h
  · have := length_of_scanDigits h
    simp only [List.length_cons]
    omega
  · cases h
    exact Nat.le_refl _

theorem length_of_scanExponent {text rest : List Char} {exponent : Option Int}
    (h : scanExponent text = some (exponent, rest)) : rest.length ≤ text.length := by
  unfold scanExponent at h
  split at h
  · cases h
    exact Nat.le_refl _
  · split at h
    · simp only [Option.map_eq_some_iff, Prod.mk.injEq] at h
      obtain ⟨⟨digits, after⟩, digit, _, rfl⟩ := h
      have := length_of_scanDigits digit
      split at this <;> simp only [List.length_cons] at this ⊢ <;> omega
    · cases h
      exact Nat.le_refl _

theorem length_of_scanNumber {text rest : List Char} {number : NumberText}
    (h : scanNumber text = some (number, rest)) : rest.length < text.length := by
  unfold scanNumber at h
  simp only [Option.bind_eq_bind, Option.bind_eq_some_iff] at h
  obtain ⟨⟨whole, _⟩, first, ⟨fraction, _⟩, second, ⟨exponent, _⟩, third, h⟩ := h
  have := length_of_scanDigits first
  have := length_of_scanFraction second
  have := length_of_scanExponent third
  dsimp only at *
  split at h
  · simp at h
  · cases h
    omega

/-! ### Strings -/

def shortEscapes : List (Char × Char) :=
  [('"', '"'), ('\\', '\\'), ('/', '/'), ('b', '\x08'), ('f', '\x0c'), ('n', '\n'),
   ('r', '\r'), ('t', '\t')]

def scanUnit (text : List Char) : Option (Nat × List Char) :=
  match text with
  | a :: b :: c :: d :: rest =>
    ([a, b, c, d].foldlM (fun acc c => (Decimal.hexDigit? c).map (16 * acc + ·)) 0).map (·, rest)
  | _ => none

/-- The character that an escape behind its backslash stands for. A character outside the
    basic plane takes two escapes, a high and a low surrogate. -/
def scanEscape (text : List Char) : Option (Char × List Char) :=
  match text with
  | [] => none
  | mark :: rest =>
    if mark = 'u' then do
      let (unit, rest) ← scanUnit rest
      if 0xD800 ≤ unit ∧ unit ≤ 0xDBFF then
        match rest with
        | '\\' :: 'u' :: rest => do
          let (low, rest) ← scanUnit rest
          if 0xDC00 ≤ low ∧ low ≤ 0xDFFF then
            some (Char.ofNat (0x10000 + (unit - 0xD800) * 0x400 + (low - 0xDC00)), rest)
          else none
        | _ => none
      else if 0xDC00 ≤ unit ∧ unit ≤ 0xDFFF then none
      else some (Char.ofNat unit, rest)
    else (shortEscapes.lookup mark).map (·, rest)

theorem length_of_scanUnit {text rest : List Char} {unit : Nat}
    (h : scanUnit text = some (unit, rest)) : rest.length < text.length := by
  unfold scanUnit at h
  split at h
  · simp only [Option.map_eq_some_iff, Prod.mk.injEq] at h
    obtain ⟨_, _, _, rfl⟩ := h
    simp only [List.length_cons]
    omega
  · simp at h

theorem length_of_scanEscape {text rest : List Char} {c : Char}
    (h : scanEscape text = some (c, rest)) : rest.length < text.length := by
  unfold scanEscape at h
  split at h
  · simp at h
  · split at h
    · simp only [Option.bind_eq_bind, Option.bind_eq_some_iff] at h
      obtain ⟨⟨unit, after⟩, first, h⟩ := h
      have shorter := length_of_scanUnit first
      dsimp only at h
      split at h
      · split at h
        · simp only [Option.bind_eq_some_iff] at h
          obtain ⟨⟨low, after⟩, second, h⟩ := h
          have := length_of_scanUnit second
          split at h
          · simp only [Option.some.injEq, Prod.mk.injEq] at h
            obtain ⟨_, rfl⟩ := h
            simp only [List.length_cons] at shorter ⊢
            omega
          · simp at h
        · simp at h
      · split at h
        · simp at h
        · simp only [Option.some.injEq, Prod.mk.injEq] at h
          obtain ⟨_, rfl⟩ := h
          simp only [List.length_cons]
          omega
    · simp only [Option.map_eq_some_iff, Prod.mk.injEq] at h
      obtain ⟨_, _, _, rfl⟩ := h
      simp

/-- The content of a string behind its opening quote, and what follows the closing one. -/
def scanString (text : List Char) : Option (List Char × List Char) :=
  match text with
  | [] => none
  | c :: tail =>
    if c = '"' then some ([], tail)
    else if c = '\\' then
      match _h : scanEscape tail with
      | none => none
      | some (decoded, rest) => (scanString rest).map fun (more, rest) => (decoded :: more, rest)
    else if c.toNat < 0x20 then none
    else (scanString tail).map fun (more, rest) => (c :: more, rest)
termination_by text.length
decreasing_by
  · have := length_of_scanEscape _h
    simp only [List.length_cons]
    omega
  · exact Nat.lt_succ_self _

/-! ### Tokens -/

def afterWord? (word text : List Char) : Option (List Char) :=
  if word.isPrefixOf text then some (text.drop word.length) else none

def scanNumeric (negative : Bool) (text : List Char) : Option (Token × List Char) := do
  let (number, rest) ← scanNumber text
  let atom ← number.atom? negative
  some (.atom atom, rest)

def scan (c : Char) (tail : List Char) : Option (Token × List Char) :=
  match c with
  | '[' => some (.openList, tail)
  | ']' => some (.closeList, tail)
  | '\x7b' => some (.openObject, tail)
  | '\x7d' => some (.closeObject, tail)
  | ':' => some (.colon, tail)
  | ',' => some (.comma, tail)
  | '"' => (scanString tail).map fun (text, rest) =>
      (.atom (.string (String.ofList text)), rest)
  | 'n' => (afterWord? "ull".toList tail).map (.atom .null, ·)
  | 't' => (afterWord? "rue".toList tail).map (.atom (.bool true), ·)
  | 'f' => (afterWord? "alse".toList tail).map (.atom (.bool false), ·)
  | '-' => scanNumeric true tail
  | _ => scanNumeric false (c :: tail)

theorem length_of_scanString {text content rest : List Char}
    (h : scanString text = some (content, rest)) : rest.length < text.length := by
  fun_induction scanString text generalizing content rest with
  | case1 => simp at h
  | case2 => cases h; simp
  | case3 => simp at h
  | case4 tail decoded after escape _ ih =>
    simp only [Option.map_eq_some_iff, Prod.mk.injEq] at h
    obtain ⟨⟨more, last⟩, inner, _, rfl⟩ := h
    have := length_of_scanEscape escape
    have := ih inner
    simp only [List.length_cons]
    omega
  | case5 => simp at h
  | case6 c tail _ _ _ ih =>
    simp only [Option.map_eq_some_iff, Prod.mk.injEq] at h
    obtain ⟨⟨more, last⟩, inner, _, rfl⟩ := h
    have := ih inner
    simp only [List.length_cons]
    omega

theorem length_of_afterWord? {word text rest : List Char} (h : afterWord? word text = some rest) :
    rest.length ≤ text.length := by
  unfold afterWord? at h
  split at h
  · cases h
    simp
  · simp at h

theorem length_of_scanNumeric {negative : Bool} {text rest : List Char} {token : Token}
    (h : scanNumeric negative text = some (token, rest)) : rest.length < text.length := by
  unfold scanNumeric at h
  simp only [Option.bind_eq_bind, Option.bind_eq_some_iff] at h
  obtain ⟨⟨number, _⟩, first, atom, _, h⟩ := h
  cases h
  exact length_of_scanNumber first

/-- A token takes at least one character. -/
theorem length_of_scan {c : Char} {tail rest : List Char} {token : Token}
    (h : scan c tail = some (token, rest)) : rest.length ≤ tail.length := by
  unfold scan at h
  split at h
  all_goals first
    | (cases h; exact Nat.le_refl _)
    | skip
  all_goals try simp only [Option.map_eq_some_iff, Prod.mk.injEq, Prod.exists] at h
  · obtain ⟨content, after, inner, _, rfl⟩ := h
    exact Nat.le_of_lt (length_of_scanString inner)
  · obtain ⟨after, inner, _, rfl⟩ := h
    exact length_of_afterWord? inner
  · obtain ⟨after, inner, _, rfl⟩ := h
    exact length_of_afterWord? inner
  · obtain ⟨after, inner, _, rfl⟩ := h
    exact length_of_afterWord? inner
  · exact Nat.le_of_lt (length_of_scanNumeric h)
  · have := length_of_scanNumeric h
    simp only [List.length_cons] at this
    omega

/-- The tokens of a text, up to the first place where there is none. -/
def tokens (text : List Char) : List Token :=
  match _h : text.dropWhile isGap with
  | [] => []
  | c :: tail =>
    match _scanned : scan c tail with
    | none => [.stray]
    | some (token, rest) => token :: tokens rest
termination_by text.length
decreasing_by
  have here := length_of_scan _scanned
  have shorter := (List.dropWhile_sublist isGap (l := text)).length_le
  rw [_h] at shorter
  simp only [List.length_cons] at shorter
  omega

end ChatMarkup.Json
