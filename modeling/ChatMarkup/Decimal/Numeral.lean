/-
  ChatMarkup/Decimal/Numeral.lean
  ===============================
  **Integer numerals** — the decimal digits of a number, and the readings of digit
  texts as integers of a given width.

  `ofNat` and `value` are inverse to one another; the readers accept a sign where the
  grammar of the number at hand does, and refuse what does not fit.
-/

namespace ChatMarkup.Decimal

def twoPow (n : Nat) : Nat := Nat.pow 2 n

def tenPow (n : Nat) : Nat := Nat.pow 10 n

theorem twoPow_pos (n : Nat) : 0 < twoPow n := Nat.pow_pos (by decide)

theorem tenPow_pos (n : Nat) : 0 < tenPow n := Nat.pow_pos (by decide)

/-- The decimal digits of a natural number, most significant first. -/
def ofNat (n : Nat) : List Char := Nat.toDigits 10 n

def ofInt (n : Int) : List Char :=
  if n < 0 then '-' :: ofNat n.natAbs else ofNat n.natAbs

def value (digits : List Char) : Nat := Nat.ofDigitChars 10 digits 0

theorem value_ofNat (n : Nat) : value (ofNat n) = n :=
  Nat.ofDigitChars_toDigits (by decide) (by decide)

/-- Different numbers have different digits. -/
theorem ofNat_injective {m n : Nat} (h : ofNat m = ofNat n) : m = n := by
  have := congrArg value h
  simpa [value_ofNat] using this

def isDigits (text : List Char) : Bool := !text.isEmpty && text.all Char.isDigit

/-- Reads a natural number: an optional plus sign and digits. -/
def readNat? (text : List Char) : Option Nat :=
  let digits := match text with
    | '+' :: rest => rest
    | _ => text
  if isDigits digits then some (value digits) else none

def readBelow? (bound : Nat) (text : List Char) : Option Nat :=
  (readNat? text).filter (· < bound)

def readInt? (text : List Char) : Option Int :=
  match text with
  | '-' :: digits => if isDigits digits then some (-(value digits : Int)) else none
  | _ => (readNat? text).map Int.ofNat

/-- The word of 64 signed bits with this value, if there is one. -/
def int64? (n : Int) : Option Int64 :=
  if Int64.minValue.toInt ≤ n ∧ n ≤ Int64.maxValue.toInt then some (Int64.ofInt n) else none

def readInt64? (text : List Char) : Option Int64 := (readInt? text).bind int64?

def hexDigit? (c : Char) : Option Nat :=
  if c.isDigit then some (c.toNat - '0'.toNat)
  else if 'a' ≤ c ∧ c ≤ 'f' then some (c.toNat - 'a'.toNat + 10)
  else if 'A' ≤ c ∧ c ≤ 'F' then some (c.toNat - 'A'.toNat + 10)
  else none

/-- Reads a natural number in base sixteen: an optional plus sign and digits. -/
def readHex? (text : List Char) : Option Nat :=
  let digits := match text with
    | '+' :: rest => rest
    | _ => text
  if digits.isEmpty then none
  else digits.foldlM (fun acc c => (hexDigit? c).map (16 * acc + ·)) 0

def padTwo (n : Nat) : List Char :=
  if n < 10 then '0' :: ofNat n else ofNat n

/-- An exact value in range has a word. -/
theorem int64?_eq_some {n : Int} (h : Int64.minValue.toInt ≤ n ∧ n ≤ Int64.maxValue.toInt) :
    int64? n = some (Int64.ofInt n) := if_pos h

theorem int64?_eq_none {n : Int} (h : ¬(Int64.minValue.toInt ≤ n ∧ n ≤ Int64.maxValue.toInt)) :
    int64? n = none := if_neg h

/-- The word of a value is the one that stands for it. -/
theorem int64?_eq_some_iff {n : Int} {word : Int64} : int64? n = some word ↔ word.toInt = n := by
  constructor
  · intro h
    unfold int64? at h
    split at h
    · rename_i bounds
      cases h
      rw [Int64.toInt_minValue, Int64.toInt_maxValue] at bounds
      exact Int64.toInt_ofInt_of_le (by omega) (by omega)
    · cases h
  · rintro rfl
    rw [int64?_eq_some ⟨word.minValue_le_toInt, word.toInt_le⟩, Int64.ofInt_toInt]

end ChatMarkup.Decimal
