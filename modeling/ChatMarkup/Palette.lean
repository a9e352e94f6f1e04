/-
  ChatMarkup/Palette.lean
  =======================
  **Colours** — the codes that a colour sequence carries, and the table of symbolic
  names for the first sixteen of them.
-/
import ChatMarkup.Decimal.Numeral

namespace ChatMarkup

/-- A colour code. It is written in two digits, so it is at most 99. -/
structure Color where
  code : Nat
  code_le : code ≤ 99
  deriving DecidableEq, Repr

namespace Color

def ofCode? (code : Nat) : Option Color :=
  if h : code ≤ 99 then some ⟨code, h⟩ else none

def digits (color : Color) : List Char := Decimal.padTwo color.code

/-- Symbolic names and the codes they stand for; several names share a code. -/
def names : List (String × Color) :=
  [("white", ⟨0, by decide⟩), ("black", ⟨1, by decide⟩), ("blue", ⟨2, by decide⟩),
   ("navy", ⟨2, by decide⟩), ("green", ⟨3, by decide⟩), ("red", ⟨4, by decide⟩),
   ("brown", ⟨5, by decide⟩), ("maroon", ⟨5, by decide⟩), ("purple", ⟨6, by decide⟩),
   ("orange", ⟨7, by decide⟩), ("olive", ⟨7, by decide⟩), ("yellow", ⟨8, by decide⟩),
   ("light_green", ⟨9, by decide⟩), ("lime", ⟨9, by decide⟩), ("teal", ⟨10, by decide⟩),
   ("light_cyan", ⟨11, by decide⟩), ("cyan", ⟨11, by decide⟩), ("aqua", ⟨11, by decide⟩),
   ("light_blue", ⟨12, by decide⟩), ("royal", ⟨12, by decide⟩), ("pink", ⟨13, by decide⟩),
   ("light_purple", ⟨13, by decide⟩), ("fuchsia", ⟨13, by decide⟩), ("grey", ⟨14, by decide⟩),
   ("gray", ⟨14, by decide⟩), ("light_grey", ⟨15, by decide⟩), ("light_gray", ⟨15, by decide⟩),
   ("silver", ⟨15, by decide⟩)]

/-- How a name is spelt in the table: ASCII letters in lower case, an underscore for a
    space or a hyphen. -/
def tableSpelling (name : List Char) : List Char :=
  name.map fun c => if c = ' ' ∨ c = '-' then '_' else c.toLower

/-- The colour with a symbolic name, whatever its case and word separators. -/
def ofName? (name : List Char) : Option Color :=
  names.lookup (String.ofList (tableSpelling name))

theorem digits_length (color : Color) : color.digits.length = 2 := by
  have table : ∀ n : Fin 100, (Decimal.padTwo n.val).length = 2 := by decide +kernel
  exact table ⟨color.code, Nat.lt_succ_of_le color.code_le⟩

/-- Both characters of a code are decimal digits. -/
theorem isDigit_of_mem_digits {color : Color} {c : Char} (h : c ∈ color.digits) :
    c.isDigit = true := by
  have table : ∀ n : Fin 100, (Decimal.padTwo n.val).all Char.isDigit = true := by decide +kernel
  exact List.all_eq_true.mp (table ⟨color.code, Nat.lt_succ_of_le color.code_le⟩) c h

end Color

end ChatMarkup
