/-
  ChatMarkup/Text/Quoted.lean
  ===========================
  **Quoted text** — a text between double quotes as a message shows it: quotes and
  backslashes stand behind a backslash, the commonest controls have short names, and
  what would not show by itself is written as its code point.

  An accent is written as its code point wherever it stands, so that the text shows what
  it is made of: `é` stays if it is one character and is taken apart if it is two.
-/
import ChatMarkup.Text.Extender
import ChatMarkup.Text.Printable

namespace ChatMarkup.Text

def shortNames : List (Char × Char) :=
  [('\x00', '0'), ('\t', 't'), ('\n', 'n'), ('\r', 'r'), ('"', '"'), ('\\', '\\')]

/-- A character as its code point, in hexadecimal digits without leading zeros. -/
def codePoint (c : Char) : List Char :=
  "\\u\x7b".toList ++ Nat.toDigits 16 c.toNat ++ ['\x7d']

def quotedChar (c : Char) : List Char :=
  match shortNames.lookup c with
  | some name => ['\\', name]
  | none => if isExtender c || !isPrintable c then codePoint c else [c]

def quoted (s : String) : String :=
  "\"" ++ String.ofList (s.toList.flatMap quotedChar) ++ "\""

end ChatMarkup.Text
