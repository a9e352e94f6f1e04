/-
  ChatMarkup/Markup/Reference.lean
  ================================
  **Character references** — what stands between `&` and `;`: one of five names, or
  the number of a character in decimal or, behind an `x`, in hexadecimal.
-/
import ChatMarkup.Decimal.Numeral

namespace ChatMarkup.Markup

def namedCharacters : List (String × Char) :=
  [("amp", '&'), ("lt", '<'), ("gt", '>'), ("quot", '"'), ("apos", '\'')]

def character? (number : Nat) : Option Char :=
  if number.isValidChar then some (Char.ofNat number) else none

def numbered? : List Char → Option Char
  | 'x' :: digits => (Decimal.readHex? digits).bind character?
  | 'X' :: digits => (Decimal.readHex? digits).bind character?
  | digits => (Decimal.readNat? digits).bind character?

def decode? (name : List Char) : Option Char :=
  match namedCharacters.lookup (String.ofList name), name with
  | some c, _ => some c
  | none, '#' :: number => numbered? number
  | none, _ => none

def endsReference (c : Char) : Bool :=
  c == ';' || c == '&' || c == '<' || c == '\'' || c == '"'

end ChatMarkup.Markup
