/-
  ChatMarkup/Locale/Error.lean
  ============================
  **What a locale cannot do** — read a tag, or show a moment outside the calendar.
-/
import ChatMarkup.Locale.Tag

namespace ChatMarkup.Locale

inductive Error where
  | invalidTag (tag : String) (fault : TagFault)
  | timestampOutOfRange  -- a timestamp outside the years -9999 to 9999
  /-- A timestamp within these years that the offset moves out of them. No message
      mentions this: there is no local date to speak of, and the rendering is given up. -/
  | localTimeOutOfRange
  deriving DecidableEq, Repr

def Error.message : Error → String
  | .invalidTag tag fault => "invalid locale '" ++ tag ++ "': " ++ fault.message
  | .timestampOutOfRange => "cannot format datetime value: timestamp was not in range"
  | .localTimeOutOfRange => "cannot format datetime value: local datetime out of valid range"

def readTag (tag : String) : Except Error Tag :=
  match Tag.read tag with
  | .ok parsed => .ok parsed
  | .error fault => .error (.invalidTag tag fault)

end ChatMarkup.Locale
