/-
  ChatMarkup/Render/Channel.lean
  ==============================
  **Colours in attributes** — the colours that a `color` element asks for, given by code
  or by name, and the sequences that switch from one style to another.
-/
import ChatMarkup.Render.Error
import ChatMarkup.Style.Basic
import ChatMarkup.Suggestion
import ChatMarkup.Text.Blank

namespace ChatMarkup.Render

/-- The colour that an attribute asks for, white space around it aside: a number is a
    code, anything else a name. -/
def readColor (value : String) : Except Error Color :=
  let trimmed := Text.trim value.toList
  if Decimal.isDigits trimmed then
    match Color.ofCode? (Decimal.value trimmed) with
    | some color => .ok color
    | none => .error (.colorOutOfRange (String.ofList trimmed))
  else
    match Color.ofName? trimmed with
    | some color => .ok color
    | none =>
      -- suggestions are sought for the name as the table would spell it
      let spelling := String.ofList (Color.tableSpelling trimmed)
      .error (.unknownColor value (Suggestion.closest spelling (Color.names.map Prod.fst)))

def channel (tag : Markup.Tag) (name : String) : Except Error (Option Color) :=
  match tag.attribute? name with
  | none => .ok none
  | some value => if value.isEmpty then .ok none else (readColor value).map some

/-- The style inside a `color` element: the channels that it sets are replaced. -/
def recolored (tag : Markup.Tag) (style : Style) : Except Error Style := do
  let fg ← channel tag "fg"
  let bg ← channel tag "bg"
  if fg.isNone && bg.isNone then .error .missingColor
  else .ok { style with
    foreground := fg.or style.foreground
    background := bg.or style.background }

/-- What a channel has to be switched to; nothing switches a channel off. -/
def channelSwitch (before after : Option Color) : Option Color :=
  if after = before then none else after

def switchColors (before after : Style) : List Char :=
  Wire.colorSequence (channelSwitch before.foreground after.foreground)
    (channelSwitch before.background after.background)

end ChatMarkup.Render
