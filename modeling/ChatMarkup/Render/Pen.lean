/-
  ChatMarkup/Render/Pen.lean
  ==========================
  **Rendering with a pen** — the same trees as in `ChatMarkup.Render.Tree`, but drawn one part
  after another with a single pen.  The pen has a style that an element changes on its way
  in, and it writes behind whatever has been written before.

  An element remembers the style it came with.  On its way out it writes what leads from the
  style that the pen has by then back to that one, and puts it back.  Cases are drawn with
  pens of their own, and the text of the chosen one is copied.
-/
import ChatMarkup.Render.Tree

namespace ChatMarkup.Render

/-- A style, and what has been written so far. -/
structure Pen where
  style : Style
  written : List Char

namespace Pen

def fresh (style : Style) : Pen := ⟨style, []⟩

def write (pen : Pen) (text : List Char) : Pen := { pen with written := pen.written ++ text }

def toggle (pen : Pen) (isOn : Bool) (toggle : Char) : Pen :=
  if isOn then pen else pen.write [toggle]

def restyle (pen : Pen) (style : Style) : Pen := { pen with style }

end Pen

/-- What comes before the text of an entry, given its index and the number of entries. -/
def Loop.separatorAt (loop : Loop) (total index : Nat) : List Char :=
  if index = 0 then []
  else if index + 1 = total then loop.lastSeparator
  else loop.separator

mutual

def drawNode (styler : Styler) (scope : Scope) (pen : Pen) : Markup.Node → Except Error Pen
  | .text text => .ok (pen.write text.toList)
  | .element tag children =>
    match Role.ofName tag.name with
    | .var => do
      let value ← attributeValue scope tag "name"
      let text ← styler.display value
      .ok (pen.write text)
    | .bold => do
      let saved := pen.style
      let entered := (pen.toggle saved.bold Wire.bold).restyle { saved with bold := true }
      let drawn ← drawNodes styler scope entered children
      .ok ((drawn.toggle saved.bold Wire.bold).restyle saved)
    | .underline => do
      let saved := pen.style
      let entered := (pen.toggle saved.underline Wire.underline).restyle
        { saved with underline := true }
      let drawn ← drawNodes styler scope entered children
      .ok ((drawn.toggle saved.underline Wire.underline).restyle saved)
    | .color => do
      let saved := pen.style
      let inside ← recolored tag saved
      let entered := (pen.write (switchColors saved inside)).restyle inside
      let drawn ← drawNodes styler scope entered children
      .ok ((drawn.write (switchColors drawn.style saved)).restyle saved)
    | .loop => do
      let loop ← Loop.ofTag tag
      let entries ← loop.entries scope
      entries.zipIdx.foldlM (fun pen (entry, index) =>
        drawNodes styler (loop.scopeFor styler.wrappers scope entry)
          (pen.write (loop.separatorAt entries.length index)) children) pen
    | .plural => do
      let value ← attributeValue scope tag "var"
      let count ← countOf value
      let cases ← drawCases styler scope pen.style children
      let text ← selectCase styler count cases
      .ok (pen.write text)
    | .transparent => drawNodes styler scope pen children

def drawNodes (styler : Styler) (scope : Scope) (pen : Pen) :
    List Markup.Node → Except Error Pen
  | [] => .ok pen
  | node :: rest => do
    let drawn ← drawNode styler scope pen node
    drawNodes styler scope drawn rest

/-- The forms and the texts of the cases among some nodes, each drawn with a fresh pen. -/
def drawCases (styler : Styler) (scope : Scope) (style : Style) :
    List Markup.Node → Except Error (List (String × List Char))
  | [] => .ok []
  | .text _ :: rest => drawCases styler scope style rest
  | .element tag children :: rest =>
    if tag.name = "case" then do
      let form ← required tag "form"
      let drawn ← drawNodes styler scope (Pen.fresh style) children
      let cases ← drawCases styler scope style rest
      .ok ((form, drawn.written) :: cases)
    else drawCases styler scope style rest

end

end ChatMarkup.Render
