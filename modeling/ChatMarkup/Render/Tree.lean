/-
  ChatMarkup/Render/Tree.lean
  ===========================
  **Rendering a tree** — texts, the texts of variables, and the control characters that
  turn the style on where an element begins and off where it ends.

  Every part of a tree is rendered in the style and the scope that the elements around
  it amount to. The style inside an element is known to the characters around it only:
  an element that changes nothing writes nothing, and whatever it turned on it turns off
  again.
-/
import ChatMarkup.Formula.Evaluation
import ChatMarkup.Render.Channel
import ChatMarkup.Render.Content
import ChatMarkup.Render.Loop
import ChatMarkup.Text.Order
import ChatMarkup.Text.Segments

namespace ChatMarkup.Render

/-! ### Elements -/

inductive Role where
  | var
  | bold
  | underline
  | color
  | loop
  | plural
  /-- An element that stands for its children. Cases are among these: a plural looks at
      them itself, and anywhere else they mean nothing. -/
  | transparent
  deriving DecidableEq, Repr

def Role.ofName (name : String) : Role :=
  if name = "var" then .var
  else if name = "b" then .bold
  else if name = "u" then .underline
  else if name = "color" then .color
  else if name = "for" then .loop
  else if name = "plural" then .plural
  else .transparent

def attributeValue (scope : Scope) (tag : Markup.Tag) (attr : String) : Except Error Value := do
  let formula ← required tag attr
  (Formula.evaluate scope formula).mapError .formula

/-- A text between two toggles, unless it is on already. -/
def toggled (isOn : Bool) (toggle : Char) (text : List Char) : List Char :=
  if isOn then text else toggle :: text ++ [toggle]

/-- The text of the case that a count selects, given the rendered cases with their forms;
    the first of several with the same form. -/
def selectCase (styler : Styler) (count : Int64) (cases : List (String × List Char)) :
    Except Error (List Char) := do
  let forms := Text.nameSet (cases.map Prod.fst)
  let form ← (styler.service.chooseForm styler.locale count forms).mapError .locale
  match cases.lookup form with
  | some text => .ok text
  | none => .error (.missingCase form forms)

/-! ### Trees -/

mutual

def renderNode (styler : Styler) (style : Style) (scope : Scope) :
    Markup.Node → Except Error (List Char)
  | .text text => .ok text.toList
  | .element tag children =>
    match Role.ofName tag.name with
    | .var => do
      let value ← attributeValue scope tag "name"
      styler.display value
    | .bold => do
      let text ← renderNodes styler { style with bold := true } scope children
      .ok (toggled style.bold Wire.bold text)
    | .underline => do
      let text ← renderNodes styler { style with underline := true } scope children
      .ok (toggled style.underline Wire.underline text)
    | .color => do
      let inside ← recolored tag style
      let text ← renderNodes styler inside scope children
      .ok (switchColors style inside ++ text ++ switchColors inside style)
    | .loop => do
      let loop ← Loop.ofTag tag
      let entries ← loop.entries scope
      let texts ← entries.mapM fun entry =>
        renderNodes styler style (loop.scopeFor styler.wrappers scope entry) children
      .ok (Text.joinSeries loop.separator loop.lastSeparator texts)
    | .plural => do
      let value ← attributeValue scope tag "var"
      let count ← countOf value
      -- the count comes first, so its error hides those of the cases
      let cases ← renderCases styler style scope children
      selectCase styler count cases
    | .transparent => renderNodes styler style scope children

def renderNodes (styler : Styler) (style : Style) (scope : Scope) :
    List Markup.Node → Except Error (List Char)
  | [] => .ok []
  | node :: rest => do
    let text ← renderNode styler style scope node
    let texts ← renderNodes styler style scope rest
    .ok (text ++ texts)

/-- The forms and the texts of the cases among some nodes. Every case is rendered, chosen
    or not, so that an error in any of them comes to light. -/
def renderCases (styler : Styler) (style : Style) (scope : Scope) :
    List Markup.Node → Except Error (List (String × List Char))
  | [] => .ok []
  | .text _ :: rest => renderCases styler style scope rest
  | .element tag children :: rest =>
    if tag.name = "case" then do
      let form ← required tag "form"
      let text ← renderNodes styler style scope children
      let cases ← renderCases styler style scope rest
      .ok ((form, text) :: cases)
    else renderCases styler style scope rest

end

end ChatMarkup.Render
