/-
  ChatMarkup/Render/Selection.lean
  ================================
  **The case of a plural** — which of its cases a plural stands for.  A case has a form; the
  count and the forms of all cases decide on one form, and of several cases with that form
  it is the first.

  A plural has a case only if every one of them could be shown.
-/
import ChatMarkup.Render.Tree

namespace ChatMarkup.Render

open Markup (Element Node Tag)

def casesOf (children : List Node) : List Element :=
  (Markup.elementsOf children).filter fun element => element.tag.name = "case"

def formsOf (children : List Node) : List String :=
  (casesOf children).filterMap fun case => case.tag.attribute? "form"

def Counts (scope : Scope) (tag : Tag) (count : Int64) : Prop :=
  ∃ formula value, tag.attribute? "var" = some formula ∧
    Formula.evaluate scope formula = .ok value ∧ countOf value = .ok count

/-- In some style and scope, a case has a form and a text. -/
def Presentable (styler : Styler) (style : Style) (scope : Scope) (case : Element) : Prop :=
  (∃ form, case.tag.attribute? "form" = some form) ∧
    ∃ text, renderNodes styler style scope case.children = .ok text

/-- A case has no form, or it has one and its children fail. -/
def Refuses (styler : Styler) (style : Style) (scope : Scope) (case : Element) (error : Error) :
    Prop :=
  case.tag.attribute? "form" = none ∧ error = .missingAttribute "case" "form" ∨
    (∃ form, case.tag.attribute? "form" = some form) ∧
      renderNodes styler style scope case.children = .error error

/-- A plural stands for a case, which has the form for its count. -/
structure Selects (styler : Styler) (style : Style) (scope : Scope) (tag : Tag)
    (children : List Node) (count : Int64) (form : String) (case : Element) : Prop where
  counted : Counts scope tag count
  presentable : ∀ other ∈ casesOf children, Presentable styler style scope other
  chosen : styler.service.chooseForm styler.locale count (Text.nameSet (formsOf children)) =
    .ok form
  first : (casesOf children).find? (fun other => other.tag.attribute? "form" = some form) =
    some case

end ChatMarkup.Render
