/-
  ChatMarkup/Render/Template.lean
  ===============================
  **Rendering a template** — from its source and some variables to the text that goes
  out on the wire: reading, checking, rendering, and the removal of colour codes that
  change nothing.
-/
import ChatMarkup.Markup.Reader
import ChatMarkup.Render.Tree
import ChatMarkup.Wire.Cleanup

namespace ChatMarkup.Render

/-- Variables with their values; of several with the same name the last one counts. -/
abbrev Variables := List (String × Value)

namespace Styler

/-- The scope of a whole template: every variable, its scalar wrapped. The names are
    checked in their order, so the least invalid one is reported. -/
def rootScope (styler : Styler) (vars : Variables) : Except Error Scope :=
  match Text.leastName? ((vars.map Prod.fst).filter fun name => !Formula.isName name) with
  | some name => .error (.invalidName name)
  | none => .ok <| vars.foldl
      (fun scope var => scope.bind var.1 (var.2.wrap styler.wrappers)) Scope.empty

theorem rootScope_of_named (styler : Styler) {vars : Variables}
    (named : ∀ var ∈ vars, Formula.isName var.1 = true) :
    styler.rootScope vars = .ok (vars.foldl
      (fun scope var => scope.bind var.1 (var.2.wrap styler.wrappers)) Scope.empty) := by
  have none : (vars.map Prod.fst).filter (fun name => !Formula.isName name) = [] := by
    rw [List.filter_eq_nil_iff]
    intro name member
    obtain ⟨var, inside, rfl⟩ := List.mem_map.mp member
    simp [named var inside]
  rw [rootScope, none]
  rfl

/-- The children of a root element as they go out on the wire. The tree is not checked:
    what a check would have found comes up while it is rendered, if at all. -/
def renderTree (styler : Styler) (root : Markup.Element) (vars : Variables) :
    Except Error String := do
  let scope ← styler.rootScope vars
  let text ← renderNodes styler Style.plain scope root.children
  .ok (String.ofList (Wire.cleanUp text))

def hasMarkup (template : String) : Bool := template.toList.any fun c => c == '<' || c == '&'

/-- A template as it goes out on the wire. One without markup is left as it is. -/
def render (styler : Styler) (template : String) (vars : Variables) : Except Error String :=
  if hasMarkup template then do
    let root ← (Markup.read template).mapError .markup
    match styler.validator.check root with
    | [] => styler.renderTree root vars
    | diagnostics => .error (.invalidTemplate diagnostics)
  else .ok template

end Styler

end ChatMarkup.Render
