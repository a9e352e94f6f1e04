/-
  ChatMarkup/Render/Mention.lean
  ==============================
  **The variables a tree depends on** — the names in its formulas and the sources of its
  loops, apart from those that a loop around them binds; and what it means that a template
  gets at a variable by its name.
-/
import ChatMarkup.Formula.Lexer
import ChatMarkup.Render.Template

namespace ChatMarkup.Render

/-- The value of a variable; of several with the same name the last one counts. -/
def Variables.value? (vars : Variables) (name : String) : Option Value :=
  vars.reverse.lookup name

theorem Variables.value?_cons (var : String × Value) (vars : Variables) (name : String) :
    Variables.value? (var :: vars) name =
      (vars.value? name).or (if name = var.1 then some var.2 else none) := by
  obtain ⟨own, value⟩ := var
  by_cases same : name = own
  · simp [Variables.value?, List.lookup_append, same]
  · have other : (name == own) = false := by simpa using same
    simp [Variables.value?, List.lookup_append, List.lookup_cons, same, other]

def namesInFormula (formula : String) : List String :=
  (Formula.tokens formula).filterMap fun token =>
    match token.kind with
    | .named name => some name
    | _ => none

def namesInAttribute (tag : Markup.Tag) (attr : String) : List String :=
  ((tag.attribute? attr).map namesInFormula).getD []

def boundByLoop (tag : Markup.Tag) : List String :=
  (tag.attribute? "item").toList ++ (tag.attribute? "key").toList

mutual

/-- The names that a node depends on. -/
def freeNames : Markup.Node → List String
  | .text _ => []
  | .element tag children =>
    match Role.ofName tag.name with
    | .var => namesInAttribute tag "name"
    | .plural => namesInAttribute tag "var" ++ freeNamesOf children
    | .loop =>
      (tag.attribute? "from").toList ++
        (freeNamesOf children).filter fun name => !(boundByLoop tag).contains name
    | _ => freeNamesOf children

def freeNamesOf : List Markup.Node → List String
  | [] => []
  | node :: rest => freeNames node ++ freeNamesOf rest

end

/-- A name stands for a value: as a formula, in a `var` element and in a `plural` one. -/
structure Refers (styler : Styler) (scope : Scope) (name : String) (value : Value) : Prop where
  evaluated : Formula.evaluate scope name = .ok value
  shown (style : Style) (tag : Markup.Tag) (children : List Markup.Node) :
    tag.name = "var" → tag.attribute? "name" = some name →
    renderNode styler style scope (.element tag children) = styler.display value
  counted (style : Style) (tag : Markup.Tag) (children : List Markup.Node) :
    tag.name = "plural" → tag.attribute? "var" = some name →
    renderNode styler style scope (.element tag children) = do
      let count ← countOf value
      let cases ← renderCases styler style scope children
      selectCase styler count cases

def entriesOf (name : String) : Value → Except Error Entries
  | .array entries => .ok entries
  | other => .error (.unfit (.notIterable name other.kind))

end ChatMarkup.Render
