/-
  ChatMarkup/Markup/Context.lean
  ==============================
  **Places in a tree** — some nodes with a place among them, or at any depth inside one of
  them.  Any nodes can be put there, so two trees that differ in one place only are the
  same context, filled twice.
-/
import ChatMarkup.Markup.Node

namespace ChatMarkup.Markup

/-- Nodes with a place between two of them, or inside one of them. -/
inductive Context where
  | here (before after : List Node)
  | inside (before : List Node) (tag : Tag) (context : Context) (after : List Node)

namespace Context

def fill : Context → List Node → List Node
  | .here before after, nodes => before ++ (nodes ++ after)
  | .inside before tag context after, nodes =>
    before ++ .element tag (context.fill nodes) :: after

/-- The tags of the elements around the place, from the outermost inwards. -/
def enclosing : Context → List Tag
  | .here _ _ => []
  | .inside _ tag context _ => tag :: context.enclosing

/-- The name of the element that the place is directly inside, if there is one. -/
def parentName? (context : Context) : Option String :=
  context.enclosing.getLast?.map Tag.name

/-- Further inside, no other element is the one directly around the place. -/
theorem parentName?_inside (before after : List Node) (tag : Tag) (context : Context) :
    (inside before tag context after).parentName? = context.parentName?.or (some tag.name) := by
  cases context with
  | here earlier later => rfl
  | inside earlier inner context later =>
    rw [parentName?, parentName?, enclosing, enclosing, List.getLast?_cons_cons,
      List.getLast?_cons]
    rfl

end Context

end ChatMarkup.Markup
