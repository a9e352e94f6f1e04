/-
  ChatMarkup/Render/Visit.lean
  ============================
  **How a place in a tree is come to** — the styles and the scopes in which the nodes at a
  place are rendered.  A place inside a loop may be come to many times, or never; one inside
  a plural is come to only if it is inside a case.

  The style depends on the elements around the place alone (`styleAt`).
-/
import ChatMarkup.Markup.Context
import ChatMarkup.Render.Tree

namespace ChatMarkup.Render

open Markup (Tag Context)

/-- The children of an element are rendered in some style and scope when the element is.  It is
    not so for plurals, which look for cases among their children. -/
inductive Enters (styler : Styler) (tag : Tag) (style : Style) (scope : Scope) :
    Style → Scope → Prop where
  | bold (role : Role.ofName tag.name = .bold) :
      Enters styler tag style scope { style with bold := true } scope
  | underline (role : Role.ofName tag.name = .underline) :
      Enters styler tag style scope { style with underline := true } scope
  | color {colored} (role : Role.ofName tag.name = .color)
      (colors : recolored tag style = .ok colored) :
      Enters styler tag style scope colored scope
  | loop {loop entries entry} (role : Role.ofName tag.name = .loop)
      (said : Loop.ofTag tag = .ok loop) (array : loop.entries scope = .ok entries)
      (member : entry ∈ entries) :
      Enters styler tag style scope style (loop.scopeFor styler.wrappers scope entry)
  | transparent (role : Role.ofName tag.name = .transparent) :
      Enters styler tag style scope style scope

/-- The nodes at a place are rendered in some style and scope when those around it are. -/
inductive Visits (styler : Styler) : Context → Style → Scope → Style → Scope → Prop where
  | here {before after style scope} :
      Visits styler (.here before after) style scope style scope
  | inside {before tag context after style scope style' scope' inner innerScope}
      (enters : Enters styler tag style scope style' scope')
      (rest : Visits styler context style' scope' inner innerScope) :
      Visits styler (.inside before tag context after) style scope inner innerScope
  -- two levels at once: the plural around a case, and the case around the place
  | case {before tag earlier case context later after style scope inner innerScope}
      (role : Role.ofName tag.name = .plural) (name : case.name = "case")
      (rest : Visits styler context style scope inner innerScope) :
      Visits styler (.inside before tag (.inside earlier case context later) after) style scope
        inner innerScope

/-! ### Styles -/

def setBy (tag : Tag) (name : String) : Option Color :=
  match channel tag name with
  | .ok code => code
  | .error _ => none

def innerStyle (style : Style) (tag : Tag) : Style :=
  match Role.ofName tag.name with
  | .bold => { style with bold := true }
  | .underline => { style with underline := true }
  | .color => { style with
      foreground := (setBy tag "fg").or style.foreground
      background := (setBy tag "bg").or style.background }
  | _ => style

def styleAt (style : Style) (context : Context) : Style := context.enclosing.foldl innerStyle style

end ChatMarkup.Render
