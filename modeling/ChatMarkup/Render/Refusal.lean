/-
  ChatMarkup/Render/Refusal.lean
  ==============================
  **What a rendering comes to, and what may stop it** — the elements that the renderer looks at
  on its own, the typed values that it may be asked to write, and the errors that are left
  for a tree of the right shape.

  Those errors are about what the formulas, the colours and the values say.  A missing case
  is among them only for a plural without an `other` case (`Incomplete`).  A local time
  outside the calendar is not: nothing checks for it before it is needed
  (`Moment.LeavesCalendar`).
-/
import ChatMarkup.Render.Template

namespace ChatMarkup

/-- A value is a typed value, or holds it somewhere among its entries. -/
inductive Value.Holds (t : Typed) : Value → Prop where
  | self : Value.Holds t (.typed t)
  | entry {entries : Entries} {key : String} {value : Value} (member : (key, value) ∈ entries)
      (holds : Value.Holds t value) : Value.Holds t (.array entries)

/-- A moment of the calendar whose local time is not. -/
def Moment.LeavesCalendar (moment : Moment) : Prop :=
  Locale.inCalendar moment.timestamp.toInt ∧
    ¬Locale.inCalendar (moment.timestamp.toInt + moment.offset.seconds)

namespace Render

open Markup (Node Tag)

/-- The typed values that a rendering may come across: those in the variables, and those
    that the wrappers make. -/
inductive Styler.Supplies (styler : Styler) (vars : Variables) : Typed → Prop where
  | variable {name : String} {value : Value} {t : Typed} (member : (name, value) ∈ vars)
      (holds : value.Holds t) : Styler.Supplies styler vars t
  | int (n : Int64) : Styler.Supplies styler vars (styler.wrappers.int n)
  | real (x : Float) : Styler.Supplies styler vars (styler.wrappers.real x)
  | str (s : String) : Styler.Supplies styler vars (styler.wrappers.str s)

/-! ### Elements -/

/-- An element with its children, somewhere below some nodes. -/
inductive Occurs (tag : Tag) (children : List Node) : List Node → Prop where
  | here {nodes : List Node} (member : .element tag children ∈ nodes) : Occurs tag children nodes
  | inside {nodes : List Node} {outer : Tag} {body : List Node}
      (member : .element outer body ∈ nodes) (deeper : Occurs tag children body) :
      Occurs tag children nodes

/-- An element that the renderer comes to in some nodes and does what its name says. It looks
    into every element but a variable, and of a plural only into the cases, whose own names
    it takes no notice of. -/
inductive Reaches : List Node → Tag → Prop where
  | here {nodes children : List Node} {tag : Tag} (member : .element tag children ∈ nodes) :
      Reaches nodes tag
  | inside {nodes children : List Node} {outer tag : Tag}
      (member : .element outer children ∈ nodes) (notVar : Role.ofName outer.name ≠ .var)
      (notPlural : Role.ofName outer.name ≠ .plural) (further : Reaches children tag) :
      Reaches nodes tag
  | case {nodes children body : List Node} {outer form tag : Tag}
      (member : .element outer children ∈ nodes) (plural : Role.ofName outer.name = .plural)
      (found : .element form body ∈ children) (name : form.name = "case")
      (further : Reaches body tag) : Reaches nodes tag

def HasCase (form : String) (children : List Node) : Prop :=
  ∃ tag body, Node.element tag body ∈ children ∧ tag.name = "case" ∧
    tag.attribute? "form" = some form

/-- Some plural has no case for all other counts. -/
def Incomplete (nodes : List Node) : Prop :=
  ∃ tag children, Occurs tag children nodes ∧ tag.name = "plural" ∧
    ¬HasCase Locale.otherForm children

/-! ### Errors -/

/-- The errors that do not come from the shape of a tree. A missing case is among them only if
    the tree is incomplete. -/
inductive Permitted (incomplete : Prop) : Error → Prop where
  | formula (error : Formula.Error) : Permitted incomplete (.formula error)
  | unknownColor (name : String) (suggestions : List String) :
      Permitted incomplete (.unknownColor name suggestions)
  | colorOutOfRange (code : String) : Permitted incomplete (.colorOutOfRange code)
  | invalidLocale (tag : String) (fault : Locale.TagFault) :
      Permitted incomplete (.locale (.invalidTag tag fault))
  | timestamp : Permitted incomplete (.locale .timestampOutOfRange)
  | missingCase (form : String) (available : List String) (missing : incomplete) :
      Permitted incomplete (.missingCase form available)

/-- The error for a local time outside the calendar, where a moment with some property has
    one. -/
def GivenUp (P : Typed → Prop) (error : Error) : Prop :=
  error = .locale .localTimeOutOfRange ∧ ∃ moment, P (.moment moment) ∧ moment.LeavesCalendar

end Render

end ChatMarkup
