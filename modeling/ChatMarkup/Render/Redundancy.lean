/-
  ChatMarkup/Render/Redundancy.lean
  =================================
  **Elements that change nothing** — those that turn on what is on already, that set colours
  which are set already, or that have no meaning at all.

  What is on at a place depends on the elements around it.
-/
import ChatMarkup.Render.Visit

namespace ChatMarkup.Render

open Markup (Node Tag)

/-- The colour of a channel inside some elements, the outermost of them first.  One that sets the
    channel hides those around it. -/
def activeColor (attr : String) (enclosing : List Tag) : Option Color :=
  enclosing.foldl
    (fun active tag => if tag.name = "color" then (setBy tag attr).or active else active) none

/-- Inside some elements, another one changes nothing. -/
inductive Redundant (enclosing : List Tag) (tag : Tag) : Prop where
  | bold (name : tag.name = "b") (around : ∃ outer ∈ enclosing, outer.name = "b")
  | underline (name : tag.name = "u") (around : ∃ outer ∈ enclosing, outer.name = "u")
  | color (name : tag.name = "color")
      (given : ∃ attr ∈ ["fg", "bg"], ∃ value, tag.attribute? attr = some value ∧ value ≠ "")
      (active : ∀ attr ∈ ["fg", "bg"], ∀ value, tag.attribute? attr = some value → value ≠ "" →
        ∃ code, readColor value = .ok code ∧ activeColor attr enclosing = some code)
  | meaningless (name : tag.name ∉ ["var", "b", "u", "color", "for", "plural"])

/-- Some nodes inside elements nested in each other, the outermost first. -/
def nested (tags : List Tag) (nodes : List Node) : List Node :=
  tags.foldr (fun tag inside => [.element tag inside]) nodes

end ChatMarkup.Render
