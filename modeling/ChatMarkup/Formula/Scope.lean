/-
  ChatMarkup/Formula/Scope.lean
  =============================
  **Scopes** — the variables visible in a part of a template. Scopes are layered: a loop
  binds its item in a layer of its own over the enclosing ones, and the innermost layer
  that binds a name decides.
-/
import ChatMarkup.Value.Basic

namespace ChatMarkup

/-- The bindings of one layer, the latest first. -/
abbrev Bindings := List (String × Value)

/-- The layers of bindings that are visible at some point. -/
structure Scope where
  innermost : Bindings
  enclosing : List Bindings

namespace Scope

def empty : Scope := ⟨[], []⟩

def layers (scope : Scope) : List Bindings := scope.innermost :: scope.enclosing

def child (scope : Scope) : Scope := ⟨[], scope.layers⟩

/-- The scope without its innermost layer, unless that is the only one. -/
def parent? (scope : Scope) : Option Scope :=
  match scope.enclosing with
  | [] => none
  | layer :: rest => some ⟨layer, rest⟩

/-- Binds a name in the innermost layer, in place of an earlier binding there. -/
def bind (scope : Scope) (name : String) (value : Value) : Scope :=
  ⟨(name, value) :: scope.innermost, scope.enclosing⟩

def get? (scope : Scope) (name : String) : Option Value :=
  scope.layers.findSome? fun layer => layer.lookup name

@[simp] theorem get?_empty (name : String) : empty.get? name = none := rfl

@[simp] theorem get?_child (scope : Scope) (name : String) :
    scope.child.get? name = scope.get? name := rfl

theorem get?_bind_self (scope : Scope) (name : String) (value : Value) :
    (scope.bind name value).get? name = some value := by
  simp [bind, get?, layers]

theorem get?_bind_of_ne (scope : Scope) {name other : String} (value : Value)
    (h : other ≠ name) : (scope.bind name value).get? other = scope.get? other := by
  have absent : (other == name) = false := by simpa using h
  simp [bind, get?, layers, List.findSome?_cons, List.lookup_cons, absent]

end Scope

end ChatMarkup
