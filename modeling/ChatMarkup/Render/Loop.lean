/-
  ChatMarkup/Render/Loop.lean
  ===========================
  **Loops** — what a `for` element runs over, what it binds for each entry, and what it
  puts between the texts of the entries.
-/
import ChatMarkup.Formula.Operand
import ChatMarkup.Markup.Node
import ChatMarkup.Render.Error

namespace ChatMarkup.Render

def required (tag : Markup.Tag) (attr : String) : Except Error String :=
  match tag.attribute? attr with
  | some value => .ok value
  | none => .error (.missingAttribute tag.name attr)

theorem required_eq_ok {tag : Markup.Tag} {attr value : String} :
    required tag attr = .ok value ↔ tag.attribute? attr = some value := by
  unfold required
  cases tag.attribute? attr <;> simp

def checkName (name : String) : Except Error Unit :=
  if Formula.isName name then .ok () else .error (.invalidName name)

structure Loop where
  source : String
  item : String
  key : Option String
  separator : List Char
  lastSeparator : List Char
  deriving DecidableEq, Repr

namespace Loop

def defaultSeparator : String := ", "

def defaultLastSeparator : String := " & "

/-- The loop of a `for` element. A separator given without one for the last pair serves
    there, too. -/
def ofTag (tag : Markup.Tag) : Except Error Loop := do
  let source ← required tag "from"
  let item ← required tag "item"
  let key := tag.attribute? "key"
  -- the names are checked once all attributes are there, the key last
  checkName source
  checkName item
  key.forM checkName
  let separator := tag.firstAttribute? ["separator", "sep"]
  let last := tag.firstAttribute? ["last_separator", "last"]
  .ok {
    source, item, key
    separator := (separator.getD defaultSeparator).toList
    lastSeparator := ((last.or separator).getD defaultLastSeparator).toList }

def entries (loop : Loop) (scope : Scope) : Except Error Entries :=
  match scope.get? loop.source with
  | some (.array entries) => .ok entries
  | some other => .error (.unfit (.notIterable loop.source other.kind))
  | none => .error (.formula (.undefinedVariable loop.source))

/-- The scope for one entry: a layer with the key, if the loop names it, and the value,
    which wins should both have the same name. -/
def scopeFor (loop : Loop) (wrappers : Wrappers) (scope : Scope) (entry : String × Value) :
    Scope :=
  let layer := match loop.key with
    | none => scope.child
    | some key => scope.child.bind key (.typed (wrappers.str entry.1))
  layer.bind loop.item (entry.2.wrap wrappers)

/-- What is visible for an entry: the item, behind it the key, and behind both what is
    visible around the loop. -/
theorem get?_scopeFor (loop : Loop) (wrappers : Wrappers) (scope : Scope)
    (entry : String × Value) (name : String) :
    (loop.scopeFor wrappers scope entry).get? name =
      if name = loop.item then some (entry.2.wrap wrappers)
      else if loop.key = some name then some (.typed (wrappers.str entry.1))
      else scope.get? name := by
  unfold scopeFor
  by_cases item : name = loop.item
  · rw [if_pos item, item, Scope.get?_bind_self]
  · rw [if_neg item, Scope.get?_bind_of_ne _ _ item]
    cases loop.key with
    | none => simp
    | some key =>
      by_cases same : key = name
      · simp [same, Scope.get?_bind_self]
      · simp [same, Scope.get?_bind_of_ne _ _ (Ne.symm same)]

end Loop

end ChatMarkup.Render
