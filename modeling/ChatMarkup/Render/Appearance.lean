/-
  ChatMarkup/Render/Appearance.lean
  =================================
  **What a tree says** — the characters that it is to show and the style of each, by
  rules that know nothing of control characters: a character has the styles of the
  elements around it, and of several colours for a channel the innermost one.
-/
import ChatMarkup.Render.Tree
import ChatMarkup.Wire.Display

namespace ChatMarkup.Render

open Wire (Glyph glyphs)

/-! ### Loops -/

/-- A loop runs over one variable and calls its entries by another, and all its names are valid. -/
structure RunsOver (tag : Markup.Tag) (source item : String) : Prop where
  fromGiven : tag.attribute? "from" = some source
  itemGiven : tag.attribute? "item" = some item
  sourceNamed : Formula.isName source = true
  itemNamed : Formula.isName item = true
  keyNamed : ∀ key, tag.attribute? "key" = some key → Formula.isName key = true

/-- What stands between two entries, either attribute being good for it. -/
def between? (tag : Markup.Tag) : Option String :=
  (tag.attribute? "separator").or (tag.attribute? "sep")

/-- What stands before the last entry. What stands between the others is good for it, too, but
    only where it is given. -/
def beforeLast? (tag : Markup.Tag) : Option String :=
  ((tag.attribute? "last_separator").or (tag.attribute? "last")).or (between? tag)

/-- What is visible for an entry: the item, behind it the key, and behind both what is visible
    around the loop. -/
def entryScope (styler : Styler) (scope : Scope) (item : String) (key : Option String)
    (entry : String × Value) : Scope :=
  (match key with
    | none => scope.child
    | some key => scope.child.bind key (.typed (styler.wrappers.str entry.1))).bind item
      (entry.2.wrap styler.wrappers)

/-! ### Nodes -/

mutual

/-- What a node in some style and scope says. -/
inductive Says (styler : Styler) : Style → Scope → Markup.Node → List Glyph → Prop where
  | text {style scope} {text : String} :
      Says styler style scope (.text text) (glyphs style text.toList)
  | var {style scope tag children formula value text} (role : Role.ofName tag.name = .var)
      (attr : tag.attribute? "name" = some formula)
      (computed : Formula.evaluate scope formula = .ok value)
      (shown : styler.display value = .ok text) :
      Says styler style scope (.element tag children) (glyphs style text)
  | bold {style scope tag children said} (role : Role.ofName tag.name = .bold)
      (inside : SaysAll styler { style with bold := true } scope children said) :
      Says styler style scope (.element tag children) said
  | underline {style scope tag children said} (role : Role.ofName tag.name = .underline)
      (inside : SaysAll styler { style with underline := true } scope children said) :
      Says styler style scope (.element tag children) said
  | color {style colored scope tag children said} (role : Role.ofName tag.name = .color)
      (colors : recolored tag style = .ok colored)
      (inside : SaysAll styler colored scope children said) :
      Says styler style scope (.element tag children) said
  | loop {style scope tag children source item entries parts said}
      (role : Role.ofName tag.name = .loop) (runsOver : RunsOver tag source item)
      (array : scope.get? source = some (.array entries))
      (inside : SaysEach styler style scope item (tag.attribute? "key") children entries parts)
      -- separators are in the style around the loop, as its entries are
      (series : Text.Series (glyphs style ((between? tag).getD ", ").toList)
        (glyphs style ((beforeLast? tag).getD " & ").toList) parts said) :
      Says styler style scope (.element tag children) said
  | plural {style scope tag children formula value count cases form said}
      (role : Role.ofName tag.name = .plural) (attr : tag.attribute? "var" = some formula)
      (computed : Formula.evaluate scope formula = .ok value) (counted : countOf value = .ok count)
      (inside : SaysCases styler style scope children cases)
      (chosen : styler.service.chooseForm styler.locale count
        (Text.nameSet (cases.map Prod.fst)) = .ok form)
      (present : cases.lookup form = some said) :
      Says styler style scope (.element tag children) said
  | transparent {style scope tag children said} (role : Role.ofName tag.name = .transparent)
      (inside : SaysAll styler style scope children said) :
      Says styler style scope (.element tag children) said

inductive SaysAll (styler : Styler) : Style → Scope → List Markup.Node → List Glyph → Prop where
  | nil {style scope} : SaysAll styler style scope [] []
  | cons {style scope node nodes first more} (head : Says styler style scope node first)
      (tail : SaysAll styler style scope nodes more) :
      SaysAll styler style scope (node :: nodes) (first ++ more)

inductive SaysEach (styler : Styler) : Style → Scope → String → Option String →
    List Markup.Node → Entries → List (List Glyph) → Prop where
  | nil {style scope item key body} : SaysEach styler style scope item key body [] []
  | cons {style scope item key body entry entries first more}
      (head : SaysAll styler style (entryScope styler scope item key entry) body first)
      (tail : SaysEach styler style scope item key body entries more) :
      SaysEach styler style scope item key body (entry :: entries) (first :: more)

inductive SaysCases (styler : Styler) :
    Style → Scope → List Markup.Node → List (String × List Glyph) → Prop where
  | nil {style scope} : SaysCases styler style scope [] []
  | case {style scope tag children nodes form said cases} (name : tag.name = "case")
      (attr : tag.attribute? "form" = some form)
      (inside : SaysAll styler style scope children said)
      (tail : SaysCases styler style scope nodes cases) :
      SaysCases styler style scope (.element tag children :: nodes) ((form, said) :: cases)
  | text {style scope text nodes cases} (tail : SaysCases styler style scope nodes cases) :
      SaysCases styler style scope (.text text :: nodes) cases
  -- an element among the cases that is none is passed over, with all that is in it
  | other {style scope tag children nodes cases} (name : tag.name ≠ "case")
      (tail : SaysCases styler style scope nodes cases) :
      SaysCases styler style scope (.element tag children :: nodes) cases

end

end ChatMarkup.Render
