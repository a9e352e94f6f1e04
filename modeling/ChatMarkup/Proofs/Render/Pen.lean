/-
  ChatMarkup/Proofs/Render/Pen.lean
  =================================
  **A pen draws what is rendered** — whatever is drawn, the pen comes back with the style that it
  had, and behind what it had written stands the rendered text (`drawNode_eq`); and the
  drawing fails just where the rendering does, with the same error.

  The recursion is over the tree.  For the children of an element it says that they leave the
  style inside the element as it was, so what leads back from there leads back from the
  style that the element itself had set.  A loop is drawn by the index of its entries; behind
  the first of them, that makes a series (`separated_eq`).
-/
import ChatMarkup.Proofs.Result
import ChatMarkup.Render.Pen

namespace ChatMarkup.Render

open Markup (Node Tag)

/-! ### Pens -/

namespace Pen

theorem write_nil (pen : Pen) : pen.write [] = pen := by
  rw [write, List.append_nil]

theorem write_write (pen : Pen) (text more : List Char) :
    (pen.write text).write more = pen.write (text ++ more) := by
  rw [write, write, write, List.append_assoc]

/-- A text between two toggles, drawn in a style of its own. -/
theorem toggle_write_toggle (pen : Pen) (isOn : Bool) (toggle : Char) (style : Style)
    (text : List Char) :
    ((((pen.toggle isOn toggle).restyle style).write text).toggle isOn toggle).restyle pen.style =
      pen.write (toggled isOn toggle text) := by
  cases isOn with
  | true => rfl
  | false =>
    simp only [Pen.toggle, restyle, write, toggled, Bool.false_eq_true, if_false,
      List.append_assoc, List.cons_append, List.nil_append]

/-- A text between two sequences of colours, drawn in a style of its own. -/
theorem write_write_write (pen : Pen) (before text after : List Char) (style : Style) :
    ((((pen.write before).restyle style).write text).write after).restyle pen.style =
      pen.write (before ++ text ++ after) := by
  simp only [write, restyle, List.append_assoc]

end Pen

variable {styler : Styler} {scope : Scope} {pen : Pen} {tag : Tag} {children nodes : List Node}

/-! ### Loops -/

/-- What is written for the entries from an index on. -/
def separated (loop : Loop) (total index : Nat) : List (List Char) → List Char
  | [] => []
  | text :: texts => loop.separatorAt total index ++ text ++ separated loop total (index + 1) texts

/-- Behind a first text, the others make a series with it. -/
theorem append_separated {loop : Loop} {total index : Nat} {texts : List (List Char)}
    (later : index ≠ 0) (length : index + texts.length = total) (text : List Char) :
    text ++ separated loop total index texts =
      Text.joinSeries loop.separator loop.lastSeparator (text :: texts) := by
  induction texts generalizing index text with
  | nil => rw [separated, List.append_nil, Text.joinSeries]
  | cons next texts ih =>
    rw [List.length_cons] at length
    -- not the first entry, so there is a separator; which one depends on whether more follow
    rw [separated, Loop.separatorAt, if_neg later, List.append_assoc,
      ih (Nat.succ_ne_zero index) (by omega) next]
    cases texts with
    | nil =>
      rw [List.length_nil] at length
      rw [if_pos length, Text.joinSeries, Text.joinSeries, List.append_assoc]
    | cons other texts =>
      rw [List.length_cons] at length
      rw [if_neg (by omega), ← List.append_assoc]
      rfl

/-- **Separators by index make a series.** -/
theorem separated_eq (loop : Loop) (texts : List (List Char)) :
    separated loop texts.length 0 texts =
      Text.joinSeries loop.separator loop.lastSeparator texts := by
  cases texts with
  | nil => rfl
  | cons text texts =>
    have length : 1 + texts.length = (text :: texts).length := by
      rw [List.length_cons, Nat.add_comm]
    rw [separated, Loop.separatorAt, if_pos rfl, List.nil_append]
    exact append_separated Nat.one_ne_zero length text

/-- **A pen that is handed from entry to entry** writes their texts with separators, if every
    entry leaves its style alone. -/
theorem foldlM_separated {draw : Pen → String × Value → Except Error Pen}
    {render : String × Value → Except Error (List Char)} {style : Style} (loop : Loop)
    (total : Nat)
    (each : ∀ entry pen, pen.style = style → draw pen entry = (render entry).map pen.write)
    (entries : Entries) (index : Nat) (pen : Pen) (same : pen.style = style) :
    (entries.zipIdx index).foldlM
        (fun pen entry => draw (pen.write (loop.separatorAt total entry.2)) entry.1) pen =
      (entries.mapM render).map fun texts => pen.write (separated loop total index texts) := by
  induction entries generalizing index pen with
  | nil =>
    rw [List.zipIdx_nil, List.foldlM_nil, List.mapM_nil]
    exact congrArg Except.ok pen.write_nil.symm
  | cons entry entries ih =>
    have first : draw (pen.write (loop.separatorAt total index)) entry =
        (render entry).map (pen.write (loop.separatorAt total index)).write := each entry _ same
    rw [List.zipIdx_cons, List.foldlM_cons, List.mapM_cons, first]
    cases render entry with
    | error error => rfl
    | ok text =>
      -- the separator and the text do not change the style that the next entry begins in
      have others := ih (index + 1) ((pen.write (loop.separatorAt total index)).write text) same
      refine Eq.trans others ?_
      cases entries.mapM render with
      | error error => rfl
      | ok texts =>
        have whole : ((pen.write (loop.separatorAt total index)).write text).write
            (separated loop total (index + 1) texts) =
              pen.write (separated loop total index (text :: texts)) := by
          rw [Pen.write_write, Pen.write_write, ← List.append_assoc]
          rfl
        exact congrArg Except.ok whole

/-! ### Elements by their roles -/

/-- Whatever the pen, a node is drawn as it is rendered in the style of the pen. -/
def DrawnNode (styler : Styler) (node : Node) : Prop :=
  ∀ scope pen, drawNode styler scope pen node =
    (renderNode styler pen.style scope node).map pen.write

def Drawn (styler : Styler) (nodes : List Node) : Prop :=
  ∀ scope pen, drawNodes styler scope pen nodes =
    (renderNodes styler pen.style scope nodes).map pen.write

theorem drawn_var (role : Role.ofName tag.name = .var) :
    DrawnNode styler (.element tag children) := by
  intro scope pen
  simp only [drawNode, renderNode, role, map_bind]
  cases attributeValue scope tag "name" with
  | error error => rfl
  | ok value => cases styler.display value <;> rfl

/-- The children of an element are drawn between its way in and its way out. -/
theorem draw_enclosed (inside : Drawn styler children) (entered : Pen) (leave : Pen → Pen)
    (enclose : List Char → List Char)
    (left : ∀ text, leave (entered.write text) = pen.write (enclose text)) :
    (drawNodes styler scope entered children >>= fun drawn => .ok (leave drawn)) =
      (renderNodes styler entered.style scope children >>= fun text => .ok (enclose text)).map
        pen.write := by
  rw [inside]
  cases renderNodes styler entered.style scope children with
  | error error => rfl
  | ok text => exact congrArg Except.ok (left text)

theorem drawn_bold (role : Role.ofName tag.name = .bold) (inside : Drawn styler children) :
    DrawnNode styler (.element tag children) := by
  intro scope pen
  simp only [drawNode, renderNode, role]
  apply draw_enclosed inside _ fun drawn => (drawn.toggle _ _).restyle _
  intro text
  exact pen.toggle_write_toggle _ _ _ text

theorem drawn_underline (role : Role.ofName tag.name = .underline)
    (inside : Drawn styler children) : DrawnNode styler (.element tag children) := by
  intro scope pen
  simp only [drawNode, renderNode, role]
  apply draw_enclosed inside _ fun drawn => (drawn.toggle _ _).restyle _
  intro text
  exact pen.toggle_write_toggle _ _ _ text

theorem drawn_color (role : Role.ofName tag.name = .color) (inside : Drawn styler children) :
    DrawnNode styler (.element tag children) := by
  intro scope pen
  simp only [drawNode, renderNode, role]
  cases recolored tag pen.style with
  | error error => rfl
  | ok colored =>
    apply draw_enclosed inside _
      fun drawn => (drawn.write (switchColors drawn.style pen.style)).restyle pen.style
    intro text
    exact pen.write_write_write _ text _ colored

theorem drawn_loop (role : Role.ofName tag.name = .loop) (inside : Drawn styler children) :
    DrawnNode styler (.element tag children) := by
  intro scope pen
  simp only [drawNode, renderNode, role]
  cases Loop.ofTag tag with
  | error error => rfl
  | ok loop =>
    simp only [ok_bind]
    cases loop.entries scope with
    | error error => rfl
    | ok entries =>
      have each (entry : String × Value) (between : Pen) (same : between.style = pen.style) :
          drawNodes styler (loop.scopeFor styler.wrappers scope entry) between children =
            (renderNodes styler pen.style (loop.scopeFor styler.wrappers scope entry)
              children).map between.write := by
        rw [inside, same]
      simp only [ok_bind]
      rw [foldlM_separated loop entries.length each entries 0 pen rfl]
      cases rendered : entries.mapM fun entry => renderNodes styler pen.style
          (loop.scopeFor styler.wrappers scope entry) children with
      | error error => rfl
      | ok texts =>
        have length : entries.length = texts.length := (mapM_eq_ok_iff.mp rendered).length_eq
        have series : pen.write (separated loop entries.length 0 texts) =
            pen.write (Text.joinSeries loop.separator loop.lastSeparator texts) := by
          rw [length, separated_eq]
        exact congrArg Except.ok series

theorem drawn_transparent (role : Role.ofName tag.name = .transparent)
    (inside : Drawn styler children) : DrawnNode styler (.element tag children) := by
  intro scope pen
  simp only [drawNode, renderNode, role]
  exact inside scope pen

theorem drawn_plural (role : Role.ofName tag.name = .plural)
    (inside : ∀ scope style, drawCases styler scope style children =
      renderCases styler style scope children) : DrawnNode styler (.element tag children) := by
  intro scope pen
  simp only [drawNode, renderNode, role, inside, map_bind]
  rfl

/-! ### Trees -/

mutual

/-- **A pen draws what is rendered**, behind what it has written before, and keeps its style. -/
theorem drawNode_eq (styler : Styler) : ∀ (node : Node) (scope : Scope) (pen : Pen),
    drawNode styler scope pen node = (renderNode styler pen.style scope node).map pen.write
  | .text text => fun _ _ => rfl
  | .element tag children => by
    -- one lemma for each role, given what the recursion says of the children
    cases role : Role.ofName tag.name with
    | var => exact drawn_var role
    | bold => exact drawn_bold role (drawNodes_eq styler children)
    | underline => exact drawn_underline role (drawNodes_eq styler children)
    | color => exact drawn_color role (drawNodes_eq styler children)
    | loop => exact drawn_loop role (drawNodes_eq styler children)
    | plural => exact drawn_plural role (drawCases_eq styler children)
    | transparent => exact drawn_transparent role (drawNodes_eq styler children)

theorem drawNodes_eq (styler : Styler) : ∀ (nodes : List Node) (scope : Scope) (pen : Pen),
    drawNodes styler scope pen nodes = (renderNodes styler pen.style scope nodes).map pen.write
  | [] => fun _ pen => congrArg Except.ok pen.write_nil.symm
  | node :: nodes => by
    intro scope pen
    rw [drawNodes, renderNodes, drawNode_eq styler node]
    cases renderNode styler pen.style scope node with
    | error error => rfl
    | ok text =>
      refine Eq.trans (drawNodes_eq styler nodes scope (pen.write text)) ?_
      have style : (pen.write text).style = pen.style := rfl
      rw [style, ok_bind]
      cases renderNodes styler pen.style scope nodes with
      | error error => rfl
      | ok more => exact congrArg Except.ok (pen.write_write text more)

theorem drawCases_eq (styler : Styler) : ∀ (nodes : List Node) (scope : Scope) (style : Style),
    drawCases styler scope style nodes = renderCases styler style scope nodes
  | [] => fun _ _ => rfl
  | .text _ :: nodes => by
    intro scope style
    rw [drawCases, renderCases, drawCases_eq styler nodes]
  | .element tag children :: nodes => by
    intro scope style
    rw [drawCases, renderCases, drawCases_eq styler nodes, drawNodes_eq styler children]
    have fresh : (Pen.fresh style).style = style := rfl
    rw [fresh]
    split
    · cases required tag "form" with
      | error error => rfl
      | ok form =>
        cases renderNodes styler style scope children with
        | error error => rfl
        | ok text => rfl
    · rfl

end

end ChatMarkup.Render
