/-
  ChatMarkup/Proofs/Render/Plain.lean
  ===================================
  **Templates without markup** — such a template goes out as it is, and is never read.  Had it
  been (`Styler.renderAnyway`), its tree would be a single text, nothing would be wrong with it,
  and it would be cleaned up (`render_plain`).

  So the two ways come to the same exactly where there is nothing to clean up, in particular
  without colour characters.  Others differ: what looks like a colour sequence goes out from a
  template without markup, and not from one with it (`render_plain_comma`).
-/
import ChatMarkup.Proofs.Markup.Grammar
import ChatMarkup.Proofs.Wire.Removal
import ChatMarkup.Render.Template

namespace ChatMarkup

/-! ### The tree of a text -/

namespace Markup

def textNodes (text : String) : List Node := if text = "" then [] else [.text text]

/-- Where they stand for themselves, characters spell a text. -/
theorem spellsText_self {plain : Char → Prop} {text : List Char} (all : ∀ c ∈ text, plain c) :
    SpellsText plain text text := by
  induction text with
  | nil => exact .nil
  | cons c text ih =>
    obtain ⟨self, others⟩ := List.forall_mem_cons.mp all
    exact .cons (.raw self) (ih others)

theorem canonical_textNodes (text : String) : (root (textNodes text)).Canonical := by
  unfold textNodes
  split
  · exact ⟨rfl, trivial, by simp [root]⟩
  · rename_i some
    exact ⟨rfl, trivial, by simpa [root] using Canonical.text some⟩

theorem spells_textNodes {text : String} (plain : ∀ c ∈ text.toList, PlainText c) :
    SpellsNodes (textNodes text) text.toList := by
  unfold textNodes
  split
  · rename_i empty
    rw [empty]
    exact .nil
  · have node : SpellsNode (.text text) text.toList := .text (spellsText_self plain)
    rw [← List.append_nil text.toList]
    exact .cons node .nil

theorem read_textNodes {template : String} (plain : ∀ c ∈ template.toList, PlainText c) :
    read template = .ok (root (textNodes template)) :=
  read_of_canonical (canonical_textNodes template) (spells_textNodes plain)

theorem checkRoot_textNodes (text : String) : checkRoot (root (textNodes text)) = [] := by
  unfold textNodes
  split
  · rfl
  · rfl

end Markup

namespace Render

open Markup (PlainText textNodes)

variable {styler : Styler} {vars : Variables} {template : String}

def Styler.renderAnyway (styler : Styler) (template : String) (vars : Variables) :
    Except Error String := do
  let root ← (Markup.read template).mapError .markup
  match styler.validator.check root with
  | [] => styler.renderTree root vars
  | diagnostics => .error (.invalidTemplate diagnostics)

/-- A template is rendered in either of two ways. -/
theorem Styler.render_eq (styler : Styler) (template : String) (vars : Variables) :
    styler.render template vars =
      if hasMarkup template then styler.renderAnyway template vars else .ok template := rfl

theorem hasMarkup_eq_false_iff :
    Styler.hasMarkup template = false ↔ ∀ c ∈ template.toList, PlainText c := by
  simp [Styler.hasMarkup, PlainText]

theorem renderNodes_textNodes (style : Style) (scope : Scope) (text : String) :
    renderNodes styler style scope (textNodes text) = .ok text.toList := by
  unfold textNodes
  split
  · rename_i empty
    rw [empty, renderNodes]
    rfl
  · rw [renderNodes, renderNode, ok_bind, renderNodes, ok_bind, List.append_nil]

theorem renderTree_textNodes (styler : Styler) (named : ∀ var ∈ vars, Formula.isName var.1 = true)
    (text : String) :
    styler.renderTree (Markup.root (textNodes text)) vars =
      .ok (String.ofList (Wire.cleanUp text.toList)) := by
  rw [Styler.renderTree, styler.rootScope_of_named named, ok_bind, Markup.root,
    renderNodes_textNodes, ok_bind]

/-- **A template without markup goes out as it is**, for any variables with valid names.  Read, it
    is a tree with nothing but its text, in which there is nothing to report, and it is rendered
    as the cleaned-up text.  The two agree exactly where no rule of the clean-up applies, and so
    without colour characters. -/
theorem render_plain (schema : styler.validator = Markup.Validator.schema)
    (plain : ∀ c ∈ template.toList, PlainText c)
    (named : ∀ var ∈ vars, Formula.isName var.1 = true) :
    let tree := Markup.root (textNodes template)
    Markup.read template = .ok tree ∧ Markup.checkRoot tree = [] ∧
      styler.renderTree tree vars = .ok (String.ofList (Wire.cleanUp template.toList)) ∧
      styler.render template vars = .ok template ∧
      (styler.render template vars = styler.renderAnyway template vars ↔
        Wire.cleanUp template.toList = template.toList) ∧
      (Wire.cleanUp template.toList = template.toList ↔ Wire.Settled template.toList) ∧
      (Wire.color ∉ template.toList →
        styler.render template vars = styler.renderAnyway template vars) := by
  intro tree
  have read : Markup.read template = .ok tree := Markup.read_textNodes plain
  have checked : Markup.checkRoot tree = [] := Markup.checkRoot_textNodes template
  have rendered := renderTree_textNodes styler named template
  have fast : styler.render template vars = .ok template := by
    rw [styler.render_eq, hasMarkup_eq_false_iff.mpr plain]
    rfl
  have slow : styler.renderAnyway template vars =
      .ok (String.ofList (Wire.cleanUp template.toList)) := by
    have schema_check : styler.validator.check tree = [] := by
      rw [schema]
      exact checked
    rw [Styler.renderAnyway, read]
    show (match styler.validator.check tree with
      | [] => styler.renderTree tree vars
      | diagnostics => .error (.invalidTemplate diagnostics)) = _
    rw [schema_check]
    exact rendered
  have agree : styler.render template vars = styler.renderAnyway template vars ↔
      Wire.cleanUp template.toList = template.toList := by
    rw [fast, slow, Except.ok.injEq, ← String.toList_inj, String.toList_ofList, eq_comm]
  refine ⟨read, checked, rendered, fast, agree, Wire.cleanUp_eq_self_iff, fun free => ?_⟩
  exact agree.mpr (Wire.cleanUp_of_settled (Wire.settled_of_color_not_mem free))

/-- A colour character with a comma that no code follows goes out only if it is not read. -/
theorem render_plain_comma :
    let template := "\x03,x"
    let vars : Variables := [("n", .int 1)]
    (∀ c ∈ template.toList, PlainText c) ∧ (∀ var ∈ vars, Formula.isName var.1 = true) ∧
      ({} : Styler).render template vars = .ok template ∧
      ({} : Styler).renderTree (Markup.root [.text template]) vars = .ok "x" ∧
      ({} : Styler).render template vars ≠ ({} : Styler).renderAnyway template vars := by
  intro template vars
  have plain : ∀ c ∈ template.toList, PlainText c := hasMarkup_eq_false_iff.mp (by decide)
  have named : ∀ var ∈ vars, Formula.isName var.1 = true := by decide
  have cleaned : Wire.cleanUp template.toList = ['x'] := by decide +kernel
  obtain ⟨-, -, rendered, fast, agree, -⟩ := @render_plain {} vars template rfl plain named
  rw [cleaned] at rendered agree
  exact ⟨plain, named, fast, rendered, fun same => absurd (agree.mp same) (by decide)⟩

end Render

end ChatMarkup
