/-
  ChatMarkup/Proofs/Render/Redundancy.lean
  ========================================
  **What changes nothing can be left out** — an element that is redundant inside the elements
  around it can be replaced by its children, anywhere but directly inside a plural
  (`renderTree_redundant`).

  The style at a place has what the elements around it have turned on or set
  (`bold_styleAt`, `foreground_styleAt`).  So a redundant element takes that style to itself:
  what it writes on the way in and on the way out is nothing, and its children are rendered
  as if they were in its place.

  The root of a tree is not among the elements around a place: it is there to hold the nodes
  of the template, and what it is called makes no difference (`not_redundant_in_root`).
-/
import ChatMarkup.Proofs.Render.Pen
import ChatMarkup.Proofs.Render.Visit
import ChatMarkup.Render.Redundancy

namespace ChatMarkup.Render

open Markup (Node Tag Context)

variable {styler : Styler} {style : Style} {scope : Scope} {tag : Tag} {tags : List Tag}
  {children : List Node} {context : Context} {vars : Variables}

/-! ### The style at a place -/

theorem bold_innerStyle (style : Style) (tag : Tag) :
    (innerStyle style tag).bold = (style.bold || decide (tag.name = "b")) := by
  unfold innerStyle Role.ofName
  split_ifs <;> simp_all

theorem underline_innerStyle (style : Style) (tag : Tag) :
    (innerStyle style tag).underline = (style.underline || decide (tag.name = "u")) := by
  unfold innerStyle Role.ofName
  split_ifs <;> simp_all

theorem foreground_innerStyle (style : Style) (tag : Tag) :
    (innerStyle style tag).foreground =
      if tag.name = "color" then (setBy tag "fg").or style.foreground else style.foreground := by
  unfold innerStyle Role.ofName
  split_ifs <;> simp_all

theorem background_innerStyle (style : Style) (tag : Tag) :
    (innerStyle style tag).background =
      if tag.name = "color" then (setBy tag "bg").or style.background else style.background := by
  unfold innerStyle Role.ofName
  split_ifs <;> simp_all

/-- What elements of one name turn on is on inside one of them. -/
theorem isOn_styleAt {isOn : Style → Bool} {name : String}
    (step : ∀ style tag, isOn (innerStyle style tag) = (isOn style || decide (tag.name = name)))
    (around : ∃ outer ∈ context.enclosing, outer.name = name) :
    isOn (styleAt style context) = true := by
  have isOn_foldl (tags : List Tag) : isOn (tags.foldl innerStyle style) =
      (isOn style || tags.any fun tag => tag.name = name) := by
    induction tags generalizing style with
    | nil => simp
    | cons tag tags ih => rw [List.foldl_cons, ih, step, List.any_cons, Bool.or_assoc]
  have found : context.enclosing.any (fun tag => tag.name = name) = true := by
    simpa using around
  rw [styleAt, isOn_foldl, found, Bool.or_true]

/-- A channel has the colour that was set last on the way to the place. -/
theorem channel_styleAt {set : Style → Option Color} {attr : String}
    (step : ∀ style tag, set (innerStyle style tag) =
      if tag.name = "color" then (setBy tag attr).or (set style) else set style)
    (plain : set .plain = none) :
    set (styleAt .plain context) = activeColor attr context.enclosing := by
  rw [styleAt, activeColor, ← plain]
  exact (List.foldl_hom set fun style tag => (step style tag).symm).symm

/-! ### Redundant elements -/

theorem toggled_true (toggle : Char) (text : List Char) : toggled true toggle text = text := rfl

theorem renderNode_bold_of_bold (name : tag.name = "b") (bold : style.bold = true) :
    renderNode styler style scope (.element tag children) =
      renderNodes styler style scope children := by
  have role : Role.ofName tag.name = .bold := congrArg Role.ofName name
  have same : { style with bold := true } = style := by
    rw [← bold]
  simp only [renderNode, role, same, bold, toggled_true, bind_ok]

theorem renderNode_underline_of_underline (name : tag.name = "u")
    (underline : style.underline = true) :
    renderNode styler style scope (.element tag children) =
      renderNodes styler style scope children := by
  have role : Role.ofName tag.name = .underline := congrArg Role.ofName name
  have same : { style with underline := true } = style := by
    rw [← underline]
  simp only [renderNode, role, same, underline, toggled_true, bind_ok]

theorem switchColors_self (style : Style) : switchColors style style = [] := by
  simp [switchColors, channelSwitch, Wire.colorSequence, Wire.colorSequence?]

/-- A channel that is not given, or given as it is, stays as it is. -/
theorem channel_of_active {attr : String} {active : Option Color}
    (same : ∀ value, tag.attribute? attr = some value → value ≠ "" →
      ∃ code, readColor value = .ok code ∧ active = some code) :
    ∃ code, channel tag attr = .ok code ∧ code.or active = active ∧
      ((∃ value, tag.attribute? attr = some value ∧ value ≠ "") → code.isSome) := by
  unfold channel
  cases given : tag.attribute? attr with
  | none => exact ⟨none, rfl, rfl, by simp⟩
  | some value =>
    by_cases empty : value = ""
    · exact ⟨none, by simp [empty], rfl, by simp [empty]⟩
    · obtain ⟨code, read, rfl⟩ := same value given empty
      exact ⟨some code, by simp [empty, read, Except.map], rfl, by simp⟩

theorem recolored_self
    (given : ∃ attr ∈ ["fg", "bg"], ∃ value, tag.attribute? attr = some value ∧ value ≠ "")
    (foreground : ∀ value, tag.attribute? "fg" = some value → value ≠ "" →
      ∃ code, readColor value = .ok code ∧ style.foreground = some code)
    (background : ∀ value, tag.attribute? "bg" = some value → value ≠ "" →
      ∃ code, readColor value = .ok code ∧ style.background = some code) :
    recolored tag style = .ok style := by
  obtain ⟨fg, readFg, keptFg, someFg⟩ := channel_of_active foreground
  obtain ⟨bg, readBg, keptBg, someBg⟩ := channel_of_active background
  have some : ¬ (fg.isNone && bg.isNone) = true := by
    obtain ⟨attr, member, given⟩ := given
    rcases List.mem_pair.mp member with rfl | rfl
    · simp [Option.isSome_iff_ne_none.mp (someFg given)]
    · simp [Option.isSome_iff_ne_none.mp (someBg given)]
  rw [recolored, readFg, readBg, ok_bind, ok_bind, if_neg some, keptFg, keptBg]

theorem renderNode_color_of_recolored (name : tag.name = "color")
    (same : recolored tag style = .ok style) :
    renderNode styler style scope (.element tag children) =
      renderNodes styler style scope children := by
  have role : Role.ofName tag.name = .color := congrArg Role.ofName name
  simp only [renderNode, role, same, ok_bind, switchColors_self, List.nil_append, List.append_nil,
    bind_ok]

theorem renderNode_of_meaningless
    (name : tag.name ∉ ["var", "b", "u", "color", "for", "plural"]) :
    renderNode styler style scope (.element tag children) =
      renderNodes styler style scope children := by
  have role : Role.ofName tag.name = .transparent := by
    unfold Role.ofName
    split_ifs <;> simp_all
  simp only [renderNode, role]

/-- **A redundant element is its children**, in the style at its place. -/
theorem renderNode_of_redundant (redundant : Redundant context.enclosing tag) :
    renderNode styler (styleAt .plain context) scope (.element tag children) =
      renderNodes styler (styleAt .plain context) scope children := by
  cases redundant with
  | bold name around =>
    exact renderNode_bold_of_bold name (isOn_styleAt bold_innerStyle around)
  | underline name around =>
    exact renderNode_underline_of_underline name (isOn_styleAt underline_innerStyle around)
  | meaningless name => exact renderNode_of_meaningless name
  | color name given active =>
    apply renderNode_color_of_recolored name
    apply recolored_self given
    · rw [channel_styleAt foreground_innerStyle rfl]
      exact active "fg" (by simp)
    · rw [channel_styleAt background_innerStyle rfl]
      exact active "bg" (by simp)

/-- Inside a bold element, those nested in it change nothing. -/
theorem renderNodes_nested_of_bold (names : ∀ tag ∈ tags, tag.name = "b")
    (bold : style.bold = true) :
    renderNodes styler style scope (nested tags children) =
      renderNodes styler style scope children := by
  induction tags with
  | nil => rfl
  | cons tag tags ih =>
    obtain ⟨name, names⟩ := List.forall_mem_cons.mp names
    rw [nested, List.foldr_cons, renderNodes_singleton, renderNode_bold_of_bold name bold]
    exact ih names

/-- **Redundant elements can be left out** of a tree, whatever it is rendered as: a pen that comes
    to one in the style at its place draws its children and nothing else.  So bold elements
    nested in each other to any depth have one pair of toggles. -/
theorem renderTree_redundant (styler : Styler) :
    (∀ (context : Context) (rootTag tag : Tag) (children : List Node) (vars : Variables),
      Redundant context.enclosing tag → context.parentName? ≠ some "plural" →
      styler.renderTree ⟨rootTag, context.fill [.element tag children]⟩ vars =
        styler.renderTree ⟨rootTag, context.fill children⟩ vars) ∧
    (∀ (context : Context) (tag : Tag) (children : List Node) (scope : Scope) (pen : Pen),
      Redundant context.enclosing tag → pen.style = styleAt .plain context →
      drawNode styler scope pen (.element tag children) = drawNodes styler scope pen children) ∧
    ∀ (tags : List Tag) (children : List Node) (style : Style) (scope : Scope),
      tags ≠ [] → (∀ tag ∈ tags, tag.name = "b") → style.bold = false →
      renderNodes styler style scope (nested tags children) =
        (renderNodes styler { style with bold := true } scope children).map fun text =>
          Wire.bold :: text ++ [Wire.bold] := by
  refine ⟨?_, ?_, ?_⟩
  · intro context rootTag tag children vars redundant free
    apply renderTree_fill_congr free
    intro scope _ style' scope' visits
    rw [style_of_visits visits, renderNodes_singleton]
    exact renderNode_of_redundant redundant
  · intro context tag children scope pen redundant styled
    rw [drawNode_eq, drawNodes_eq, styled, renderNode_of_redundant redundant]
  · intro tags children style scope some names plain
    cases tags with
    | nil => exact absurd rfl some
    | cons tag tags =>
      obtain ⟨name, names⟩ := List.forall_mem_cons.mp names
      have role : Role.ofName tag.name = .bold := congrArg Role.ofName name
      rw [nested, List.foldr_cons, renderNodes_singleton]
      simp only [renderNode, role, plain]
      rw [← nested, renderNodes_nested_of_bold names rfl]
      rfl

/-- A colour that is set around a loop and a plural, given again with one channel left empty. -/
theorem renderTree_redundant_color :
    let context : Context := .inside [] ⟨"color", [("fg", "red"), ("bg", "1")]⟩
      (.inside [] ⟨"for", [("from", "xs"), ("item", "x")]⟩
        (.inside [.text "-"] ⟨"plural", [("var", "x")]⟩
          (.inside [] ⟨"case", [("form", "other")]⟩
            (.inside [] ⟨"color", [("bg", "2")]⟩ (.here [] [.text "."]) []) []) []) []) []
    let tag : Tag := ⟨"color", [("fg", " 04"), ("bg", "")]⟩
    let children : List Node := [.element ⟨"var", [("name", "x")]⟩ []]
    let vars : Variables := [("xs", .array [("0", .int 5), ("1", .int 6)])]
    ({} : Styler).renderTree ⟨⟨"msg", []⟩, context.fill [.element tag children]⟩ vars =
      ({} : Styler).renderTree ⟨⟨"msg", []⟩, context.fill children⟩ vars := by
  intro context tag children vars
  have redundant : Redundant context.enclosing tag := by
    apply Redundant.color rfl
    · exact ⟨"fg", by simp, " 04", rfl, by decide⟩
    -- the inner foreground is that of the outer element, and an empty background sets nothing
    · intro attr member value given some
      rcases List.mem_pair.mp member with rfl | rfl
      · obtain rfl : " 04" = value := Option.some.inj given
        exact ⟨⟨4, by decide⟩, by decide +kernel, by decide +kernel⟩
      · obtain rfl : "" = value := Option.some.inj given
        exact absurd rfl some
  exact (renderTree_redundant {}).1 context ⟨"msg", []⟩ tag children vars redundant (by decide)

/-- The root of a tree does not turn anything on, so an element of the same name right below it is
    not redundant. -/
theorem not_redundant_in_root :
    ¬ ∀ (styler : Styler) (rootTag tag : Tag) (context : Context) (children : List Node)
      (vars : Variables), Redundant (rootTag :: context.enclosing) tag →
        context.parentName?.or (some rootTag.name) ≠ some "plural" →
        styler.renderTree ⟨rootTag, context.fill [.element tag children]⟩ vars =
          styler.renderTree ⟨rootTag, context.fill children⟩ vars := by
  intro erased
  have same := erased {} ⟨"b", []⟩ ⟨"b", []⟩ (.here [] []) [.text "x"] []
    (.bold rfl ⟨⟨"b", []⟩, List.mem_cons_self, rfl⟩) (by decide)
  have left : ({} : Styler).renderTree ⟨⟨"b", []⟩, [.element ⟨"b", []⟩ [.text "x"]]⟩ [] =
      .ok "\x02x\x02" := by
    decide +kernel
  have right : ({} : Styler).renderTree ⟨⟨"b", []⟩, [.text "x"]⟩ [] = .ok "x" := by
    decide +kernel
  exact absurd (Except.ok.inj (left.symm.trans (same.trans right))) (by decide)

end ChatMarkup.Render
