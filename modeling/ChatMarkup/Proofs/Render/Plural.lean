/-
  ChatMarkup/Proofs/Render/Plural.lean
  ====================================
  **A plural is its case** — a plural is rendered just if it stands for one of its cases, and
  then as the children of that one (`renderNode_plural`).  So outside of loops, where it
  stands for the same case whenever the renderer comes to it, they can be put in its place.

  All cases are rendered first, with the form of each.  The list of them has the forms of the
  cases (`forms_of_renderCase`), and what it has for a form is the text of the first case
  with it (`lookup_of_renderCase`).
-/
import ChatMarkup.Proofs.Render.Pen
import ChatMarkup.Proofs.Render.Visit
import ChatMarkup.Proofs.Render.Walk
import ChatMarkup.Render.Selection

namespace ChatMarkup.Render

open Markup (Element Node Tag Context)

variable {styler : Styler} {style : Style} {scope : Scope} {tag : Tag} {children : List Node}
  {cases : List Element} {entries : List (String × List Char)} {text : List Char}

/-! ### Cases -/

def renderCase (styler : Styler) (style : Style) (scope : Scope) (case : Element) :
    Except Error (String × List Char) := do
  let form ← required case.tag "form"
  let text ← renderNodes styler style scope case.children
  .ok (form, text)

theorem renderCase_eq_ok {case : Element} {entry : String × List Char} :
    renderCase styler style scope case = .ok entry ↔
      case.tag.attribute? "form" = some entry.1 ∧
        renderNodes styler style scope case.children = .ok entry.2 := by
  simp only [renderCase, bind_eq_ok, required_eq_ok]
  constructor
  · rintro ⟨form, attr, text, rendered, same⟩
    cases same
    exact ⟨attr, rendered⟩
  · rintro ⟨attr, rendered⟩
    exact ⟨entry.1, attr, entry.2, rendered, rfl⟩

/-- The cases of a plural are rendered one after another, and nothing else is. -/
theorem renderCases_eq (styler : Styler) (style : Style) (scope : Scope) (nodes : List Node) :
    renderCases styler style scope nodes =
      (casesOf nodes).mapM (renderCase styler style scope) := by
  induction nodes with
  | nil => rfl
  | cons node nodes ih =>
    cases node with
    | text text =>
      rw [renderCases, ih]
      rfl
    | element tag children =>
      have elements : Markup.elementsOf (.element tag children :: nodes) =
        ⟨tag, children⟩ :: Markup.elementsOf nodes := rfl
      rw [renderCases, casesOf, elements, List.filter_cons, ih]
      -- of the elements only cases are rendered, with or without content in between
      by_cases name : tag.name = "case"
      · rw [if_pos name, if_pos (decide_eq_true name), List.mapM_cons, renderCase]
        cases required tag "form" with
        | error error => rfl
        | ok form =>
          simp only [ok_bind]
          cases renderNodes styler style scope children <;> rfl
      · rw [if_neg name, if_neg (by simpa using name)]
        rfl

theorem forms_of_renderCase
    (rendered : List.Forall₂ (fun case entry => renderCase styler style scope case = .ok entry)
      cases entries) :
    entries.map Prod.fst = cases.filterMap fun case => case.tag.attribute? "form" := by
  induction rendered with
  | nil => rfl
  | cons own _ ih =>
    rw [List.map_cons, List.filterMap_cons, (renderCase_eq_ok.mp own).1, ih]

theorem lookup_of_renderCase {form : String}
    (rendered : List.Forall₂ (fun case entry => renderCase styler style scope case = .ok entry)
      cases entries) :
    entries.lookup form = some text ↔
      ∃ case, cases.find? (fun case => case.tag.attribute? "form" = some form) = some case ∧
        renderNodes styler style scope case.children = .ok text := by
  induction rendered with
  | nil => simp
  | @cons case entry cases entries own _ ih =>
    obtain ⟨attr, written⟩ := renderCase_eq_ok.mp own
    rw [List.lookup_cons, List.find?_cons, attr]
    by_cases same : form = entry.1
    · simp [same, written]
    · have other : (form == entry.1) = false := by simpa using same
      have other' : decide (some entry.1 = some form) = false := by simpa using Ne.symm same
      rw [other, other']
      exact ih

/-- Every case can be rendered if each of them has a form and a text. -/
theorem exists_renderCase_iff :
    (∃ entries, List.Forall₂ (fun case entry => renderCase styler style scope case = .ok entry)
      cases entries) ↔ ∀ case ∈ cases, Presentable styler style scope case := by
  rw [exists_forall₂_iff]
  apply forall₂_congr
  intro case _
  simp only [renderCase_eq_ok, Prod.exists, Presentable]
  constructor
  · rintro ⟨form, text, attr, written⟩
    exact ⟨⟨form, attr⟩, text, written⟩
  · rintro ⟨⟨form, attr⟩, text, written⟩
    exact ⟨form, text, attr, written⟩

/-- What is reported of a case: that it has no form, or else what comes up inside it. -/
theorem Refuses.renderCase_eq {case : Element} {error : Error}
    (refuses : Refuses styler style scope case error) (member : case ∈ casesOf children) :
    renderCase styler style scope case = .error error := by
  have name : case.tag.name = "case" := by simpa using (List.mem_filter.mp member).2
  rw [renderCase]
  rcases refuses with ⟨missing, rfl⟩ | ⟨⟨form, attr⟩, failed⟩
  · rw [required, missing, name]
    rfl
  · rw [required_eq_ok.mpr attr, ok_bind, failed]
    rfl

/-! ### Plurals -/

theorem counts_iff {count : Int64} :
    Counts scope tag count ↔ (attributeValue scope tag "var" >>= countOf) = .ok count := by
  simp only [Counts, bind_eq_ok, attributeValue_eq_ok]
  constructor
  · rintro ⟨formula, value, attr, computed, counted⟩
    exact ⟨value, ⟨formula, attr, computed⟩, counted⟩
  · rintro ⟨value, ⟨formula, attr, computed⟩, counted⟩
    exact ⟨formula, value, attr, computed, counted⟩

/-- A plural that is rendered stands for a case, and has the text of it. -/
theorem renderNode_eq_ok_iff_selects (role : Role.ofName tag.name = .plural) :
    renderNode styler style scope (.element tag children) = .ok text ↔
      ∃ count form case, Selects styler style scope tag children count form case ∧
        renderNodes styler style scope case.children = .ok text := by
  simp only [renderNode, role, bind_eq_ok, attributeValue_eq_ok, selectCase_eq_ok, renderCases_eq,
    mapM_eq_ok_iff]
  constructor
  · rintro ⟨value, ⟨formula, attr, computed⟩, count, counted, entries, rendered, form, chosen,
      found⟩
    rw [forms_of_renderCase rendered] at chosen
    -- the first entry with the form is the text of the first case with it
    obtain ⟨case, first, written⟩ := (lookup_of_renderCase rendered).mp found
    refine ⟨count, form, case, ?_, written⟩
    exact {
      counted := ⟨formula, value, attr, computed, counted⟩
      presentable := exists_renderCase_iff.mp ⟨entries, rendered⟩
      chosen, first }
  · rintro ⟨count, form, case, selects, written⟩
    obtain ⟨formula, value, attr, computed, counted⟩ := selects.counted
    obtain ⟨entries, rendered⟩ := exists_renderCase_iff.mpr selects.presentable
    refine ⟨value, ⟨formula, attr, computed⟩, count, counted, entries, rendered, form, ?_, ?_⟩
    · rw [forms_of_renderCase rendered]
      exact selects.chosen
    · exact (lookup_of_renderCase rendered).mpr ⟨case, selects.first, written⟩

variable {count : Int64} {form : String} {case : Element}

/-- The case has a text, like every other. -/
theorem Selects.exists_text (selects : Selects styler style scope tag children count form case) :
    ∃ text, renderNodes styler style scope case.children = .ok text :=
  (selects.presentable case (List.mem_of_find?_eq_some selects.first)).2

theorem Selects.renderNode_eq (selects : Selects styler style scope tag children count form case)
    (role : Role.ofName tag.name = .plural) :
    renderNode styler style scope (.element tag children) =
      renderNodes styler style scope case.children := by
  obtain ⟨text, written⟩ := selects.exists_text
  rw [written]
  exact (renderNode_eq_ok_iff_selects role).mpr ⟨count, form, case, selects, written⟩

/-- Outside of loops the case can be put in place of the plural. -/
theorem Selects.renderTree_eq (selects : Selects styler style scope tag children count form case)
    (role : Role.ofName tag.name = .plural) {context : Context} {rootTag : Tag} {vars : Variables}
    (start : styler.rootScope vars = .ok scope) (styled : styleAt .plain context = style)
    (outside : ∀ outer ∈ context.enclosing, outer.name ≠ "for")
    (free : context.parentName? ≠ some "plural") :
    styler.renderTree ⟨rootTag, context.fill [.element tag children]⟩ vars =
      styler.renderTree ⟨rootTag, context.fill case.children⟩ vars := by
  apply renderTree_fill_congr free
  intro scope' start' inner innerScope visits
  cases start.symm.trans start'
  -- the renderer comes to the place in one style and one scope only, those of the plural
  rw [style_of_visits visits, scope_of_visits visits outside, styled, renderNodes_singleton]
  exact selects.renderNode_eq role

/-- What the standard service decides on among some forms: the one for exactly this count, or
    else the category, or else the form for all of them. -/
theorem selectForm_eq_ok_iff {locale : String} {forms : List String} (there : form ∈ forms) :
    Locale.selectForm locale count forms = .ok form ↔
      form = Locale.exactForm count ∨ Locale.exactForm count ∉ forms ∧
        ∃ category, Locale.pluralCategory locale count = .ok category ∧
          (form = category.name ∨ category.name ∉ forms ∧ form = "other") := by
  unfold Locale.selectForm
  by_cases exact : Locale.exactForm count ∈ forms
  · rw [if_pos exact]
    constructor
    · rintro ⟨⟩
      exact .inl rfl
    · rintro (rfl | ⟨absent, -⟩)
      · rfl
      · exact absurd exact absent
  · rw [if_neg exact, bind_eq_ok]
    constructor
    · rintro ⟨category, computed, h⟩
      refine .inr ⟨exact, category, computed, ?_⟩
      split at h
      · cases h
        exact .inl rfl
      · rename_i neither
        cases h
        exact .inr ⟨fun present => neither (.inl present), rfl⟩
    · rintro (rfl | ⟨-, category, computed, rfl | ⟨absent, rfl⟩⟩)
      · exact absurd there exact
      · exact ⟨category, computed, if_pos (.inl there)⟩
      · refine ⟨category, computed, if_neg ?_⟩
        rintro (present | missing)
        · exact absent present
        · exact missing there

/-- **A plural is its case.**  It is rendered, or drawn, as the children of the case that it stands
    for; outside of loops and not directly inside another plural they can be put in its place.
    Its other children are not looked at, but a case that cannot be rendered is an error, chosen
    or not; the first of several is reported. -/
theorem renderNode_plural (styler : Styler) (style : Style) (scope : Scope) (children : List Node)
    (name : tag.name = "plural") :
    let rendered := renderNode styler style scope (.element tag children)
    ((∃ text, rendered = .ok text) ↔
      ∃ count form case, Selects styler style scope tag children count form case) ∧
    (∀ count form case, Selects styler style scope tag children count form case →
      (∃ text, rendered = .ok text ∧ renderNodes styler style scope case.children = .ok text) ∧
      (∀ pen : Pen, pen.style = style →
        drawNode styler scope pen (.element tag children) =
          drawNodes styler scope pen case.children) ∧
      ∀ (context : Context) (rootTag : Tag) (vars : Variables),
        styler.rootScope vars = .ok scope → styleAt .plain context = style →
        (∀ outer ∈ context.enclosing, outer.name ≠ "for") → context.parentName? ≠ some "plural" →
        styler.renderTree ⟨rootTag, context.fill [.element tag children]⟩ vars =
          styler.renderTree ⟨rootTag, context.fill case.children⟩ vars) ∧
    (∀ others, casesOf others = casesOf children →
      renderNode styler style scope (.element tag others) = rendered) ∧
    (∀ count before failing after error, Counts scope tag count →
      casesOf children = before ++ failing :: after →
      (∀ earlier ∈ before, Presentable styler style scope earlier) →
      Refuses styler style scope failing error → rendered = .error error) ∧
    (styler.service = Locale.Service.standard → ∀ count, ∀ form ∈ formsOf children,
      (styler.service.chooseForm styler.locale count (Text.nameSet (formsOf children)) =
          .ok form ↔
        form = Locale.exactForm count ∨ Locale.exactForm count ∉ formsOf children ∧
          ∃ category, Locale.pluralCategory styler.locale count = .ok category ∧
            (form = category.name ∨ category.name ∉ formsOf children ∧ form = "other"))) := by
  intro rendered
  have role : Role.ofName tag.name = .plural := ofName_eq_plural_iff.mpr name
  refine ⟨?_, ?_, ?_, ?_, ?_⟩
  · constructor
    · rintro ⟨text, rendered⟩
      obtain ⟨count, form, case, selects, -⟩ := (renderNode_eq_ok_iff_selects role).mp rendered
      exact ⟨count, form, case, selects⟩
    · rintro ⟨count, form, case, selects⟩
      obtain ⟨text, written⟩ := selects.exists_text
      exact ⟨text, (selects.renderNode_eq role).trans written⟩
  · intro count form case selects
    refine ⟨?_, ?_, ?_⟩
    · obtain ⟨text, written⟩ := selects.exists_text
      exact ⟨text, (selects.renderNode_eq role).trans written, written⟩
    · rintro pen rfl
      rw [drawNode_eq, drawNodes_eq, selects.renderNode_eq role]
    · intro context rootTag vars start styled outside free
      exact selects.renderTree_eq role start styled outside free
  · intro others same
    simp only [rendered, renderNode, role, renderCases_eq, same]
  · rintro count before failing after error ⟨formula, value, attr, computed, counted⟩ split
      earlier refuses
    -- the cases are rendered in order, so the first that refuses decides
    have cases : renderCases styler style scope children = .error error := by
      rw [renderCases_eq, mapM_eq_error_iff]
      refine ⟨before, failing, after, split, ?_, ?_⟩
      · rw [← exists_forall₂_iff, exists_renderCase_iff]
        exact earlier
      · apply refuses.renderCase_eq
        rw [split]
        simp
    have counts : attributeValue scope tag "var" = .ok value :=
      attributeValue_eq_ok.mpr ⟨formula, attr, computed⟩
    simp only [rendered, renderNode, role, counts, counted, cases, ok_bind]
    rfl
  · intro standard count form there
    rw [standard, Locale.Service.standard, selectForm_eq_ok_iff (Text.mem_nameSet.mpr there)]
    simp only [Text.mem_nameSet]

/-- A plural in a coloured case of another one.  It has two cases for a count of one, an exact
    form that is not asked for, and children that are no cases. -/
theorem renderNode_plural_nested :
    let tag : Tag := ⟨"plural", [("var", "m")]⟩
    let children : List Node := [.text " ", .element ⟨"case", [("form", "=2")]⟩ [.text "pair"],
      .element ⟨"case", [("form", "one")]⟩ [.element ⟨"b", []⟩ [.text "A"]],
      .element ⟨"case", [("form", "one")]⟩ [.text "B"], .element ⟨"color", []⟩ []]
    let context : Context := .inside [.text "x"] ⟨"plural", [("var", "n")]⟩
      (.inside [] ⟨"case", [("form", "other")]⟩
        (.inside [] ⟨"color", [("fg", "4")]⟩ (.here [.text "("] [.text ")"]) []) []) []
    ({} : Styler).renderTree ⟨⟨"msg", []⟩, context.fill [.element tag children]⟩
        [("n", .int 7), ("m", .int 1)] =
      ({} : Styler).renderTree ⟨⟨"msg", []⟩, context.fill [.element ⟨"b", []⟩ [.text "A"]]⟩
        [("n", .int 7), ("m", .int 1)] := by
  intro tag children context
  let style := { Style.plain with foreground := Color.ofCode? 4 }
  let scope := (Scope.empty.bind "n" (.typed (.int 7))).bind "m" (.typed (.int 1))
  have name : tag.name = "plural" := rfl
  have law := renderNode_plural {} style scope children name
  have shown : (casesOf children).mapM (renderCase {} style scope) =
      .ok [("=2", "pair".toList), ("one", "\x02A\x02".toList), ("one", "B".toList)] := by
    decide +kernel
  -- the second case with this form is not looked at, and the colour element is no case
  have selects : Selects {} style scope tag children 1 "one"
      ⟨⟨"case", [("form", "one")]⟩, [.element ⟨"b", []⟩ [.text "A"]]⟩ := {
    counted := counts_iff.mpr (by decide +kernel)
    presentable := exists_renderCase_iff.mp ⟨_, mapM_eq_ok_iff.mp shown⟩
    chosen := (law.2.2.2.2 rfl 1 "one" (by decide)).mpr
      (.inr ⟨by decide, .one, by decide +kernel, .inl rfl⟩)
    first := rfl }
  apply (law.2.1 1 "one" _ selects).2.2 context
  · rfl
  · decide +kernel
  · decide +kernel
  · decide +kernel

end ChatMarkup.Render
