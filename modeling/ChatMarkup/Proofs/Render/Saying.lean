/-
  ChatMarkup/Proofs/Render/Saying.lean
  ====================================
  **What a tree says, by what its elements do** — the rules of `Says` read backwards.  The
  role of an element leaves one rule only, so each role has an equivalence between what the
  element says and what its parts say.
-/
import ChatMarkup.Proofs.Result
import ChatMarkup.Render.Appearance

namespace ChatMarkup.Markup

theorem Tag.firstAttribute?_pair (tag : Tag) (first second : String) :
    tag.firstAttribute? [first, second] = (tag.attribute? first).or (tag.attribute? second) := by
  rw [firstAttribute?, List.findSome?_cons, List.findSome?_cons, List.findSome?_nil]
  cases tag.attribute? first <;> cases tag.attribute? second <;> rfl

end ChatMarkup.Markup

namespace ChatMarkup.Render

open Wire (Glyph glyphs)

variable {styler : Styler} {style : Style} {scope : Scope} {tag : Markup.Tag}
  {children nodes : List Markup.Node} {said : List Glyph}

/-! ### What a loop is given -/

theorem checkName_eq_ok {name : String} (named : Formula.isName name = true) :
    checkName name = .ok () := by
  rw [checkName, if_pos named]

theorem isName_of_checkName {name : String} {u : Unit} (checked : checkName name = .ok u) :
    Formula.isName name = true := by
  unfold checkName at checked
  split at checked
  · assumption
  · cases checked

theorem ofTag_eq_ok_iff {loop : Loop} :
    Loop.ofTag tag = .ok loop ↔
      RunsOver tag loop.source loop.item ∧ loop.key = tag.attribute? "key" ∧
        loop.separator = ((between? tag).getD ", ").toList ∧
        loop.lastSeparator = ((beforeLast? tag).getD " & ").toList := by
  rw [between?, beforeLast?, between?, ← Markup.Tag.firstAttribute?_pair,
    ← Markup.Tag.firstAttribute?_pair]
  constructor
  · intro made
    unfold Loop.ofTag at made
    obtain ⟨source, given, made⟩ := bind_eq_ok.mp made
    obtain ⟨item, bound, made⟩ := bind_eq_ok.mp made
    obtain ⟨_, sourceNamed, made⟩ := bind_eq_ok.mp made
    obtain ⟨_, itemNamed, made⟩ := bind_eq_ok.mp made
    obtain ⟨_, keyNamed, made⟩ := bind_eq_ok.mp made
    cases made
    refine ⟨?_, rfl, rfl, rfl⟩
    refine ⟨required_eq_ok.mp given, required_eq_ok.mp bound, isName_of_checkName sourceNamed,
      isName_of_checkName itemNamed, ?_⟩
    intro key named
    rw [named] at keyNamed
    exact isName_of_checkName keyNamed
  · rintro ⟨runsOver, key, separator, lastSeparator⟩
    have keys : (tag.attribute? "key").forM checkName = .ok () := by
      cases key : tag.attribute? "key" with
      | none => rfl
      | some key' => exact checkName_eq_ok (runsOver.keyNamed key' key)
    rw [Loop.ofTag, required_eq_ok.mpr runsOver.fromGiven, ok_bind,
      required_eq_ok.mpr runsOver.itemGiven, ok_bind]
    simp only [checkName_eq_ok runsOver.sourceNamed, checkName_eq_ok runsOver.itemNamed, keys,
      ok_bind]
    obtain ⟨source, item, _, _, _⟩ := loop
    cases key
    cases separator
    cases lastSeparator
    rfl

theorem entries_eq_ok_iff {loop : Loop} {entries : Entries} :
    loop.entries scope = .ok entries ↔ scope.get? loop.source = some (.array entries) := by
  unfold Loop.entries
  split <;> simp_all

theorem entryScope_eq (loop : Loop) (entry : String × Value) :
    entryScope styler scope loop.item loop.key entry = loop.scopeFor styler.wrappers scope entry :=
  rfl

/-! ### Nodes -/

theorem says_text_iff {text : String} :
    Says styler style scope (.text text) said ↔ said = glyphs style text.toList := by
  constructor
  · intro h
    cases h
    rfl
  · rintro rfl
    exact .text

theorem says_var_iff (role : Role.ofName tag.name = .var) :
    Says styler style scope (.element tag children) said ↔
      ∃ formula value text, tag.attribute? "name" = some formula ∧
        Formula.evaluate scope formula = .ok value ∧ styler.display value = .ok text ∧
        said = glyphs style text := by
  constructor
  · intro h
    cases h with
    | var _ attr computed shown => exact ⟨_, _, _, attr, computed, shown, rfl⟩
    | bold other | underline other | color other | loop other | plural other
      | transparent other => exact nomatch role.symm.trans other
  · intro h
    rcases h with ⟨formula, value, text, attr, computed, shown, rfl⟩
    exact .var role attr computed shown

theorem says_bold_iff (role : Role.ofName tag.name = .bold) :
    Says styler style scope (.element tag children) said ↔
      SaysAll styler { style with bold := true } scope children said := by
  constructor
  · intro h
    cases h with
    | bold _ inside => exact inside
    | var other | underline other | color other | loop other | plural other
      | transparent other => exact nomatch role.symm.trans other
  · exact .bold role

theorem says_underline_iff (role : Role.ofName tag.name = .underline) :
    Says styler style scope (.element tag children) said ↔
      SaysAll styler { style with underline := true } scope children said := by
  constructor
  · intro h
    cases h with
    | underline _ inside => exact inside
    | var other | bold other | color other | loop other | plural other
      | transparent other => exact nomatch role.symm.trans other
  · exact .underline role

theorem says_color_iff (role : Role.ofName tag.name = .color) :
    Says styler style scope (.element tag children) said ↔
      ∃ colored, recolored tag style = .ok colored ∧
        SaysAll styler colored scope children said := by
  constructor
  · intro h
    cases h with
    | color _ colors inside => exact ⟨_, colors, inside⟩
    | var other | bold other | underline other | loop other | plural other
      | transparent other => exact nomatch role.symm.trans other
  · intro h
    rcases h with ⟨colored, colors, inside⟩
    exact .color role colors inside

theorem says_loop_iff (role : Role.ofName tag.name = .loop) :
    Says styler style scope (.element tag children) said ↔
      ∃ loop entries parts, Loop.ofTag tag = .ok loop ∧ loop.entries scope = .ok entries ∧
        SaysEach styler style scope loop.item loop.key children entries parts ∧
        said = Text.joinSeries (glyphs style loop.separator)
          (glyphs style loop.lastSeparator) parts := by
  constructor
  · intro h
    cases h with
    | loop _ runsOver array inside series =>
      refine ⟨⟨_, _, _, _, _⟩, _, _, ofTag_eq_ok_iff.mpr ⟨runsOver, rfl, rfl, rfl⟩, ?_, inside, ?_⟩
      · exact entries_eq_ok_iff.mpr array
      · exact series.eq_joinSeries
    | var other | bold other | underline other | color other | plural other
      | transparent other => exact nomatch role.symm.trans other
  · intro h
    rcases h with ⟨loop, entries, parts, made, array, inside, rfl⟩
    obtain ⟨runsOver, key, separator, lastSeparator⟩ := ofTag_eq_ok_iff.mp made
    rw [key] at inside
    refine .loop role runsOver (entries_eq_ok_iff.mp array) inside ?_
    rw [separator, lastSeparator]
    exact Text.series_joinSeries _ _ parts

theorem says_plural_iff (role : Role.ofName tag.name = .plural) :
    Says styler style scope (.element tag children) said ↔
      ∃ formula value count cases form, tag.attribute? "var" = some formula ∧
        Formula.evaluate scope formula = .ok value ∧ countOf value = .ok count ∧
        SaysCases styler style scope children cases ∧
        styler.service.chooseForm styler.locale count (Text.nameSet (cases.map Prod.fst)) =
          .ok form ∧
        cases.lookup form = some said := by
  constructor
  · intro h
    cases h with
    | plural _ attr computed counted inside chosen present =>
      exact ⟨_, _, _, _, _, attr, computed, counted, inside, chosen, present⟩
    | var other | bold other | underline other | color other | loop other
      | transparent other => exact nomatch role.symm.trans other
  · intro h
    rcases h with
      ⟨formula, value, count, cases, form, attr, computed, counted, inside, chosen, present⟩
    exact .plural role attr computed counted inside chosen present

theorem says_transparent_iff (role : Role.ofName tag.name = .transparent) :
    Says styler style scope (.element tag children) said ↔
      SaysAll styler style scope children said := by
  constructor
  · intro h
    cases h with
    | transparent _ inside => exact inside
    | var other | bold other | underline other | color other | loop other
      | plural other => exact nomatch role.symm.trans other
  · exact .transparent role

/-! ### Several nodes -/

theorem saysAll_nil_iff : SaysAll styler style scope [] said ↔ said = [] := by
  constructor
  · intro h
    cases h
    rfl
  · rintro rfl
    exact .nil

theorem saysAll_cons_iff {node : Markup.Node} :
    SaysAll styler style scope (node :: nodes) said ↔
      ∃ first more, Says styler style scope node first ∧ SaysAll styler style scope nodes more ∧
        said = first ++ more := by
  constructor
  · intro h
    cases h with
    | cons head tail => exact ⟨_, _, head, tail, rfl⟩
  · intro h
    rcases h with ⟨first, more, head, tail, rfl⟩
    exact .cons head tail

section Loops

variable {item : String} {key : Option String} {entries : Entries} {parts : List (List Glyph)}

theorem saysEach_nil_iff : SaysEach styler style scope item key nodes [] parts ↔ parts = [] := by
  constructor
  · intro h
    cases h
    rfl
  · rintro rfl
    exact .nil

theorem saysEach_cons_iff {entry : String × Value} :
    SaysEach styler style scope item key nodes (entry :: entries) parts ↔
      ∃ first more, SaysAll styler style (entryScope styler scope item key entry) nodes first ∧
        SaysEach styler style scope item key nodes entries more ∧ parts = first :: more := by
  constructor
  · intro h
    cases h with
    | cons head tail => exact ⟨_, _, head, tail, rfl⟩
  · intro h
    rcases h with ⟨first, more, head, tail, rfl⟩
    exact .cons head tail

end Loops

section Cases

variable {cases : List (String × List Glyph)}

theorem saysCases_nil_iff : SaysCases styler style scope [] cases ↔ cases = [] := by
  constructor
  · intro h
    cases h
    rfl
  · rintro rfl
    exact .nil

theorem saysCases_text_iff {text : String} :
    SaysCases styler style scope (.text text :: nodes) cases ↔
      SaysCases styler style scope nodes cases := by
  constructor
  · intro h
    cases h with
    | text tail => exact tail
  · exact .text

theorem saysCases_case_iff (name : tag.name = "case") :
    SaysCases styler style scope (.element tag children :: nodes) cases ↔
      ∃ form said more, tag.attribute? "form" = some form ∧
        SaysAll styler style scope children said ∧ SaysCases styler style scope nodes more ∧
        cases = (form, said) :: more := by
  constructor
  · intro h
    cases h with
    | case _ attr inside tail => exact ⟨_, _, _, attr, inside, tail, rfl⟩
    | other different _ => exact absurd name different
  · intro h
    rcases h with ⟨form, said, more, attr, inside, tail, rfl⟩
    exact .case name attr inside tail

theorem saysCases_other_iff (name : tag.name ≠ "case") :
    SaysCases styler style scope (.element tag children :: nodes) cases ↔
      SaysCases styler style scope nodes cases := by
  constructor
  · intro h
    cases h with
    | case same _ _ _ => exact absurd same name
    | other _ tail => exact tail
  · exact .other name

end Cases

end ChatMarkup.Render
