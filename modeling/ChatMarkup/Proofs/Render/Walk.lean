/-
  ChatMarkup/Proofs/Render/Walk.lean
  ==================================
  **Rendered text means what the tree says** — by recursion over the tree, every part of it
  is rendered as marks that write what the part says.

  The recursion has the shape of the renderer: a node, a list of nodes, and the cases
  among some nodes.  Each role of an element has a lemma of its own, which takes the
  statement for the children as a hypothesis, so a role can change on its own.
-/
import ChatMarkup.Proofs.Result
import ChatMarkup.Proofs.Render.Saying
import ChatMarkup.Proofs.Render.Writing

namespace ChatMarkup.Render

open Wire

/-! ### Colours of a tree -/

/-- Every colour that a `color` element in a tree asks for is one of those allowed. -/
inductive Colored (allowed : Color → Prop) : Markup.Node → Prop where
  | text {text} : Colored allowed (.text text)
  | element {tag children}
      (own : Role.ofName tag.name = .color →
        ∀ name ∈ ["fg", "bg"], ∀ code, channel tag name = .ok (some code) → allowed code)
      (inside : ∀ node ∈ children, Colored allowed node) :
      Colored allowed (.element tag children)

theorem Colored.color {allowed : Color → Prop} {tag : Markup.Tag} {children : List Markup.Node}
    {fg bg : Option Color} (first : channel tag "fg" = .ok fg) (second : channel tag "bg" = .ok bg)
    (foreground : ∀ code, fg = some code → allowed code)
    (background : ∀ code, bg = some code → allowed code)
    (inside : ∀ node ∈ children, Colored allowed node) :
    Colored allowed (.element tag children) := by
  refine .element ?_ inside
  intro _ name member code h
  rcases List.mem_pair.mp member with rfl | rfl
  · exact foreground code (Except.ok.inj (first.symm.trans h))
  · exact background code (Except.ok.inj (second.symm.trans h))

mutual

theorem colored_of_all {allowed : Color → Prop} (all : ∀ code, allowed code) :
    ∀ node, Colored allowed node
  | .text _ => .text
  | .element _ children => .element (fun _ _ _ code _ => all code) (colored_of_mem all children)

theorem colored_of_mem {allowed : Color → Prop} (all : ∀ code, allowed code) :
    ∀ nodes : List Markup.Node, ∀ node ∈ nodes, Colored allowed node
  | [], _, member => nomatch member
  | first :: nodes, node, member => by
    rcases List.mem_cons.mp member with same | member
    · rw [same]
      exact colored_of_all all first
    · exact colored_of_mem all nodes node member

end

variable {styler : Styler} {allowed : Color → Prop} {style : Style} {scope : Scope}
  {tag : Markup.Tag} {children nodes : List Markup.Node} {text : List Char}

/-- The style inside a `color` element keeps to the allowed colours. -/
theorem within_recolored {colored : Style}
    (own : ∀ name ∈ ["fg", "bg"], ∀ code, channel tag name = .ok (some code) → allowed code)
    (within : style.Within allowed) (h : recolored tag style = .ok colored) :
    colored.Within allowed := by
  obtain ⟨fg, bg, first, second, rfl⟩ := recolored_eq_ok h
  constructor
  · intro code e
    cases fg with
    | none => exact within.foreground code e
    | some fg =>
      cases e
      exact own "fg" (by simp) _ first
  · intro code e
    cases bg with
    | none => exact within.background code e
    | some bg =>
      cases e
      exact own "bg" (by simp) _ second

/-! ### Faithful parts -/

/-- One thing only is said, and the text is made of marks that write it. -/
def Renders (allowed : Color → Prop) (style : Style) (meant : List Glyph → Prop)
    (text : List Char) : Prop :=
  ∃ said ms, (∀ other, meant other ↔ other = said) ∧ text = spell ms ∧ Writes allowed style said ms

/-- Whatever some nodes are rendered as writes what they say. -/
def Faithful (styler : Styler) (allowed : Color → Prop) (nodes : List Markup.Node) : Prop :=
  ∀ ⦃style scope text⦄, style.Within allowed → renderNodes styler style scope nodes = .ok text →
    Renders allowed style (SaysAll styler style scope nodes) text

def FaithfulCases (styler : Styler) (allowed : Color → Prop) (nodes : List Markup.Node) : Prop :=
  ∀ ⦃style scope cases⦄, style.Within allowed →
    renderCases styler style scope nodes = .ok cases →
    ∃ parts : List (String × List Glyph × List Mark),
      (∀ other, SaysCases styler style scope nodes other ↔
        other = parts.map fun part => (part.1, part.2.1)) ∧
      (cases = parts.map fun part => (part.1, spell part.2.2)) ∧
      ∀ part ∈ parts, Writes allowed style part.2.1 part.2.2

/-- Saying the same, in another style and with other marks around it. -/
theorem Renders.enclosed {inside : Style} {meant meant' : List Glyph → Prop}
    {enclose : List Mark → List Mark} {enclosed : List Char} (h : Renders allowed inside meant text)
    (same : ∀ said, meant' said ↔ meant said)
    (spelled : ∀ ms, text = spell ms → enclosed = spell (enclose ms))
    (writes : ∀ {said ms}, Writes allowed inside said ms → Writes allowed style said (enclose ms)) :
    Renders allowed style meant' enclosed := by
  rcases h with ⟨said, ms, only, text, written⟩
  exact ⟨said, enclose ms, fun other => (same other).trans (only other), spelled ms text,
    writes written⟩

theorem attributeValue_eq_ok {attr : String} {value : Value} :
    attributeValue scope tag attr = .ok value ↔
      ∃ formula, tag.attribute? attr = some formula ∧
        Formula.evaluate scope formula = .ok value := by
  simp only [attributeValue, bind_eq_ok, mapError_eq_ok, required_eq_ok]

/-! ### Elements by their roles -/

theorem renders_text (text : String) :
    Renders allowed style (Says styler style scope (.text text)) text.toList :=
  ⟨_, _, fun _ => says_text_iff, (spell_map_char _).symm, .text text.toList⟩

theorem renders_var (role : Role.ofName tag.name = .var)
    (h : renderNode styler style scope (.element tag children) = .ok text) :
    Renders allowed style (Says styler style scope (.element tag children)) text := by
  simp only [renderNode, role, bind_eq_ok, attributeValue_eq_ok] at h
  rcases h with ⟨value, ⟨formula, attr, computed⟩, shown⟩
  refine ⟨glyphs style text, text.map .char, ?_, (spell_map_char _).symm, .text text⟩
  intro other
  simp [says_var_iff role, attr, computed, shown]

theorem renders_bold (role : Role.ofName tag.name = .bold)
    (inside : Faithful styler allowed children) (within : style.Within allowed)
    (h : renderNode styler style scope (.element tag children) = .ok text) :
    Renders allowed style (Says styler style scope (.element tag children)) text := by
  simp only [renderNode, role, bind_eq_ok] at h
  rcases h with ⟨text, rendered, h⟩
  cases h
  have within' : { style with bold := true }.Within allowed :=
    ⟨within.foreground, within.background⟩
  apply (inside within' rendered).enclosed (fun _ => says_bold_iff role) _ Writes.bold
  rintro ms rfl
  rw [spell_toggledMarks rfl]

theorem renders_underline (role : Role.ofName tag.name = .underline)
    (inside : Faithful styler allowed children) (within : style.Within allowed)
    (h : renderNode styler style scope (.element tag children) = .ok text) :
    Renders allowed style (Says styler style scope (.element tag children)) text := by
  simp only [renderNode, role, bind_eq_ok] at h
  rcases h with ⟨text, rendered, h⟩
  cases h
  have within' : { style with underline := true }.Within allowed :=
    ⟨within.foreground, within.background⟩
  apply (inside within' rendered).enclosed (fun _ => says_underline_iff role) _ Writes.underline
  rintro ms rfl
  rw [spell_toggledMarks rfl]

theorem renders_color (role : Role.ofName tag.name = .color)
    (own : ∀ name ∈ ["fg", "bg"], ∀ code, channel tag name = .ok (some code) → allowed code)
    (inside : Faithful styler allowed children) (within : style.Within allowed)
    (h : renderNode styler style scope (.element tag children) = .ok text) :
    Renders allowed style (Says styler style scope (.element tag children)) text := by
  simp only [renderNode, role, bind_eq_ok] at h
  rcases h with ⟨colored, colors, text, rendered, h⟩
  cases h
  have within' := within_recolored own within colors
  obtain ⟨fg, bg, -, -, same⟩ := recolored_eq_ok colors
  apply (inside within' rendered).enclosed _ _
    (Writes.color (by rw [same]) (by rw [same]) within within')
  · intro said
    simp [says_color_iff role, colors]
  · rintro ms rfl
    simp only [spell_append, spell_switchMarks]

theorem renders_transparent (role : Role.ofName tag.name = .transparent)
    (inside : Faithful styler allowed children) (within : style.Within allowed)
    (h : renderNode styler style scope (.element tag children) = .ok text) :
    Renders allowed style (Says styler style scope (.element tag children)) text := by
  simp only [renderNode, role] at h
  exact (inside within h).enclosed (fun _ => says_transparent_iff role) (fun _ => id) id

/-! ### Loops -/

/-- The body of a loop is rendered faithfully for each entry. -/
theorem renders_entries {loop : Loop} {entries : Entries} {texts : List (List Char)}
    (inside : Faithful styler allowed children) (within : style.Within allowed)
    (h : entries.mapM (fun entry =>
      renderNodes styler style (loop.scopeFor styler.wrappers scope entry) children) = .ok texts) :
    ∃ parts : List (List Glyph × List Mark),
      (∀ other, SaysEach styler style scope loop.item loop.key children entries other ↔
        other = parts.map Prod.fst) ∧
      texts = (parts.map Prod.snd).map spell ∧
      ∀ part ∈ parts, Writes allowed style part.1 part.2 := by
  induction entries generalizing texts with
  | nil =>
    rw [mapM_nil_eq_ok.mp h]
    exact ⟨[], fun _ => saysEach_nil_iff, rfl, by simp⟩
  | cons entry entries ih =>
    obtain ⟨text, rest, rendered, more, rfl⟩ := mapM_cons_eq_ok.mp h
    obtain ⟨said, ms, only, rfl, writes⟩ := inside within rendered
    obtain ⟨parts, only', rfl, writes'⟩ := ih more
    refine ⟨(said, ms) :: parts, ?_, rfl, List.forall_mem_cons.mpr ⟨writes, writes'⟩⟩
    · intro other
      simp [saysEach_cons_iff, entryScope_eq, only, only']

theorem renders_loop (role : Role.ofName tag.name = .loop)
    (inside : Faithful styler allowed children) (within : style.Within allowed)
    (h : renderNode styler style scope (.element tag children) = .ok text) :
    Renders allowed style (Says styler style scope (.element tag children)) text := by
  simp only [renderNode, role, bind_eq_ok] at h
  rcases h with ⟨loop, attr, entries, source, texts, rendered, h⟩
  cases h
  obtain ⟨parts, only, rfl, writes⟩ := renders_entries inside within rendered
  refine ⟨_, _, ?_, (spell_joinSeries _ _ _).symm, .series _ _ parts writes⟩
  intro other
  simp [says_loop_iff role, attr, source, only]

/-! ### Plurals -/

theorem lookup_map_snd {α β γ : Type} [BEq α] (f : β → γ) (entries : List (α × β)) (key : α) :
    (entries.map fun entry => (entry.1, f entry.2)).lookup key = (entries.lookup key).map f := by
  induction entries with
  | nil => rfl
  | cons entry entries ih =>
    obtain ⟨name, value⟩ := entry
    simp only [List.map_cons, List.lookup_cons]
    cases key == name with
    | true => rfl
    | false => exact ih

theorem mem_of_lookup_eq_some {α β : Type} [BEq α] [LawfulBEq α] {entries : List (α × β)}
    {key : α} {value : β} (h : entries.lookup key = some value) : (key, value) ∈ entries := by
  obtain ⟨before, after, rfl, -⟩ := List.lookup_eq_some_iff.mp h
  simp

theorem selectCase_eq_ok {count : Int64} {cases : List (String × List Char)} :
    selectCase styler count cases = .ok text ↔
      ∃ form, styler.service.chooseForm styler.locale count (Text.nameSet (cases.map Prod.fst)) =
        .ok form ∧ cases.lookup form = some text := by
  simp only [selectCase, bind_eq_ok, mapError_eq_ok]
  refine exists_congr fun form => and_congr_right fun _ => ?_
  cases cases.lookup form <;> simp

theorem renders_plural (role : Role.ofName tag.name = .plural)
    (inside : FaithfulCases styler allowed children) (within : style.Within allowed)
    (h : renderNode styler style scope (.element tag children) = .ok text) :
    Renders allowed style (Says styler style scope (.element tag children)) text := by
  simp only [renderNode, role, bind_eq_ok, attributeValue_eq_ok, selectCase_eq_ok] at h
  rcases h with
    ⟨value, ⟨formula, attr, computed⟩, count, counted, cases, rendered, form, chosen, present⟩
  obtain ⟨parts, only, rfl, writes⟩ := inside within rendered
  rw [lookup_map_snd (fun part : List Glyph × List Mark => spell part.2),
    Option.map_eq_some_iff] at present
  rcases present with ⟨⟨said, ms⟩, found, rfl⟩
  -- the cases that are said have the same forms, so the same one is chosen among them
  have forms : (parts.map fun part => (part.1, part.2.1)).map Prod.fst =
      (parts.map fun part => (part.1, spell part.2.2)).map Prod.fst := by simp
  rw [← forms] at chosen
  have lookup : (parts.map fun part => (part.1, part.2.1)).lookup form = some said := by
    rw [lookup_map_snd (fun part : List Glyph × List Mark => part.1), found, Option.map_some]
  refine ⟨said, ms, ?_, rfl, writes _ (mem_of_lookup_eq_some found)⟩
  intro other
  rw [says_plural_iff role]
  constructor
  · intro h
    rcases h with ⟨_, _, _, _, _, attr', computed', counted', inside', chosen', present'⟩
    cases attr.symm.trans attr'
    cases computed.symm.trans computed'
    cases counted.symm.trans counted'
    cases (only _).mp inside'
    cases chosen.symm.trans chosen'
    exact Option.some.inj (present'.symm.trans lookup)
  · rintro rfl
    exact ⟨_, _, _, _, _, attr, computed, counted, (only _).mpr rfl, chosen, lookup⟩

/-! ### Cases -/

theorem faithfulCases_nil : FaithfulCases styler allowed [] := by
  intro style scope cases within h
  cases h
  exact ⟨[], fun _ => saysCases_nil_iff, rfl, by simp⟩

theorem faithfulCases_text {text : String} (rest : FaithfulCases styler allowed nodes) :
    FaithfulCases styler allowed (.text text :: nodes) := by
  intro style scope cases within h
  rw [renderCases] at h
  obtain ⟨parts, only, spelled, writes⟩ := rest within h
  exact ⟨parts, fun other => saysCases_text_iff.trans (only other), spelled, writes⟩

theorem faithfulCases_case (name : tag.name = "case") (inside : Faithful styler allowed children)
    (rest : FaithfulCases styler allowed nodes) :
    FaithfulCases styler allowed (.element tag children :: nodes) := by
  intro style scope cases within h
  simp only [renderCases, name, if_true, bind_eq_ok, required_eq_ok] at h
  rcases h with ⟨form, attr, text, rendered, others, more, h⟩
  cases h
  obtain ⟨said, ms, only, rfl, writes⟩ := inside within rendered
  obtain ⟨parts, only', rfl, writes'⟩ := rest within more
  refine ⟨(form, said, ms) :: parts, ?_, rfl, List.forall_mem_cons.mpr ⟨writes, writes'⟩⟩
  · intro other
    simp [saysCases_case_iff name, attr, only, only']

theorem faithfulCases_other (name : tag.name ≠ "case") (rest : FaithfulCases styler allowed nodes) :
    FaithfulCases styler allowed (.element tag children :: nodes) := by
  intro style scope cases within h
  rw [renderCases, if_neg name] at h
  obtain ⟨parts, only, spelled, writes⟩ := rest within h
  exact ⟨parts, fun other => (saysCases_other_iff name).trans (only other), spelled, writes⟩

/-! ### Trees -/

mutual

theorem renders_node (node : Markup.Node) (colored : Colored allowed node) {style : Style}
    {scope : Scope} {text : List Char} (within : style.Within allowed)
    (h : renderNode styler style scope node = .ok text) :
    Renders allowed style (Says styler style scope node) text :=
  match node with
  | .text said => by
    cases h
    exact renders_text said
  | .element tag children => by
    -- the colours that the element asks for itself, and those inside it
    rcases colored with _ | ⟨own, inside⟩
    -- one lemma for each role, given what the recursion says of the children
    cases role : Role.ofName tag.name with
    | var => exact renders_var role h
    | bold => exact renders_bold role (faithful children inside) within h
    | underline => exact renders_underline role (faithful children inside) within h
    | color => exact renders_color role (own role) (faithful children inside) within h
    | loop => exact renders_loop role (faithful children inside) within h
    | plural => exact renders_plural role (faithfulCases children inside) within h
    | transparent => exact renders_transparent role (faithful children inside) within h

theorem faithful (nodes : List Markup.Node) (colored : ∀ node ∈ nodes, Colored allowed node) :
    Faithful styler allowed nodes :=
  match nodes with
  | [] => by
    intro style scope text within h
    cases h
    exact ⟨[], [], fun _ => saysAll_nil_iff, rfl, .nil⟩
  | node :: nodes => by
    intro style scope text within h
    simp only [renderNodes, bind_eq_ok] at h
    rcases h with ⟨first, rendered, more, rendered', h⟩
    cases h
    have head : Renders allowed style (Says styler style scope node) first :=
      renders_node node (colored node List.mem_cons_self) within rendered
    have tail : Faithful styler allowed nodes :=
      faithful nodes fun node member => colored node (List.mem_cons_of_mem _ member)
    obtain ⟨said, ms, only, rfl, writes⟩ := head
    obtain ⟨said', ms', only', rfl, writes'⟩ := tail within rendered'
    refine ⟨said ++ said', ms ++ ms', ?_, (spell_append _ _).symm, writes.append writes'⟩
    intro other
    simp [saysAll_cons_iff, only, only']

theorem faithfulCases (nodes : List Markup.Node) (colored : ∀ node ∈ nodes, Colored allowed node) :
    FaithfulCases styler allowed nodes :=
  match nodes with
  | [] => faithfulCases_nil
  | .text _ :: nodes =>
    faithfulCases_text
      (faithfulCases nodes fun node member => colored node (List.mem_cons_of_mem _ member))
  | .element tag children :: nodes => by
    have rest : FaithfulCases styler allowed nodes :=
      faithfulCases nodes fun node member => colored node (List.mem_cons_of_mem _ member)
    by_cases name : tag.name = "case"
    · have inside : ∀ node ∈ children, Colored allowed node := by
        cases colored _ List.mem_cons_self with
        | element _ inside => exact inside
      exact faithfulCases_case name (faithful children inside) rest
    · exact faithfulCases_other name rest

end

/-! ### What a client shows -/

/-- **Rendered text shows the tree.** Some nodes that can be rendered say one thing only, and
    if that is text, then a client shows it, character by character: bold and underlined
    where it is said to be, and in the colours that are set.  Behind it both are off. -/
theorem display_renderNodes {buffer : List Char}
    (rendered : renderNodes styler Style.plain scope nodes = .ok buffer) :
    ∃ said, (∀ other, SaysAll styler Style.plain scope nodes other ↔ other = said) ∧
      (IsText said → List.Forall₂ Glyph.Shows (display Style.plain buffer).1 said ∧
        (display Style.plain buffer).2.bold = false ∧
        (display Style.plain buffer).2.underline = false) := by
  have colored : ∀ node ∈ nodes, Colored (fun _ => True) node :=
    colored_of_mem (fun _ => trivial) nodes
  obtain ⟨said, ms, only, rfl, writes⟩ :=
    faithful nodes colored (Style.within_plain _) rendered
  refine ⟨said, only, ?_⟩
  intro text
  obtain ⟨shows, covers⟩ := writes.shows Style.plain (Style.covers_refl _)
  rw [display_eq, marks_spell (writes.padded text).legible]
  exact ⟨shows, covers.bold, covers.underline⟩

/-- A digit and a comma behind colours, in a colour that only the outer element sets. -/
theorem display_nested_colors :
    let red : Color := ⟨4, by decide⟩
    let nodes : List Markup.Node :=
      [.element ⟨"color", [("fg", "red")]⟩
        [.text "1", .element ⟨"b", []⟩ [.element ⟨"color", [("bg", "20")]⟩ [.text ","]]]]
    renderNodes {} Style.plain Scope.empty nodes =
        .ok "\x0304\x02\x021\x02\x03,20\x02\x02,\x02".toList ∧
      List.Forall₂ Glyph.Shows
        (display Style.plain "\x0304\x02\x021\x02\x03,20\x02\x02,\x02".toList).1
        [⟨'1', { foreground := some red }⟩,
          ⟨',', { bold := true, foreground := some red, background := some ⟨20, by decide⟩ }⟩] := by
  intro red nodes
  have rendered : renderNodes {} Style.plain Scope.empty nodes =
      .ok "\x0304\x02\x021\x02\x03,20\x02\x02,\x02".toList := rfl
  -- the bold element changes neither colour, and the inner colour keeps the outer foreground
  have spoken : SaysAll {} Style.plain Scope.empty nodes
      [⟨'1', { foreground := some red }⟩,
        ⟨',', { bold := true, foreground := some red, background := some ⟨20, by decide⟩ }⟩] :=
    .cons (.color rfl rfl (.cons .text (.cons
      (.bold rfl (.cons (.color rfl rfl (.cons .text .nil)) .nil)) .nil))) .nil
  obtain ⟨said, only, shows⟩ := display_renderNodes rendered
  rw [← (only _).mp spoken] at shows
  refine ⟨rendered, (shows ?_).1⟩
  simp [IsText, IsPlain, bold, underline, color]

end ChatMarkup.Render
