/-
  ChatMarkup/Proofs/Render/Cleaned.lean
  =====================================
  **What the clean-up makes of a rendered tree** — the text that goes out on the wire is the
  rendered text without redundant colour codes, and a client is to show it as it would show
  the rendered text.

  Neither the text nor the colours are safe.  The clean-up takes a background code from 20 on
  for none at all, and its digits stay behind as text.  A sequence counts as overridden as
  soon as another one follows it, although that may name the other channel only.  So the main
  statements say when the text and the colours are kept, in terms of the rendered marks.
-/
import ChatMarkup.Proofs.Render.Walk
import ChatMarkup.Proofs.Wire.Surviving
import ChatMarkup.Render.Template

namespace ChatMarkup.Render

open Wire

variable {styler : Styler} {root : Markup.Element} {vars : Variables} {out : String}

/-! ### Rendered, then cleaned -/

theorem renderTree_eq_ok :
    styler.renderTree root vars = .ok out ↔
      ∃ scope buffer, styler.rootScope vars = .ok scope ∧
        renderNodes styler Style.plain scope root.children = .ok buffer ∧
        out = String.ofList (cleanUp buffer) := by
  simp only [Styler.renderTree, bind_eq_ok, Except.ok.injEq, exists_and_left, @eq_comm _ out]

/-- A rendered template, from what it is rendered as before the clean-up. -/
theorem renderTree_of_cleanUp {scope : Scope} {buffer : List Char}
    (start : styler.rootScope vars = .ok scope)
    (walked : renderNodes styler Style.plain scope root.children = .ok buffer)
    (cleaned : cleanUp buffer = out.toList) : styler.renderTree root vars = .ok out := by
  refine renderTree_eq_ok.mpr ⟨scope, buffer, start, walked, ?_⟩
  rw [cleaned, String.ofList_toList]

/-- Characters are said as they are shown. -/
theorem map_char_eq_of_shows {glyphs said : List Glyph} (h : List.Forall₂ Glyph.Shows glyphs said) :
    glyphs.map Glyph.char = said.map Glyph.char := by
  induction h with
  | nil => rfl
  | cons head _ ih => rw [List.map_cons, List.map_cons, head.char, ih]

/-- The characters among the marks that write something are the ones that are said. -/
theorem Writes.chars {allowed : Color → Prop} {style : Style} {said : List Glyph} {ms : List Mark}
    (h : Writes allowed style said ms) : ms.filterMap Mark.char? = said.map Glyph.char := by
  have shows := (h.shows style (Style.covers_refl style)).1
  rw [← shown_map_char style, map_char_eq_of_shows shows]

/-- Colours below 20 cannot leak. -/
theorem Writes.sound {style : Style} {said : List Glyph} {ms : List Mark}
    (h : Writes (fun code => code.code ≤ 15) style said ms) : ∀ m ∈ ms, ¬m.IsLeak := by
  intro m member leak
  obtain ⟨bg, rfl, high⟩ := isLeak_iff.mp leak
  have low : bg.code ≤ 15 := (h.within _ member).2 bg rfl
  omega

/-! ### The text -/

/-- **When the text is kept.** Of a template that can be rendered, the characters that are
    visible in the end are those of the tree exactly when no sequence of the rendered text
    names a background from 20 on and no foreground. -/
theorem visible_renderTree (rendered : styler.renderTree root vars = .ok out) :
    ∃ scope buffer said, styler.rootScope vars = .ok scope ∧
      renderNodes styler Style.plain scope root.children = .ok buffer ∧
      (∀ other, SaysAll styler Style.plain scope root.children other ↔ other = said) ∧
      (IsText said → (visible out.toList = said.map Glyph.char ↔
        ∀ bg, Mark.colors none (some bg) ∈ marks buffer → bg.code < 20)) := by
  obtain ⟨scope, buffer, start, walked, rfl⟩ := renderTree_eq_ok.mp rendered
  have colored : ∀ node ∈ root.children, Colored (fun _ => True) node :=
    colored_of_mem (fun _ => trivial) root.children
  -- what was rendered is made of marks that write what the tree says
  obtain ⟨said, ms, only, rfl, writes⟩ := faithful _ colored (Style.within_plain _) walked
  refine ⟨scope, spell ms, said, start, walked, only, ?_⟩
  intro text
  have legible := (writes.padded text).legible
  rw [String.toList_ofList, ← writes.chars, visible_cleanUp_spell_eq_iff legible,
    marks_spell legible]
  -- text gets lost or out of place at a leak only, and a leak is a background from 20 on
  constructor
  · intro sound bg member
    by_contra high
    exact sound _ member (isLeak_iff.mpr ⟨bg, rfl, Nat.le_of_not_lt high⟩)
  · intro low m member leak
    obtain ⟨bg, rfl, high⟩ := isLeak_iff.mp leak
    exact Nat.not_lt_of_le high (low bg member)

/-- The last code that is safe, before text that begins with a comma. -/
theorem visible_background_nineteen :
    ({} : Styler).renderTree (Markup.root [.element ⟨"color", [("bg", "19")]⟩ [.text ",5"]]) [] =
        .ok "\x03,19\x02\x02,5" ∧
      visible "\x03,19\x02\x02,5".toList = [',', '5'] := by
  have rendered : ({} : Styler).renderTree
      (Markup.root [.element ⟨"color", [("bg", "19")]⟩ [.text ",5"]]) [] =
      .ok "\x03,19\x02\x02,5" := renderTree_of_cleanUp rfl rfl (by decide +kernel)
  obtain ⟨scope, buffer, said, start, walked, only, kept⟩ := visible_renderTree rendered
  cases start
  cases walked
  have spoken := (only _).mp (.cons (.color rfl rfl (.cons .text .nil)) .nil)
  subst spoken
  have tokens : marks "\x03,19\x02\x02,5".toList =
      [.colors none (some ⟨19, by decide⟩), .bold, .bold, .char ',', .char '5'] := by
    decide +kernel
  refine ⟨rendered, (kept ?_).mpr ?_⟩
  · simp [IsText, IsPlain, glyphs, bold, underline, color]
  · intro bg member
    change _ ∈ marks "\x03,19\x02\x02,5".toList at member
    rw [tokens] at member
    simp at member
    simp [member]

/-- A background of 20 leaves its digits in front of the text. -/
theorem visible_background_twenty :
    let nodes : List Markup.Node := [.element ⟨"color", [("bg", "20")]⟩ [.text "x"]]
    let said : List Glyph := [⟨'x', { background := some ⟨20, by decide⟩ }⟩]
    ({} : Styler).renderTree (Markup.root nodes) [] = .ok "20\x02\x02x" ∧
      SaysAll {} Style.plain Scope.empty nodes said ∧ IsText said ∧
      visible "20\x02\x02x".toList = ['2', '0', 'x'] ∧
      visible "20\x02\x02x".toList ≠ said.map Glyph.char := by
  intro nodes said
  refine ⟨renderTree_of_cleanUp rfl rfl (by decide +kernel), ?_, ?_, by decide +kernel,
    by decide +kernel⟩
  · exact .cons (.color rfl rfl (.cons .text .nil)) .nil
  · simp [said, IsText, IsPlain, bold, underline, color]

/-! ### The colours -/

/-- **When the colours are kept.** Of a template that can be rendered in palette colours, a
    client shows in the end what it would show if every sequence with a background were left
    out that another sequence follows, directly or behind a double toggle.  So the colours
    are those of the tree exactly when they can do without these. -/
theorem display_renderTree
    (palette : ∀ node ∈ root.children, Colored (fun code => code.code ≤ 15) node)
    (rendered : styler.renderTree root vars = .ok out) :
    ∃ scope buffer said, styler.rootScope vars = .ok scope ∧
      renderNodes styler Style.plain scope root.children = .ok buffer ∧
      (∀ other, SaysAll styler Style.plain scope root.children other ↔ other = said) ∧
      (IsText said →
        display Style.plain out.toList = run Style.plain (surviving (marks buffer)) ∧
        (List.Forall₂ Glyph.Shows (display Style.plain out.toList).1 said ↔
          List.Forall₂ Glyph.Shows (shown Style.plain (surviving (marks buffer))) said)) := by
  obtain ⟨scope, buffer, start, walked, rfl⟩ := renderTree_eq_ok.mp rendered
  obtain ⟨said, ms, only, rfl, writes⟩ := faithful _ palette (Style.within_plain _) walked
  refine ⟨scope, spell ms, said, start, walked, only, ?_⟩
  intro text
  have legible := (writes.padded text).legible
  -- within the palette nothing leaks, so the clean-up leaves just the sequences not overridden
  have same : display Style.plain (String.ofList (cleanUp (spell ms))).toList =
      run Style.plain (surviving (marks (spell ms))) := by
    rw [String.toList_ofList, display_cleanUp_spell legible writes.sound, marks_spell legible]
  refine ⟨same, ?_⟩
  rw [same]
  exact Iff.rfl

/-- A foreground inside a background, with a text in between. -/
theorem display_colors_apart :
    let nodes : List Markup.Node :=
      [.element ⟨"color", [("bg", "4")]⟩ [.text "a", .element ⟨"color", [("fg", "1")]⟩ [.text "x"]]]
    ({} : Styler).renderTree (Markup.root nodes) [] = .ok "\x03,04\x02\x02a\x0301x" ∧
      List.Forall₂ Glyph.Shows (display Style.plain "\x03,04\x02\x02a\x0301x".toList).1
        [⟨'a', { background := some ⟨4, by decide⟩ }⟩,
          ⟨'x', { foreground := some ⟨1, by decide⟩, background := some ⟨4, by decide⟩ }⟩] := by
  intro nodes
  have palette : ∀ node ∈ nodes, Colored (fun code => code.code ≤ 15) node := by
    intro node member
    rw [List.mem_singleton.mp member]
    refine .color rfl rfl (by simp) (by rintro _ ⟨⟩; decide) ?_
    intro node member
    rcases List.mem_pair.mp member with rfl | rfl
    · exact .text
    · exact .color rfl rfl (by rintro _ ⟨⟩; decide) (by simp) (by simp [Colored.text])
  have rendered : ({} : Styler).renderTree (Markup.root nodes) [] =
      .ok "\x03,04\x02\x02a\x0301x" := renderTree_of_cleanUp rfl rfl (by decide +kernel)
  obtain ⟨scope, buffer, said, start, walked, only, kept⟩ := display_renderTree palette rendered
  cases start
  cases walked
  have spoken := (only _).mp
    (.cons (.color rfl rfl (.cons .text (.cons (.color rfl rfl (.cons .text .nil)) .nil))) .nil)
  subst spoken
  refine ⟨rendered, (kept ?_).2.mpr ?_⟩
  · simp [IsText, IsPlain, glyphs, bold, underline, color]
  -- the character between the two sequences keeps the first from being overridden
  · have survived : shown Style.plain
        (surviving (marks "\x03,04\x02\x02a\x0301\x02\x02x".toList)) =
        [⟨'a', { background := some ⟨4, by decide⟩ }⟩,
          ⟨'x', { foreground := some ⟨1, by decide⟩, background := some ⟨4, by decide⟩ }⟩] := by
      decide +kernel
    change List.Forall₂ Glyph.Shows (shown Style.plain
      (surviving (marks "\x03,04\x02\x02a\x0301\x02\x02x".toList))) _
    rw [survived]
    exact List.forall₂_same.mpr fun glyph _ => ⟨rfl, Style.covers_refl glyph.style⟩

/-- A foreground that begins where a background begins takes the background away. -/
theorem display_colors_together :
    let nodes : List Markup.Node :=
      [.element ⟨"color", [("bg", "4")]⟩ [.element ⟨"color", [("fg", "1")]⟩ [.text "x"]]]
    let said : List Glyph :=
      [⟨'x', { foreground := some ⟨1, by decide⟩, background := some ⟨4, by decide⟩ }⟩]
    ({} : Styler).renderTree (Markup.root nodes) [] = .ok "\x0301x" ∧
      SaysAll {} Style.plain Scope.empty nodes said ∧ IsText said ∧
      ¬List.Forall₂ Glyph.Shows (display Style.plain "\x0301x".toList).1 said := by
  intro nodes said
  refine ⟨renderTree_of_cleanUp rfl rfl (by decide +kernel), ?_, ?_, ?_⟩
  · exact .cons (.color rfl rfl (.cons (.color rfl rfl (.cons .text .nil)) .nil)) .nil
  · simp [said, IsText, IsPlain, bold, underline, color]
  · have displayed : (display Style.plain "\x0301x".toList).1 =
        [⟨'x', { foreground := some ⟨1, by decide⟩ }⟩] := by decide +kernel
    rw [displayed]
    intro shows
    -- the background is said, but the sequence that set it was taken for overridden
    have background := (List.forall₂_cons.mp shows).1.style.background _ rfl
    cases background

end ChatMarkup.Render
