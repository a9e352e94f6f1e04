/-
  ChatMarkup/Proofs/Render/Loop.lean
  ==================================
  **The law of loops** — a loop over an array is rendered just if its body is for every entry,
  and then it is a series of their texts (`renderNode_loop`).  The first entry that fails
  decides the error.

  Every body starts in the style in which the loop does, though one pen draws all of them: by
  `drawNodes_eq`, each of them hands the pen on with the style that it came with.  Of the
  scope, an entry sees the bindings that the loop makes for it and nothing of those made for
  the entries before.
-/
import ChatMarkup.Proofs.Render.Pen
import ChatMarkup.Proofs.Render.Saying

namespace ChatMarkup.Render

open Markup (Node Tag)

variable {styler : Styler} {style : Style} {scope : Scope} {tag : Tag} {children : List Node}
  {source item : String} {entries : Entries}

/-- A loop is a series of the texts of its entries. -/
theorem renderNode_of_loop {loop : Loop} (role : Role.ofName tag.name = .loop)
    (said : Loop.ofTag tag = .ok loop) (array : loop.entries scope = .ok entries) :
    renderNode styler style scope (.element tag children) =
      (entries.mapM fun entry =>
        renderNodes styler style (loop.scopeFor styler.wrappers scope entry) children).map
          (Text.joinSeries loop.separator loop.lastSeparator) := by
  simp only [renderNode, role, said, array, ok_bind]
  rfl

/-- **The law of loops.**  Each body sees the key, if the loop names it, and before it the item.
    It makes no difference whether the loop is drawn by one pen that goes through all entries
    or every body is rendered in the style in which the loop starts. -/
theorem renderNode_loop (styler : Styler) (style : Style) (children : List Node)
    (name : tag.name = "for") (given : tag.attribute? "from" = some source)
    (bound : tag.attribute? "item" = some item) (sourceNamed : Formula.isName source = true)
    (itemNamed : Formula.isName item = true)
    (keyNamed : ∀ key, tag.attribute? "key" = some key → Formula.isName key = true)
    (array : scope.get? source = some (.array entries)) :
    let inside (entry : String × Value) : Scope :=
      (match tag.attribute? "key" with
        | none => scope.child
        | some key => scope.child.bind key (.typed (styler.wrappers.str entry.1))).bind item
          (entry.2.wrap styler.wrappers)
    let body (entry : String × Value) := renderNodes styler style (inside entry) children
    let between := (tag.attribute? "separator").or (tag.attribute? "sep")
    let last := ((tag.attribute? "last_separator").or (tag.attribute? "last")).or between
    let rendered := renderNode styler style scope (.element tag children)
    ((∃ text, rendered = .ok text) ↔ ∀ entry ∈ entries, ∃ text, body entry = .ok text) ∧
    (∀ texts, List.Forall₂ (fun entry text => body entry = .ok text) entries texts →
      ∃ text, rendered = .ok text ∧
        Text.Series (between.getD ", ").toList (last.getD " & ").toList texts text) ∧
    (∀ error, rendered = .error error ↔
      ∃ before failing after, entries = before ++ failing :: after ∧
        (∀ earlier ∈ before, ∃ text, body earlier = .ok text) ∧ body failing = .error error) ∧
    ∀ pen : Pen, pen.style = style →
      drawNode styler scope pen (.element tag children) = rendered.map pen.write ∧
      ∀ entry, drawNodes styler (inside entry) pen children = (body entry).map pen.write := by
  intro inside body between last rendered
  have role : Role.ofName tag.name = .loop := congrArg Role.ofName name
  have said : Loop.ofTag tag = .ok ⟨source, item, tag.attribute? "key",
      (between.getD ", ").toList, (last.getD " & ").toList⟩ :=
    ofTag_eq_ok_iff.mpr ⟨⟨given, bound, sourceNamed, itemNamed, keyNamed⟩, rfl, rfl, rfl⟩
  -- all that follows is about this equation: the bodies, rendered one after another and joined
  have series : rendered = (entries.mapM body).map
      (Text.joinSeries (between.getD ", ").toList (last.getD " & ").toList) := by
    apply renderNode_of_loop role said
    simp only [Loop.entries, array]
  refine ⟨?_, ?_, ?_, ?_⟩
  · rw [← exists_forall₂_iff, series]
    simp only [map_eq_ok, mapM_eq_ok_iff]
    constructor
    · rintro ⟨_, texts, bodies, -⟩
      exact ⟨texts, bodies⟩
    · rintro ⟨texts, bodies⟩
      exact ⟨_, texts, bodies, rfl⟩
  · intro texts bodies
    refine ⟨_, ?_, Text.series_joinSeries _ _ texts⟩
    rw [series, mapM_eq_ok_iff.mpr bodies]
    rfl
  · intro error
    rw [series, map_eq_error, mapM_eq_error_iff]
  · rintro pen rfl
    constructor
    · exact drawNode_eq styler _ scope pen
    · intro entry
      exact drawNodes_eq styler children (inside entry) pen

/-- All three names are the same here: what is run over is looked up around the loop, and for an
    entry the item is in front of the key. -/
theorem renderNode_loop_shadowed :
    let tag : Tag := ⟨"for", [("from", "x"), ("item", "x"), ("key", "x"), ("sep", "; "),
      ("last", " or ")]⟩
    let body : List Node := [.element ⟨"b", []⟩ [.element ⟨"var", [("name", "x")]⟩ []]]
    let scope := Scope.empty.bind "x" (.array [("a", .int 5), ("b", .int 6), ("c", .int 7)])
    renderNode {} .plain scope (.element tag body) =
      .ok "\x025\x02; \x026\x02 or \x027\x02".toList := by
  intro tag body scope
  have array : scope.get? "x" = some (.array [("a", .int 5), ("b", .int 6), ("c", .int 7)]) := rfl
  have key : ∀ key, tag.attribute? "key" = some key → Formula.isName key = true := by decide
  have law := renderNode_loop {} .plain body rfl rfl rfl (by decide) (by decide) key array
  -- item and key share the name of the variable; the item wins, and the array is not seen inside
  have bodies : [("a", Value.int 5), ("b", .int 6), ("c", .int 7)].mapM (fun entry =>
      renderNodes {} .plain ((scope.child.bind "x" (.typed (.str entry.1))).bind "x"
        (entry.2.wrap {})) body) =
      .ok ["\x025\x02".toList, "\x026\x02".toList, "\x027\x02".toList] := by
    decide +kernel
  obtain ⟨text, rendered, series⟩ := law.2.1 _ (mapM_eq_ok_iff.mp bodies)
  have joined : Text.joinSeries "; ".toList " or ".toList
      ["\x025\x02".toList, "\x026\x02".toList, "\x027\x02".toList] =
      "\x025\x02; \x026\x02 or \x027\x02".toList := by
    decide +kernel
  rw [rendered, series.eq_joinSeries]
  exact congrArg Except.ok joined

end ChatMarkup.Render
