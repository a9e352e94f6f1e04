/-
  ChatMarkup/Proofs/Render/Writing.lean
  =====================================
  **Marks that write what is said** — `Writes` ties the marks that a part of a tree is
  rendered as to the glyphs that it says, and has one lemma for every way in which parts
  are put together.

  The invariant is one-sided.  Nothing on the wire switches a channel off, so behind a
  `color` element a client may keep a colour that the renderer has forgotten.  What holds
  at every point is that the client **covers** the style of the renderer: bold and
  underline are the same, and a colour that the renderer has set the client has, too.
  Sequences are written for the channels that change; as the client covers the style
  before, the others are as they should be without being named (`switches_colors`).
-/
import ChatMarkup.Proofs.Wire.Mark
import ChatMarkup.Render.Tree
import ChatMarkup.Text.Segments
import Mathlib.Data.List.Forall2

namespace ChatMarkup

/-- A client in one style is as it should be in another: bold and underline are right, and
    so are the colours that are set. -/
structure Style.Covers (client style : Style) : Prop where
  bold : client.bold = style.bold
  underline : client.underline = style.underline
  foreground : ∀ code, style.foreground = some code → client.foreground = some code
  background : ∀ code, style.background = some code → client.background = some code

theorem Style.covers_refl (style : Style) : style.Covers style :=
  ⟨rfl, rfl, fun _ h => h, fun _ h => h⟩

structure Style.Within (allowed : Color → Prop) (style : Style) : Prop where
  foreground : ∀ code, style.foreground = some code → allowed code
  background : ∀ code, style.background = some code → allowed code

theorem Style.within_plain (allowed : Color → Prop) : Style.plain.Within allowed where
  foreground := by simp [Style.plain]
  background := by simp [Style.plain]

namespace Wire

structure Glyph.Shows (shown said : Glyph) : Prop where
  char : shown.char = said.char
  style : shown.style.Covers said.style

def Mark.Within (allowed : Color → Prop) : Mark → Prop
  | .colors fg bg => (∀ code, fg = some code → allowed code) ∧ ∀ code, bg = some code → allowed code
  | _ => True

/-! ### Padded marks -/

/-- Marks as they are rendered: behind a sequence that names one channel stands a double
    toggle. -/
inductive Padded : List Mark → Prop where
  | nil : Padded []
  | char {c rest} (plain : IsPlain c) (tail : Padded rest) : Padded (.char c :: rest)
  | bold {rest} (tail : Padded rest) : Padded (.bold :: rest)
  | underline {rest} (tail : Padded rest) : Padded (.underline :: rest)
  | both {fg bg rest} (tail : Padded rest) : Padded (.colors (some fg) (some bg) :: rest)
  | foreground {fg rest} (tail : Padded rest) :
      Padded (.colors (some fg) none :: .bold :: .bold :: rest)
  | background {bg rest} (tail : Padded rest) :
      Padded (.colors none (some bg) :: .bold :: .bold :: rest)

theorem Padded.append {first second : List Mark} (h : Padded first) (h' : Padded second) :
    Padded (first ++ second) := by
  induction h with
  | nil => exact h'
  | char plain _ ih => exact .char plain ih
  | bold _ ih => exact .bold ih
  | underline _ ih => exact .underline ih
  | both _ ih => exact .both ih
  | foreground _ ih => exact .foreground ih
  | background _ ih => exact .background ih

theorem padded_map_char {text : List Char} (plain : ∀ c ∈ text, IsPlain c) :
    Padded (text.map .char) := by
  induction text with
  | nil => exact .nil
  | cons c text ih => exact .char (plain c (by simp)) (ih fun d h => plain d (by simp [h]))

/-- Padding keeps a sequence apart from the text behind it. -/
theorem Padded.legible {ms : List Mark} (h : Padded ms) : Legible ms := by
  induction h with
  | nil => exact .nil
  | char plain _ ih => exact .char plain ih
  | bold _ ih => exact .bold ih
  | underline _ ih => exact .underline ih
  | both _ ih => exact .background ih
  | foreground _ ih => exact .foreground rfl (.bold (.bold ih))
  | background _ ih => exact .background (.bold (.bold ih))

end Wire

namespace Render

open Wire

/-! ### Switching colours -/

def sequenceMarks : Option Color → Option Color → List Mark
  | none, none => []
  | some fg, some bg => [.colors (some fg) (some bg)]
  | fg, bg => [.colors fg bg, .bold, .bold]

theorem spell_sequenceMarks (fg bg : Option Color) :
    spell (sequenceMarks fg bg) = colorSequence fg bg := by
  cases fg <;> cases bg <;>
    simp [sequenceMarks, colorSequence, colorSequence?, Mark.text, backgroundText, padding]

theorem padded_sequenceMarks (fg bg : Option Color) : Padded (sequenceMarks fg bg) := by
  cases fg with
  | none =>
    cases bg with
    | none => exact .nil
    | some bg => exact .background .nil
  | some fg =>
    cases bg with
    | none => exact .foreground .nil
    | some bg => exact .both .nil

theorem shown_sequenceMarks (client : Style) (fg bg : Option Color) :
    shown client (sequenceMarks fg bg) = [] := by
  cases fg <;> cases bg <;> rfl

theorem styleAfter_sequenceMarks (client : Style) (fg bg : Option Color) :
    styleAfter client (sequenceMarks fg bg) =
      { client with
        foreground := fg.or client.foreground, background := bg.or client.background } := by
  cases fg <;> cases bg <;> simp [sequenceMarks, Mark.restyle]

/-- The marks that take the colours of one style to those of another. -/
def switchMarks (before after : Style) : List Mark :=
  sequenceMarks (channelSwitch before.foreground after.foreground)
    (channelSwitch before.background after.background)

theorem spell_switchMarks (before after : Style) :
    spell (switchMarks before after) = switchColors before after := spell_sequenceMarks _ _

theorem channelSwitch_within {allowed : Color → Prop} {before after : Option Color}
    (h : ∀ code, after = some code → allowed code) :
    ∀ code, channelSwitch before after = some code → allowed code := by
  intro code e
  unfold channelSwitch at e
  split at e
  · cases e
  · exact h code e

theorem within_sequenceMarks {allowed : Color → Prop} {fg bg : Option Color}
    (first : ∀ code, fg = some code → allowed code)
    (second : ∀ code, bg = some code → allowed code) :
    ∀ m ∈ sequenceMarks fg bg, m.Within allowed := by
  intro m member
  have only : m = .colors fg bg ∨ m = .bold := by
    cases fg <;> cases bg <;> simp_all [sequenceMarks]
  rcases only with rfl | rfl
  · exact ⟨first, second⟩
  · exact trivial

/-- Switching a channel gives the client the colour that is set, named or not. -/
theorem channelSwitch_or {before after client : Option Color}
    (covered : ∀ code, before = some code → client = some code) :
    ∀ code, after = some code → (channelSwitch before after).or client = some code := by
  rintro code rfl
  unfold channelSwitch
  split
  · rename_i same
    exact covered code same.symm
  · rfl

theorem recolored_eq_ok {tag : Markup.Tag} {style colored : Style}
    (h : recolored tag style = .ok colored) :
    ∃ fg bg, channel tag "fg" = .ok fg ∧ channel tag "bg" = .ok bg ∧
      colored = { style with
        foreground := fg.or style.foreground, background := bg.or style.background } := by
  unfold recolored at h
  cases first : channel tag "fg" with
  | error e => rw [first] at h; cases h
  | ok fg =>
    cases second : channel tag "bg" with
    | error e => rw [first, second] at h; cases h
    | ok bg =>
      rw [first, second] at h
      change (if _ then _ else _) = _ at h
      split at h
      · cases h
      · cases h
        exact ⟨fg, bg, rfl, rfl, rfl⟩

/-! ### Writing what is said -/

def IsText (said : List Glyph) : Prop := ∀ glyph ∈ said, IsPlain glyph.char

/-- Marks write what is said in a style: a client that covers the style shows it, and covers
    the style again behind it. -/
structure Writes (allowed : Color → Prop) (style : Style) (said : List Glyph) (ms : List Mark) :
    Prop where
  shows : ∀ client : Style, client.Covers style →
    List.Forall₂ Glyph.Shows (shown client ms) said ∧ (styleAfter client ms).Covers style
  padded : IsText said → Padded ms
  within : ∀ m ∈ ms, m.Within allowed

variable {allowed : Color → Prop} {style : Style}

theorem Writes.nil : Writes allowed style [] [] where
  shows := fun _ covers => ⟨.nil, covers⟩
  padded := fun _ => .nil
  within := by simp

theorem Writes.append {first second : List Glyph} {ms ms' : List Mark}
    (h : Writes allowed style first ms) (h' : Writes allowed style second ms') :
    Writes allowed style (first ++ second) (ms ++ ms') where
  shows := by
    intro client covers
    obtain ⟨shows, covers'⟩ := h.shows client covers
    -- the client covers the style again behind the first part, and so reads the second as meant
    obtain ⟨shows', covers''⟩ := h'.shows _ covers'
    rw [shown_append, styleAfter_append]
    exact ⟨List.rel_append shows shows', covers''⟩
  padded := by
    intro text
    have first := h.padded fun glyph member => text glyph (List.mem_append_left _ member)
    have second := h'.padded fun glyph member => text glyph (List.mem_append_right _ member)
    exact first.append second
  within := List.forall_mem_append.mpr ⟨h.within, h'.within⟩

theorem Writes.text (text : List Char) :
    Writes allowed style (glyphs style text) (text.map .char) where
  shows := by
    intro client covers
    induction text with
    | nil => exact ⟨.nil, covers⟩
    | cons c text ih => exact ⟨.cons ⟨rfl, covers⟩ ih.1, ih.2⟩
  padded := by
    intro plain
    exact padded_map_char fun c member => plain ⟨c, style⟩ (List.mem_map_of_mem member)
  within := by
    intro m member
    obtain ⟨c, -, rfl⟩ := List.mem_map.mp member
    exact trivial

/-! ### Switching styles -/

/-- Marks take a client from one style to another and show nothing. -/
structure Switches (allowed : Color → Prop) (before after : Style) (ms : List Mark) : Prop where
  shows : ∀ client, shown client ms = []
  covers : ∀ client : Style, client.Covers before → (styleAfter client ms).Covers after
  padded : Padded ms
  within : ∀ m ∈ ms, m.Within allowed

theorem switches_bold (style : Style) :
    Switches allowed style { style with bold := !style.bold } [.bold] where
  shows := fun _ => rfl
  covers := fun _ covers =>
    ⟨congrArg not covers.bold, covers.underline, covers.foreground, covers.background⟩
  padded := .bold .nil
  within := by simp [Mark.Within]

theorem switches_underline (style : Style) :
    Switches allowed style { style with underline := !style.underline } [.underline] where
  shows := fun _ => rfl
  covers := fun _ covers =>
    ⟨covers.bold, congrArg not covers.underline, covers.foreground, covers.background⟩
  padded := .underline .nil
  within := by simp [Mark.Within]

theorem switches_colors {before after : Style} (bold : before.bold = after.bold)
    (underline : before.underline = after.underline) (within : after.Within allowed) :
    Switches allowed before after (switchMarks before after) where
  shows := fun client => shown_sequenceMarks client _ _
  covers := by
    intro client covers
    rw [switchMarks, styleAfter_sequenceMarks]
    exact ⟨covers.bold.trans bold, covers.underline.trans underline,
      channelSwitch_or covers.foreground, channelSwitch_or covers.background⟩
  padded := padded_sequenceMarks _ _
  within := within_sequenceMarks (channelSwitch_within within.foreground)
    (channelSwitch_within within.background)

/-- An element that switches the style and switches it back writes what is inside. -/
theorem Writes.enclosed {inside : Style} {said : List Glyph} {first ms last : List Mark}
    (enter : Switches allowed style inside first) (leave : Switches allowed inside style last)
    (h : Writes allowed inside said ms) : Writes allowed style said (first ++ ms ++ last) where
  shows := by
    intro client covers
    -- inside, the client covers the style that was switched to; behind, the one outside again
    obtain ⟨shows, covers'⟩ := h.shows _ (enter.covers client covers)
    rw [shown_append, shown_append, enter.shows, leave.shows, List.nil_append, List.append_nil,
      styleAfter_append, styleAfter_append]
    exact ⟨shows, leave.covers _ covers'⟩
  padded := fun text => (enter.padded.append (h.padded text)).append leave.padded
  within :=
    List.forall_mem_append.mpr ⟨List.forall_mem_append.mpr ⟨enter.within, h.within⟩, leave.within⟩

def toggledMarks (isOn : Bool) (toggle : Mark) (ms : List Mark) : List Mark :=
  if isOn then ms else [toggle] ++ ms ++ [toggle]

theorem spell_toggledMarks {toggle : Mark} {c : Char} (h : toggle.text = [c]) (isOn : Bool)
    (ms : List Mark) : spell (toggledMarks isOn toggle ms) = toggled isOn c (spell ms) := by
  cases isOn <;> simp [toggledMarks, toggled, h]

theorem Writes.bold {said : List Glyph} {ms : List Mark}
    (h : Writes allowed { style with bold := true } said ms) :
    Writes allowed style said (toggledMarks style.bold .bold ms) := by
  obtain ⟨bold, underline, fg, bg⟩ := style
  cases bold with
  | true => exact h
  | false => exact .enclosed (switches_bold _) (switches_bold _) h

theorem Writes.underline {said : List Glyph} {ms : List Mark}
    (h : Writes allowed { style with underline := true } said ms) :
    Writes allowed style said (toggledMarks style.underline .underline ms) := by
  obtain ⟨bold, underline, fg, bg⟩ := style
  cases underline with
  | true => exact h
  | false => exact .enclosed (switches_underline _) (switches_underline _) h

theorem Writes.color {colored : Style} {said : List Glyph} {ms : List Mark}
    (bold : style.bold = colored.bold) (underline : style.underline = colored.underline)
    (within : style.Within allowed) (within' : colored.Within allowed)
    (h : Writes allowed colored said ms) :
    Writes allowed style said (switchMarks style colored ++ ms ++ switchMarks colored style) :=
  .enclosed (switches_colors bold underline within')
    (switches_colors bold.symm underline.symm within) h

/-! ### Series -/

theorem spell_joinSeries (separator last : List Char) (parts : List (List Mark)) :
    spell (Text.joinSeries (separator.map .char) (last.map .char) parts) =
      Text.joinSeries separator last (parts.map spell) := by
  match parts with
  | [] => rfl
  | [part] => rfl
  | [part, part'] => simp [Text.joinSeries]
  | part :: part' :: part'' :: parts =>
    have rest := spell_joinSeries separator last (part' :: part'' :: parts)
    simp only [List.map_cons] at rest
    simp [Text.joinSeries, rest]

theorem Writes.series (separator last : List Char) (parts : List (List Glyph × List Mark))
    (h : ∀ part ∈ parts, Writes allowed style part.1 part.2) :
    Writes allowed style
      (Text.joinSeries (glyphs style separator) (glyphs style last) (parts.map Prod.fst))
      (Text.joinSeries (separator.map .char) (last.map .char) (parts.map Prod.snd)) := by
  match parts with
  | [] => exact .nil
  | [part] => exact h part (by simp)
  | [part, part'] =>
    exact ((h part (by simp)).append (.text last)).append (h part' (by simp))
  | part :: part' :: part'' :: parts =>
    have rest := Writes.series separator last (part' :: part'' :: parts)
      fun part member => h part (List.mem_cons_of_mem _ member)
    exact ((h part (by simp)).append (.text separator)).append rest

end Render

end ChatMarkup
