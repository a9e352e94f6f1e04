/-
  ChatMarkup/Wire/Display.lean
  ============================
  **How text on the wire is shown** — a client keeps a current style, which control
  characters change, and shows every other character in it.

  A colour sequence names a foreground, a background or both; a channel that it does not
  name keeps its colour. A colour character without a code is shown like any other.
-/
import ChatMarkup.Style.Basic

namespace ChatMarkup.Wire

structure Glyph where
  char : Char
  style : Style
  deriving DecidableEq, Repr

def glyphs (style : Style) (text : List Char) : List Glyph := text.map (⟨·, style⟩)

def readCode? : List Char → Option (Color × List Char)
  | a :: b :: rest =>
    if a.isDigit && b.isDigit then (Color.ofCode? (Decimal.value [a, b])).map (·, rest) else none
  | _ => none

def readBackground? : List Char → Option (Color × List Char)
  | ',' :: rest => readCode? rest
  | _ => none

/-- The colours that a sequence names, read from behind its colour character. -/
def readColors? (text : List Char) : Option (Option Color × Option Color × List Char) :=
  match readCode? text with
  | some (fg, rest) =>
    match readBackground? rest with
    | some (bg, rest) => some (some fg, some bg, rest)
    | none => some (some fg, none, rest)
  | none => (readBackground? text).map fun (bg, rest) => (none, some bg, rest)

theorem length_of_readCode? {text rest : List Char} {code : Color}
    (h : readCode? text = some (code, rest)) : rest.length < text.length := by
  unfold readCode? at h
  split at h
  · split at h
    · simp only [Option.map_eq_some_iff, Prod.mk.injEq] at h
      obtain ⟨_, _, _, rfl⟩ := h
      simp only [List.length_cons]
      omega
    · cases h
  · cases h

theorem length_of_readBackground? {text rest : List Char} {code : Color}
    (h : readBackground? text = some (code, rest)) : rest.length < text.length := by
  unfold readBackground? at h
  split at h
  · have := length_of_readCode? h
    simp only [List.length_cons]
    omega
  · cases h

theorem length_of_readColors? {text rest : List Char} {fg bg : Option Color}
    (h : readColors? text = some (fg, bg, rest)) : rest.length < text.length := by
  unfold readColors? at h
  split at h
  · rename_i first
    have := length_of_readCode? first
    split at h
    · rename_i second
      have := length_of_readBackground? second
      cases h
      omega
    · cases h
      assumption
  · simp only [Option.map_eq_some_iff, Prod.mk.injEq] at h
    obtain ⟨_, second, _, _, rfl⟩ := h
    exact length_of_readBackground? second

def Glyph.before (glyph : Glyph) (rest : List Glyph × Style) : List Glyph × Style :=
  (glyph :: rest.1, rest.2)

/-- What a client shows of a text that begins in a given style, and its style at the end. -/
def display (style : Style) (text : List Char) : List Glyph × Style :=
  match text with
  | [] => ([], style)
  | c :: tail =>
    if c = bold then display { style with bold := !style.bold } tail
    else if c = underline then display { style with underline := !style.underline } tail
    else if c = color then
      match _h : readColors? tail with
      | some (fg, bg, rest) =>
        display { style with
          foreground := fg.or style.foreground, background := bg.or style.background } rest
      -- not a colour sequence, so the colour character is a character like any other
      | none => Glyph.before ⟨c, style⟩ (display style tail)
    else Glyph.before ⟨c, style⟩ (display style tail)
termination_by text.length
decreasing_by
  · simp
  · simp
  · have := length_of_readColors? _h
    simp only [List.length_cons]
    omega
  · simp
  · simp

def IsPlain (c : Char) : Prop := c ≠ bold ∧ c ≠ underline ∧ c ≠ color

end ChatMarkup.Wire
