/-
  ChatMarkup/Proofs/Wire/Mark.lean
  ================================
  **Text on the wire as marks** — a client does not see characters but marks: shown
  characters, toggles and colour sequences.  `marks` takes a text apart, `spell` writes
  marks out, and the two are inverse to one another on **legible** marks, those in which
  no sequence runs into the text behind it (`marks_spell`).

  What a client shows depends on the marks alone (`display_eq`), and marks, unlike
  characters, can be looked at one by one: `shown` and `styleAfter` have an equation for
  `++` each.  Everything about rendered text is proved on its marks.
-/
import ChatMarkup.Wire.Display

namespace ChatMarkup

/-- The two digits of a code, the number that they stand for, and the codes that begin
    with one of the digits which the clean-up looks for. -/
theorem Color.exists_digits (code : Color) :
    ∃ a b, code.digits = [a, b] ∧ a.isDigit = true ∧ b.isDigit = true ∧
      Decimal.value [a, b] = code.code ∧ ((a = '0' ∨ a = '1') ↔ code.code < 20) := by
  -- a hundred codes, so a table will do
  have table : ∀ n : Fin 100, Decimal.value (Decimal.padTwo n.val) = n.val ∧
      (((Decimal.padTwo n.val).head? = some '0' ∨ (Decimal.padTwo n.val).head? = some '1') ↔
        n.val < 20) := by decide +kernel
  have pair := code.digits_length
  have digit : ∀ c ∈ code.digits, c.isDigit = true := fun c => isDigit_of_mem_digits
  obtain ⟨value, low⟩ := table ⟨code.code, Nat.lt_succ_of_le code.code_le⟩
  change Decimal.value code.digits = code.code at value
  change ((code.digits.head? = some '0' ∨ code.digits.head? = some '1') ↔ _) at low
  match e : code.digits, pair with
  | [a, b], _ =>
    rw [e] at digit value low
    simp only [List.head?_cons, Option.some.injEq] at low
    exact ⟨a, b, rfl, digit a (by simp), digit b (by simp), value, low⟩

namespace Wire

/-! ### Marks and their spelling -/

inductive Mark where
  | char (c : Char)
  | bold
  | underline
  | colors (fg bg : Option Color)
deriving DecidableEq, Repr

def backgroundText : Option Color → List Char
  | none => []
  | some code => ',' :: code.digits

def Mark.text : Mark → List Char
  | .char c => [c]
  | .bold => [Wire.bold]
  | .underline => [Wire.underline]
  | .colors fg bg => color :: ((fg.map Color.digits).getD [] ++ backgroundText bg)

def spell (ms : List Mark) : List Char := ms.flatMap Mark.text

@[simp] theorem spell_nil : spell [] = [] := rfl

@[simp] theorem spell_cons (m : Mark) (ms : List Mark) : spell (m :: ms) = m.text ++ spell ms := rfl

@[simp] theorem spell_append (first second : List Mark) :
    spell (first ++ second) = spell first ++ spell second := List.flatMap_append

@[simp] theorem spell_map_char (text : List Char) : spell (text.map .char) = text := by
  induction text with
  | nil => rfl
  | cons c text ih => rw [List.map_cons, spell_cons, ih]; rfl

def marks (text : List Char) : List Mark :=
  match text with
  | [] => []
  | c :: tail =>
    if c = Wire.bold then .bold :: marks tail
    else if c = underline then .underline :: marks tail
    else if c = color then
      match _h : readColors? tail with
      | some (fg, bg, rest) => .colors fg bg :: marks rest
      | none => .char c :: marks tail
    else .char c :: marks tail
termination_by text.length
decreasing_by
  · simp
  · simp
  · have := length_of_readColors? _h
    simp only [List.length_cons]
    omega
  · simp
  · simp

/-! ### What a client makes of marks -/

def Mark.restyle : Mark → Style → Style
  | .char _, style => style
  | .bold, style => { style with bold := !style.bold }
  | .underline, style => { style with underline := !style.underline }
  | .colors fg bg, style =>
    { style with foreground := fg.or style.foreground, background := bg.or style.background }

def styleAfter (style : Style) (ms : List Mark) : Style :=
  ms.foldl (fun style m => m.restyle style) style

/-- The characters among some marks, in the styles that the marks before them lead to. -/
def shown (style : Style) : List Mark → List Glyph
  | [] => []
  | .char c :: rest => ⟨c, style⟩ :: shown style rest
  | m :: rest => shown (m.restyle style) rest

@[simp] theorem styleAfter_nil (style : Style) : styleAfter style [] = style := rfl

@[simp] theorem styleAfter_cons (style : Style) (m : Mark) (ms : List Mark) :
    styleAfter style (m :: ms) = styleAfter (m.restyle style) ms := rfl

@[simp] theorem styleAfter_append (style : Style) (first second : List Mark) :
    styleAfter style (first ++ second) = styleAfter (styleAfter style first) second :=
  List.foldl_append

@[simp] theorem shown_nil (style : Style) : shown style [] = [] := rfl

@[simp] theorem shown_char (style : Style) (c : Char) (ms : List Mark) :
    shown style (.char c :: ms) = ⟨c, style⟩ :: shown style ms := rfl

@[simp] theorem shown_bold (style : Style) (ms : List Mark) :
    shown style (.bold :: ms) = shown (Mark.bold.restyle style) ms := rfl

@[simp] theorem shown_underline (style : Style) (ms : List Mark) :
    shown style (.underline :: ms) = shown (Mark.underline.restyle style) ms := rfl

@[simp] theorem shown_colors (style : Style) (fg bg : Option Color) (ms : List Mark) :
    shown style (.colors fg bg :: ms) = shown ((Mark.colors fg bg).restyle style) ms := rfl

theorem shown_append (style : Style) (first second : List Mark) :
    shown style (first ++ second) = shown style first ++ shown (styleAfter style first) second := by
  induction first generalizing style with
  | nil => rfl
  | cons m first ih => cases m <;> simp [ih, Mark.restyle]

/-- Two toggles in a row leave the style as it was. -/
@[simp] theorem restyle_bold_bold (style : Style) :
    Mark.bold.restyle (Mark.bold.restyle style) = style := by
  simp [Mark.restyle]

/-- What a client makes of marks: what it shows, and the style that it is in behind them. -/
def run (style : Style) (ms : List Mark) : List Glyph × Style :=
  (shown style ms, styleAfter style ms)

theorem run_congr (style : Style) (m : Mark) {first second : List Mark}
    (h : ∀ style, run style first = run style second) :
    run style (m :: first) = run style (m :: second) := by
  have tail := h (m.restyle style)
  simp only [run, Prod.mk.injEq] at tail
  cases m <;> simp [run, tail.1, tail.2]
  exact (Prod.mk.inj (h style)).1

theorem run_bold_bold (style : Style) (ms : List Mark) :
    run style (.bold :: .bold :: ms) = run style ms := by
  simp [run]

/-- A client shows a text as it shows the marks of the text. -/
theorem display_eq (style : Style) (text : List Char) :
    display style text = run style (marks text) := by
  -- marks are cut off exactly where the client makes its decisions
  fun_induction marks text generalizing style with
  | case1 => rw [display]; rfl
  | case2 tail ih =>
    rw [display, if_pos rfl]
    exact ih _
  | case3 tail h ih =>
    rw [display, if_neg h, if_pos rfl]
    exact ih _
  | case4 tail fg bg rest e h h' ih =>
    rw [display, if_neg h, if_neg h', if_pos rfl]
    split
    · rename_i e'
      rw [e] at e'
      cases e'
      exact ih _
    · rename_i e'
      rw [e] at e'
      cases e'
  | case5 tail e h h' ih =>
    rw [display, if_neg h, if_neg h', if_pos rfl]
    split
    · rename_i e'
      rw [e] at e'
      cases e'
    · rw [ih]
      rfl
  | case6 c tail h h' h'' ih =>
    rw [display, if_neg h, if_neg h', if_neg h'', ih]
    rfl

/-! ### Characters -/

def Mark.char? : Mark → Option Char
  | .char c => some c
  | _ => none

/-- A text without its toggles and its colour sequences. -/
def visible (text : List Char) : List Char := (marks text).filterMap Mark.char?

theorem shown_map_char (style : Style) (ms : List Mark) :
    (shown style ms).map Glyph.char = ms.filterMap Mark.char? := by
  induction ms generalizing style with
  | nil => rfl
  | cons m ms ih => cases m <;> simp [List.filterMap_cons, Mark.char?, ih]

/-- What is left without control sequences is what a client shows, in whatever style. -/
theorem visible_eq_display (style : Style) (text : List Char) :
    visible text = (display style text).1.map Glyph.char := by
  rw [display_eq, run, shown_map_char, visible]

/-! ### Legible marks -/

def startsWithComma : List Mark → Bool
  | .char c :: _ => c == ','
  | _ => false

/-- Marks that can be told apart when they are written out: characters of the text are no
    control characters, a colour sequence names a colour, and one without a background is
    not followed by a comma. -/
inductive Legible : List Mark → Prop where
  | nil : Legible []
  | char {c rest} (plain : IsPlain c) (tail : Legible rest) : Legible (.char c :: rest)
  | bold {rest} (tail : Legible rest) : Legible (.bold :: rest)
  | underline {rest} (tail : Legible rest) : Legible (.underline :: rest)
  | foreground {fg rest} (apart : startsWithComma rest = false) (tail : Legible rest) :
      Legible (.colors (some fg) none :: rest)
  | background {fg bg rest} (tail : Legible rest) : Legible (.colors fg (some bg) :: rest)

theorem Legible.tail {m : Mark} {rest : List Mark} (h : Legible (m :: rest)) : Legible rest := by
  cases h <;> assumption

theorem readCode?_digits (code : Color) (rest : List Char) :
    readCode? (code.digits ++ rest) = some (code, rest) := by
  obtain ⟨a, b, e, ha, hb, value, -⟩ := code.exists_digits
  rw [e]
  simp [readCode?, ha, hb, value, Color.ofCode?, code.code_le]

/-- No code begins with a control character or a comma. -/
theorem readCode?_cons_eq_none {c : Char} (h : c.isDigit = false) (rest : List Char) :
    readCode? (c :: rest) = none := by
  cases rest <;> simp [readCode?, h]

/-- Only a comma of the text itself is a comma in front of legible marks. -/
theorem spell_eq_comma_cons {ms : List Mark} (legible : Legible ms)
    (h : startsWithComma ms = false) (rest : List Char) : spell ms ≠ ',' :: rest := by
  intro e
  cases legible with
  | nil => cases e
  | char plain tail =>
    simp only [spell_cons, Mark.text, List.cons_append, List.nil_append, List.cons.injEq] at e
    rw [e.1] at h
    cases h
  | bold => simp [Mark.text, Wire.bold] at e
  | underline => simp [Mark.text, Wire.underline] at e
  | foreground => simp [Mark.text, color] at e
  | background => simp [Mark.text, color] at e

theorem readBackground?_eq_none {text : List Char} (h : ∀ rest, text ≠ ',' :: rest) :
    readBackground? text = none := by
  unfold readBackground?
  split
  · exact absurd rfl (h _)
  · rfl

/-- The colours of a sequence, read from behind its colour character. -/
theorem readColors?_spell {fg bg : Option Color} {rest : List Mark}
    (legible : Legible (.colors fg bg :: rest)) :
    readColors? ((fg.map Color.digits).getD [] ++ backgroundText bg ++ spell rest) =
      some (fg, bg, spell rest) := by
  cases legible with
  | @foreground code _ apart tail =>
    have noComma := readBackground?_eq_none (spell_eq_comma_cons tail apart)
    simp [readColors?, backgroundText, readCode?_digits, noComma]
  | @background _ code _ tail =>
    cases fg with
    | none =>
      have noCode := readCode?_cons_eq_none (c := ',') (by decide) (code.digits ++ spell rest)
      simp [readColors?, backgroundText, noCode, readBackground?, readCode?_digits]
    | some first =>
      simp [readColors?, backgroundText, readCode?_digits, readBackground?]

/-- Reading back what legible marks spell gives the marks. -/
theorem marks_spell {ms : List Mark} (legible : Legible ms) : marks (spell ms) = ms := by
  induction legible with
  | nil => rw [spell_nil, marks]
  | char plain tail ih =>
    obtain ⟨notBold, notUnderline, notColor⟩ := plain
    simp only [spell_cons, Mark.text, List.cons_append, List.nil_append]
    rw [marks, if_neg notBold, if_neg notUnderline, if_neg notColor, ih]
  | bold tail ih =>
    simp only [spell_cons, Mark.text, List.cons_append, List.nil_append]
    rw [marks, if_pos rfl, ih]
  | underline tail ih =>
    simp only [spell_cons, Mark.text, List.cons_append, List.nil_append]
    rw [marks, if_neg (by decide), if_pos rfl, ih]
  | @foreground fg rest apart tail ih =>
    have whole : Legible (.colors (some fg) none :: rest) := .foreground apart tail
    -- what follows the sequence cannot be taken for a part of it, as the marks are legible
    have read := readColors?_spell whole
    simp only [spell_cons, Mark.text, List.cons_append]
    rw [marks, if_neg (by decide), if_neg (by decide), if_pos rfl]
    split
    · rename_i e
      rw [read] at e
      cases e
      rw [ih]
    · rename_i e
      rw [read] at e
      cases e
  | @background fg bg rest tail ih =>
    have whole : Legible (.colors fg (some bg) :: rest) := .background tail
    have read := readColors?_spell whole
    simp only [spell_cons, Mark.text, List.cons_append]
    rw [marks, if_neg (by decide), if_neg (by decide), if_pos rfl]
    split
    · rename_i e
      rw [read] at e
      cases e
      rw [ih]
    · rename_i e
      rw [read] at e
      cases e

end Wire

end ChatMarkup
