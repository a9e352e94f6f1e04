/-
  ChatMarkup/Proofs/Wire/Sweep.lean
  =================================
  **What a sweep does to marks** — the four rules look at characters and know nothing of
  codes and texts.  On legible marks they nevertheless take whole marks only, and this
  file says which: `sweepMarks` is the sweep of `ChatMarkup.Wire.Cleanup` told in terms
  of marks, and `sweep_spell` is the proof that the two agree.

  * Rule 2 drops a sequence that names a background when another sequence follows it
    directly or behind a double bold toggle (`overriding?`), whatever the two name.
  * Rule 4 drops the double toggle behind a sequence that names a foreground only, unless
    a comma follows (`unpadded?`).
  * Rule 3 never applies: behind the comma of a sequence stands a digit.
  * Rule 1 is meant for a comma without a code, but knows codes by their first digit.
    It takes a background code from 20 on apart and leaves its digits as text.
-/
import ChatMarkup.Proofs.Wire.Mark
import ChatMarkup.Wire.Cleanup

namespace ChatMarkup.Wire

/-! ### What stands behind a sequence -/

def startsWithColors : List Mark → Bool
  | .colors _ _ :: _ => true
  | _ => false

/-- The marks from the next sequence on, if that is all but at once: with nothing before it
    or just one double toggle. -/
def overriding? : List Mark → Option (List Mark)
  | .bold :: .bold :: rest => if startsWithColors rest then some rest else none
  | rest => if startsWithColors rest then some rest else none

/-- What stands behind a double toggle that no comma needs. -/
def unpadded? : List Mark → Option (List Mark)
  | .bold :: .bold :: rest => if startsWithComma rest then none else some rest
  | _ => none

/-- A background code on its own that the clean-up does not take for one. -/
def Mark.IsLeak : Mark → Prop
  | .colors none (some bg) => 20 ≤ bg.code
  | _ => False

instance : (m : Mark) → Decidable m.IsLeak
  | .colors none (some bg) => inferInstanceAs (Decidable (20 ≤ bg.code))
  | .colors none none => inferInstanceAs (Decidable False)
  | .colors (some _) _ => inferInstanceAs (Decidable False)
  | .char _ => inferInstanceAs (Decidable False)
  | .bold => inferInstanceAs (Decidable False)
  | .underline => inferInstanceAs (Decidable False)

theorem isLeak_iff {m : Mark} : m.IsLeak ↔ ∃ bg, m = .colors none (some bg) ∧ 20 ≤ bg.code := by
  constructor
  · intro leak
    cases m with
    | colors fg bg =>
      cases fg with
      | some => exact False.elim leak
      | none =>
        cases bg with
        | none => exact False.elim leak
        | some bg => exact ⟨bg, rfl, leak⟩
    | char | bold | underline => exact False.elim leak
  · intro h
    rcases h with ⟨bg, rfl, high⟩
    exact high

/-- Only a background can leak. -/
theorem not_isLeak_of_ne {m : Mark} (h : ∀ fg bg, m ≠ .colors fg (some bg)) : ¬m.IsLeak := by
  intro leak
  obtain ⟨bg, rfl, -⟩ := isLeak_iff.mp leak
  exact h none bg rfl

/-- What follows an overridden sequence begins with a sequence, and at most a double
    toggle stands before it. -/
theorem overriding?_eq_some {ms rest : List Mark} (h : overriding? ms = some rest) :
    startsWithColors rest = true ∧ (ms = rest ∨ ms = .bold :: .bold :: rest) := by
  unfold overriding? at h
  split at h
  · split at h
    · cases h
      exact ⟨by assumption, Or.inr rfl⟩
    · cases h
  · split at h
    · cases h
      exact ⟨by assumption, Or.inl rfl⟩
    · cases h

theorem unpadded?_eq_some {ms rest : List Mark} (h : unpadded? ms = some rest) :
    startsWithComma rest = false ∧ ms = .bold :: .bold :: rest := by
  unfold unpadded? at h
  split at h
  · split at h
    · cases h
    · rename_i rest' apart
      cases h
      exact ⟨by simpa using apart, rfl⟩
  · cases h

def sweepMarks (ms : List Mark) : List Mark :=
  match ms with
  | [] => []
  | .colors fg (some bg) :: rest =>
    if (Mark.colors fg (some bg)).IsLeak then bg.digits.map .char ++ sweepMarks rest
    else match _h : overriding? rest with
      | some rest' => sweepMarks rest'
      | none => .colors fg (some bg) :: sweepMarks rest
  | .colors fg none :: rest =>
    match _h : unpadded? rest with
    | some rest' => .colors fg none :: sweepMarks rest'
    | none => .colors fg none :: sweepMarks rest
  | m :: rest => m :: sweepMarks rest
termination_by ms.length
decreasing_by
  · simp
  · rcases (overriding?_eq_some _h).2 with rfl | rfl <;> simp only [List.length_cons] <;> omega
  · simp
  · obtain ⟨-, rfl⟩ := unpadded?_eq_some _h
    simp only [List.length_cons]
    omega
  · simp
  · simp

/-! ### The rules on spelt marks -/

theorem codeChoices_digits (code : Color) (rest : List Char) :
    codeChoices (code.digits ++ rest) = [(code.digits, rest), ([], code.digits ++ rest)] := by
  obtain ⟨a, b, e, ha, hb, -, -⟩ := code.exists_digits
  simp [e, codeChoices, ha, hb]

theorem codeChoices_cons {c : Char} (h : c.isDigit = false) (rest : List Char) :
    codeChoices (c :: rest) = [([], c :: rest)] := by
  cases rest <;> simp [codeChoices, h]

theorem paddingChoices_cons {c : Char} (h : c ≠ bold) (rest : List Char) :
    paddingChoices (c :: rest) = [c :: rest] := by
  cases rest <;> simp [paddingChoices, h]

/-- Legible marks begin with a colour character just when they begin with a sequence. -/
theorem startsWith_color_spell {ms : List Mark} (legible : Legible ms) :
    startsWith (· == color) (spell ms) = startsWithColors ms := by
  cases legible with
  | nil => rfl
  | char plain tail => simp [Mark.text, startsWith, startsWithColors, plain.2.2]
  | bold => rfl
  | underline => rfl
  | foreground => simp [Mark.text, startsWith, startsWithColors]
  | background => simp [Mark.text, startsWith, startsWithColors]

theorem startsWith_comma_spell {ms : List Mark} (legible : Legible ms) :
    startsWith (· == ',') (spell ms) = startsWithComma ms := by
  cases legible with
  | nil => rfl
  | char plain tail => simp [Mark.text, startsWith, startsWithComma]
  | bold => rfl
  | underline => rfl
  | foreground => simp [Mark.text, startsWith, startsWithComma, color]
  | background => simp [Mark.text, startsWith, startsWithComma, color]

/-- Behind a bold toggle of legible marks stands a bold toggle only if the next mark is
    one. -/
theorem spell_ne_bold_cons {ms : List Mark} (legible : Legible ms)
    (h : ∀ rest, ms ≠ .bold :: rest) (rest : List Char) : spell ms ≠ bold :: rest := by
  intro e
  cases legible with
  | nil => cases e
  | char plain tail =>
    simp only [spell_cons, Mark.text, List.cons_append, List.nil_append, List.cons.injEq] at e
    exact plain.1 e.1
  | bold => exact h _ rfl
  | underline => simp [Mark.text, Wire.bold, Wire.underline] at e
  | foreground => simp [Mark.text, Wire.bold, color] at e
  | background => simp [Mark.text, Wire.bold, color] at e

/-- Padding in a text is two bold toggles among its marks. -/
theorem spell_ne_padding {ms : List Mark} (legible : Legible ms)
    (h : ∀ rest, ms ≠ .bold :: .bold :: rest) (rest : List Char) :
    spell ms ≠ bold :: bold :: rest := by
  intro e
  by_cases first : ∃ more, ms = .bold :: more
  · obtain ⟨more, rfl⟩ := first
    refine spell_ne_bold_cons legible.tail (fun more' e' => ?_) rest (by simpa [Mark.text] using e)
    exact h more' (by rw [e'])
  · exact spell_ne_bold_cons legible (fun more e' => first ⟨more, e'⟩) _ e

theorem paddingChoices_of_ne {text : List Char} (h : ∀ rest, text ≠ bold :: bold :: rest) :
    paddingChoices text = [text] := by
  match text with
  | [] => rfl
  | [a] => rfl
  | a :: b :: rest =>
    have notPadding : ¬(a = bold ∧ b = bold) := by
      intro h
      rcases h with ⟨rfl, rfl⟩
      exact h rest rfl
    simp [paddingChoices, notPadding]

/-- Skipping optional padding finds the next sequence just when marks have it there. -/
theorem find?_paddingChoices_spell {ms : List Mark} (legible : Legible ms) :
    (paddingChoices (spell ms)).find? (startsWith (· == color)) = (overriding? ms).map spell := by
  -- padding in front of a colour character can be taken; any other is no padding
  by_cases padded : ∃ rest, ms = .bold :: .bold :: rest
  · obtain ⟨rest, rfl⟩ := padded
    have start := startsWith_color_spell legible.tail.tail
    by_cases found : startsWithColors rest = true
    · simp [Mark.text, paddingChoices, overriding?, found, start]
    · have noColor : startsWith (· == color) (bold :: bold :: spell rest) = false := rfl
      simp [Mark.text, paddingChoices, overriding?, found, start, noColor]
  · have unpadded : ∀ rest, ms ≠ .bold :: .bold :: rest := fun rest e => padded ⟨rest, e⟩
    have same : overriding? ms = if startsWithColors ms then some ms else none := by
      unfold overriding?
      split
      · exact absurd rfl (unpadded _)
      · rfl
    rw [paddingChoices_of_ne (spell_ne_padding legible unpadded), same, List.find?_singleton,
      startsWith_color_spell legible]
    split <;> simp_all

theorem overriddenBackground?_spell (code : Color) {ms : List Mark} (legible : Legible ms) :
    overriddenBackground? (code.digits ++ spell ms) = (overriding? ms).map spell := by
  obtain ⟨a, b, e, ha, -, -, -⟩ := code.exists_digits
  have noPadding : paddingChoices (code.digits ++ spell ms) = [code.digits ++ spell ms] := by
    rw [e]
    exact paddingChoices_cons (by rintro rfl; simp [bold] at ha) _
  have noColor : startsWith (· == color) (code.digits ++ spell ms) = false := by
    rw [e]
    have : a ≠ color := by rintro rfl; simp [color] at ha
    simp [startsWith, this]
  unfold overriddenBackground?
  rw [codeChoices_digits, List.findSome?_cons, find?_paddingChoices_spell legible]
  cases overriding? ms with
  | none => simp [noPadding, noColor]
  | some rest => simp

/-- A sequence with a background that the clean-up reads right goes when another one
    overrides it, and no other rule applies to it. -/
theorem reduce?_background {fg : Option Color} {bg : Color} {ms : List Mark}
    (legible : Legible ms) (sound : ¬(Mark.colors fg (some bg)).IsLeak) :
    reduce? ((fg.map Color.digits).getD [] ++ backgroundText (some bg) ++ spell ms) =
      (overriding? ms).map fun rest => ⟨[], spell rest⟩ := by
  obtain ⟨a, b, e, ha, hb, -, low⟩ := bg.exists_digits
  have overridden := overriddenBackground?_spell bg legible
  have notBold : a ≠ bold := by rintro rfl; simp [bold] at ha
  -- without a foreground the background must not be one that rule 1 mistakes
  cases fg with
  | none =>
    have first : a = '0' ∨ a = '1' := low.mpr (by simpa [Mark.IsLeak] using sound)
    have rule1 : emptyBackground? (',' :: (bg.digits ++ spell ms)) = none := by
      rcases first with rfl | rfl <;> simp [emptyBackground?, e, startsWith]
    have rule2 : overridden? (',' :: (bg.digits ++ spell ms)) =
        (overriding? ms).map fun rest => ⟨[], spell rest⟩ := by
      simp [overridden?, codeChoices_cons (c := ',') (by decide), overridden, Function.comp_def]
    have rule3 : paddedComma? (',' :: (bg.digits ++ spell ms)) = none := by
      simp [paddedComma?, codeChoices_cons (c := ',') (by decide), e, notBold]
    have rule4 : paddedForeground? (',' :: (bg.digits ++ spell ms)) = none := by
      have noDigit : ¬(','.isDigit = true) := by decide
      rw [e, List.cons_append, List.cons_append, List.nil_append]
      unfold paddedForeground?
      split
      · rename_i h
        obtain ⟨rfl, -⟩ := List.cons.inj h
        exact if_neg fun h => noDigit h.1
      · rfl
    simp only [Option.map_none, Option.getD_none, List.nil_append, backgroundText, List.cons_append]
    simp [reduce?, rule1, rule2, rule3, rule4]
  | some fg =>
    obtain ⟨c, d, e', hc, hd, -, -⟩ := fg.exists_digits
    have notComma : c ≠ ',' := by rintro rfl; simp at hc
    have rule1 : emptyBackground? (fg.digits ++ ',' :: (bg.digits ++ spell ms)) = none := by
      simp [emptyBackground?, e', notComma]
    have rule2 : overridden? (fg.digits ++ ',' :: (bg.digits ++ spell ms)) =
        (overriding? ms).map fun rest => ⟨[], spell rest⟩ := by
      unfold overridden?
      rw [codeChoices_digits, e']
      cases h : overriding? ms <;> simp [overridden, h, notComma]
    have rule3 : paddedComma? (fg.digits ++ ',' :: (bg.digits ++ spell ms)) = none := by
      unfold paddedComma?
      rw [codeChoices_digits, e', e]
      simp [notBold, notComma]
    have rule4 : paddedForeground? (fg.digits ++ ',' :: (bg.digits ++ spell ms)) = none := by
      simp [paddedForeground?, e, e', bold]
    simp only [Option.map_some, Option.getD_some, backgroundText, List.append_assoc,
      List.cons_append]
    simp [reduce?, rule1, rule2, rule3, rule4]

/-- Of a leak the clean-up takes the colour character and the comma away. -/
theorem reduce?_leak {bg : Color} (high : 20 ≤ bg.code) (rest : List Char) :
    reduce? (',' :: (bg.digits ++ rest)) = some ⟨[], bg.digits ++ rest⟩ := by
  obtain ⟨a, b, e, -, -, -, low⟩ := bg.exists_digits
  have notLow : ¬(a = '0' ∨ a = '1') := fun h => absurd (low.mp h) (by omega)
  have rule1 : emptyBackground? (',' :: (bg.digits ++ rest)) = some ⟨[], bg.digits ++ rest⟩ := by
    simp only [not_or] at notLow
    simp [emptyBackground?, e, startsWith, notLow.1, notLow.2]
  simp [reduce?, rule1]

/-- A sequence with a foreground only loses the double toggle behind it, unless a comma
    follows. -/
theorem reduce?_foreground (fg : Color) {ms : List Mark} (legible : Legible ms)
    (apart : startsWithComma ms = false) :
    reduce? (fg.digits ++ spell ms) =
      (unpadded? ms).map fun rest => ⟨color :: fg.digits, spell rest⟩ := by
  obtain ⟨a, b, e, ha, hb, -, -⟩ := fg.exists_digits
  have notComma : a ≠ ',' := by rintro rfl; simp at ha
  -- behind a lone foreground no comma stands, so rules 1 to 3 have nothing to begin with
  have noComma := spell_eq_comma_cons legible apart
  have rule1 : emptyBackground? (fg.digits ++ spell ms) = none := by
    simp [emptyBackground?, e, notComma]
  have rule2 : overridden? (fg.digits ++ spell ms) = none := by
    unfold overridden?
    rw [codeChoices_digits, e]
    cases h : spell ms with
    | nil => simp [notComma]
    | cons c rest =>
      have : c ≠ ',' := by rintro rfl; exact noComma rest h
      simp [this, notComma]
  have rule3 : paddedComma? (fg.digits ++ spell ms) = none := by
    unfold paddedComma?
    rw [codeChoices_digits, e]
    cases h : spell ms with
    | nil => simp
    | cons c rest =>
      have : c ≠ ',' := by rintro rfl; exact noComma rest h
      simp [this, notComma]
  have rule4 : paddedForeground? (fg.digits ++ spell ms) =
      (unpadded? ms).map fun rest => ⟨color :: fg.digits, spell rest⟩ := by
    rw [e, List.cons_append, List.cons_append, List.nil_append]
    by_cases padded : ∃ rest, ms = .bold :: .bold :: rest
    · obtain ⟨rest, rfl⟩ := padded
      have comma := startsWith_comma_spell legible.tail.tail
      by_cases h : startsWithComma rest = true <;>
        simp [Mark.text, paddedForeground?, unpadded?, ha, hb, comma, h]
    · have unpadded : ∀ rest, ms ≠ .bold :: .bold :: rest := fun rest e => padded ⟨rest, e⟩
      have noPadding := spell_ne_padding legible unpadded
      have stays : unpadded? ms = none := by
        unfold unpadded?
        split
        · exact absurd rfl (unpadded _)
        · rfl
      rw [stays]
      unfold paddedForeground?
      split
      · rename_i c d rest h
        simp only [List.cons.injEq] at h
        apply if_neg
        intro h
        rcases h with ⟨-, -, rfl, rfl, -⟩
        exact noPadding rest h.2.2
      · rfl
  simp [reduce?, rule1, rule2, rule3, rule4]

/-! ### Sweeps -/

theorem sweep_color (tail : List Char) :
    sweep (color :: tail) = match reduce? tail with
      | some reduction => reduction.kept ++ sweep reduction.rest
      | none => color :: sweep tail := by
  rw [sweep, if_pos rfl]
  split <;> simp_all

/-- A sweep passes over everything but colour characters. -/
theorem sweep_append {front : List Char} (h : color ∉ front) (rest : List Char) :
    sweep (front ++ rest) = front ++ sweep rest := by
  induction front with
  | nil => rfl
  | cons c front ih =>
    have notColor : c ≠ color := fun e => h (by simp [e])
    rw [List.cons_append, sweep, if_neg notColor, ih (fun h' => h (by simp [h']))]
    rfl

theorem color_not_mem_digits (code : Color) : color ∉ code.digits := by
  intro h
  have := Color.isDigit_of_mem_digits h
  simp [color] at this

theorem color_not_mem_codes (fg : Option Color) (bg : Option Color) :
    color ∉ (fg.map Color.digits).getD [] ++ backgroundText bg := by
  have inBackground : color ∉ backgroundText bg := by
    cases bg with
    | none => simp [backgroundText]
    | some bg => simpa [backgroundText] using ⟨by decide, color_not_mem_digits bg⟩
  cases fg with
  | none => simpa using inBackground
  | some fg => simpa [color_not_mem_digits] using inBackground

theorem Legible.of_overriding? {ms rest : List Mark} (legible : Legible ms)
    (h : overriding? ms = some rest) : Legible rest := by
  rcases (overriding?_eq_some h).2 with rfl | rfl
  · exact legible
  · exact legible.tail.tail

theorem Legible.of_unpadded? {ms rest : List Mark} (legible : Legible ms)
    (h : unpadded? ms = some rest) : Legible rest := by
  obtain ⟨-, rfl⟩ := unpadded?_eq_some h
  exact legible.tail.tail

/-- **A sweep of spelt marks is a sweep of marks.** -/
theorem sweep_spell {ms : List Mark} (legible : Legible ms) :
    sweep (spell ms) = spell (sweepMarks ms) := by
  fun_induction sweepMarks ms with
  | case1 => rw [spell_nil, sweep]
  | case2 fg bg rest leak ih =>
    cases fg with
    | some fg => exact absurd leak (by simp [Mark.IsLeak])
    | none =>
      -- the comma goes, and the two digits are left in the text
      have digits := sweep_append (color_not_mem_digits bg) (spell rest)
      rw [spell_cons, Mark.text, Option.map_none, Option.getD_none, List.nil_append,
        backgroundText, List.cons_append, List.cons_append, sweep_color, reduce?_leak leak]
      simp [digits, ih legible.tail]
  | case3 fg bg rest sound rest' h ih =>
    have reduced := reduce?_background legible.tail sound
    rw [spell_cons, Mark.text, List.cons_append, sweep_color, reduced, h]
    exact ih (legible.tail.of_overriding? h)
  | case4 fg bg rest sound h ih =>
    have reduced := reduce?_background legible.tail sound
    have codes := sweep_append (color_not_mem_codes fg (some bg)) (spell rest)
    rw [spell_cons, Mark.text, List.cons_append, sweep_color, reduced, h]
    rw [Option.map_none, codes, ih legible.tail]
    rfl
  | case5 fg rest rest' h ih =>
    cases legible with
    | @foreground fg _ apart tail =>
      have reduced := reduce?_foreground fg tail apart
      rw [spell_cons, Mark.text, List.cons_append]
      simp [backgroundText, sweep_color, reduced, h, ih (tail.of_unpadded? h), Mark.text]
  | case6 fg rest h ih =>
    cases legible with
    | @foreground fg _ apart tail =>
      have reduced := reduce?_foreground fg tail apart
      have digits := sweep_append (color_not_mem_digits fg) (spell rest)
      rw [spell_cons, Mark.text, List.cons_append]
      simp [backgroundText, sweep_color, reduced, h, digits, ih tail, Mark.text]
  | case7 m rest notBackground notForeground ih =>
    have noColor : color ∉ m.text := by
      cases legible with
      | char plain tail => simpa [Mark.text] using plain.2.2.symm
      | bold tail => decide
      | underline tail => decide
      | foreground => exact absurd rfl (notForeground _)
      | background => exact absurd rfl (notBackground _ _)
    rw [spell_cons, sweep_append noColor, ih legible.tail, spell_cons]

end ChatMarkup.Wire
