/-
  ChatMarkup/Proofs/Wire/Surviving.lean
  =====================================
  **What is left when a text has been cleaned up** — a client shows the cleaned text as it
  shows the marks of the text without those that another sequence overrides
  (`display_cleanUp_spell`), and of the characters none is lost; the digits of a code that
  the clean-up does not know come on top (`visible_cleanUp_spell`).

  Sweeps are repeated, and each leaves marks next to one another that were not before.
  That does no more harm: whether a sequence is overridden is seen from the bold toggles
  behind it and from the mark behind those, and a sweep changes neither as long as there
  is no leak (`overriding?_sweepMarks`).  So `surviving`, which looks at the text once,
  already knows the outcome of all sweeps together.
-/
import ChatMarkup.Proofs.Wire.Sweep
import ChatMarkup.Wire.Settled

namespace ChatMarkup.Wire

/-! ### A text at which sweeps stop -/

theorem Settled.of_append {front text : List Char} (h : Settled (front ++ text)) :
    Settled text := by
  intro before behind e
  exact h (front ++ before) behind (by rw [e, List.append_assoc])

/-- A text that a sweep does not shorten has no place for a rule. -/
theorem settled_of_length_le {text : List Char} (h : text.length ≤ (sweep text).length) :
    Settled text := by
  fun_induction sweep text with
  | case1 => exact settled_nil
  | case2 tail reduction e ih =>
    have shorter := reduce?_length e
    have rest := sweep_length_le reduction.rest
    simp only [List.length_append, List.length_cons] at h
    omega
  | case3 tail e ih => exact (ih (by simpa using h)).color_cons e
  | case4 c tail notColor ih => exact (ih (by simpa using h)).cons notColor

/-- **Cleaned text is settled.** -/
theorem settled_cleanUp (text : List Char) : Settled (cleanUp text) := by
  fun_induction cleanUp text with
  | case1 text next shorter ih => exact ih
  | case2 text next same => exact settled_of_length_le (Nat.le_of_not_lt same)

/-! ### Overridden sequences -/

/-- The marks without the sequences that another one overrides. -/
def surviving : List Mark → List Mark
  | [] => []
  | .colors fg (some bg) :: rest =>
    if (overriding? rest).isSome then surviving rest else .colors fg (some bg) :: surviving rest
  | m :: rest => m :: surviving rest

theorem reduce?_none_of_settled {text : List Char} (h : Settled (color :: text)) :
    reduce? text = none := h [] text rfl

/-- In a settled text nothing is overridden. -/
theorem surviving_of_settled {ms : List Mark} (legible : Legible ms)
    (sound : ∀ m ∈ ms, ¬m.IsLeak) (settled : Settled (spell ms)) : surviving ms = ms := by
  fun_induction surviving ms with
  | case1 => rfl
  | case2 fg bg rest overridden ih =>
    -- an overridden sequence would be dropped, but the text is settled
    have reduced := reduce?_background legible.tail (sound (.colors fg (some bg)) (by simp))
    obtain ⟨rest', e⟩ := Option.isSome_iff_exists.mp overridden
    rw [e] at reduced
    rw [spell_cons, Mark.text, List.cons_append] at settled
    rw [reduce?_none_of_settled settled] at reduced
    cases reduced
  | case3 fg bg rest kept ih =>
    rw [spell_cons] at settled
    rw [ih legible.tail (fun m h => sound m (by simp [h])) settled.of_append]
  | case4 m rest other ih =>
    rw [spell_cons] at settled
    rw [ih legible.tail (fun m h => sound m (by simp [h])) settled.of_append]

/-- In a settled text there is no leak. -/
theorem not_isLeak_of_settled {ms : List Mark} (legible : Legible ms)
    (settled : Settled (spell ms)) : ∀ m ∈ ms, ¬m.IsLeak := by
  intro m member leak
  obtain ⟨before, behind, rfl⟩ := List.append_of_mem member
  rw [spell_append, spell_cons] at settled
  obtain ⟨bg, rfl, high⟩ := isLeak_iff.mp leak
  have reduced := reduce?_leak high (spell behind)
  have none : reduce? (',' :: (bg.digits ++ spell behind)) = Option.none :=
    reduce?_none_of_settled settled.of_append
  rw [reduced] at none
  cases none

/-! ### Sweeps keep marks legible -/

theorem startsWithComma_sweepMarks (ms : List Mark) :
    startsWithComma (sweepMarks ms) = startsWithComma ms := by
  fun_induction sweepMarks ms with
  | case1 => rfl
  | case2 fg bg rest leak ih =>
    obtain ⟨a, b, e, ha, -, -, -⟩ := bg.exists_digits
    -- the leak leaves its digits, which are no comma
    have : a ≠ ',' := by rintro rfl; simp at ha
    simp [e, startsWithComma, this]
  | case3 fg bg rest sound rest' h ih =>
    have start := (overriding?_eq_some h).1
    rw [ih]
    unfold startsWithColors at start
    split at start
    · rfl
    · cases start
  | case4 => rfl
  | case5 => rfl
  | case6 => rfl
  | case7 m rest => cases m <;> rfl

theorem isPlain_of_isDigit {c : Char} (h : c.isDigit = true) : IsPlain c := by
  refine ⟨?_, ?_, ?_⟩ <;> rintro rfl <;> simp [bold, underline, color] at h

theorem Legible.map_char_append {text : List Char} (plain : ∀ c ∈ text, IsPlain c)
    {ms : List Mark} (legible : Legible ms) : Legible (text.map .char ++ ms) := by
  induction text with
  | nil => exact legible
  | cons c text ih =>
    exact .char (plain c (by simp)) (ih fun d h => plain d (by simp [h]))

theorem legible_sweepMarks {ms : List Mark} (legible : Legible ms) : Legible (sweepMarks ms) := by
  fun_induction sweepMarks ms with
  | case1 => exact .nil
  | case2 fg bg rest leak ih =>
    -- the digits of a leak are characters like any others afterwards
    exact (ih legible.tail).map_char_append fun c h =>
      isPlain_of_isDigit (Color.isDigit_of_mem_digits h)
  | case3 fg bg rest sound rest' h ih => exact ih (legible.tail.of_overriding? h)
  | case4 fg bg rest sound h ih => exact .background (ih legible.tail)
  | case5 fg rest rest' h ih =>
    cases legible with
    | foreground apart tail =>
      refine .foreground ?_ (ih (tail.of_unpadded? h))
      rw [startsWithComma_sweepMarks]
      exact (unpadded?_eq_some h).1
  | case6 fg rest h ih =>
    cases legible with
    | foreground apart tail =>
      refine .foreground ?_ (ih tail)
      rwa [startsWithComma_sweepMarks]
  | case7 m rest notBackground notForeground ih =>
    cases legible with
    | char plain tail => exact .char plain (ih tail)
    | bold tail => exact .bold (ih tail)
    | underline tail => exact .underline (ih tail)
    | foreground => exact absurd rfl (notForeground _)
    | background => exact absurd rfl (notBackground _ _)

/-- A sweep leaves no leak behind. -/
theorem not_isLeak_sweepMarks (ms : List Mark) : ∀ m ∈ sweepMarks ms, ¬m.IsLeak := by
  fun_induction sweepMarks ms with
  | case1 => simp
  | case2 fg bg rest leak ih =>
    intro m h
    rcases List.mem_append.mp h with digit | later
    · obtain ⟨c, -, rfl⟩ := List.mem_map.mp digit
      simp [Mark.IsLeak]
    · exact ih m later
  | case3 fg bg rest sound rest' h ih => exact ih
  | case4 fg bg rest sound h ih =>
    rintro m (_ | ⟨_, later⟩)
    · exact sound
    · exact ih m later
  | case5 fg rest rest' h ih =>
    rintro m (_ | ⟨_, later⟩)
    · cases fg <;> simp [Mark.IsLeak]
    · exact ih m later
  | case6 fg rest h ih =>
    rintro m (_ | ⟨_, later⟩)
    · cases fg <;> simp [Mark.IsLeak]
    · exact ih m later
  | case7 m rest notBackground notForeground ih =>
    rintro m' (_ | ⟨_, later⟩)
    · exact not_isLeak_of_ne notBackground
    · exact ih m' later

/-! ### Sweeps leave overridden what is overridden -/

/-- What matters of a mark for the sequence before it: not which colours it names. -/
def Mark.outline : Mark → Mark
  | .colors _ _ => .colors none none
  | m => m

def outlineOf (ms : List Mark) : Option Mark := ms.head?.map Mark.outline

theorem startsWithColors_iff (ms : List Mark) :
    startsWithColors ms = true ↔ outlineOf ms = some (.colors none none) := by
  match ms with
  | [] => simp [startsWithColors, outlineOf]
  | m :: rest => cases m <;> simp [startsWithColors, outlineOf, Mark.outline]

/-- Without leaks a sweep keeps the outline of the first mark. -/
theorem outlineOf_sweepMarks {ms : List Mark} (sound : ∀ m ∈ ms, ¬m.IsLeak) :
    outlineOf (sweepMarks ms) = outlineOf ms := by
  fun_induction sweepMarks ms with
  | case1 => rfl
  | case2 fg bg rest leak ih => exact absurd leak (sound _ (by simp))
  | case3 fg bg rest _ rest' h ih =>
    obtain ⟨start, rfl | rfl⟩ := overriding?_eq_some h
    · rw [ih fun m h => sound m (by simp [h])]
      exact (startsWithColors_iff _).mp start
    · rw [ih fun m h => sound m (by simp [h])]
      exact (startsWithColors_iff _).mp start
  | case4 => rfl
  | case5 => rfl
  | case6 => rfl
  | case7 => rfl

theorem isSome_overriding?_iff (ms : List Mark) :
    (overriding? ms).isSome = true ↔
      startsWithColors ms = true ∨
        ∃ rest, ms = .bold :: .bold :: rest ∧ startsWithColors rest = true := by
  constructor
  · intro h
    obtain ⟨rest, e⟩ := Option.isSome_iff_exists.mp h
    obtain ⟨start, rfl | rfl⟩ := overriding?_eq_some e
    · exact Or.inl start
    · exact Or.inr ⟨rest, rfl, start⟩
  · rintro (start | ⟨rest, rfl, start⟩)
    · unfold overriding?
      split
      · cases start
      · simp [start]
    · simp [overriding?, start]

theorem sweepMarks_bold (ms : List Mark) : sweepMarks (.bold :: ms) = .bold :: sweepMarks ms := by
  rw [sweepMarks] <;> simp

theorem exists_bold_of_sweepMarks {ms rest : List Mark} (sound : ∀ m ∈ ms, ¬m.IsLeak)
    (h : sweepMarks ms = .bold :: rest) : ∃ more, ms = .bold :: more ∧ rest = sweepMarks more := by
  have outline := outlineOf_sweepMarks sound
  rw [h] at outline
  match ms with
  | [] => cases outline
  | .char _ :: _ => cases outline
  | .underline :: _ => cases outline
  | .colors _ _ :: _ => cases outline
  | .bold :: more =>
    rw [sweepMarks_bold] at h
    cases h
    exact ⟨more, rfl, rfl⟩

/-- Without leaks a sweep makes no sequence overridden, and none that was overridden safe. -/
theorem overriding?_sweepMarks {ms : List Mark} (sound : ∀ m ∈ ms, ¬m.IsLeak) :
    (overriding? (sweepMarks ms)).isSome = (overriding? ms).isSome := by
  -- whether a sequence begins here is a matter of outlines, which a sweep without leaks keeps
  have start : ∀ {ms : List Mark}, (∀ m ∈ ms, ¬m.IsLeak) →
      (startsWithColors (sweepMarks ms) = true ↔ startsWithColors ms = true) := by
    intro ms sound
    rw [startsWithColors_iff, startsWithColors_iff, outlineOf_sweepMarks sound]
  rw [Bool.eq_iff_iff, isSome_overriding?_iff, isSome_overriding?_iff, start sound]
  refine or_congr_right ⟨?_, ?_⟩
  · intro h
    rcases h with ⟨rest, e, colors⟩
    obtain ⟨more, rfl, e'⟩ := exists_bold_of_sweepMarks sound e
    have sound' : ∀ m ∈ more, ¬m.IsLeak := fun m h => sound m (by simp [h])
    obtain ⟨more', rfl, rfl⟩ := exists_bold_of_sweepMarks sound' e'.symm
    exact ⟨more', rfl, (start fun m h => sound' m (by simp [h])).mp colors⟩
  · intro h
    rcases h with ⟨rest, rfl, colors⟩
    refine ⟨sweepMarks rest, by rw [sweepMarks_bold, sweepMarks_bold], ?_⟩
    exact (start fun m h => sound m (by simp [h])).mpr colors

/-! ### What a client shows of cleaned text -/

theorem surviving_cons {m : Mark} (h : ∀ fg bg, m ≠ .colors fg (some bg)) (rest : List Mark) :
    surviving (m :: rest) = m :: surviving rest := by
  match m with
  | .char _ => rfl
  | .bold => rfl
  | .underline => rfl
  | .colors _ none => rfl
  | .colors fg (some bg) => exact absurd rfl (h fg bg)

/-- A sweep changes nothing that survives, double toggles apart, which nobody sees. -/
theorem run_surviving_sweepMarks {ms : List Mark} (sound : ∀ m ∈ ms, ¬m.IsLeak) (style : Style) :
    run style (surviving (sweepMarks ms)) = run style (surviving ms) := by
  fun_induction sweepMarks ms generalizing style with
  | case1 => rfl
  | case2 fg bg rest leak ih => exact absurd leak (sound (.colors fg (some bg)) (by simp))
  | case3 fg bg rest _ rest' h ih =>
    -- what the sweep takes away has not survived in the first place
    rw [surviving, if_pos (by simp [h])]
    obtain ⟨-, rfl | rfl⟩ := overriding?_eq_some h
    · exact ih (fun m h => sound m (by simp [h])) style
    · rw [ih fun m h => sound m (by simp [h])]
      rw [surviving_cons (by simp), surviving_cons (by simp), run_bold_bold]
  | case4 fg bg rest _ h ih =>
    have sound' : ∀ m ∈ rest, ¬m.IsLeak := fun m h => sound m (by simp [h])
    have kept : ¬(overriding? rest).isSome = true := by simp [h]
    have kept' : ¬(overriding? (sweepMarks rest)).isSome = true := by
      rwa [overriding?_sweepMarks sound']
    rw [surviving, surviving, if_neg kept, if_neg kept']
    exact run_congr style _ (ih sound')
  | case5 fg rest rest' h ih =>
    -- the double toggle behind the foreground is gone, and with it no change of style
    obtain ⟨-, rfl⟩ := unpadded?_eq_some h
    have sound' : ∀ m ∈ rest', ¬m.IsLeak := fun m h => sound m (by simp [h])
    repeat rw [surviving_cons (by simp)]
    refine run_congr style _ fun style => ?_
    rw [run_bold_bold, ih sound']
  | case6 fg rest h ih =>
    rw [surviving_cons (by simp), surviving_cons (by simp)]
    exact run_congr style _ (ih fun m h => sound m (by simp [h]))
  | case7 m rest notBackground notForeground ih =>
    have other : ∀ fg bg, m ≠ .colors fg (some bg) := fun fg bg => notBackground fg bg
    rw [surviving_cons other, surviving_cons other]
    exact run_congr style _ (ih fun m h => sound m (by simp [h]))

/-- **What the clean-up is to a client.** Without leaks, a client shows the cleaned text as
    it shows the marks that survive. -/
theorem display_cleanUp_spell {ms : List Mark} (legible : Legible ms)
    (sound : ∀ m ∈ ms, ¬m.IsLeak) (style : Style) :
    display style (cleanUp (spell ms)) = run style (surviving ms) := by
  generalize e : spell ms = text
  fun_induction cleanUp text generalizing ms with
  | case1 text next shorter =>
    rename_i ih
    have swept : spell (sweepMarks ms) = sweep text := by rw [← sweep_spell legible, e]
    rw [ih (legible_sweepMarks legible) (not_isLeak_sweepMarks ms) swept,
      run_surviving_sweepMarks sound]
  | case2 text next =>
    rename_i same
    subst e
    have settled := settled_of_length_le (Nat.le_of_not_lt same)
    rw [surviving_of_settled legible sound settled, display_eq, marks_spell legible]

/-! ### The characters of cleaned text -/

/-- What a mark leaves in the cleaned text: a character stays, and of a leak there are its
    digits. -/
def Mark.leaving : Mark → List Char
  | .char c => [c]
  | .colors none (some bg) => if 20 ≤ bg.code then bg.digits else []
  | _ => []

theorem leaving_of_isLeak {fg : Option Color} {bg : Color}
    (h : (Mark.colors fg (some bg)).IsLeak) :
    (Mark.colors fg (some bg)).leaving = bg.digits := by
  cases fg with
  | none => exact if_pos h
  | some fg => exact absurd h (by simp [Mark.IsLeak])

theorem leaving_of_not_isLeak {m : Mark} (h : ¬m.IsLeak) : m.leaving = m.char?.toList := by
  match m with
  | .char _ => rfl
  | .bold => rfl
  | .underline => rfl
  | .colors none none => rfl
  | .colors (some _) none => rfl
  | .colors (some _) (some _) => rfl
  | .colors none (some bg) => exact if_neg h

theorem leaving_of_sound {ms : List Mark} (sound : ∀ m ∈ ms, ¬m.IsLeak) :
    ms.flatMap Mark.leaving = ms.filterMap Mark.char? := by
  induction ms with
  | nil => rfl
  | cons m ms ih =>
    rw [List.flatMap_cons, leaving_of_not_isLeak (sound m (by simp)),
      ih fun m h => sound m (by simp [h])]
    cases m <;> rfl

theorem chars_sweepMarks (ms : List Mark) :
    (sweepMarks ms).filterMap Mark.char? = ms.flatMap Mark.leaving := by
  fun_induction sweepMarks ms with
  | case1 => rfl
  | case2 fg bg rest leak ih =>
    rw [List.filterMap_append, ih, List.flatMap_cons, leaving_of_isLeak leak]
    simp [List.filterMap_map, Function.comp_def, Mark.char?]
  | case3 fg bg rest sound rest' h ih =>
    rw [List.flatMap_cons, leaving_of_not_isLeak sound, ih]
    obtain ⟨-, rfl | rfl⟩ := overriding?_eq_some h <;> rfl
  | case4 fg bg rest sound h ih =>
    rw [List.flatMap_cons, leaving_of_not_isLeak sound, ← ih]
    rfl
  | case5 fg rest rest' h ih =>
    obtain ⟨-, rfl⟩ := unpadded?_eq_some h
    cases fg <;> exact ih
  | case6 fg rest h ih => cases fg <;> exact ih
  | case7 m rest notBackground notForeground ih =>
    have sound : ¬m.IsLeak := not_isLeak_of_ne notBackground
    rw [List.flatMap_cons, leaving_of_not_isLeak sound, ← ih]
    cases m <;> rfl

theorem chars_surviving (ms : List Mark) :
    (surviving ms).filterMap Mark.char? = ms.filterMap Mark.char? := by
  fun_induction surviving ms with
  | case1 => rfl
  | case2 fg bg rest overridden ih => exact ih
  | case3 fg bg rest kept ih => exact ih
  | case4 m rest other ih => cases m <;> simp [List.filterMap_cons, Mark.char?, ih]

theorem visible_cleanUp_of_sound {ms : List Mark} (legible : Legible ms)
    (sound : ∀ m ∈ ms, ¬m.IsLeak) : visible (cleanUp (spell ms)) = ms.filterMap Mark.char? := by
  rw [visible_eq_display Style.plain, display_cleanUp_spell legible sound, run, shown_map_char,
    chars_surviving]

/-- **The text behind the clean-up.** Every character of the text is still there; what comes
    on top are the digits of leaks. -/
theorem visible_cleanUp_spell {ms : List Mark} (legible : Legible ms) :
    visible (cleanUp (spell ms)) = ms.flatMap Mark.leaving := by
  by_cases shorter : (sweep (spell ms)).length < (spell ms).length
  · rw [cleanUp, if_pos shorter, sweep_spell legible,
      visible_cleanUp_of_sound (legible_sweepMarks legible) (not_isLeak_sweepMarks ms),
      chars_sweepMarks]
  · have settled := settled_of_length_le (Nat.le_of_not_lt shorter)
    have sound := not_isLeak_of_settled legible settled
    rw [visible_cleanUp_of_sound legible sound, leaving_of_sound sound]

theorem length_chars_le (ms : List Mark) :
    (ms.filterMap Mark.char?).length ≤ (ms.flatMap Mark.leaving).length := by
  induction ms with
  | nil => exact Nat.le_refl 0
  | cons m ms ih =>
    have front : m.char?.toList.length ≤ m.leaving.length := by
      cases m <;> simp [Mark.char?, Mark.leaving]
    have split : (m :: ms).filterMap Mark.char? = m.char?.toList ++ ms.filterMap Mark.char? := by
      cases m <;> rfl
    rw [split, List.flatMap_cons, List.length_append, List.length_append]
    omega

/-- The text is shown as it is exactly when nothing leaks. -/
theorem visible_cleanUp_spell_eq_iff {ms : List Mark} (legible : Legible ms) :
    visible (cleanUp (spell ms)) = ms.filterMap Mark.char? ↔ ∀ m ∈ ms, ¬m.IsLeak := by
  rw [visible_cleanUp_spell legible]
  constructor
  · intro same m member leak
    obtain ⟨before, behind, rfl⟩ := List.append_of_mem member
    obtain ⟨bg, rfl, -⟩ := isLeak_iff.mp leak
    -- a leak leaves two characters more than there were, and no mark leaves fewer
    have digits := leaving_of_isLeak leak
    have total := congrArg List.length same
    have before_le := length_chars_le before
    have behind_le := length_chars_le behind
    rw [List.flatMap_append, List.flatMap_cons, digits, List.filterMap_append,
      List.filterMap_cons_none rfl] at total
    simp only [List.length_append, Color.digits_length] at total
    omega
  · exact leaving_of_sound

end ChatMarkup.Wire
