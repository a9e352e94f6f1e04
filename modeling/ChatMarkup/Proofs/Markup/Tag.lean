/-
  ChatMarkup/Proofs/Markup/Tag.lean
  =================================
  **What tags are read from** — names, attributes with their values, and the two kinds of
  tags, again with exactly the texts that each reader reads.

  White space, names and the marks between them share no character.  That is why a tag can
  be read without looking back, and why its parts can only be told apart in one way.
-/
import ChatMarkup.Proofs.Markup.Piece

namespace ChatMarkup.Markup

variable {text rest : List Char} {name value : String}

/-! ### Characters of one kind only -/

theorem Ends.append {p : Char → Bool} {front : List Char} (outside : ∀ c ∈ front, p c = false)
    (ends : Ends p rest) : Ends p (front ++ rest) := by
  cases front with
  | nil => exact ends
  | cons c front => exact outside c (by simp)

theorem isNameChar_of_isSpace {c : Char} (h : isSpace c = true) : isNameChar c = false := by
  simp only [isSpace, Bool.or_eq_true, beq_iff_eq] at h
  rcases h with ((rfl | rfl) | rfl) | rfl <;> rfl

theorem isSpace_of_isNameStart {c : Char} (h : isNameStart c = true) : isSpace c = false := by
  rw [← Bool.not_eq_true]
  intro space
  simp only [isSpace, Bool.or_eq_true, beq_iff_eq] at space
  rcases space with ((rfl | rfl) | rfl) | rfl <;> cases h

theorem isSpace_of_quote {quote : Char} (h : quote = '"' ∨ quote = '\'') :
    isSpace quote = false := by
  rcases h with rfl | rfl <;> rfl

/-- Behind white space no name goes on. -/
theorem ends_name_of_space {gap : List Char} (space : IsSpace gap) (ends : Ends isNameChar rest) :
    Ends isNameChar (gap ++ rest) :=
  ends.append fun c member => isNameChar_of_isSpace (space c member)

theorem IsTagName.ends_space (h : IsTagName name) : Ends isSpace (name.toList ++ rest) := by
  cases h with
  | mk whole start more =>
    rw [whole]
    exact isSpace_of_isNameStart start

theorem isNameChar_of_isNameStart {c : Char} (h : isNameStart c = true) : isNameChar c = true := by
  simp only [isNameStart, Bool.or_eq_true] at h
  rcases h with letter | line
  · simp [isNameChar, Char.isAlphanum, letter]
  · simp [isNameChar, line]

theorem IsTagName.isNameChar (h : IsTagName name) : ∀ c ∈ name.toList, isNameChar c = true := by
  obtain ⟨whole, start, more⟩ := h
  rw [whole]
  exact List.forall_mem_cons.mpr ⟨isNameChar_of_isNameStart start, more⟩

theorem IsTagName.ne_nil (h : IsTagName name) : name.toList ≠ [] := by
  obtain ⟨whole, -, -⟩ := h
  rw [whole]
  exact List.cons_ne_nil _ _

theorem not_mem_space {c : Char} {gap : List Char} (other : isSpace c = false)
    (space : IsSpace gap) : c ∉ gap :=
  fun member => Bool.eq_false_iff.mp other (space c member)

theorem not_mem_name {c : Char} (other : isNameChar c = false) (isName : IsTagName name) :
    c ∉ name.toList :=
  fun member => Bool.eq_false_iff.mp other (isName.isNameChar c member)

/-! ### Names and values -/

theorem readName?_eq_some_iff :
    readName? text = some (name, rest) ↔
      IsTagName name ∧ text = name.toList ++ rest ∧ Ends isNameChar rest := by
  constructor
  · intro h
    cases text with
    | nil => cases h
    | cons c tail =>
      simp only [readName?] at h
      split at h
      · rename_i start
        cases h
        refine ⟨.mk String.toList_ofList start fun d => List.mem_takeWhile_imp, ?_,
          ends_dropWhile _ _⟩
        rw [String.toList_ofList, List.cons_append, List.takeWhile_append_dropWhile]
      · cases h
  · intro h
    rcases h with ⟨⟨whole, start, more⟩, rfl, ends⟩
    rw [whole, List.cons_append, readName?, if_pos start, takeWhile_append_of_ends more ends,
      dropWhile_append_of_ends more ends, ← whole, String.ofList_toList]

theorem readName?_eq_none (ends : Ends isNameStart text) : readName? text = none := by
  cases text with
  | nil => rfl
  | cons c tail => exact if_neg (Bool.eq_false_iff.mp ends)

theorem isSome_readName?_iff :
    (∃ found, readName? text = some found) ↔
      ∃ c behind, text = c :: behind ∧ isNameStart c = true := by
  constructor
  · intro h
    obtain ⟨found, h⟩ := h
    cases text with
    | nil => cases h
    | cons c behind =>
      rw [readName?] at h
      split at h
      · rename_i start
        exact ⟨c, behind, rfl, start⟩
      · cases h
  · intro h
    obtain ⟨c, behind, rfl, start⟩ := h
    exact ⟨_, if_pos start⟩

theorem readValue_eq_ok_iff :
    readValue text = .ok (value, rest) ↔
      ∃ quote spelling, (quote = '"' ∨ quote = '\'') ∧
        SpellsText (PlainValue quote) value.toList spelling ∧
        text = quote :: spelling ++ quote :: rest := by
  constructor
  · intro h
    cases text with
    | nil => cases h
    | cons quote tail =>
      unfold readValue at h
      dsimp only at h
      split at h
      · rename_i quoted
        split at h
        · cases h
        · rename_i run behind e
          obtain ⟨spelling, spells, rfl, -⟩ := readRun_sound e
          rw [raw_value] at spells
          split at h
          · cases h
          · split at h
            · rename_i same
              cases h
              refine ⟨quote, spelling, quoted, ?_, by rw [same]; rfl⟩
              rwa [String.toList_ofList]
            · cases h
      · cases h
  · intro h
    rcases h with ⟨quote, spelling, quoted, spells, rfl⟩
    -- a reference may begin anywhere in the value, whichever quote it has
    have free : ('&' == quote || '&' == '<') = false := by
      rcases quoted with rfl | rfl <;> rfl
    have ends : Ends (fun c => !(c == quote || c == '<')) (quote :: rest) := by simp [Ends]
    rw [← raw_value] at spells
    rw [List.cons_append, readValue]
    simp [quoted, readRun_complete free spells ends, String.ofList_toList]

/-! ### Attributes -/

theorem readAttributeName?_eq_some_iff :
    readAttributeName? text = some (name, rest) ↔
      ∃ gap before after, gap ≠ [] ∧ IsSpace (gap ++ before ++ after) ∧ IsTagName name ∧
        text = gap ++ name.toList ++ before ++ '=' :: after ++ rest ∧ Ends isSpace rest := by
  constructor
  · intro h
    cases text with
    | nil => cases h
    | cons c tail =>
      unfold readAttributeName? at h
      dsimp only at h
      split at h
      · rename_i first
        split at h
        · cases h
        · rename_i name' behind e
          obtain ⟨gap, space, split, -⟩ := skipSpace_eq_iff.mp (Eq.refl (skipSpace tail))
          obtain ⟨isName, whole, -⟩ := readName?_eq_some_iff.mp e
          split at h
          · rename_i behind' e'
            obtain ⟨before, space', split', -⟩ := skipSpace_eq_iff.mp e'
            obtain ⟨rfl, left⟩ := Prod.mk.inj (Option.some.inj h)
            obtain ⟨after, space'', rfl, ends⟩ := skipSpace_eq_iff.mp left
            refine ⟨c :: gap, before, after, List.cons_ne_nil _ _, ?_, isName, ?_, ends⟩
            -- the white space comes from four places: the first character and the three gaps
            · intro d member
              simp only [List.mem_append, List.mem_cons, or_assoc] at member
              rcases member with rfl | member | member | member
              · exact first
              · exact space d member
              · exact space' d member
              · exact space'' d member
            · rw [split, whole, split']
              simp
          · cases h
      · cases h
  · intro h
    rcases h with ⟨gap, before, after, some, space, isName, rfl, ends⟩
    simp only [isSpace_append_iff] at space
    rcases space with ⟨⟨space, space'⟩, space''⟩
    cases gap with
    | nil => exact absurd rfl some
    | cons c gap =>
      have first : isSpace c = true := space c (by simp)
      have skip : skipSpace (gap ++ (name.toList ++ (before ++ '=' :: (after ++ rest)))) =
          name.toList ++ (before ++ '=' :: (after ++ rest)) :=
        skipSpace_eq_iff.mpr
          ⟨gap, fun d member => space d (by simp [member]), rfl, isName.ends_space⟩
      have read : readName? (name.toList ++ (before ++ '=' :: (after ++ rest))) =
          Option.some (name, before ++ '=' :: (after ++ rest)) :=
        readName?_eq_some_iff.mpr ⟨isName, rfl, ends_name_of_space space' rfl⟩
      have skip' : skipSpace (before ++ '=' :: (after ++ rest)) = '=' :: (after ++ rest) :=
        skipSpace_eq_iff.mpr ⟨before, space', rfl, rfl⟩
      have skip'' : skipSpace (after ++ rest) = rest :=
        skipSpace_eq_iff.mpr ⟨after, space'', rfl, ends⟩
      simp only [List.append_assoc, List.cons_append]
      rw [readAttributeName?, if_pos first, skip, read]
      simp only [skip', skip'']

/-- Before the end of a tag stands no attribute. -/
theorem readAttributeName?_eq_none {gap : List Char} (space : IsSpace gap)
    (ends : Ends isSpace rest) (ends' : Ends isNameStart rest) :
    readAttributeName? (gap ++ rest) = none := by
  cases gap with
  | nil =>
    cases rest with
    | nil => rfl
    | cons c rest => exact if_neg (Bool.eq_false_iff.mp ends)
  | cons c gap =>
    have skip : skipSpace (gap ++ rest) = rest :=
      skipSpace_eq_iff.mpr ⟨gap, fun d member => space d (by simp [member]), rfl, ends⟩
    rw [List.cons_append, readAttributeName?, if_pos (space c (by simp)), skip,
      readName?_eq_none ends']

theorem readAttributeName?_of_not_mem (other : '=' ∉ text) : readAttributeName? text = none := by
  cases result : readAttributeName? text with
  | none => rfl
  | some found =>
    obtain ⟨gap, before, after, -, -, -, rfl, -⟩ := readAttributeName?_eq_some_iff.mp result
    simp at other

theorem SpellsAttributes.ends {attributes : List (String × String)} {spelling : List Char}
    (h : SpellsAttributes attributes spelling) (ends : Ends isNameChar rest) :
    Ends isNameChar (spelling ++ rest) := by
  cases h with
  | nil => exact ends
  | cons head _ =>
    cases head with
    | @mk _ _ gap _ _ _ _ separate space =>
      cases gap with
      | nil => exact absurd rfl separate
      | cons c gap => exact isNameChar_of_isSpace (space c (by simp))

theorem readAttributes_of_none (h : readAttributeName? text = none) :
    readAttributes text = .ok ([], text) := by
  rw [readAttributes]
  split
  · rfl
  · rename_i e
    cases e.symm.trans h

theorem readAttributes_attribute {behind : List Char}
    (first : readAttributeName? text = some (name, behind)) :
    readAttributes text = readValue behind >>= fun found =>
      (readAttributes found.2).map fun more => ((name, found.1) :: more.1, more.2) := by
  rw [readAttributes]
  split
  · rename_i e
    cases e.symm.trans first
  · rename_i e
    cases e.symm.trans first
    split
    · rename_i e'
      rw [e']
      rfl
    · rename_i value behind' e'
      rw [e', ok_bind]
      cases readAttributes behind' <;> rfl

theorem readAttributes_sound {attributes : List (String × String)}
    (h : readAttributes text = .ok (attributes, rest)) :
    ∃ spelling, SpellsAttributes attributes spelling ∧ (∀ attr ∈ attributes, IsTagName attr.1) ∧
      text = spelling ++ rest := by
  fun_induction readAttributes text generalizing attributes rest with
  | case1 =>
    cases h
    exact ⟨[], .nil, by simp, rfl⟩
  | case2 => cases h
  | case3 => cases h
  | case4 text name behind e value behind' e' more rest' e'' ih =>
    cases h
    obtain ⟨gap, before, after, some, space, isName, rfl, -⟩ := readAttributeName?_eq_some_iff.mp e
    obtain ⟨quote, spelling, quoted, spells, rfl⟩ := readValue_eq_ok_iff.mp e'
    obtain ⟨spelling', spells', areNames, rfl⟩ := ih e''
    exact ⟨_, .cons (.mk some space quoted spells) spells',
      List.forall_mem_cons.mpr ⟨isName, areNames⟩, by simp⟩

theorem SpellsAttribute.exists_read {attr : String × String} {spelling : List Char}
    (h : SpellsAttribute attr spelling) (isName : IsTagName attr.1) (rest : List Char) :
    ∃ behind, readAttributeName? (spelling ++ rest) = some (attr.1, behind) ∧
      readValue behind = .ok (attr.2, rest) := by
  cases h with
  | @mk name value gap before after quote spelling separate space quoted content =>
    refine ⟨quote :: spelling ++ quote :: rest, readAttributeName?_eq_some_iff.mpr ?_,
      readValue_eq_ok_iff.mpr ⟨quote, spelling, quoted, content, rfl⟩⟩
    exact ⟨gap, before, after, separate, space, isName, by simp, isSpace_of_quote quoted⟩

theorem readAttributes_complete {attributes : List (String × String)} {spelling : List Char}
    (h : SpellsAttributes attributes spelling) (areNames : ∀ attr ∈ attributes, IsTagName attr.1)
    (stop : readAttributeName? rest = none) :
    readAttributes (spelling ++ rest) = .ok (attributes, rest) := by
  induction h with
  | nil => exact readAttributes_of_none stop
  | cons head _ ih =>
    obtain ⟨isName, areNames⟩ := List.forall_mem_cons.mp areNames
    obtain ⟨behind, first, second⟩ := head.exists_read isName _
    rw [List.append_assoc, readAttributes_attribute first, second, ok_bind, ih areNames]
    rfl

/-! ### Tags -/

def ending (closed : Bool) : List Char := if closed then ['/', '>'] else ['>']

theorem readOpening_sound {opening : Opening} (isName : IsTagName name)
    (h : readOpening name text = .ok opening) :
    opening.tag.name = name ∧ opening.tag.Canonical ∧ ∃ spelling gap,
      SpellsAttributes opening.tag.attributes spelling ∧ IsSpace gap ∧
      text = spelling ++ gap ++ ending opening.closed ++ opening.rest := by
  unfold readOpening at h
  split at h
  · cases h
  · rename_i attributes behind e
    obtain ⟨spelling, spells, areNames, rfl⟩ := readAttributes_sound e
    obtain ⟨gap, space, split, -⟩ := skipSpace_eq_iff.mp (Eq.refl (skipSpace behind))
    split at h
    · rename_i distinct
      have canonical : Tag.Canonical ⟨name, attributes⟩ :=
        ⟨isName, areNames, of_decide_eq_true distinct⟩
      split at h
      -- either end of the tag: with a slash in front of the bracket, or without
      · rename_i e'
        cases h
        refine ⟨rfl, canonical, spelling, gap, spells, space, ?_⟩
        rw [split, e']
        simp [ending]
      · rename_i e'
        cases h
        refine ⟨rfl, canonical, spelling, gap, spells, space, ?_⟩
        rw [split, e']
        simp [ending]
      · cases h
    · cases h

def readEnding (tag : Tag) : List Char → Except Failure Opening
  | '/' :: '>' :: after => .ok ⟨tag, true, after⟩
  | '>' :: after => .ok ⟨tag, false, after⟩
  | other => .error ⟨.tag, other⟩

theorem readOpening_eq {tag : Tag} {spelling gap : List Char} (canonical : tag.Canonical)
    (spells : SpellsAttributes tag.attributes spelling) (space : IsSpace gap)
    (ends : Ends isSpace rest) (stop : readAttributeName? (gap ++ rest) = none) :
    readOpening tag.name (spelling ++ (gap ++ rest)) = readEnding tag rest := by
  have skip : skipSpace (gap ++ rest) = rest := skipSpace_eq_iff.mpr ⟨gap, space, rfl, ends⟩
  have distinct : distinctNames tag.attributes = true := decide_eq_true canonical.distinct
  rw [readOpening, readAttributes_complete spells canonical.names stop]
  simp only [distinct, if_true, skip]
  rfl

theorem readOpening_complete {tag : Tag} {spelling gap : List Char} (canonical : tag.Canonical)
    (spells : SpellsAttributes tag.attributes spelling) (space : IsSpace gap) (closed : Bool) :
    readOpening tag.name (spelling ++ (gap ++ (ending closed ++ rest))) =
      .ok ⟨tag, closed, rest⟩ := by
  have ends : Ends isSpace (ending closed ++ rest) := by cases closed <;> rfl
  have ends' : Ends isNameStart (ending closed ++ rest) := by cases closed <;> rfl
  rw [readOpening_eq canonical spells space ends (readAttributeName?_eq_none space ends ends')]
  cases closed <;> rfl

theorem after?_eq_some_iff {front : List Char} :
    after? front text = some rest ↔ text = front ++ rest := by
  induction front generalizing text with
  | nil => simp [after?, eq_comm]
  | cons c front ih =>
    cases text with
    | nil => simp [after?]
    | cons d text =>
      rw [after?]
      split
      · rename_i same
        simp [ih, same]
      · rename_i different
        simp [Ne.symm different]

theorem readClosing_eq_ok_iff :
    readClosing name text = .ok rest ↔
      ∃ last, IsSpace last ∧ text = '<' :: '/' :: name.toList ++ last ++ '>' :: rest := by
  constructor
  · intro h
    unfold readClosing at h
    split at h
    · split at h
      · cases h
      · rename_i behind e
        rw [after?_eq_some_iff.mp e]
        split at h
        · rename_i e'
          obtain ⟨last, space, rfl, -⟩ := skipSpace_eq_iff.mp e'
          cases h
          exact ⟨last, space, by simp⟩
        · cases h
    · cases h
  · intro h
    rcases h with ⟨last, space, rfl⟩
    have behind : after? name.toList (name.toList ++ (last ++ '>' :: rest)) =
        some (last ++ '>' :: rest) := after?_eq_some_iff.mpr rfl
    have skip : skipSpace (last ++ '>' :: rest) = '>' :: rest :=
      skipSpace_eq_iff.mpr ⟨last, space, rfl, rfl⟩
    simp only [List.append_assoc, List.cons_append, readClosing, behind, skip]

end ChatMarkup.Markup
