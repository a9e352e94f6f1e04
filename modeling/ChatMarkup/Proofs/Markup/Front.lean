/-
  ChatMarkup/Proofs/Markup/Front.lean
  ===================================
  **What is made of the front of a piece** — a piece of a template can be read, but the text
  ends inside it.  Then its reader mostly fails with nothing left (`EndsEarly`), and that is
  how a template that was cut off is told from one that is wrong.

  In three places something is left.  An attribute is not seen before its equals sign
  (`Unassigned`), so a tag that ends there seems to have a name too many; a slash alone is no
  end of a tag; and the name of a closing tag is looked for as a whole.
-/
import ChatMarkup.Markup.Unfinished
import ChatMarkup.Proofs.Markup.Tag

namespace ChatMarkup.Markup

def EndsEarly {α : Type} (x : Except Failure α) : Prop :=
  ∃ failure, x = .error failure ∧ failure.rest = []

def RunsOut {α : Type} (x : Except Failure (α × List Char)) : Prop :=
  EndsEarly x ∨ ∃ a, x = .ok (a, [])

/-- The part of an attribute before its equals sign: white space, and perhaps a name. -/
inductive Unassigned : List Char → Prop where
  | space {gap} (space : IsSpace gap) : Unassigned gap
  | name {gap after name} (separate : gap ≠ []) (space : IsSpace (gap ++ after))
      (isName : IsTagName name) : Unassigned (gap ++ (name.toList ++ after))

variable {text more rest run spelling : List Char} {name value : String}
  {stop : Char → Bool} {attributes : List (String × String)}

/-- A text that ends in a part of what is read, or behind it. -/
theorem front_cases {first second : List Char} (whole : text ++ more = first ++ second) :
    (∃ part, first = text ++ part) ∨
      ∃ c behind, text = first ++ c :: behind ∧ second = c :: behind ++ more := by
  rcases List.append_eq_append_iff.mp whole with ⟨part, rfl, -⟩ | ⟨behind, rfl, rfl⟩
  · exact Or.inl ⟨part, rfl⟩
  · rcases behind with _ | ⟨c, behind⟩
    · exact Or.inl ⟨[], by simp⟩
    · exact Or.inr ⟨c, behind, rfl, rfl⟩

theorem EndsEarly.rest_eq_nil {α : Type} {x : Except Failure α} {failure : Failure}
    (h : EndsEarly x) (failed : x = .error failure) : failure.rest = [] := by
  obtain ⟨failure', e, atEnd⟩ := h
  cases e.symm.trans failed
  exact atEnd

theorem EndsEarly.bind {α β : Type} {x : Except Failure α} (h : EndsEarly x)
    (f : α → Except Failure β) : EndsEarly (x >>= f) := by
  obtain ⟨failure, rfl, atEnd⟩ := h
  exact ⟨failure, rfl, atEnd⟩

theorem EndsEarly.map {α β : Type} {x : Except Failure α} (h : EndsEarly x) (f : α → β) :
    EndsEarly (x.map f) := by
  obtain ⟨failure, rfl, atEnd⟩ := h
  exact ⟨failure, rfl, atEnd⟩

theorem RunsOut.map {α β : Type} {x : Except Failure (α × List Char)} (h : RunsOut x)
    (f : α → β) : RunsOut (x.map fun found => (f found.1, found.2)) := by
  rcases h with early | ⟨a, rfl⟩
  · exact Or.inl (early.map _)
  · exact Or.inr ⟨f a, rfl⟩

/-! ### References, runs and values -/

theorem endsEarly_readReference (inner : ∀ d ∈ text, endsReference d = false) :
    EndsEarly (readReference text) := by
  have inside : ∀ d ∈ text, (!endsReference d) = true := fun d member => by simp [inner d member]
  unfold readReference
  rw [List.takeWhile_eq_self_iff.mpr inside, List.dropWhile_eq_nil_iff.mpr inside]
  dsimp only
  split
  · rename_i empty
    exact ⟨_, rfl, empty⟩
  · exact ⟨_, rfl, rfl⟩

theorem runsOut_readRun (free : stop '&' = false) (spells : SpellsText (Raw stop) run spelling)
    (front : spelling = text ++ more) : RunsOut (readRun stop text) := by
  induction spells generalizing text with
  | nil =>
    obtain ⟨rfl, -⟩ := List.append_eq_nil_iff.mp front.symm
    rw [readRun]
    exact Or.inr ⟨[], rfl⟩
  | cons head _ ih =>
    rcases text with _ | ⟨c, text⟩
    · rw [readRun]
      exact Or.inr ⟨[], rfl⟩
    · cases head with
      | raw self =>
        obtain ⟨rfl, front'⟩ := List.cons.inj front
        rw [readRun_raw self]
        exact (ih front').map _
      | @reference name some inner decoded =>
        simp only [List.cons_append, List.append_assoc, List.nil_append, List.cons.injEq] at front
        obtain ⟨rfl, front'⟩ := front
        rw [readRun_reference free]
        rcases front_cases front'.symm with ⟨part, rfl⟩ | ⟨d, behind, rfl, split⟩
        · have inner' : ∀ d ∈ text, endsReference d = false :=
            fun d member => inner d (List.mem_append_left _ member)
          exact Or.inl ((endsEarly_readReference inner').bind _)
        · obtain ⟨rfl, split'⟩ := List.cons.inj split
          rw [readReference_eq_ok_iff.mpr ⟨name, some, inner, decoded, rfl⟩, ok_bind]
          exact (ih split').map _

theorem readValue_front (whole : readValue (text ++ more) = .ok (value, rest)) :
    EndsEarly (readValue text) ∨
      ∃ behind, readValue text = .ok (value, behind) ∧ rest = behind ++ more := by
  obtain ⟨quote, spelling, quoted, spells, split⟩ := readValue_eq_ok_iff.mp whole
  rcases text with _ | ⟨c, text⟩
  · exact Or.inl ⟨_, rfl, rfl⟩
  · obtain ⟨rfl, inner⟩ := List.cons.inj split
    rcases front_cases inner with ⟨part, front⟩ | ⟨d, behind, rfl, split'⟩
    -- cut off inside the value, so the closing quote is missing
    · left
      have free : ('&' == c || '&' == '<') = false := by rcases quoted with rfl | rfl <;> rfl
      rw [← raw_value] at spells
      rw [readValue, if_pos quoted]
      rcases runsOut_readRun free spells front with ⟨failure, e, atEnd⟩ | ⟨run, e⟩
      · rw [e]
        exact ⟨failure, rfl, atEnd⟩
      · rw [e]
        exact ⟨_, rfl, rfl⟩
    · obtain ⟨rfl, left⟩ := List.cons.inj split'
      exact Or.inr ⟨behind, readValue_eq_ok_iff.mpr ⟨_, spelling, quoted, spells, rfl⟩, left⟩

theorem readRun_front (free : stop '&' = false)
    (whole : readRun stop (text ++ more) = .ok (run, rest)) :
    EndsEarly (readRun stop text) ∨ ∃ found, readRun stop text = .ok found := by
  obtain ⟨spelling, spells, split, ends⟩ := readRun_sound whole
  rcases front_cases split with ⟨part, front⟩ | ⟨c, behind, rfl, rfl⟩
  · rcases runsOut_readRun free spells front with early | ⟨run, e⟩
    · exact Or.inl early
    · exact Or.inr ⟨_, e⟩
  · exact Or.inr ⟨_, readRun_complete free spells ends.of_append⟩

/-! ### Attributes -/

theorem IsTagName.of_front {part : List Char} (isName : IsTagName name) (some : text ≠ [])
    (front : name.toList = text ++ part) : IsTagName (String.ofList text) := by
  obtain ⟨whole, start, others⟩ := isName
  rcases text with _ | ⟨c, text⟩
  · exact absurd rfl some
  · rw [whole, List.cons_append, List.cons.injEq] at front
    obtain ⟨rfl, rfl⟩ := front
    exact .mk String.toList_ofList start fun d member => others d (List.mem_append_left _ member)

theorem Unassigned.readAttributeName? (h : Unassigned text) : readAttributeName? text = none := by
  apply readAttributeName?_of_not_mem
  cases h with
  | space space => exact not_mem_space rfl space
  | name _ space isName =>
    obtain ⟨space, space'⟩ := isSpace_append_iff.mp space
    simp [not_mem_space (c := '=') rfl space, not_mem_space (c := '=') rfl space',
      not_mem_name (c := '=') rfl isName]

theorem unassigned_of_front {gap before part : List Char} (separate : gap ≠ [])
    (space : IsSpace (gap ++ before)) (isName : IsTagName name)
    (front : gap ++ (name.toList ++ before) = text ++ part) : Unassigned text := by
  obtain ⟨first, second⟩ := isSpace_append_iff.mp space
  rcases front_cases front.symm with ⟨part, rfl⟩ | ⟨d, tail, rfl, split⟩
  · exact .space (isSpace_append_iff.mp first).1
  · rcases front_cases split.symm with ⟨part, front⟩ | ⟨d', tail', e, rfl⟩
    · have isName' : IsTagName (String.ofList (d :: tail)) :=
        isName.of_front (List.cons_ne_nil _ _) front
      have space' : IsSpace (gap ++ []) := by rwa [List.append_nil]
      simpa using Unassigned.name separate space' isName'
    · rw [e]
      exact .name separate
        (isSpace_append_iff.mpr ⟨first, (isSpace_append_iff.mp second).1⟩) isName

theorem readAttributeName?_front (whole : readAttributeName? (text ++ more) = some (name, rest)) :
    Unassigned text ∨ ∃ behind, readAttributeName? text = some (name, behind) ∧
      (behind = [] ∨ rest = behind ++ more) := by
  obtain ⟨gap, before, after, separate, space, isName, split, ends⟩ :=
    readAttributeName?_eq_some_iff.mp whole
  obtain ⟨space', space''⟩ := isSpace_append_iff.mp space
  have split' : text ++ more = (gap ++ (name.toList ++ before)) ++ '=' :: (after ++ rest) := by
    rw [split]
    simp
  rcases front_cases split' with ⟨part, front⟩ | ⟨d, tail, rfl, e⟩
  · exact Or.inl (unassigned_of_front separate space' isName front)
  · right
    obtain ⟨rfl, left⟩ := List.cons.inj e
    rcases front_cases left.symm with ⟨part, rfl⟩ | ⟨c, behind, rfl, rfl⟩
    · have space := isSpace_append_iff.mpr ⟨space', (isSpace_append_iff.mp space'').1⟩
      exact ⟨[], readAttributeName?_eq_some_iff.mpr
        ⟨gap, before, tail, separate, space, isName, by simp, trivial⟩, Or.inl rfl⟩
    · exact ⟨c :: behind, readAttributeName?_eq_some_iff.mpr
        ⟨gap, before, after, separate, space, isName, by simp, ends.of_append⟩, Or.inr rfl⟩

theorem SpellsAttribute.front {attr : String × String} {c : Char} {part : List Char}
    (h : SpellsAttribute attr (text ++ c :: part)) (isName : IsTagName attr.1) :
    EndsEarly (readAttributes text) ∨ Unassigned text := by
  obtain ⟨tail, first, second⟩ := h.exists_read isName []
  rw [List.append_nil] at first
  rcases readAttributeName?_front first with unassigned | ⟨behind, first, ended⟩
  · exact Or.inr unassigned
  · left
    rw [readAttributes_attribute first]
    rcases ended with rfl | rfl
    · have early : EndsEarly (readValue []) := ⟨_, rfl, rfl⟩
      exact early.bind _
    · rcases readValue_front second with early | ⟨left, -, e⟩
      · exact early.bind _
      · -- the value would end behind the attribute
        exact absurd e (by simp)

/-- Attributes that were cut off fail at the end, or the last one is not seen. -/
theorem SpellsAttributes.front (h : SpellsAttributes attributes spelling)
    (areNames : ∀ attr ∈ attributes, IsTagName attr.1) (whole : text ++ more = spelling ++ rest) :
    EndsEarly (readAttributes text) ∨
      (∃ behind, text = spelling ++ behind ∧ rest = behind ++ more) ∨
      ∃ first front behind, text = front ++ behind ∧ first <+: attributes ∧
        SpellsAttributes first front ∧ Unassigned behind := by
  induction h generalizing text with
  | nil => exact Or.inr (Or.inl ⟨text, rfl, whole.symm⟩)
  | @cons attr spelling attributes _ head _ ih =>
    obtain ⟨isName, areNames⟩ := List.forall_mem_cons.mp areNames
    rw [List.append_assoc] at whole
    rcases front_cases whole.symm with ⟨behind, rfl⟩ | ⟨c, part, rfl, -⟩
    · rw [List.append_assoc, List.append_cancel_left_eq] at whole
      rcases ih areNames whole with
        early | ⟨left, rfl, e⟩ | ⟨first, front, left, rfl, pre, inner, unassigned⟩
      · obtain ⟨tail, first, second⟩ := head.exists_read isName behind
        rw [readAttributes_attribute first, second, ok_bind]
        exact Or.inl (early.map _)
      · exact Or.inr (Or.inl ⟨left, (List.append_assoc ..).symm, e⟩)
      · exact Or.inr (Or.inr ⟨attr :: first, spelling ++ front, left, (List.append_assoc ..).symm,
          List.cons_prefix_cons.mpr ⟨rfl, pre⟩, .cons head inner, unassigned⟩)
    · rcases head.front isName with early | unassigned
      · exact Or.inl early
      · exact Or.inr (Or.inr ⟨[], [], text, rfl, List.nil_prefix, .nil, unassigned⟩)

/-! ### Tags -/

theorem Tag.Canonical.front {tag : Tag} (canonical : tag.Canonical)
    (pre : attributes <+: tag.attributes) : Tag.Canonical ⟨tag.name, attributes⟩ where
  name := canonical.name
  names := fun attr member => canonical.names attr (pre.subset member)
  distinct := canonical.distinct.sublist (pre.sublist.map Prod.fst)

theorem readOpening_space {tag : Tag} {gap : List Char} (canonical : tag.Canonical)
    (inner : SpellsAttributes tag.attributes spelling) (space : IsSpace gap) :
    EndsEarly (readOpening tag.name (spelling ++ gap)) := by
  have stop : readAttributeName? (gap ++ []) = none :=
    readAttributeName?_eq_none space trivial trivial
  have ended : readOpening tag.name (spelling ++ (gap ++ [])) = .error ⟨.tag, []⟩ :=
    readOpening_eq canonical inner space trivial stop
  rw [List.append_nil] at ended
  exact ⟨_, ended, rfl⟩

theorem readOpening_slash {tag : Tag} {gap : List Char} (canonical : tag.Canonical)
    (inner : SpellsAttributes tag.attributes spelling) (space : IsSpace gap) :
    readOpening tag.name (spelling ++ (gap ++ ['/'])) = .error ⟨.tag, ['/']⟩ :=
  readOpening_eq canonical inner space rfl (readAttributeName?_eq_none space rfl rfl)

theorem readOpening_attribute {tag : Tag} {gap after : List Char} (canonical : tag.Canonical)
    (inner : SpellsAttributes tag.attributes spelling) (separate : gap ≠ [])
    (space : IsSpace (gap ++ after)) (isName : IsTagName name) :
    readOpening tag.name (spelling ++ (gap ++ (name.toList ++ after))) =
      .error ⟨.tag, name.toList ++ after⟩ := by
  rw [readOpening_eq canonical inner (isSpace_append_iff.mp space).1 isName.ends_space
    (Unassigned.name separate space isName).readAttributeName?]
  obtain ⟨whole, start, -⟩ := isName
  rw [whole, List.cons_append, readEnding.eq_def]
  split
  · rename_i e
    rw [(List.cons.inj e).1] at start
    cases start
  · rename_i e
    rw [(List.cons.inj e).1] at start
    cases start
  · rfl

/-- An opening tag that was cut off fails at the end, or it is given back. -/
theorem readOpening_front {opening : Opening} {failure : Failure} (isName : IsTagName name)
    (whole : readOpening name (text ++ more) = .ok opening)
    (failed : readOpening name text = .error failure) (names : List String) :
    failure.rest = [] ∨ Stranded names ('<' :: (name.toList ++ text)) := by
  obtain ⟨rfl, canonical, spelling, gap, spells, space, split⟩ := readOpening_sound isName whole
  obtain ⟨tag, closed, rest⟩ := opening
  simp only [List.append_assoc] at split canonical spells
  rcases spells.front canonical.names split with
    early | ⟨behind, rfl, e⟩ | ⟨first, front, behind, rfl, pre, inner, unassigned⟩
  · left
    obtain ⟨failure', e, atEnd⟩ := early
    have early' : EndsEarly (readOpening tag.name text) := ⟨failure', by rw [readOpening, e], atEnd⟩
    exact early'.rest_eq_nil failed
  -- all attributes are there; the cut is in the space behind them or in the end of the tag
  · rcases front_cases e.symm with ⟨part, rfl⟩ | ⟨c, tail, rfl, e'⟩
    · have space' := (isSpace_append_iff.mp space).1
      exact Or.inl ((readOpening_space canonical spells space').rest_eq_nil failed)
    · -- with a whole end of the tag it would not have failed
      have complete : ∀ closed rest, c :: tail ≠ ending closed ++ rest := by
        intro closed rest e
        rw [e, readOpening_complete canonical spells space] at failed
        cases failed
      right
      cases closed with
      | false =>
        obtain ⟨rfl, -⟩ := List.cons.inj e'
        exact absurd rfl (complete false tail)
      | true =>
        rcases tail with _ | ⟨d, tail⟩
        · obtain ⟨rfl, -⟩ := List.cons.inj e'
          exact .slash canonical spells space
        · simp only [ending, if_true, List.cons_append, List.cons.injEq] at e'
          obtain ⟨rfl, rfl, -⟩ := e'
          exact absurd rfl (complete true tail)
  · have canonical' := canonical.front pre
    cases unassigned with
    | space space => exact Or.inl ((readOpening_space canonical' inner space).rest_eq_nil failed)
    | name separate space isName =>
      exact Or.inr (@Stranded.unassigned _ ⟨tag.name, first⟩ _ _ _ _ canonical' inner separate
        space isName)

theorem after?_of_front {part : List Char} (unfinished : part ≠ []) :
    after? (text ++ part) text = none := by
  cases result : after? (text ++ part) text with
  | none => rfl
  | some rest =>
    have whole := after?_eq_some_iff.mp result
    rw [List.append_assoc, List.self_eq_append_right, List.append_eq_nil_iff] at whole
    exact absurd whole.1 unfinished

/-- A closing tag that was cut off fails at the end, or it is given back. -/
theorem readClosing_front {failure : Failure} (whole : readClosing name (text ++ more) = .ok rest)
    (failed : readClosing name text = .error failure) (names : List String) :
    failure.rest = [] ∨ Stranded (name :: names) text := by
  obtain ⟨last, space, split⟩ := readClosing_eq_ok_iff.mp whole
  rcases text with _ | ⟨c, _ | ⟨d, tail⟩⟩
  · cases failed
    exact Or.inl rfl
  · cases split
    exact Or.inr .bracket
  · simp only [List.cons_append, List.append_assoc, List.cons.injEq] at split
    obtain ⟨rfl, rfl, split⟩ := split
    rcases front_cases split with ⟨part, front⟩ | ⟨c, behind, rfl, split'⟩
    · by_cases unfinished : part = []
      · subst unfinished
        rw [List.append_nil] at front
        simp only [readClosing, front, after?_eq_some_iff.mpr (List.append_nil tail).symm] at failed
        cases failed
        exact Or.inl rfl
      · simp only [readClosing, front, after?_of_front unfinished] at failed
        cases failed
        by_cases some : tail = []
        · exact Or.inl some
        · exact Or.inr (.closing some unfinished front)
    · rcases front_cases split'.symm with ⟨part, rfl⟩ | ⟨d, behind', e, split''⟩
      · have space := (isSpace_append_iff.mp space).1
        simp only [readClosing, after?_eq_some_iff.mpr rfl, skipSpace_of_isSpace space] at failed
        cases failed
        exact Or.inl rfl
      · -- then it was not cut off
        obtain ⟨rfl, -⟩ := List.cons.inj split''
        have ok : readClosing name ('<' :: '/' :: (name.toList ++ c :: behind)) = .ok behind' :=
          readClosing_eq_ok_iff.mpr ⟨last, space, by rw [e]; simp⟩
        cases ok.symm.trans failed

end ChatMarkup.Markup
