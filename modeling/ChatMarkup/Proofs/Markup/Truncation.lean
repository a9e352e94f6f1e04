/-
  ChatMarkup/Proofs/Markup/Truncation.lean
  ========================================
  **Templates that were cut off** — a template can be read, but only a part of it is there.  If
  the part cannot be read, it is reported as truncated, at its end, unless it stops in one of
  the parts that the reader gives back (`read_cut`).  Those are then reported as malformed,
  although what is there is right.

  The reader takes the part piece after piece, as it takes the whole, and halts in the piece
  that was cut off.  What it makes of that is said for each kind of piece in `Front`.
-/
import ChatMarkup.Proofs.Markup.Front
import ChatMarkup.Proofs.Markup.Passage

namespace ChatMarkup.Markup

variable {frames : List Frame} {nodes result : List Node} {text more tail behind : List Char}
  {name : String} {failure : Failure}

/-! ### Names that go on -/

theorem exists_readName?_append (first : readName? text = some (name, behind))
    (more : List Char) : ∃ found, readName? (text ++ more) = some found := by
  obtain ⟨c, rest, rfl, start⟩ := isSome_readName?_iff.mp ⟨_, first⟩
  exact isSome_readName?_iff.mpr ⟨c, rest ++ more, rfl, start⟩

theorem readName?_append (first : readName? text = some (name, behind)) (some : behind ≠ []) :
    readName? (text ++ more) = .some (name, behind ++ more) := by
  obtain ⟨isName, rfl, ends⟩ := readName?_eq_some_iff.mp first
  exact readName?_eq_some_iff.mpr ⟨isName, List.append_assoc .., ends.extend some⟩

theorem readName?_append_eq_none (first : readName? text = none) (some : text ≠ []) :
    readName? (text ++ more) = none := by
  rcases text with _ | ⟨c, text⟩
  · exact absurd rfl some
  · by_contra found
    obtain ⟨c', rest, e, start⟩ := isSome_readName?_iff.mp (Option.ne_none_iff_exists'.mp found)
    obtain ⟨rfl, -⟩ := List.cons.inj e
    obtain ⟨found, e⟩ := isSome_readName?_iff.mpr ⟨c, text, rfl, start⟩
    cases e.symm.trans first

/-! ### Where the reader halts -/

/-- A tag that can be read in the whole has room. -/
theorem room_of_readNodes (first : readName? tail = some (name, behind))
    (whole : readNodes frames nodes ('<' :: tail ++ more) = .ok result) :
    frames.length < maxDepth := by
  by_contra full
  obtain ⟨⟨name', behind'⟩, first'⟩ := exists_readName?_append first more
  cases (Halts.tooDeep first' full).readNodes.symm.trans whole

theorem Halts.ofPiece (halts : Halts frames nodes text (.error failure))
    (whole : Markup.readNodes frames nodes (text ++ more) = .ok result) : failure.OfPiece := by
  intro deep
  obtain ⟨-, full, tail, name, behind, rfl, first⟩ := halts.exists_of_tooDeep deep
  exact full (room_of_readNodes first whole)

/-- Where a text that was cut off halts the reader, nothing is left or a part is given back. -/
theorem Halts.front (halts : Halts frames nodes text (.error failure))
    (whole : Markup.readNodes frames nodes (text ++ more) = .ok result) :
    failure.rest = [] ∨ Stranded (frames.map (·.tag.name)) text := by
  -- the whole template is read, so what stops this part goes on well behind it
  cases halts with
  | unclosed => exact Or.inl rfl
  | tooDeep first full => exact absurd (room_of_readNodes first whole) full
  | @opening _ _ tail name behind _ first room second =>
    obtain ⟨isName, rfl, ends⟩ := readName?_eq_some_iff.mp first
    by_cases some : behind = []
    · subst some
      rw [readOpening, readAttributes_of_none rfl] at second
      cases second
      exact Or.inl rfl
    · rw [List.cons_append, readNodes_tag (readName?_append first some), if_pos room] at whole
      split at whole
      · cases whole
      · rename_i opening e
        exact readOpening_front isName e second _
  | @outside _ tail first =>
    by_cases some : tail = []
    · subst some
      exact Or.inr .bracket
    · cases (readNodes_outside (readName?_append_eq_none first some)).symm.trans whole
  | @closing frame outer _ tail _ first second =>
    by_cases some : tail = []
    · subst some
      exact Or.inr .bracket
    · rw [List.cons_append, readNodes_closing (readName?_append_eq_none first some)] at whole
      split at whole
      · cases whole
      · rename_i rest e
        exact readClosing_front e second _
  | text other first =>
    rw [List.cons_append, readNodes_text other] at whole
    split at whole
    · cases whole
    · rename_i run rest e
      rw [← List.cons_append] at e
      rcases readRun_front rfl e with early | ⟨found, e'⟩
      · exact Or.inl (early.rest_eq_nil first)
      · cases e'.symm.trans first

/-- Such a part halts the reader, with some of it left. -/
theorem Stranded.exists_halts (stranded : Stranded (frames.map (·.tag.name)) text)
    (whole : readNodes frames nodes (text ++ more) = .ok result) :
    ∃ failure, Halts frames nodes text (.error failure) ∧ failure.rest ≠ [] := by
  generalize open' : frames.map (·.tag.name) = names at stranded
  cases stranded with
  | bracket =>
    cases frames with
    | nil => exact ⟨_, .outside rfl, List.cons_ne_nil _ _⟩
    | cons frame outer => exact ⟨_, .closing rfl rfl, List.cons_ne_nil _ _⟩
  | @closing name names half part some unfinished split =>
    cases frames with
    | nil => cases open'
    | cons frame outer =>
      -- half a name is not the name of the open element
      obtain ⟨rfl, -⟩ := List.cons.inj open'
      have failed :
          readClosing frame.tag.name ('<' :: '/' :: half) = .error ⟨.closingTag, half⟩ := by
        simp only [readClosing, split, after?_of_front unfinished]
      exact ⟨_, .closing (readName?_eq_none rfl) failed, some⟩
  | @unassigned _ tag attributes gap after attr canonical inner separate space isName =>
    have ends : Ends isNameChar (gap ++ []) :=
      ends_name_of_space (isSpace_append_iff.mp space).1 trivial
    rw [List.append_nil] at ends
    have first : readName? (tag.name.toList ++ (attributes ++ (gap ++ (attr.toList ++ after)))) =
        some (tag.name, attributes ++ (gap ++ (attr.toList ++ after))) :=
      readName?_eq_some_iff.mpr ⟨canonical.name, rfl, inner.ends (ends.extend separate)⟩
    refine ⟨_, .opening first (room_of_readNodes first whole)
      (readOpening_attribute canonical inner separate space isName), ?_⟩
    exact List.append_ne_nil_of_left_ne_nil isName.ne_nil _
  | @slash _ tag attributes gap canonical inner space =>
    have first : readName? (tag.name.toList ++ (attributes ++ (gap ++ ['/']))) =
        some (tag.name, attributes ++ (gap ++ ['/'])) :=
      readName?_eq_some_iff.mpr
        ⟨canonical.name, rfl, inner.ends (ends_name_of_space space rfl)⟩
    exact ⟨_, .opening first (room_of_readNodes first whole)
      (readOpening_slash canonical inner space), List.cons_ne_nil _ _⟩

theorem Stranded.exists_cons {names : List String} (stranded : Stranded names text) :
    ∃ tail, text = '<' :: tail := by
  cases stranded <;> exact ⟨_, rfl⟩

/-! ### Whole templates -/

theorem readNodes_front (whole : readNodes [] [] (text ++ more) = .ok result)
    (failed : readNodes [] [] text = .error failure) :
    failure.OfPiece ∧ (failure.rest = [] ∨ StopsShort text) := by
  obtain ⟨frames, nodes, before, rest, rfl, reached, follows, halts⟩ := exists_reached text
  rw [failed] at halts
  by_cases ended : rest = []
  · subst ended
    cases halts with
    | unclosed => exact ⟨Cause.noConfusion, Or.inl rfl⟩
  · rw [List.append_assoc, reached.readNodes (follows.append ended)] at whole
    refine ⟨halts.ofPiece whole, (halts.front whole).imp_right fun stranded => ?_⟩
    exact ⟨before, _, rest, rfl, openAfter_iff.mpr ⟨frames, nodes, reached, rfl⟩, stranded⟩

theorem StopsShort.readNodes (short : StopsShort text)
    (whole : readNodes [] [] (text ++ more) = .ok result) :
    ∃ failure, readNodes [] [] text = .error failure ∧ failure.OfPiece ∧ failure.rest ≠ [] := by
  obtain ⟨before, names, rest, rfl, opened, stranded⟩ := short
  obtain ⟨frames, nodes, reached, rfl⟩ := openAfter_iff.mp opened
  obtain ⟨tail, rfl⟩ := stranded.exists_cons
  have follows : Follows nodes ('<' :: tail) := fun _ _ _ => endsText_cons tail
  rw [List.append_assoc, reached.readNodes (follows.append (List.cons_ne_nil _ _))] at whole
  obtain ⟨failure, halts, some⟩ := stranded.exists_halts whole
  exact ⟨failure, by rw [reached.readNodes follows, halts.readNodes], halts.ofPiece whole, some⟩

theorem Failure.OfPiece.toError_truncated (ofPiece : failure.OfPiece) (text : List Char)
    (atEnd : failure.rest = []) :
    failure.toError text = .truncated (Text.placeAfter text) := by
  obtain ⟨cause, rest⟩ := failure
  cases atEnd
  have place := Text.placeOf_append text []
  rw [List.append_nil] at place
  rw [← place]
  cases cause with
  | nestingTooDeep => exact absurd rfl ofPiece
  | _ => rfl

theorem Failure.OfPiece.toError_malformed (ofPiece : failure.OfPiece) (text : List Char)
    (some : failure.rest ≠ []) :
    ∃ place cause, failure.toError text = .malformed place cause := by
  obtain ⟨cause, _ | ⟨c, rest⟩⟩ := failure
  · exact absurd rfl some
  · cases cause with
    | nestingTooDeep => exact absurd rfl ofPiece
    | _ => exact ⟨_, _, rfl⟩

/-- **What is said about a template that was cut off.** A part of a template that cannot be read
    by itself is reported as truncated, at its end, unless it stops in a part that the reader
    gives back; then, and only then, it is reported as malformed. -/
theorem read_cut {template cut : String} {tree : Element} (whole : read template = .ok tree)
    (front : template.toList = cut.toList ++ more) (unfinished : ∀ tree, read cut ≠ .ok tree) :
    (read cut = .error (.truncated (Text.placeAfter cut.toList)) ↔ ¬StopsShort cut.toList) ∧
      ((∃ place cause, read cut = .error (.malformed place cause)) ↔ StopsShort cut.toList) := by
  obtain ⟨nodes, reads, -⟩ := read_eq_ok.mp whole
  have ok := readNodes_of_reads reads
  rw [front] at ok
  have truncated_or_short : read cut = .error (.truncated (Text.placeAfter cut.toList)) ∨
      StopsShort cut.toList := by
    cases result : read cut with
    | ok tree => exact absurd result (unfinished tree)
    | error error =>
      obtain ⟨failure, failed, rfl⟩ := read_eq_error_iff.mp result
      obtain ⟨ofPiece, atEnd | short⟩ := readNodes_front ok failed
      · rw [ofPiece.toError_truncated _ atEnd]
        exact Or.inl rfl
      · exact Or.inr short
  have malformed_of_short : StopsShort cut.toList →
      ∃ place cause, read cut = .error (.malformed place cause) := by
    intro short
    obtain ⟨failure, failed, ofPiece, some⟩ := short.readNodes ok
    obtain ⟨place, cause, e⟩ := ofPiece.toError_malformed cut.toList some
    exact ⟨place, cause, read_eq_error_iff.mpr ⟨failure, failed, e⟩⟩
  refine ⟨⟨?_, fun long => truncated_or_short.resolve_right long⟩, ⟨?_, malformed_of_short⟩⟩
  · intro truncated short
    obtain ⟨place, cause, malformed⟩ := malformed_of_short short
    cases truncated.symm.trans malformed
  · intro malformed
    obtain ⟨place, cause, malformed⟩ := malformed
    rcases truncated_or_short with truncated | short
    · cases truncated.symm.trans malformed
    · exact short

/-- Right behind the slash of a closing tag nothing is lost. -/
theorem truncated_in_closing_tag :
    (∃ tree, read "<b>x</b>" = .ok tree) ∧ "<b>x</b>".toList = "<b>x</".toList ++ ['b', '>'] ∧
      (∀ tree, read "<b>x</" ≠ .ok tree) ∧ read "<b>x</" = .error (.truncated ⟨1, 7⟩) ∧
      ¬StopsShort "<b>x</".toList := by
  have truncated : read "<b>x</" = .error (.truncated ⟨1, 7⟩) :=
    error?_eq_some_iff.mp (by decide +kernel)
  have unfinished : ∀ tree, read "<b>x</" ≠ .ok tree := by
    intro tree ok
    cases ok.symm.trans truncated
  obtain ⟨tree, whole⟩ := error?_eq_none_iff.mp
    (by decide +kernel : error? (read "<b>x</b>") = none)
  have front : "<b>x</b>".toList = "<b>x</".toList ++ ['b', '>'] := by decide
  obtain ⟨truncated_iff, -⟩ := read_cut whole front unfinished
  exact ⟨⟨tree, whole⟩, front, unfinished, truncated, truncated_iff.mp truncated⟩

/-- Behind the name of an attribute, the tag seems to be wrong in front of the name. -/
theorem malformed_before_equals :
    (∃ tree, read "<var name=\"x\"/>" = .ok tree) ∧
      "<var name=\"x\"/>".toList = "<var name".toList ++ "=\"x\"/>".toList ∧
      read "<var name" = .error (.malformed ⟨1, 6⟩ .tag) :=
  ⟨error?_eq_none_iff.mp (by decide +kernel), by decide, error?_eq_some_iff.mp (by decide +kernel)⟩

end ChatMarkup.Markup
