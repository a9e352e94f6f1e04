/-
  ChatMarkup/Proofs/Markup/Accepting.lean
  =======================================
  **Which references are accepted** — the documented ones, and those by number with a plus
  sign, each for the character that it stands for; all others make a template malformed, in
  a text as in a value (`reference_accepted_iff`).

  What a reference does is the same wherever one can stand.  The reader passes on what it
  makes of the next character, and from there on does not look at how it was written
  (`Relays`).
-/
import ChatMarkup.Proofs.Markup.Entity
import ChatMarkup.Proofs.Markup.Passage

namespace ChatMarkup.Markup

variable {name : List Char} {c : Char}

/-! ### References in front of a text -/

theorem readReference_of_decode? {rest : List Char} (inner : ∀ d ∈ name, endsReference d = false)
    (decoded : decode? name = some c) : readReference (name ++ ';' :: rest) = .ok (c, rest) := by
  refine readReference_eq_ok_iff.mpr ⟨name, ?_, inner, decoded, rfl⟩
  rintro rfl
  cases decoded

theorem readReference_of_not {rest : List Char} (inner : ∀ d ∈ name, endsReference d = false)
    (unknown : decode? name = none) :
    readReference (name ++ ';' :: rest) = .error ⟨.reference, name ++ ';' :: rest⟩ := by
  have inside : ∀ d ∈ name, (!endsReference d) = true := fun d member => by simp [inner d member]
  have ends : Ends (fun d => !endsReference d) (';' :: rest) := rfl
  unfold readReference
  rw [takeWhile_append_of_ends inside ends, dropWhile_append_of_ends inside ends]
  simp only [unknown, ite_self]

/-! ### Passing on what is made of the next character -/

/-- What a reader makes of a text depends on its first character only by what it is, not by
    whether it stands for itself or is written by a reference. -/
def Relays {α : Type} (plain : Char → Prop) (read : List Char → Except Failure α) : Prop :=
  ∃ next : Char × List Char → Except Failure α,
    (∀ rest, read ('&' :: rest) = readReference rest >>= next) ∧
      ∀ c rest, plain c → read (c :: rest) = next (c, rest)

section Relays

variable {α β : Type} {plain : Char → Prop} {read read' : List Char → Except Failure α}
  {stop : Char → Bool} {run spelling : List Char}

theorem Relays.bind (relays : Relays plain read) (f : α → Except Failure β) :
    Relays plain (fun text => read text >>= f) := by
  obtain ⟨next, reference, raw⟩ := relays
  refine ⟨fun found => next found >>= f, fun rest => ?_, fun c rest self => ?_⟩
  · dsimp only
    rw [reference, bind_assoc]
  · dsimp only
    rw [raw c rest self]

theorem Relays.map (relays : Relays plain read) (f : α → β) :
    Relays plain (fun text => (read text).map f) := by
  obtain ⟨next, reference, raw⟩ := relays
  refine ⟨fun found => (next found).map f, fun rest => ?_, fun c rest self => ?_⟩
  · dsimp only
    rw [reference, map_bind]
  · dsimp only
    rw [raw c rest self]

theorem Relays.congr (relays : Relays plain read)
    (same : ∀ c rest, c = '&' ∨ plain c → read' (c :: rest) = read (c :: rest)) :
    Relays plain read' := by
  obtain ⟨next, reference, raw⟩ := relays
  refine ⟨next, fun rest => ?_, fun c rest self => ?_⟩
  · rw [same '&' rest (Or.inl rfl), reference]
  · rw [same c rest (Or.inr self), raw c rest self]

theorem relays_readRun (free : stop '&' = false) : Relays (Raw stop) (readRun stop) :=
  ⟨fun found => (readRun stop found.2).map fun more => (found.1 :: more.1, more.2),
    fun _ => readRun_reference free, fun _ _ raw => readRun_raw raw⟩

/-- A run goes on behind the part that has been read. -/
theorem readRun_spelling (free : stop '&' = false) (spells : SpellsText (Raw stop) run spelling)
    (rest : List Char) :
    readRun stop (spelling ++ rest) =
      (readRun stop rest).map fun found => (run ++ found.1, found.2) := by
  induction spells with
  | nil =>
    rw [List.nil_append]
    cases readRun stop rest <;> rfl
  | cons head _ ih =>
    rw [List.append_assoc]
    -- a character of its own or a reference: either way the reader takes the same one
    cases head with
    | raw self =>
      rw [List.singleton_append, readRun_raw self, ih]
      cases readRun stop rest <;> rfl
    | reference some inner decoded =>
      simp only [List.cons_append, List.append_assoc, List.nil_append] at ih ⊢
      rw [readRun_reference free, readReference_of_decode? inner decoded, ok_bind, ih]
      cases readRun stop rest <;> rfl

theorem relays_readRun_spelling (free : stop '&' = false)
    (spells : SpellsText (Raw stop) run spelling) :
    Relays (Raw stop) fun text => readRun stop (spelling ++ text) :=
  ((relays_readRun free).map fun found => (run ++ found.1, found.2)).congr
    fun _ _ _ => readRun_spelling free spells _

end Relays

/-! ### Values -/

def endValue (quote : Char) : List Char × List Char → Except Failure (String × List Char)
  | (_, []) => .error ⟨.attributeValue, []⟩
  | (run, c :: after) =>
    if c = quote then .ok (String.ofList run, after) else .error ⟨.attributeValue, c :: after⟩

theorem readValue_quote {quote : Char} (quoted : quote = '"' ∨ quote = '\'') (text : List Char) :
    readValue (quote :: text) =
      readRun (fun c => c == quote || c == '<') text >>= endValue quote := by
  rw [readValue, if_pos quoted]
  cases readRun (fun c => c == quote || c == '<') text with
  | error failure => rfl
  | ok found =>
    obtain ⟨run, rest⟩ := found
    cases rest <;> rfl

theorem relays_readValue {quote : Char} {run written : List Char}
    (quoted : quote = '"' ∨ quote = '\'') (content : SpellsText (PlainValue quote) run written) :
    Relays (PlainValue quote) fun text => readValue (quote :: written ++ text) := by
  have free : ('&' == quote || '&' == '<') = false := by rcases quoted with rfl | rfl <;> rfl
  rw [← raw_value] at content ⊢
  exact ((relays_readRun_spelling free content).bind (endValue quote)).congr
    fun _ _ _ => readValue_quote quoted _

/-! ### Attributes and tags -/

theorem readAttributes_spelling {attributes : List (String × String)} {spelling : List Char}
    (inner : SpellsAttributes attributes spelling)
    (areNames : ∀ attr ∈ attributes, IsTagName attr.1) (rest : List Char) :
    readAttributes (spelling ++ rest) =
      (readAttributes rest).map fun found => (attributes ++ found.1, found.2) := by
  induction inner with
  | nil =>
    rw [List.nil_append]
    cases readAttributes rest <;> rfl
  | cons head _ ih =>
    obtain ⟨isName, areNames⟩ := List.forall_mem_cons.mp areNames
    obtain ⟨behind, first, second⟩ := head.exists_read isName _
    rw [List.append_assoc, readAttributes_attribute first, second, ok_bind, ih areNames]
    cases readAttributes rest <;> rfl

theorem relays_readAttributes {attributes : List (String × String)}
    {spelling gap between after run written : List Char} {quote : Char} {name : String}
    (inner : SpellsAttributes attributes spelling)
    (areNames : ∀ attr ∈ attributes, IsTagName attr.1) (separate : gap ≠ [])
    (space : IsSpace (gap ++ between ++ after)) (isName : IsTagName name)
    (quoted : quote = '"' ∨ quote = '\'') (content : SpellsText (PlainValue quote) run written) :
    Relays (PlainValue quote) fun text => readAttributes (spelling ++
      (gap ++ name.toList ++ between ++ '=' :: after ++ quote :: written ++ text)) := by
  have first (text : List Char) : readAttributeName?
      (gap ++ name.toList ++ between ++ '=' :: after ++ quote :: written ++ text) =
        some (name, quote :: written ++ text) := by
    refine readAttributeName?_eq_some_iff.mpr
      ⟨gap, between, after, separate, space, isName, by simp, isSpace_of_quote quoted⟩
  refine (((relays_readValue quoted content).bind fun found =>
    (readAttributes found.2).map fun more => ((name, found.1) :: more.1, more.2)).map
      fun found => (attributes ++ found.1, found.2)).congr fun c rest _ => ?_
  rw [readAttributes_spelling inner areNames, readAttributes_attribute (first _)]

def endOpening (name : String) :
    List (String × String) × List Char → Except Failure Opening
  | (attributes, rest) =>
    if distinctNames attributes then
      match skipSpace rest with
      | '/' :: '>' :: after => .ok ⟨⟨name, attributes⟩, true, after⟩
      | '>' :: after => .ok ⟨⟨name, attributes⟩, false, after⟩
      | other => .error ⟨.tag, other⟩
    else .error ⟨.duplicateAttribute, rest⟩

theorem readOpening_eq_bind (name : String) (text : List Char) :
    readOpening name text = readAttributes text >>= endOpening name := by
  unfold readOpening
  cases readAttributes text <;> rfl

theorem readNodes_tag_eq_bind {frames : List Frame} {nodes : List Node} {tag : String}
    {tail behind : List Char} (room : frames.length < maxDepth)
    (first : readName? tail = some (tag, behind)) :
    readNodes frames nodes ('<' :: tail) = readOpening tag behind >>= fun opening =>
      if opening.closed then readNodes frames (.element opening.tag [] :: nodes) opening.rest
      else readNodes (⟨opening.tag, nodes⟩ :: frames) [] opening.rest := by
  rw [readNodes_tag first, if_pos room]
  cases readOpening tag behind <;> rfl

theorem readNodes_text_eq_bind {frames : List Frame} {nodes : List Node} {text : List Char}
    (some : text ≠ []) (ends : Ends (· == '<') text) :
    readNodes frames nodes text = readRun (· == '<') text >>= fun found =>
      readNodes frames (.text (String.ofList found.1) :: nodes) found.2 := by
  cases text with
  | nil => exact absurd rfl some
  | cons c tail =>
    rw [readNodes_text (by simpa [Ends] using ends)]
    cases readRun (· == '<') (c :: tail) <;> rfl

/-! ### Templates -/

/-- Behind every text the reader has come to a run, of which it has read a part, perhaps
    nothing. -/
theorem Reached.exists_run {frames : List Frame} {nodes : List Node} {before : List Char}
    (reached : Reached frames nodes before) :
    ∃ frames' nodes' front run spelling, before = front ++ spelling ∧ Reached frames' nodes' front ∧
      SpellsText PlainText run spelling ∧ ∀ rest, Follows nodes' (spelling ++ rest) := by
  cases reached with
  | start => exact ⟨[], [], [], [], [], rfl, .start, .nil, fun _ => follows_nil⟩
  | @step frames nodes front piece _ _ earlier follows step =>
    have whole := earlier.step follows step
    have some := step.ne_nil
    cases step with
    | @text _ _ _ text _ content =>
      exact ⟨frames, nodes, front, text.toList, piece, rfl, earlier, content,
        fun _ => follows.append some⟩
    | closed => exact ⟨_, _, _, [], [], by simp, whole, .nil, fun _ => follows_element⟩
    | opened => exact ⟨_, _, _, [], [], by simp, whole, .nil, fun _ => follows_nil⟩
    | closing => exact ⟨_, _, _, [], [], by simp, whole, .nil, fun _ => follows_element⟩

theorem relays_text {before : List Char} {names : List String} (opened : OpenAfter before names) :
    Relays PlainText fun text => readNodes [] [] (before ++ text) := by
  obtain ⟨_, _, reached, -⟩ := openAfter_iff.mp opened
  -- the text may have begun before the place, so the run in front of it is read along
  obtain ⟨frames, nodes, front, run, spelling, rfl, reached, content, follows⟩ :=
    reached.exists_run
  rw [← raw_text] at content ⊢
  refine ((relays_readRun_spelling rfl content).bind fun found =>
    readNodes frames (.text (String.ofList found.1) :: nodes) found.2).congr fun c rest self => ?_
  have outside : ∀ d ∈ spelling, (d == '<') = false := by
    intro d member
    rw [beq_eq_false_iff_ne]
    rintro rfl
    exact bracket_not_mem_text (fun c raw => by simpa using raw.1) content member
  have ends : Ends (· == '<') (c :: rest) := by
    rcases self with rfl | plain
    · rfl
    · exact plain.1
  rw [List.append_assoc, reached.readNodes (follows _)]
  exact readNodes_text_eq_bind (by simp) (Ends.append outside ends)

/-- **The reader passes on the next character wherever a reference can stand.** -/
theorem EndsInContent.relays {plain : Char → Prop} {before : List Char}
    (h : EndsInContent plain before) :
    Relays plain fun text => readNodes [] [] (before ++ text) := by
  cases h with
  | text opened => exact relays_text opened
  | @value before names attributes spelling gap between after quote run written tag name opened
      room isTag areNames inner separate space isName quoted content =>
    obtain ⟨frames, nodes, reached, rfl⟩ := openAfter_iff.mp opened
    rw [List.length_map] at room
    refine (((relays_readAttributes inner areNames separate space isName quoted content).bind
      (endOpening tag)).bind fun opening =>
        if opening.closed then readNodes frames (.element opening.tag [] :: nodes) opening.rest
        else readNodes (⟨opening.tag, nodes⟩ :: frames) [] opening.rest).congr fun c rest _ => ?_
    have ends : Ends isNameChar (gap ++ []) :=
      ends_name_of_space (isSpace_append_iff.mp (isSpace_append_iff.mp space).1).1 trivial
    rw [List.append_nil] at ends
    simp only [List.append_assoc, List.cons_append]
    rw [reached.readNodes fun _ _ _ => endsText_cons _, readNodes_tag_eq_bind room
      (readName?_eq_some_iff.mpr ⟨isTag, rfl, inner.ends (ends.extend separate)⟩),
      readOpening_eq_bind]

theorem toError_reference (before : List Char) {rest : List Char} (left : rest ≠ []) :
    Failure.toError (before ++ rest) ⟨.reference, rest⟩ =
      .malformed (Text.placeAfter before) .reference := by
  rw [← Text.placeOf_append before rest]
  cases rest with
  | nil => exact absurd rfl left
  | cons => rfl

theorem read_of_unknown {plain : Char → Prop} {before : List Char}
    (content : EndsInContent plain before) (inner : ∀ d ∈ name, endsReference d = false)
    (unknown : ∀ c, ¬Taken name c) (rest : List Char) :
    read (String.ofList (before ++ '&' :: name ++ ';' :: rest)) =
      .error (.malformed (Text.placeAfter (before ++ ['&'])) .reference) := by
  obtain ⟨next, reference, -⟩ := content.relays
  dsimp only at reference
  have whole : before ++ '&' :: name ++ ';' :: rest =
      before ++ ['&'] ++ (name ++ ';' :: rest) := by simp
  refine read_eq_error_iff.mpr ⟨⟨.reference, name ++ ';' :: rest⟩, ?_, ?_⟩
  · rw [String.toList_ofList, List.append_assoc, List.cons_append, reference,
      readReference_of_not inner (decode?_eq_none unknown)]
    rfl
  · rw [String.toList_ofList, whole]
    exact toError_reference _ (by simp)

theorem readNodes_of_taken {plain : Char → Prop} {before spelling : List Char}
    (content : EndsInContent plain before) (inner : ∀ d ∈ name, endsReference d = false)
    (taken : Taken name c) (written : SpellsChar plain c spelling) (rest : List Char) :
    readNodes [] [] (before ++ '&' :: name ++ ';' :: rest) =
      readNodes [] [] (before ++ spelling ++ rest) := by
  obtain ⟨next, reference, raw⟩ := content.relays
  dsimp only at reference raw
  rw [List.append_assoc, List.cons_append, reference,
    readReference_of_decode? inner (decode?_eq_some_iff.mpr taken), ok_bind, List.append_assoc]
  cases written with
  | raw self => rw [List.singleton_append, raw c rest self]
  | reference some inner' decoded' =>
    simp only [List.cons_append, List.append_assoc, List.nil_append]
    rw [reference, readReference_of_decode? inner' decoded', ok_bind]

theorem read_eq_ok_congr {first second : List Char} {tree : Element}
    (same : readNodes [] [] first = readNodes [] [] second) :
    read (String.ofList first) = .ok tree ↔ read (String.ofList second) = .ok tree := by
  unfold read
  rw [String.toList_ofList, String.toList_ofList, same]
  cases readNodes [] [] second with
  | ok nodes => rfl
  | error failure => simp

theorem read_eq_ok_iff_taken {plain : Char → Prop} {before : List Char}
    (content : EndsInContent plain before) (inner : ∀ d ∈ name, endsReference d = false)
    (rest : List Char) (built : Char → Element) (tree : Element)
    (accepted : ∀ c, Taken name c →
      read (String.ofList (before ++ '&' :: name ++ ';' :: rest)) = .ok (built c)) :
    read (String.ofList (before ++ '&' :: name ++ ';' :: rest)) = .ok tree ↔
      ∃ c, Taken name c ∧ tree = built c := by
  constructor
  · intro ok
    by_cases known : ∃ c, Taken name c
    · obtain ⟨c, taken⟩ := known
      exact ⟨c, taken, Except.ok.inj (ok.symm.trans (accepted c taken))⟩
    · have failed := read_of_unknown content inner (not_exists.mp known) rest
      cases ok.symm.trans failed
  · rintro ⟨c, taken, rfl⟩
    exact accepted c taken

/-! ### A reference and nothing else -/

theorem spellsText_reference {plain : Char → Prop} (inner : ∀ d ∈ name, endsReference d = false)
    (taken : Taken name c) :
    SpellsText plain (String.singleton c).toList ('&' :: name ++ [';']) := by
  have decoded := decode?_eq_some_iff.mpr taken
  have some : name ≠ [] := by
    rintro rfl
    cases decoded
  rw [String.toList_singleton, ← List.append_nil ('&' :: name ++ [';'])]
  exact .cons (.reference some inner decoded) .nil

theorem openAfter_nil : OpenAfter [] [] := ⟨by simp, root [], ⟨rfl, trivial, by simp [root]⟩, .nil⟩

theorem read_text_reference_iff (inner : ∀ d ∈ name, endsReference d = false) {tree : Element} :
    read (String.ofList ('&' :: name ++ [';'])) = .ok tree ↔
      ∃ c, Taken name c ∧ tree = root [.text (String.singleton c)] := by
  refine read_eq_ok_iff_taken (.text openAfter_nil) inner [] _ tree ?_
  intro c taken
  refine read_of_canonical ⟨rfl, trivial, ?_⟩ ?_
  · simpa [root] using Canonical.text (by simp)
  · rw [String.toList_ofList, List.nil_append, ← List.append_nil ('&' :: name ++ [';'])]
    exact .cons (.text (spellsText_reference inner taken)) .nil

theorem read_value_reference_iff {tag attr : String} {quote : Char} (isTag : IsTagName tag)
    (isName : IsTagName attr) (quoted : quote = '"' ∨ quote = '\'')
    (inner : ∀ d ∈ name, endsReference d = false) {tree : Element} :
    read (String.ofList (lone tag attr quote ('&' :: name ++ [';']))) = .ok tree ↔
      ∃ c, Taken name c ∧ tree = root [.element ⟨tag, [(attr, String.singleton c)]⟩ []] := by
  have space : IsSpace ([' '] ++ [] ++ []) := by simp [IsSpace, isSpace]
  -- the place is the value of the only attribute, with nothing open around it
  have content := EndsInContent.value openAfter_nil (by simp [maxDepth]) isTag (by simp) .nil
    (List.cons_ne_nil ' ' []) space isName quoted .nil
  have whole := read_eq_ok_iff_taken content inner [quote, '/', '>']
    (fun c => root [.element ⟨tag, [(attr, String.singleton c)]⟩ []]) tree
  simp only [List.nil_append, List.append_assoc, List.cons_append] at whole
  simp only [lone, List.cons_append, List.append_assoc, List.nil_append]
  refine whole ?_
  intro c taken
  refine read_of_canonical ⟨rfl, trivial, ?_⟩ ?_
  · have canonical : Tag.Canonical ⟨tag, [(attr, String.singleton c)]⟩ :=
      ⟨isTag, by simpa using isName, by simp⟩
    have apart : TextsApart [] := trivial
    simpa [root, maxDepth] using Canonical.element canonical apart (by simp)
  · have spelt : SpellsAttribute (attr, String.singleton c) _ :=
      .mk (List.cons_ne_nil ' ' []) space quoted (spellsText_reference inner taken)
    have noSpace : IsSpace [] := by simp [IsSpace]
    have node : SpellsNode (.element ⟨tag, [(attr, String.singleton c)]⟩ []) _ :=
      .closed (.cons spelt .nil) noSpace
    simpa [root] using SpellsNodes.cons node .nil

/-- **The references that are accepted.** In a text and in a value, a reference is accepted exactly
    if it is a documented one or a number with a plus sign, and stands for its character. Wherever
    it can stand, it can then be replaced by any other spelling of that character, and all other
    references make the template malformed right behind their `&`. -/
theorem reference_accepted_iff (inner : ∀ d ∈ name, endsReference d = false) :
    (∀ tree, read (String.ofList ('&' :: name ++ [';'])) = .ok tree ↔
      ∃ c, Taken name c ∧ tree = root [.text (String.singleton c)]) ∧
    (∀ tag attr : String, ∀ quote, IsTagName tag → IsTagName attr → quote = '"' ∨ quote = '\'' →
      ∀ tree, read (String.ofList (lone tag attr quote ('&' :: name ++ [';']))) = .ok tree ↔
        ∃ c, Taken name c ∧ tree = root [.element ⟨tag, [(attr, String.singleton c)]⟩ []]) ∧
    ∀ plain before, EndsInContent plain before → ∀ rest,
      (∀ c, Taken name c → ∀ spelling, SpellsChar plain c spelling → ∀ tree,
        read (String.ofList (before ++ '&' :: name ++ ';' :: rest)) = .ok tree ↔
          read (String.ofList (before ++ spelling ++ rest)) = .ok tree) ∧
      ((∀ c, ¬Taken name c) →
        read (String.ofList (before ++ '&' :: name ++ ';' :: rest)) =
          .error (.malformed (Text.placeAfter (before ++ ['&'])) .reference)) := by
  refine ⟨fun tree => read_text_reference_iff inner, ?_, ?_⟩
  · intro tag attr quote isTag isName quoted tree
    exact read_value_reference_iff isTag isName quoted inner
  · intro plain before content rest
    refine ⟨?_, fun unknown => read_of_unknown content inner unknown rest⟩
    intro c taken spelling written tree
    exact read_eq_ok_congr (readNodes_of_taken content inner taken written rest)

/-- A character outside the first plane, in a text and in a value. -/
theorem reference_accepted_smiley :
    (∀ d ∈ "#x1F600".toList, endsReference d = false) ∧ Taken "#x1F600".toList '😀' ∧
      read "&#x1F600;" = .ok (root [.text "😀"]) ∧
      read "<a b='&#x1F600;'/>" = .ok (root [.element ⟨"a", [("b", "😀")]⟩ []]) ∧
      ∀ tree, read "&#x1F600;!" = .ok tree ↔ read "😀!" = .ok tree := by
  have inner : ∀ d ∈ "#x1F600".toList, endsReference d = false := by simp [endsReference]
  have taken : Taken "#x1F600".toList '😀' := decode?_eq_some_iff.mp (by decide +kernel)
  have isTag : IsTagName "a" := .mk (by rfl) (by decide) (by simp)
  have isName : IsTagName "b" := .mk (by rfl) (by decide) (by simp)
  obtain ⟨text, value, everywhere⟩ := reference_accepted_iff inner
  obtain ⟨same, -⟩ := everywhere PlainText [] (.text openAfter_nil) ['!']
  have raw : SpellsChar PlainText '😀' ['😀'] := .raw (by simp [PlainText])
  exact ⟨inner, taken, (text _).mpr ⟨'😀', taken, rfl⟩,
    (value "a" "b" '\'' isTag isName (Or.inr rfl) _).mpr ⟨'😀', taken, rfl⟩,
    same '😀' taken ['😀'] raw⟩

theorem not_documented_plus {digits : List Char} : ¬Documented ('#' :: '+' :: digits) c := by
  rintro (named | numeric)
  · exact not_named_numeric named
  · generalize whole : '#' :: '+' :: digits = name at numeric
    cases numeric with
    | decimal numeral _ =>
      obtain ⟨-, rfl⟩ := List.cons.inj whole
      exact numeral.head_ne.1 rfl
    | hexadecimal marked _ _ =>
      rcases marked with rfl | rfl <;> cases whole

/-- A plus sign, which no documented reference has. -/
theorem reference_with_plus :
    read "&#+65;" = .ok (root [.text "A"]) ∧ ∀ c, ¬Documented "#+65".toList c := by
  have inner : ∀ d ∈ "#+65".toList, endsReference d = false := by simp [endsReference]
  have taken : Taken "#+65".toList 'A' := decode?_eq_some_iff.mp (by decide +kernel)
  exact ⟨(read_text_reference_iff inner).mpr ⟨'A', taken, rfl⟩, fun _ => not_documented_plus⟩

end ChatMarkup.Markup
