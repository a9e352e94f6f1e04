/-
  ChatMarkup/Proofs/Markup/Passage.lean
  =====================================
  **How far the reader comes** — the texts that the reader takes piece after piece, and what it
  has open behind them (`Reached`).

  Every text is taken up to a place where the reader halts (`exists_reached`): that is where
  errors come from.  And what the reader has open behind a text is what the grammar says is
  open there (`openAfter_iff`).  For this a piece must not reach across the end of the text
  into a closing tag behind it; it cannot, since only its first character can be a `<`.
-/
import ChatMarkup.Markup.Unfinished
import ChatMarkup.Proofs.Markup.Grammar

namespace ChatMarkup.Markup

/-- The reader has taken a text, with these elements open and these nodes in the innermost. -/
inductive Reached : List Frame → List Node → List Char → Prop where
  | start : Reached [] [] []
  | step {frames nodes before piece frames' nodes'} (reached : Reached frames nodes before)
      (follows : Follows nodes piece) (step : Step frames nodes piece frames' nodes') :
      Reached frames' nodes' (before ++ piece)

variable {frames frames' : List Frame} {nodes nodes' result : List Node}
  {before behind piece rest text : List Char} {names : List String}

/-! ### Runs -/

theorem Follows.append (follows : Follows nodes text) (some : text ≠ []) :
    Follows nodes (text ++ rest) :=
  fun last member isText => (follows last member isText).extend some

theorem Follows.of_append (follows : Follows nodes (text ++ rest)) : Follows nodes text :=
  fun last member isText => (follows last member isText).of_append

/-- What the reader makes of a text depends on the part it has not taken. -/
theorem Reached.readNodes (reached : Reached frames nodes before) (follows : Follows nodes rest) :
    readNodes [] [] (before ++ rest) = readNodes frames nodes rest := by
  induction reached generalizing rest with
  | start => rfl
  | step _ follows' step ih =>
    rw [List.append_assoc, ih (follows'.append step.ne_nil), step.readNodes follows]

theorem Reached.length_le (reached : Reached frames nodes before) : frames.length ≤ maxDepth := by
  induction reached with
  | start => exact Nat.zero_le _
  | step _ _ step ih =>
    cases step with
    | text => exact ih
    | closed => exact ih
    | opened room => exact room
    | closing => exact Nat.le_of_succ_le ih

theorem Reached.areNames (reached : Reached frames nodes before) :
    ∀ frame ∈ frames, IsTagName frame.tag.name := by
  induction reached with
  | start => simp
  | step _ _ step ih =>
    cases step with
    | text => exact ih
    | closed => exact ih
    | opened _ canonical => exact List.forall_mem_cons.mpr ⟨canonical.name, ih⟩
    | closing => exact (List.forall_mem_cons.mp ih).2

theorem Reached.exists_halts (reached : Reached frames nodes before)
    (follows : Follows nodes rest) :
    ∃ frames' nodes' before' rest' answer, before ++ rest = before' ++ rest' ∧
      Reached frames' nodes' before' ∧ Follows nodes' rest' ∧
      Halts frames' nodes' rest' answer := by
  induction length : rest.length using Nat.strongRecOn generalizing frames nodes before rest with
  | ind n ih =>
    rcases halts_or_step frames nodes rest with halts | taken
    · obtain ⟨answer, halts⟩ := halts
      exact ⟨frames, nodes, before, rest, answer, rfl, reached, follows, halts⟩
    · obtain ⟨piece, behind, frames', nodes', rfl, step, follows'⟩ := taken
      have shorter : behind.length < n := by
        have := List.length_pos_iff.mpr step.ne_nil
        rw [← length, List.length_append]
        omega
      rw [← List.append_assoc]
      exact ih _ shorter (reached.step follows.of_append step) follows' rfl

/-- **Every text is taken up to where the reader halts.** -/
theorem exists_reached (text : List Char) :
    ∃ frames nodes before rest, text = before ++ rest ∧ Reached frames nodes before ∧
      Follows nodes rest ∧ Halts frames nodes rest (Markup.readNodes [] [] text) := by
  obtain ⟨frames, nodes, before, rest, answer, whole, reached, follows, halts⟩ :=
    Reached.start.exists_halts (follows_nil : Follows [] text)
  rw [List.nil_append] at whole
  refine ⟨frames, nodes, before, rest, whole, reached, follows, ?_⟩
  rwa [whole, reached.readNodes follows, halts.readNodes]

/-! ### Failures -/

theorem read_eq_error_iff {template : String} {error : Error} :
    read template = .error error ↔
      ∃ failure, readNodes [] [] template.toList = .error failure ∧
        failure.toError template.toList = error := by
  unfold read
  cases readNodes [] [] template.toList with
  | ok nodes => simp
  | error failure => simp

/-- A failure that has nothing to do with the nesting of elements. -/
def Failure.OfPiece (failure : Failure) : Prop := failure.cause ≠ .nestingTooDeep

theorem ofPiece_readReference (text : List Char) :
    FailsOnly Failure.OfPiece (readReference text) := by
  unfold readReference
  dsimp only
  split
  · exact failsOnly_error Cause.noConfusion
  · split
    · split
      · exact failsOnly_ok _
      · exact failsOnly_error Cause.noConfusion
    · exact failsOnly_error Cause.noConfusion

theorem ofPiece_readRun (stop : Char → Bool) (text : List Char) :
    FailsOnly Failure.OfPiece (readRun stop text) := by
  fun_induction readRun stop text with
  | case1 => exact failsOnly_ok _
  | case2 => exact failsOnly_ok _
  | case3 _ failure e => exact failsOnly_error (ofPiece_readReference _ _ e)
  | case4 _ _ _ _ failure e _ ih => exact failsOnly_error (ih _ e)
  | case5 => exact failsOnly_ok _
  | case6 _ _ _ _ failure e ih => exact failsOnly_error (ih _ e)
  | case7 => exact failsOnly_ok _

theorem ofPiece_readValue (text : List Char) : FailsOnly Failure.OfPiece (readValue text) := by
  unfold readValue
  split
  · exact failsOnly_error Cause.noConfusion
  · split
    · split
      · rename_i failure e
        exact failsOnly_error (ofPiece_readRun _ _ _ e)
      · split
        · exact failsOnly_error Cause.noConfusion
        · split
          · exact failsOnly_ok _
          · exact failsOnly_error Cause.noConfusion
    · exact failsOnly_error Cause.noConfusion

theorem ofPiece_readAttributes (text : List Char) :
    FailsOnly Failure.OfPiece (readAttributes text) := by
  fun_induction readAttributes text with
  | case1 => exact failsOnly_ok _
  | case2 _ _ _ _ failure e => exact failsOnly_error (ofPiece_readValue _ _ e)
  | case3 _ _ _ _ _ _ _ failure e ih => exact failsOnly_error (ih _ e)
  | case4 => exact failsOnly_ok _

theorem ofPiece_readOpening (name : String) (text : List Char) :
    FailsOnly Failure.OfPiece (readOpening name text) := by
  unfold readOpening
  split
  · rename_i failure e
    exact failsOnly_error (ofPiece_readAttributes _ _ e)
  · split
    · split
      · exact failsOnly_ok _
      · exact failsOnly_ok _
      · exact failsOnly_error Cause.noConfusion
    · exact failsOnly_error Cause.noConfusion

theorem ofPiece_readClosing (name : String) (text : List Char) :
    FailsOnly Failure.OfPiece (readClosing name text) := by
  unfold readClosing
  split
  · split
    · exact failsOnly_error Cause.noConfusion
    · split
      · exact failsOnly_ok _
      · exact failsOnly_error Cause.noConfusion
  · exact failsOnly_error Cause.noConfusion

/-- The nesting is to blame only where another tag begins with no level left. -/
theorem Halts.exists_of_tooDeep {failure : Failure}
    (halts : Halts frames nodes text (.error failure)) (deep : failure.cause = .nestingTooDeep) :
    failure.rest = text ∧ ¬frames.length < maxDepth ∧
      ∃ tail name behind, text = '<' :: tail ∧ readName? tail = some (name, behind) := by
  cases halts with
  | unclosed => cases deep
  | tooDeep first full => exact ⟨rfl, full, _, _, _, rfl, first⟩
  | opening _ _ second => exact absurd deep (ofPiece_readOpening _ _ _ second)
  | @outside _ tail =>
    unfold outsideCause at deep
    split at deep <;> cases deep
  | closing _ second => exact absurd deep (ofPiece_readClosing _ _ _ second)
  | text _ first => exact absurd deep (ofPiece_readRun _ _ _ first)

/-! ### Where a tag can begin -/

theorem bracket_not_mem_space {gap : List Char} (space : IsSpace gap) : '<' ∉ gap :=
  not_mem_space rfl space

theorem bracket_not_mem_name {name : String} (isName : IsTagName name) : '<' ∉ name.toList :=
  not_mem_name rfl isName

theorem bracket_not_mem_text {plain : Char → Prop} {text spelling : List Char}
    (other : ∀ c, plain c → c ≠ '<') (content : SpellsText plain text spelling) :
    '<' ∉ spelling := by
  induction content with
  | nil => simp
  | cons head _ ih =>
    rw [List.mem_append, not_or]
    refine ⟨?_, ih⟩
    cases head with
    | raw self => simpa using (other _ self).symm
    | @reference name _ inner =>
      have free : '<' ∉ name := fun member => absurd (inner _ member) (by decide)
      simp [free]

theorem bracket_not_mem_attributes {attributes : List (String × String)} {spelling : List Char}
    (inner : SpellsAttributes attributes spelling)
    (areNames : ∀ attr ∈ attributes, IsTagName attr.1) : '<' ∉ spelling := by
  induction inner with
  | nil => simp
  | cons head _ ih =>
    obtain ⟨isName, others⟩ := List.forall_mem_cons.mp areNames
    cases head with
    | @mk name value gap before after quote spelling separate space quoted content =>
      simp only [isSpace_append_iff] at space
      have other : ∀ c, PlainValue quote c → c ≠ '<' := fun c plain => plain.2.1
      have quote_ne : '<' ≠ quote := by rcases quoted with rfl | rfl <;> decide
      simp [bracket_not_mem_space space.1.1, bracket_not_mem_space space.1.2,
        bracket_not_mem_space space.2, bracket_not_mem_name isName,
        bracket_not_mem_text other content, quote_ne, ih others]

/-- Only the first character of a piece can be a `<`. -/
theorem Step.exists_cons (step : Step frames nodes piece frames' nodes')
    (areNames : ∀ frame ∈ frames, IsTagName frame.tag.name) :
    ∃ c tail, piece = c :: tail ∧ '<' ∉ tail := by
  cases step with
  | text some content =>
    have free := bracket_not_mem_text (fun c plain => plain.1) content
    obtain ⟨c, more, rfl, -⟩ := spellsText_first (by simpa using some) content
    exact ⟨c, more, rfl, fun member => free (List.mem_cons_of_mem _ member)⟩
  | closed _ canonical inner space =>
    exact ⟨_, _, rfl, by simp [bracket_not_mem_name canonical.name, bracket_not_mem_space space,
      bracket_not_mem_attributes inner canonical.names, ending]⟩
  | opened _ canonical inner space =>
    exact ⟨_, _, rfl, by simp [bracket_not_mem_name canonical.name, bracket_not_mem_space space,
      bracket_not_mem_attributes inner canonical.names, ending]⟩
  | closing space =>
    have isName := (List.forall_mem_cons.mp areNames).1
    exact ⟨_, _, rfl, by simp [bracket_not_mem_name isName, bracket_not_mem_space space]⟩

/-- A piece does not reach into what begins with a `<`. -/
theorem Step.within (step : Step frames nodes piece frames' nodes')
    (areNames : ∀ frame ∈ frames, IsTagName frame.tag.name) (some : before ≠ [])
    (ends : EndsText rest) (whole : before ++ rest = piece ++ behind) :
    ∃ more, before = piece ++ more ∧ behind = more ++ rest := by
  obtain ⟨c, tail, rfl, free⟩ := step.exists_cons areNames
  rcases List.append_eq_append_iff.mp whole with ⟨more, split, split'⟩ | ⟨more, split, split'⟩
  · -- what is left of the piece would be a part of the rest
    cases more with
    | nil => exact ⟨[], by simpa using split.symm, by simpa using split'.symm⟩
    | cons d more =>
      cases before with
      | nil => exact absurd rfl some
      | cons =>
        cases split
        rw [split'] at ends
        have bracket : d = '<' := by simpa [EndsText, Ends] using ends
        exact absurd (by simp [bracket]) free
  · exact ⟨more, split, split'⟩

/-! ### Open elements -/

/-- A text that is read with closing tags behind it is taken up to these. -/
theorem Reached.exists_of_ok {taken : List Char} (reached : Reached frames nodes taken)
    (follows : Follows nodes (before ++ rest)) (ends : EndsText rest)
    (ok : Markup.readNodes frames nodes (before ++ rest) = .ok result) :
    ∃ frames' nodes', Reached frames' nodes' (taken ++ before) := by
  -- on the length of what is left, as a step takes a piece of any length
  induction length : before.length using Nat.strongRecOn generalizing frames nodes before taken with
  | ind n ih =>
    by_cases some : before = []
    · subst some
      exact ⟨frames, nodes, by simpa using reached⟩
    · rcases halts_or_step frames nodes (before ++ rest) with halts | step
      · obtain ⟨answer, halts⟩ := halts
        rw [halts.readNodes] at ok
        subst ok
        -- a reader that halts with an answer is at the end of the text
        generalize whole : before ++ rest = text at halts
        cases halts
        exact absurd (List.append_eq_nil_iff.mp whole).1 some
      · obtain ⟨piece, behind, frames', nodes', whole, step, follows'⟩ := step
        obtain ⟨more, rfl, rfl⟩ := step.within reached.areNames some ends whole
        rw [List.append_assoc, step.readNodes follows'] at ok
        have shorter : more.length < n := by
          have := List.length_pos_iff.mpr step.ne_nil
          rw [← length, List.length_append]
          omega
        rw [List.append_assoc] at follows
        rw [← List.append_assoc]
        exact ih _ shorter (reached.step follows.of_append step) follows' ok rfl

theorem closings_cons (name : String) (names : List String) :
    closings (name :: names) = '<' :: '/' :: (name.toList ++ ([] ++ ['>'])) ++ closings names := by
  simp [closings]

theorem endsText_closings (names : List String) : EndsText (closings names) := by
  cases names with
  | nil => exact endsText_nil
  | cons => exact endsText_cons _

/-- The open elements are closed by their closing tags. -/
theorem readNodes_closings (frames : List Frame) (nodes : List Node) :
    ∃ result, Markup.readNodes frames nodes (closings (frames.map (·.tag.name))) = .ok result := by
  induction frames generalizing nodes with
  | nil => exact ⟨_, Halts.done.readNodes⟩
  | cons frame outer ih =>
    have space : IsSpace [] := by simp [IsSpace]
    obtain ⟨result, ok⟩ := ih (.element frame.tag nodes.reverse :: frame.before)
    refine ⟨result, ?_⟩
    rw [List.map_cons, closings_cons, (Step.closing space).readNodes follows_element, ok]

/-- A name ends where its characters do. -/
theorem name_unique {name name' : String} (isName : IsTagName name) (isName' : IsTagName name')
    (ends : Ends isNameChar behind) (ends' : Ends isNameChar rest)
    (same : name.toList ++ behind = name'.toList ++ rest) : name = name' ∧ behind = rest := by
  have first := readName?_eq_some_iff.mpr ⟨isName, rfl, ends⟩
  have second := readName?_eq_some_iff.mpr ⟨isName', same, ends'⟩
  rw [first] at second
  exact Prod.mk.inj (Option.some.inj second)

/-- Only the open elements are closed by their closing tags. -/
theorem names_of_readNodes_closings (areNames : ∀ frame ∈ frames, IsTagName frame.tag.name)
    (areNames' : ∀ name ∈ names, IsTagName name)
    (ok : Markup.readNodes frames nodes (closings names) = .ok result) :
    frames.map (·.tag.name) = names := by
  induction names generalizing frames nodes with
  | nil =>
    cases frames with
    | nil => rfl
    | cons => cases Halts.unclosed.readNodes.symm.trans ok
  | cons name names ih =>
    -- a slash begins no name, so nothing but a closing tag can be read here
    have none : readName? ('/' :: (name.toList ++ '>' :: closings names)) = none :=
      readName?_eq_none rfl
    rw [closings_cons] at ok
    simp only [List.nil_append, List.cons_append, List.append_assoc] at ok
    cases frames with
    | nil => cases (Halts.outside none).readNodes.symm.trans ok
    | cons frame outer =>
      rw [readNodes_closing none] at ok
      split at ok
      · cases ok
      · rename_i rest close
        obtain ⟨last, space, split⟩ := readClosing_eq_ok_iff.mp close
        obtain ⟨isName, areNames⟩ := List.forall_mem_cons.mp areNames
        obtain ⟨isName', areNames'⟩ := List.forall_mem_cons.mp areNames'
        have ends : Ends isNameChar ('>' :: closings names) := rfl
        have ends' : Ends isNameChar ('>' :: rest) := rfl
        obtain ⟨same, split⟩ := name_unique isName' isName ends (ends_name_of_space space ends')
          (by simpa using split)
        cases last with
        | nil =>
          cases split
          rw [List.map_cons, ih areNames areNames' ok, same]
        | cons c last =>
          have bracket : isSpace c = true := space c List.mem_cons_self
          rw [← (List.cons.inj split).1] at bracket
          exact absurd bracket (by decide)

/-- **What the grammar says is open is what the reader has open.** -/
theorem openAfter_iff :
    OpenAfter before names ↔
      ∃ frames nodes, Reached frames nodes before ∧ frames.map (·.tag.name) = names := by
  constructor
  · intro h
    obtain ⟨areNames, tree, canonical, spells⟩ := h
    have ok := readNodes_of_reads (reads_of_canonical canonical spells)
    have ends := endsText_closings names
    -- the whole template is read, so the reader passes this place on its way
    obtain ⟨frames, nodes, reached⟩ := Reached.start.exists_of_ok follows_nil ends ok
    rw [List.nil_append] at reached
    rw [reached.readNodes fun _ _ _ => ends] at ok
    exact ⟨frames, nodes, reached, names_of_readNodes_closings reached.areNames areNames ok⟩
  · intro h
    obtain ⟨frames, nodes, reached, rfl⟩ := h
    refine ⟨List.forall_mem_map.mpr reached.areNames, ?_⟩
    -- with the closing tags behind it the reader comes to an end, and what it reads is canonical
    obtain ⟨result, ok⟩ := readNodes_closings frames nodes
    rw [← reached.readNodes fun _ _ _ => endsText_closings _] at ok
    have reads := reads_of_readNodes ok
    have built : Built [] result := built_of_reads reads .nil .nil follows_nil
    exact ⟨root result, ⟨rfl, built.apart, built.inside⟩, spellsNodes_of_reads reads⟩

end ChatMarkup.Markup
