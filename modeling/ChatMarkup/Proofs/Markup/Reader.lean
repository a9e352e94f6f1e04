/-
  ChatMarkup/Proofs/Markup/Reader.lean
  ====================================
  **What the reader does, step by step** — in front of every text it takes a piece, which is
  one of four kinds (`Step`), or it halts with an answer (`Halts`).  `Reads` is the reader as
  a relation, piece after piece: one rule for each thing that can come next, in the words of
  the grammar.

  The reader succeeds exactly along these rules.  All that is said about what it reads is
  therefore said about `Reads` and `Step`, by induction on the rules, and never looks into
  the reader.
-/
import ChatMarkup.Markup.Reader
import ChatMarkup.Proofs.Markup.Tag

namespace ChatMarkup.Markup

/-- A text that no text node reaches into. -/
def EndsText (rest : List Char) : Prop := Ends (fun c => !(c == '<')) rest

theorem endsText_nil : EndsText [] := trivial

theorem endsText_cons (rest : List Char) : EndsText ('<' :: rest) := rfl

def Node.IsText : Node → Prop
  | .text _ => True
  | .element _ _ => False

def Follows (nodes : List Node) (text : List Char) : Prop :=
  ∀ last ∈ nodes.head?, last.IsText → EndsText text

/-- The reader takes a piece of a template, and so comes from the open elements and nodes in
    front of it to those behind it. -/
inductive Step : List Frame → List Node → List Char → List Frame → List Node → Prop where
  | text {frames nodes spelling} {text : String} (some : text ≠ "")
      (content : SpellsText PlainText text.toList spelling) :
      Step frames nodes spelling frames (.text text :: nodes)
  | closed {frames nodes tag attributes gap} (room : frames.length < maxDepth)
      (canonical : tag.Canonical) (inner : SpellsAttributes tag.attributes attributes)
      (space : IsSpace gap) :
      Step frames nodes ('<' :: (tag.name.toList ++ (attributes ++ (gap ++ ending true))))
        frames (.element tag [] :: nodes)
  | opened {frames nodes tag attributes gap} (room : frames.length < maxDepth)
      (canonical : tag.Canonical) (inner : SpellsAttributes tag.attributes attributes)
      (space : IsSpace gap) :
      Step frames nodes ('<' :: (tag.name.toList ++ (attributes ++ (gap ++ ending false))))
        (⟨tag, nodes⟩ :: frames) []
  | closing {frame outer nodes last} (space : IsSpace last) :
      Step (frame :: outer) nodes ('<' :: '/' :: (frame.tag.name.toList ++ (last ++ ['>'])))
        outer (.element frame.tag nodes.reverse :: frame.before)

/-- The reader takes no piece: it is done, or there is something wrong. -/
inductive Halts : List Frame → List Node → List Char → Except Failure (List Node) → Prop where
  | done {nodes} : Halts [] nodes [] (.ok nodes.reverse)
  | unclosed {frame outer nodes} : Halts (frame :: outer) nodes [] (.error ⟨.closingTag, []⟩)
  | tooDeep {frames nodes tail name behind} (first : readName? tail = some (name, behind))
      (full : ¬frames.length < maxDepth) :
      Halts frames nodes ('<' :: tail) (.error ⟨.nestingTooDeep, '<' :: tail⟩)
  | opening {frames nodes tail name behind failure} (first : readName? tail = some (name, behind))
      (room : frames.length < maxDepth) (second : readOpening name behind = .error failure) :
      Halts frames nodes ('<' :: tail) (.error failure)
  | outside {nodes tail} (first : readName? tail = none) :
      Halts [] nodes ('<' :: tail) (.error ⟨outsideCause ('<' :: tail), '<' :: tail⟩)
  | closing {frame outer nodes tail failure} (first : readName? tail = none)
      (second : readClosing frame.tag.name ('<' :: tail) = .error failure) :
      Halts (frame :: outer) nodes ('<' :: tail) (.error failure)
  | text {frames nodes c tail failure} (other : c ≠ '<')
      (first : readRun (· == '<') (c :: tail) = .error failure) :
      Halts frames nodes (c :: tail) (.error failure)

/-- The reader's way through a text, from the open elements and the nodes read so far in the
    innermost one to the nodes of the whole template. -/
inductive Reads : List Frame → List Node → List Char → List Node → Prop where
  | done {nodes} : Reads [] nodes [] nodes.reverse
  | text {frames nodes spelling rest result} {text : String} (some : text ≠ "")
      (content : SpellsText PlainText text.toList spelling) (ends : EndsText rest)
      (tail : Reads frames (.text text :: nodes) rest result) :
      Reads frames nodes (spelling ++ rest) result
  | closed {frames nodes tag attributes gap rest result} (room : frames.length < maxDepth)
      (canonical : tag.Canonical) (inner : SpellsAttributes tag.attributes attributes)
      (space : IsSpace gap) (tail : Reads frames (.element tag [] :: nodes) rest result) :
      Reads frames nodes
        ('<' :: (tag.name.toList ++ (attributes ++ (gap ++ (ending true ++ rest))))) result
  | opened {frames nodes tag attributes gap rest result} (room : frames.length < maxDepth)
      (canonical : tag.Canonical) (inner : SpellsAttributes tag.attributes attributes)
      (space : IsSpace gap) (tail : Reads (⟨tag, nodes⟩ :: frames) [] rest result) :
      Reads frames nodes
        ('<' :: (tag.name.toList ++ (attributes ++ (gap ++ (ending false ++ rest))))) result
  | closing {frame outer nodes last rest result} (space : IsSpace last)
      (tail : Reads outer (.element frame.tag nodes.reverse :: frame.before) rest result) :
      Reads (frame :: outer) nodes
        ('<' :: '/' :: (frame.tag.name.toList ++ (last ++ '>' :: rest))) result

variable {frames frames' outer : List Frame} {frame : Frame} {nodes nodes' result : List Node}
  {tail rest piece text : List Char} {answer : Except Failure (List Node)}

/-! ### The reader's equations -/

theorem readNodes_tag {name : String} {behind : List Char}
    (first : readName? tail = some (name, behind)) :
    readNodes frames nodes ('<' :: tail) =
      if frames.length < maxDepth then
        match readOpening name behind with
        | .error failure => .error failure
        | .ok opening =>
          if opening.closed then readNodes frames (.element opening.tag [] :: nodes) opening.rest
          else readNodes (⟨opening.tag, nodes⟩ :: frames) [] opening.rest
      else .error ⟨.nestingTooDeep, '<' :: tail⟩ := by
  -- once only: the recursion is well-founded, and simp would go on unfolding it
  rw [readNodes.eq_def]
  dsimp only
  rw [dif_pos rfl]
  split
  · rename_i e
    cases e.symm.trans first
    congr 1
    split
    · rename_i e'
      rw [e']
    · rename_i e'
      rw [e']
  · rename_i e
    cases e.symm.trans first

theorem readNodes_outside (first : readName? tail = none) :
    readNodes [] nodes ('<' :: tail) = .error ⟨outsideCause ('<' :: tail), '<' :: tail⟩ := by
  rw [readNodes, dif_pos rfl]
  split
  · rename_i e
    cases e.symm.trans first
  · rfl

theorem readNodes_closing (first : readName? tail = none) :
    readNodes (frame :: outer) nodes ('<' :: tail) =
      match readClosing frame.tag.name ('<' :: tail) with
      | .error failure => .error failure
      | .ok rest => readNodes outer (.element frame.tag nodes.reverse :: frame.before) rest := by
  rw [readNodes, dif_pos rfl]
  split
  · rename_i e
    cases e.symm.trans first
  · split
    · rename_i e
      rw [e]
    · rename_i e
      rw [e]

theorem readNodes_text {c : Char} (other : c ≠ '<') :
    readNodes frames nodes (c :: tail) =
      match readRun (· == '<') (c :: tail) with
      | .error failure => .error failure
      | .ok (run, rest) => readNodes frames (.text (String.ofList run) :: nodes) rest := by
  rw [readNodes.eq_def]
  dsimp only
  rw [dif_neg other]
  split
  · rename_i e
    rw [e]
  · rename_i e
    rw [e]

/-! ### Single steps -/

theorem spellsText_first {text spelling : List Char} (some : text ≠ [])
    (content : SpellsText PlainText text spelling) :
    ∃ c more, spelling = c :: more ∧ c ≠ '<' := by
  cases content with
  | nil => exact absurd rfl some
  | cons head _ =>
    cases head with
    | raw self => exact ⟨_, _, rfl, self.1⟩
    | reference => exact ⟨_, _, rfl, by decide⟩

theorem follows_nil : Follows [] text := by
  intro last member
  cases member

theorem follows_element {tag : Tag} {children : List Node} :
    Follows (.element tag children :: nodes) text := by
  intro last member isText
  cases member
  exact isText.elim

theorem Step.ne_nil (step : Step frames nodes piece frames' nodes') : piece ≠ [] := by
  cases step with
  | text some content =>
    obtain ⟨c, more, rfl, -⟩ := spellsText_first (by simpa using some) content
    exact List.cons_ne_nil _ _
  | closed => exact List.cons_ne_nil _ _
  | opened => exact List.cons_ne_nil _ _
  | closing => exact List.cons_ne_nil _ _

/-- Having taken a piece, the reader reads on behind it. -/
theorem Step.readNodes (step : Step frames nodes piece frames' nodes')
    (follows : Follows nodes' rest) :
    readNodes frames nodes (piece ++ rest) = readNodes frames' nodes' rest := by
  cases step with
  | text some content =>
    -- the text ends where a tag begins or the template does, so the run stops there
    have ends : EndsText rest := follows _ rfl trivial
    rw [← raw_text] at content
    have read := readRun_complete rfl content ends
    rw [raw_text] at content
    obtain ⟨c, more, rfl, other⟩ := spellsText_first (by simpa using some) content
    rw [List.cons_append] at read ⊢
    rw [readNodes_text other, read]
    dsimp only
    rw [String.ofList_toList]
  | closed room canonical inner space =>
    simp only [List.append_assoc, List.cons_append]
    rw [readNodes_tag (readName?_eq_some_iff.mpr ⟨canonical.name, rfl, ?_⟩), if_pos room,
      readOpening_complete canonical inner space true]
    · rfl
    · exact inner.ends (ends_name_of_space space rfl)
  | opened room canonical inner space =>
    simp only [List.append_assoc, List.cons_append]
    rw [readNodes_tag (readName?_eq_some_iff.mpr ⟨canonical.name, rfl, ?_⟩), if_pos room,
      readOpening_complete canonical inner space false]
    · rfl
    · exact inner.ends (ends_name_of_space space rfl)
  | @closing frame outer nodes last space =>
    simp only [List.append_assoc, List.cons_append, List.nil_append]
    have none : readName? ('/' :: (frame.tag.name.toList ++ (last ++ '>' :: rest))) = none :=
      readName?_eq_none rfl
    have close : readClosing frame.tag.name
        ('<' :: '/' :: (frame.tag.name.toList ++ (last ++ '>' :: rest))) = .ok rest :=
      readClosing_eq_ok_iff.mpr ⟨last, space, by simp⟩
    rw [readNodes_closing none, close]

/-- Where the reader halts, it answers at once. -/
theorem Halts.readNodes (halts : Halts frames nodes text answer) :
    readNodes frames nodes text = answer := by
  cases halts with
  | done => rw [Markup.readNodes]
  | unclosed => rw [Markup.readNodes]
  | tooDeep first full => rw [readNodes_tag first, if_neg full]
  | opening first room second => rw [readNodes_tag first, if_pos room, second]
  | outside first => exact readNodes_outside first
  | closing first second => rw [readNodes_closing first, second]
  | text other first => rw [readNodes_text other, first]

/-- In front of a name that begins a tag, the reader halts or takes the tag. -/
theorem halts_or_step_tag {name : String} {behind : List Char}
    (first : readName? tail = some (name, behind)) :
    (∃ answer, Halts frames nodes ('<' :: tail) answer) ∨
      ∃ piece rest frames' nodes', '<' :: tail = piece ++ rest ∧
        Step frames nodes piece frames' nodes' ∧ Follows nodes' rest := by
  -- the depth is asked for first, whatever follows the name
  by_cases room : frames.length < maxDepth
  · cases second : readOpening name behind with
    | error failure => exact Or.inl ⟨_, .opening first room second⟩
    | ok opening =>
      right
      obtain ⟨isName, rfl, -⟩ := readName?_eq_some_iff.mp first
      obtain ⟨rfl, canonical, spelling, gap, spells, space, rfl⟩ := readOpening_sound isName second
      obtain ⟨tag, closed, rest⟩ := opening
      cases closed with
      | true =>
        exact ⟨_, rest, _, _, by simp, .closed room canonical spells space,
          follows_element⟩
      | false =>
        exact ⟨_, rest, _, _, by simp, .opened room canonical spells space, follows_nil⟩
  · exact Or.inl ⟨_, .tooDeep first room⟩

/-- **What the reader can do.** It halts, or it takes a piece. -/
theorem halts_or_step (frames : List Frame) (nodes : List Node) (text : List Char) :
    (∃ answer, Halts frames nodes text answer) ∨
      ∃ piece rest frames' nodes', text = piece ++ rest ∧
        Step frames nodes piece frames' nodes' ∧ Follows nodes' rest := by
  rcases text with _ | ⟨c, tail⟩
  · cases frames with
    | nil => exact Or.inl ⟨_, .done⟩
    | cons frame outer => exact Or.inl ⟨_, .unclosed⟩
  · by_cases bracket : c = '<'
    · subst bracket
      cases first : readName? tail with
      | some found => exact halts_or_step_tag first
      | none =>
        cases frames with
        | nil => exact Or.inl ⟨_, .outside first⟩
        | cons frame outer =>
          cases second : readClosing frame.tag.name ('<' :: tail) with
          | error failure => exact Or.inl ⟨_, .closing first second⟩
          | ok rest =>
            obtain ⟨last, space, split⟩ := readClosing_eq_ok_iff.mp second
            exact Or.inr ⟨_, rest, _, _, by simp [split], .closing space, follows_element⟩
    · cases first : readRun (· == '<') (c :: tail) with
      | error failure => exact Or.inl ⟨_, .text bracket first⟩
      | ok found =>
        obtain ⟨run, rest⟩ := found
        obtain ⟨spelling, spells, split, ends⟩ := readRun_sound first
        -- the first character is no bracket, so the run takes it at least
        have some : String.ofList run ≠ "" := by
          intro empty
          rw [← String.ofList_nil, String.ofList_inj] at empty
          subst empty
          cases spells
          rw [List.nil_append] at split
          subst split
          simp [Ends, bracket] at ends
        rw [raw_text, ← String.toList_ofList (l := run)] at spells
        exact Or.inr ⟨_, rest, _, _, split, .text some spells, fun _ _ _ => ends⟩

/-! ### Whole runs -/

theorem Step.reads (step : Step frames nodes piece frames' nodes') (follows : Follows nodes' rest)
    (behind : Reads frames' nodes' rest result) : Reads frames nodes (piece ++ rest) result := by
  cases step with
  | text some content => exact .text some content (follows _ rfl trivial) behind
  | closed room canonical inner space =>
    simp only [List.append_assoc, List.cons_append]
    exact .closed room canonical inner space behind
  | opened room canonical inner space =>
    simp only [List.append_assoc, List.cons_append]
    exact .opened room canonical inner space behind
  | closing space =>
    simp only [List.append_assoc, List.cons_append, List.nil_append]
    exact .closing space behind

theorem reads_of_readNodes (h : readNodes frames nodes text = .ok result) :
    Reads frames nodes text result := by
  -- the text behind a piece is shorter
  induction length : text.length using Nat.strongRecOn generalizing frames nodes text with
  | ind n ih =>
    rcases halts_or_step frames nodes text with halts | taken
    · obtain ⟨answer, halts⟩ := halts
      rw [halts.readNodes] at h
      subst h
      cases halts
      exact .done
    · obtain ⟨piece, rest, frames', nodes', rfl, step, follows⟩ := taken
      rw [step.readNodes follows] at h
      refine step.reads follows (ih _ ?_ h rfl)
      have := List.length_pos_iff.mpr step.ne_nil
      rw [← length, List.length_append]
      omega

theorem readNodes_of_reads (h : Reads frames nodes text result) :
    readNodes frames nodes text = .ok result := by
  induction h with
  | done => exact Halts.done.readNodes
  | text some content ends _ ih =>
    rw [(Step.text some content).readNodes fun _ _ _ => ends, ih]
  | closed room canonical inner space _ ih =>
    rw [← ih]
    simpa using (Step.closed room canonical inner space).readNodes follows_element
  | opened room canonical inner space _ ih =>
    rw [← ih]
    simpa using (Step.opened room canonical inner space).readNodes follows_nil
  | closing space _ ih =>
    rw [← ih]
    simpa using (Step.closing space).readNodes follows_element

end ChatMarkup.Markup
