/-
  ChatMarkup/Proofs/Markup/Grammar.lean
  =====================================
  **The reader reads the grammar** — a template is read as a tree exactly when it spells the
  tree and the tree is canonical, so no template spells two trees.

  What is read is spelt: whatever the reader still needs to close the open elements is the
  spelling of more nodes, element by element (`Completes`).  What is read is canonical: the
  open elements and the nodes in them are at every step (`Framed`, `Built`).  And a spelling
  of a canonical tree is a way for the reader, by recursion over the tree.
-/
import ChatMarkup.Proofs.Markup.Reader
import Mathlib.Data.List.Chain

namespace ChatMarkup.Markup

variable {frames outer : List Frame} {frame : Frame} {node : Node} {nodes result : List Node}
  {text rest : List Char}

/-! ### What is read is spelt -/

/-- A text closes the open elements one after another, with more nodes in each of them. -/
inductive Completes : List Frame → List Node → List Char → List Node → Prop where
  | done {nodes more text} (spells : SpellsNodes more text) :
      Completes [] nodes text (nodes.reverse ++ more)
  | closing {frame outer nodes more spelling last rest result} (spells : SpellsNodes more spelling)
      (space : IsSpace last)
      (tail : Completes outer (.element frame.tag (nodes.reverse ++ more) :: frame.before) rest
        result) :
      Completes (frame :: outer) nodes
        (spelling ++ '<' :: '/' :: (frame.tag.name.toList ++ (last ++ '>' :: rest))) result

theorem Completes.before {spelling : List Char} (head : SpellsNode node spelling)
    (h : Completes frames (node :: nodes) rest result) :
    Completes frames nodes (spelling ++ rest) result := by
  cases h with
  | done spells =>
    rw [List.reverse_cons, List.append_assoc]
    exact .done (.cons head spells)
  | closing spells space tail =>
    rw [List.reverse_cons, List.append_assoc] at tail
    rw [← List.append_assoc]
    exact .closing (.cons head spells) space tail

theorem completes_of_reads (h : Reads frames nodes text result) :
    Completes frames nodes text result := by
  induction h with
  | @done nodes =>
    rw [← List.append_nil nodes.reverse]
    exact .done .nil
  | text _ content _ _ ih => exact ih.before (.text content)
  | closed _ _ inner space _ ih =>
    have whole := ih.before (.closed inner space)
    simpa [ending] using whole
  | opened _ _ inner space _ ih =>
    -- the new element is the first that the rest closes
    cases ih with
    | closing spells space' tail =>
      have whole := tail.before (.enclosing inner (isSpace_append_iff.mpr ⟨space, space'⟩) spells)
      simpa [ending] using whole
  | @closing frame outer nodes last rest result space _ ih =>
    apply Completes.closing .nil space
    rwa [List.append_nil]

theorem spellsNodes_of_reads (h : Reads [] [] text result) : SpellsNodes result text := by
  cases completes_of_reads h with
  | done spells => exact spells

/-! ### What is read is canonical -/

theorem textsApart_iff :
    TextsApart nodes ↔ nodes.IsChain fun first second => ¬(first.IsText ∧ second.IsText) := by
  induction nodes with
  | nil => simp [TextsApart]
  | cons node nodes ih =>
    rw [List.isChain_cons, ← ih]
    cases node with
    | element => simp [TextsApart, Node.IsText]
    | text =>
      cases nodes with
      | nil => simp [TextsApart]
      | cons next nodes => cases next <;> simp [TextsApart, Node.IsText]

theorem textsApart_cons_iff :
    TextsApart (node :: nodes) ↔
      (node.IsText → ∀ next ∈ nodes.head?, ¬next.IsText) ∧ TextsApart nodes := by
  rw [textsApart_iff, List.isChain_cons, ← textsApart_iff]
  refine and_congr_left fun _ => ⟨?_, ?_⟩
  · intro h isText next member isText'
    exact h next member ⟨isText, isText'⟩
  · rintro h next member ⟨isText, isText'⟩
    exact h isText next member isText'

theorem TextsApart.reverse (apart : TextsApart nodes) : TextsApart nodes.reverse := by
  rw [textsApart_iff] at apart ⊢
  rw [List.isChain_reverse]
  simpa only [and_comm] using apart

/-- Nodes that a canonical tree can have inside some open elements. -/
structure Built (frames : List Frame) (nodes : List Node) : Prop where
  apart : TextsApart nodes
  inside : ∀ node ∈ nodes, Canonical (maxDepth - frames.length) node

theorem Built.nil : Built frames [] := ⟨trivial, by simp⟩

theorem Built.reverse (h : Built frames nodes) : Built frames nodes.reverse :=
  ⟨h.apart.reverse, fun node member => h.inside node (List.mem_reverse.mp member)⟩

theorem Built.addText {text : String} (h : Built frames nodes) (some : text ≠ "")
    (apart : ∀ next ∈ nodes.head?, ¬next.IsText) : Built frames (.text text :: nodes) where
  apart := textsApart_cons_iff.mpr ⟨fun _ => apart, h.apart⟩
  inside := List.forall_mem_cons.mpr ⟨.text some, h.inside⟩

/-- A complete element, with one level less inside. -/
theorem Built.addElement {tag : Tag} {before : List Node} (h : Built outer before)
    (room : outer.length < maxDepth) (canonical : tag.Canonical)
    (children : Built (frame :: outer) nodes) : Built outer (.element tag nodes :: before) where
  apart := textsApart_cons_iff.mpr ⟨fun isText => isText.elim, h.apart⟩
  inside := by
    refine List.forall_mem_cons.mpr ⟨?_, h.inside⟩
    have levels : maxDepth - outer.length = maxDepth - (frame :: outer).length + 1 := by
      rw [List.length_cons]
      omega
    rw [levels]
    exact .element canonical children.apart children.inside

/-- Elements that a canonical tree can have open. -/
inductive Framed : List Frame → Prop where
  | nil : Framed []
  | cons {frame : Frame} {outer : List Frame} (room : outer.length < maxDepth)
      (canonical : frame.tag.Canonical) (before : Built outer frame.before)
      (tail : Framed outer) : Framed (frame :: outer)

theorem built_of_reads (h : Reads frames nodes text result) (framed : Framed frames)
    (built : Built frames nodes) (follows : Follows nodes text) : Built [] result := by
  induction h with
  | done => exact built.reverse
  | @text frames nodes spelling rest result text some content ends _ ih =>
    obtain ⟨c, more, rfl, other⟩ := spellsText_first (by simpa using some) content
    -- a text before this one would have taken its first character, too
    refine ih framed (built.addText some ?_) fun _ _ _ => ends
    intro last member isText
    exact other (by simpa [EndsText, Ends] using follows last member isText)
  | @closed frames nodes tag _ _ _ _ room canonical _ _ _ ih =>
    have nothing : Built (⟨tag, nodes⟩ :: frames) [] := .nil
    apply ih framed (built.addElement room canonical nothing)
    simp [Follows, Node.IsText]
  | opened room canonical _ _ _ ih =>
    apply ih (.cons room canonical built framed) .nil
    simp [Follows]
  | closing _ _ ih =>
    -- the element is complete and goes to those in front of it in its parent
    cases framed with
    | cons room canonical before tail =>
      apply ih tail (before.addElement room canonical built.reverse)
      simp [Follows, Node.IsText]

/-! ### What is spelt is read -/

/-- An element begins like one. -/
theorem endsText_of_spellsNodes {more : List Node} {spelling : List Char}
    (spells : SpellsNodes more spelling) (apart : ∀ next ∈ more.head?, ¬next.IsText)
    (ends : EndsText rest) : EndsText (spelling ++ rest) := by
  cases spells with
  | nil => exact ends
  | cons head _ =>
    cases head with
    | text => exact absurd trivial (apart _ rfl)
    | closed => exact endsText_cons _
    | enclosing => exact endsText_cons _

mutual

theorem reads_node (node : Node) {room : Nat} {frames : List Frame} {nodes result : List Node}
    {spelling rest : List Char} (spells : SpellsNode node spelling)
    (canonical : Canonical room node) (depth : frames.length + room ≤ maxDepth)
    (ends : node.IsText → EndsText rest) (behind : Reads frames (node :: nodes) rest result) :
    Reads frames nodes (spelling ++ rest) result :=
  match node with
  | .text text => by
    cases spells with
    | text content =>
      cases canonical with
      | text some => exact .text some content (ends trivial) behind
  | .element tag children => by
    cases canonical with
    | @element room _ _ canonical apart inside =>
      have deeper : frames.length < maxDepth := by omega
      cases spells with
      | closed inner space =>
        have whole := Reads.closed deeper canonical inner space behind
        simpa [ending] using whole
      | @enclosing _ _ _ _ content last inner space spells =>
        obtain ⟨space, space'⟩ := isSpace_append_iff.mp space
        have close : Reads (⟨tag, nodes⟩ :: frames) (children.reverse ++ [])
            ('<' :: '/' :: (tag.name.toList ++ (last ++ '>' :: rest))) result :=
          .closing space' (by simpa using behind)
        have depth' : (⟨tag, nodes⟩ :: frames).length + room ≤ maxDepth := by
          rw [List.length_cons]
          omega
        have within := reads_nodes children spells apart inside depth' (endsText_cons _) close
        have whole := Reads.opened deeper canonical inner space within
        simpa [ending] using whole

theorem reads_nodes (more : List Node) {room : Nat} {frames : List Frame}
    {nodes result : List Node} {spelling rest : List Char} (spells : SpellsNodes more spelling)
    (apart : TextsApart more) (inside : ∀ node ∈ more, Canonical room node)
    (depth : frames.length + room ≤ maxDepth) (ends : EndsText rest)
    (behind : Reads frames (more.reverse ++ nodes) rest result) :
    Reads frames nodes (spelling ++ rest) result :=
  match more with
  | [] => by
    cases spells
    exact behind
  | node :: more => by
    cases spells with
    | cons head tail =>
      obtain ⟨apart, apart'⟩ := textsApart_cons_iff.mp apart
      obtain ⟨canonical, inside⟩ := List.forall_mem_cons.mp inside
      rw [List.reverse_cons, List.append_assoc] at behind
      rw [List.append_assoc]
      refine reads_node node head canonical depth ?_ (reads_nodes more tail apart' inside depth ends
        behind)
      -- behind a text stands no other, so the next spelling begins with a bracket
      intro isText
      exact endsText_of_spellsNodes tail (apart isText) ends

end

/-! ### Templates -/

theorem read_eq_ok {template : String} {tree : Element} :
    read template = .ok tree ↔
      ∃ nodes, Reads [] [] template.toList nodes ∧ tree = root nodes := by
  unfold read
  constructor
  · intro h
    split at h
    · rename_i nodes e
      cases h
      exact ⟨nodes, reads_of_readNodes e, rfl⟩
    · cases h
  · intro h
    rcases h with ⟨nodes, h, rfl⟩
    rw [readNodes_of_reads h]

theorem reads_of_canonical {tree : Element} (canonical : tree.Canonical)
    (spells : SpellsNodes tree.children text) : Reads [] [] text tree.children := by
  have last : Reads [] (tree.children.reverse ++ []) [] tree.children := by
    have done : Reads [] tree.children.reverse [] tree.children.reverse.reverse := .done
    rwa [List.reverse_reverse, ← List.append_nil tree.children.reverse] at done
  have depth : ([] : List Frame).length + maxDepth ≤ maxDepth := Nat.le_refl _
  have whole := reads_nodes tree.children spells canonical.apart canonical.inside depth
    endsText_nil last
  rwa [List.append_nil] at whole

theorem eq_root_of_canonical {tree : Element} (canonical : tree.Canonical) :
    tree = root tree.children := by
  obtain ⟨tag, children⟩ := tree
  exact congrArg (Element.mk · children) canonical.tag

theorem read_of_canonical {template : String} {tree : Element} (canonical : tree.Canonical)
    (spells : SpellsNodes tree.children template.toList) : read template = .ok tree :=
  read_eq_ok.mpr ⟨_, reads_of_canonical canonical spells, eq_root_of_canonical canonical⟩

theorem canonical_of_read {template : String} {tree : Element} (h : read template = .ok tree) :
    tree.Canonical ∧ SpellsNodes tree.children template.toList := by
  obtain ⟨nodes, reads, rfl⟩ := read_eq_ok.mp h
  have built : Built [] nodes := built_of_reads reads .nil .nil (by simp [Follows])
  exact ⟨⟨rfl, built.apart, built.inside⟩, spellsNodes_of_reads reads⟩

/-- **The reader accepts its grammar and nothing else.** A template is read as a tree exactly
    when the tree is canonical and the template spells it, and it spells one canonical tree at
    most. -/
theorem read_eq_ok_iff_spells (template : String) :
    (∀ tree, read template = .ok tree ↔
      tree.Canonical ∧ SpellsNodes tree.children template.toList) ∧
    ∀ tree tree' : Element,
      tree.Canonical → SpellsNodes tree.children template.toList →
      tree'.Canonical → SpellsNodes tree'.children template.toList → tree = tree' := by
  refine ⟨fun tree => ⟨canonical_of_read, fun h => read_of_canonical h.1 h.2⟩, ?_⟩
  intro tree tree' canonical spells canonical' spells'
  have read := read_of_canonical canonical spells
  exact Except.ok.inj (read.symm.trans (read_of_canonical canonical' spells'))

end ChatMarkup.Markup
