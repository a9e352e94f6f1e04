/-
  ChatMarkup/Proofs/Markup/Conformance.lean
  =========================================
  **The check of a tree decides the schema** — no problem is reported of a tree just when it
  conforms to the schema (`checkRoot_eq_nil_iff`), and every problem that is reported comes
  with the path of an element of the tree (`leadsTo_of_mem_checkRoot`).

  The check goes by a table of rules, one for each name.  What it asks of the attributes of
  any element is what `Tag.Fits` says of its rule, and what it asks besides is said for any
  rule, too (`ownProblems_eq_nil_iff`); the names are told apart after that.
-/
import ChatMarkup.Markup.Conformance
import ChatMarkup.Markup.Schema

namespace ChatMarkup.Markup

variable {rule : Rule} {parent : String} {tag : Tag} {children : List Node}

/-! ### Attributes -/

theorem missingProblems_eq_nil_iff :
    missingProblems rule tag = [] ↔
      ∀ name ∈ rule.required, ∃ value, tag.attribute? name = some value := by
  rw [missingProblems, List.map_eq_nil_iff, List.filter_eq_nil_iff]
  simp only [Bool.not_eq_true, Option.isNone_eq_false_iff, Option.isSome_iff_exists]

theorem attributeProblem?_eq_none_iff {attr : String × String} :
    attributeProblem? rule tag attr = none ↔
      (attr.1 ∈ rule.required ∨ attr.1 ∈ rule.optional) ∧
        (attr.1 ∈ rule.names → Formula.isName attr.2 = true) := by
  unfold attributeProblem?
  simp only [List.contains_eq_mem, Bool.and_eq_true, Bool.not_eq_true', decide_eq_false_iff_not,
    decide_eq_true_eq]
  constructor
  · intro h
    split at h
    · cases h
    · rename_i known
      split at h
      · cases h
      · rename_i named
        constructor
        · by_cases required : attr.1 ∈ rule.required
          · exact Or.inl required
          · exact Or.inr (Classical.not_not.mp fun foreign => known ⟨required, foreign⟩)
        · intro member
          rw [← Bool.not_eq_false]
          intro invalid
          exact named ⟨member, invalid⟩
  · rintro ⟨known, named⟩
    rw [if_neg, if_neg]
    · rintro ⟨member, invalid⟩
      rw [named member] at invalid
      cases invalid
    · rintro ⟨required, optional⟩
      exact known.elim required optional

theorem isUnset_eq_false_iff {name : String} : isUnset tag name = false ↔ tag.Sets name := by
  unfold isUnset Tag.Sets
  cases tag.attribute? name with
  | none => simp
  | some value => simp

/-! ### Elements -/

theorem pluralChildProblem?_eq_none_iff {node : Node} :
    pluralChildProblem? node = none ↔ InPlural node := by
  cases node with
  | text text =>
    constructor
    · intro h
      simp only [pluralChildProblem?] at h
      split at h
      · rename_i blank
        exact .space (List.all_eq_true.mp blank)
      · cases h
    · intro h
      cases h with
      | space blank => exact if_pos (List.all_eq_true.mpr blank)
  | element tag children =>
    constructor
    · intro h
      simp only [pluralChildProblem?] at h
      split at h
      · rename_i name
        exact .case (beq_iff_eq.mp name)
      · cases h
    · intro h
      cases h with
      | case name => exact if_pos (beq_iff_eq.mpr name)

/-- What the check asks of an element, whatever the rule for it. -/
theorem ownProblems_eq_nil_iff :
    ownProblems rule parent tag children = [] ↔
      tag.Fits rule.required rule.optional rule.names ∧
        (rule.allowsChildren = false → children = []) ∧
        particularProblems parent tag children = [] := by
  have empty : (if !rule.allowsChildren && !children.isEmpty then [Problem.notEmpty tag.name]
      else []) = [] ↔ (rule.allowsChildren = false → children = []) := by
    cases rule.allowsChildren <;> cases children <;> simp
  simp only [ownProblems, List.append_eq_nil_iff, missingProblems_eq_nil_iff, empty,
    List.filterMap_eq_nil_iff, attributeProblem?_eq_none_iff]
  constructor
  · rintro ⟨⟨⟨complete, attributes⟩, leaf⟩, particular⟩
    refine ⟨⟨complete, ?_, ?_⟩, leaf, particular⟩
    · intro attr member
      exact (attributes attr member).1
    · intro attr member
      exact (attributes attr member).2
  · rintro ⟨fits, leaf, particular⟩
    refine ⟨⟨⟨fits.complete, ?_⟩, leaf⟩, particular⟩
    intro attr member
    exact ⟨fits.admissible attr member, fits.named attr member⟩

theorem particularProblems_color (name : tag.name = "color") :
    particularProblems parent tag children = [] ↔ tag.Sets "fg" ∨ tag.Sets "bg" := by
  simp only [particularProblems, name, beq_self_eq_true, if_true]
  rw [← isUnset_eq_false_iff, ← isUnset_eq_false_iff, ← Bool.and_eq_false_iff]
  cases isUnset tag "fg" && isUnset tag "bg" <;> simp

theorem particularProblems_case (name : tag.name = "case") :
    particularProblems parent tag children = [] ↔ parent = "plural" := by
  by_cases inPlural : parent = "plural" <;> simp [particularProblems, name, inPlural]

theorem particularProblems_plural (name : tag.name = "plural") :
    particularProblems parent tag children = [] ↔
      elementsOf children ≠ [] ∧ ∀ node ∈ children, InPlural node := by
  have notColor : ("plural" == "color") = false := by decide
  have notCase : ("plural" == "case") = false := by decide
  simp only [particularProblems, name, notColor, notCase, beq_self_eq_true, if_true,
    Bool.false_eq_true, if_false, List.append_eq_nil_iff, List.filterMap_eq_nil_iff,
    pluralChildProblem?_eq_none_iff]
  cases elementsOf children <;> simp

/-- Elements of other names have no problems of their own kind. -/
theorem particularProblems_other (notColor : tag.name ≠ "color") (notCase : tag.name ≠ "case")
    (notPlural : tag.name ≠ "plural") : particularProblems parent tag children = [] := by
  simp [particularProblems, notColor, notCase, notPlural]

/-- **An element conforms just when it has no problems of its own**, if its children
    conform. -/
theorem conforms_element_iff (found : rules.lookup tag.name = some rule)
    (inside : ∀ node ∈ children, Conforms tag.name node) :
    Conforms parent (.element tag children) ↔ ownProblems rule parent tag children = [] := by
  rw [ownProblems_eq_nil_iff]
  constructor
  · intro h
    -- an element of each rule meets the rule of its own name, and no other
    cases h with
    | var name fits =>
      rw [name] at found
      cases found
      refine ⟨fits, fun _ => rfl, ?_⟩
      apply particularProblems_other <;> simp [name]
    | toggle name fits =>
      rcases name with name | name
      · rw [name] at found
        cases found
        refine ⟨fits, nofun, ?_⟩
        apply particularProblems_other <;> simp [name]
      · rw [name] at found
        cases found
        refine ⟨fits, nofun, ?_⟩
        apply particularProblems_other <;> simp [name]
    | color name fits sets =>
      rw [name] at found
      cases found
      exact ⟨fits, nofun, (particularProblems_color name).mpr sets⟩
    | loop name fits =>
      rw [name] at found
      cases found
      refine ⟨fits, nofun, ?_⟩
      apply particularProblems_other <;> simp [name]
    | plural name fits some only =>
      rw [name] at found
      cases found
      exact ⟨fits, nofun, (particularProblems_plural name).mpr ⟨some, only⟩⟩
    | case name fits =>
      rw [name] at found
      cases found
      exact ⟨fits, nofun, (particularProblems_case name).mpr rfl⟩
  · rintro ⟨fits, leaf, particular⟩
    obtain ⟨before, after, e, -⟩ := List.lookup_eq_some_iff.mp found
    have listed : (tag.name, rule) ∈ rules := by rw [e]; simp
    simp only [rules, List.mem_cons, Prod.mk.injEq, List.not_mem_nil, or_false] at listed
    -- the table has seven rows; the requirements particular to a row are turned back one by one
    rcases listed with ⟨name, rfl⟩ | ⟨name, rfl⟩ | ⟨name, rfl⟩ | ⟨name, rfl⟩ | ⟨name, rfl⟩ |
      ⟨name, rfl⟩ | ⟨name, rfl⟩
    · rw [leaf rfl]
      exact .var name fits
    · exact .toggle (Or.inl name) fits inside
    · exact .toggle (Or.inr name) fits inside
    · exact .color name fits ((particularProblems_color name).mp particular) inside
    · exact .loop name fits inside
    · obtain ⟨some, only⟩ := (particularProblems_plural name).mp particular
      exact .plural name fits some only inside
    · rw [(particularProblems_case name).mp particular]
      exact .case name fits inside

/-- An element that the schema does not know does not conform. -/
theorem not_conforms_of_unknown (unknown : rules.lookup tag.name = none) :
    ¬Conforms parent (.element tag children) := by
  intro h
  cases h with
  | var name => simp [name, rules] at unknown
  | toggle name => rcases name with name | name <;> simp [name, rules] at unknown
  | color name => simp [name, rules] at unknown
  | loop name => simp [name, rules] at unknown
  | plural name => simp [name, rules] at unknown
  | case name => simp [name, rules] at unknown

theorem inside_of_conforms (h : Conforms parent (.element tag children)) :
    ∀ node ∈ children, Conforms tag.name node := by
  cases h with
  | var => simp
  | toggle _ _ inside => exact inside
  | color _ _ _ inside => exact inside
  | loop _ _ inside => exact inside
  | plural _ _ _ _ inside => exact inside
  | case _ _ inside => exact inside

/-! ### Trees -/

mutual

theorem checkNode_eq_nil_iff {parent : String} {path : List String} :
    (node : Node) → (checkNode parent path node = [] ↔ Conforms parent node)
  | .text _ => by
    constructor
    · intro _
      exact .text
    · intro _
      rfl
  | .element tag children => by
    rw [checkNode]
    split
    · rename_i unknown
      constructor
      · intro h
        cases h
      · intro h
        exact absurd h (not_conforms_of_unknown unknown)
    · rename_i rule found
      rw [List.append_eq_nil_iff, List.map_eq_nil_iff, checkNodes_eq_nil_iff children]
      constructor
      · rintro ⟨own, inside⟩
        exact (conforms_element_iff found inside).mpr own
      · intro h
        have inside := inside_of_conforms h
        exact ⟨(conforms_element_iff found inside).mp h, inside⟩

theorem checkNodes_eq_nil_iff {parent : String} {path : List String} :
    (nodes : List Node) →
      (checkNodes parent path nodes = [] ↔ ∀ node ∈ nodes, Conforms parent node)
  | [] => by simp [checkNodes]
  | node :: rest => by
    rw [checkNodes, List.append_eq_nil_iff, checkNode_eq_nil_iff node, checkNodes_eq_nil_iff rest,
      List.forall_mem_cons]

end

/-- **What passes the check is what conforms to the schema.** -/
theorem checkRoot_eq_nil_iff {root : Element} : checkRoot root = [] ↔ root.Conforms := by
  unfold checkRoot
  split
  · rename_i name
    rw [checkNodes_eq_nil_iff]
    constructor
    · intro inside
      exact ⟨name, inside⟩
    · intro conforms
      exact conforms.inside
  · rename_i other
    constructor
    · intro h
      cases h
    · intro conforms
      exact absurd conforms.name other

theorem conforms_of_checkRoot {root : Element} (h : checkRoot root = []) : root.Conforms :=
  checkRoot_eq_nil_iff.mp h

/-! ### Paths -/

mutual

/-- A problem with a child of an element, or further inside, comes with the path of an element
    of the tree. -/
theorem leadsTo_of_mem_checkNode {root outer : Element} {parent : String} {path : List String}
    (way : root.LeadsTo path outer) :
    (node : Node) → node ∈ outer.children → ∀ diagnostic ∈ checkNode parent path node,
      ∃ element, root.LeadsTo diagnostic.path element
  | .text _, _ => by simp [checkNode]
  | .element tag children, member => by
    have way := way.child member
    intro diagnostic reported
    rw [checkNode] at reported
    split at reported
    · rw [List.mem_singleton] at reported
      rw [reported]
      exact ⟨_, way⟩
    · rcases List.mem_append.mp reported with own | below
      · obtain ⟨problem, -, rfl⟩ := List.mem_map.mp own
        exact ⟨_, way⟩
      · exact leadsTo_of_mem_checkNodes way children (fun node inside => inside) diagnostic below

theorem leadsTo_of_mem_checkNodes {root outer : Element} {parent : String} {path : List String}
    (way : root.LeadsTo path outer) :
    (nodes : List Node) → (∀ node ∈ nodes, node ∈ outer.children) →
      ∀ diagnostic ∈ checkNodes parent path nodes,
        ∃ element, root.LeadsTo diagnostic.path element
  | [], _ => by simp [checkNodes]
  | node :: rest, members => by
    obtain ⟨first, others⟩ := List.forall_mem_cons.mp members
    intro diagnostic reported
    rw [checkNodes] at reported
    rcases List.mem_append.mp reported with here | further
    · exact leadsTo_of_mem_checkNode way node first diagnostic here
    · exact leadsTo_of_mem_checkNodes way rest others diagnostic further

end

/-- Every problem comes with the path of an element of the tree. -/
theorem leadsTo_of_mem_checkRoot {root : Element} {diagnostic : Diagnostic}
    (reported : diagnostic ∈ checkRoot root) :
    ∃ element, root.LeadsTo diagnostic.path element := by
  unfold checkRoot at reported
  split at reported
  · rename_i name
    have way : root.LeadsTo [rootName] root := name ▸ .root
    exact leadsTo_of_mem_checkNodes way root.children (fun node inside => inside) diagnostic
      reported
  · rw [List.mem_singleton] at reported
    rw [reported]
    exact ⟨root, .root⟩

theorem ne_nil_of_leadsTo {root element : Element} {path : List String}
    (way : root.LeadsTo path element) : path ≠ [] := by
  cases way with
  | root => simp
  | child => simp

/-- Behind its first slash, the text of a path has a slash between any two names. -/
theorem pathText_eq {diagnostic : Diagnostic} (some : diagnostic.path ≠ []) :
    diagnostic.pathText = "/" ++ "/".intercalate diagnostic.path := by
  have joined (path : List String) (h : path ≠ []) :
      String.join (path.map fun name => "/" ++ name) = "/" ++ "/".intercalate path := by
    induction path with
    | nil => exact absurd rfl h
    | cons name rest ih =>
      cases rest with
      | nil => simp
      | cons next rest =>
        rw [List.map_cons, String.join_cons, ih (by simp), String.intercalate_cons_cons]
        simp [String.append_assoc]
  exact joined diagnostic.path some

/-- **The check decides the schema.** Nothing is reported of a tree just when it conforms, and
    what is reported comes with the path of an element that there is in the tree, its names
    joined by slashes. -/
theorem schema_decides (root : Element) :
    (Validator.schema.check root = [] ↔ root.Conforms) ∧
      ∀ diagnostic ∈ Validator.schema.check root, ∃ path element, root.LeadsTo path element ∧
        diagnostic.pathText = "/" ++ "/".intercalate path := by
  constructor
  · exact checkRoot_eq_nil_iff
  · intro diagnostic reported
    obtain ⟨element, way⟩ := leadsTo_of_mem_checkRoot reported
    exact ⟨diagnostic.path, element, way, pathText_eq (ne_nil_of_leadsTo way)⟩

end ChatMarkup.Markup
