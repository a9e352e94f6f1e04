/-
  ChatMarkup/Proofs/Render/Checked.lean
  =====================================
  **What may stop the rendering of a checked tree** — of a tree that passes the check, no
  element is left without a meaning, and no error is about its shape
  (`permitted_or_givenUp_of_renderTree`).

  One error comes up that has no place there: a moment within the calendar, shown in an
  offset that takes it out of it.  A timestamp out of range is a value that cannot be
  written; a local time out of range ends the rendering with no error to speak of
  (`givenUp_at_last_second`).
-/
import ChatMarkup.Proofs.Markup.Conformance
import ChatMarkup.Proofs.Render.Supplied
import ChatMarkup.Proofs.Render.Walk
import Mathlib.Control.Monad.Basic

namespace ChatMarkup.Render

open Markup (Node Tag Conforms inside_of_conforms)

def Stops (P : Typed → Prop) (incomplete : Prop) (error : Error) : Prop :=
  Permitted incomplete error ∨ GivenUp P error

variable {styler : Styler} {P : Typed → Prop} {incomplete : Prop} {style : Style} {scope : Scope}
  {tag : Tag} {children nodes : List Node} {parent : String}

/-! ### Locales -/

theorem stops_readTag (tag : String) :
    FailsOnly (fun e => Stops P incomplete (.locale e)) (Locale.readTag tag) := by
  unfold Locale.readTag
  split
  · exact failsOnly_ok _
  · exact failsOnly_error (Or.inl (.invalidLocale tag _))

theorem stops_formatMoment {moment : Moment} (supplied : P (.moment moment)) :
    FailsOnly (fun e => Stops P incomplete (.locale e)) (Locale.formatMoment moment) := by
  unfold Locale.formatMoment
  dsimp only
  split
  · exact failsOnly_error (Or.inl .timestamp)
  · rename_i inside
    split
    · rename_i outside
      exact failsOnly_error (Or.inr ⟨rfl, moment, supplied, Classical.not_not.mp inside, outside⟩)
    · exact failsOnly_ok _

theorem stops_formatTyped (tag : String) {value : Typed} (supplied : P value) :
    FailsOnly (fun e => Stops P incomplete (.locale e)) (Locale.formatTyped tag value) := by
  unfold Locale.formatTyped
  refine (stops_readTag tag).bind fun locale _ => ?_
  cases value with
  | int n => exact failsOnly_ok _
  | float x => exact failsOnly_ok _
  | str text => exact failsOnly_ok _
  | currency money => exact failsOnly_ok _
  | moment moment => exact stops_formatMoment supplied
  | duration seconds => exact failsOnly_ok _

theorem stops_selectForm (tag : String) (count : Int64) (forms : List String) :
    FailsOnly (fun e => Stops P incomplete (.locale e)) (Locale.selectForm tag count forms) := by
  unfold Locale.selectForm
  split
  · exact failsOnly_ok _
  · refine FailsOnly.bind ?_ fun category _ => ?_
    · refine FailsOnly.bind ?_ fun system _ => failsOnly_ok _
      exact (stops_readTag tag).bind fun parsed _ => failsOnly_ok _
    · split
      · exact failsOnly_ok _
      · exact failsOnly_ok _

/-- Where there is a form for all other counts, a form is chosen that there is. -/
theorem mem_of_selectForm {tag form : String} {count : Int64} {forms : List String}
    (other : Locale.otherForm ∈ forms) (h : Locale.selectForm tag count forms = .ok form) :
    form ∈ forms := by
  unfold Locale.selectForm at h
  split at h
  · rename_i there
    cases h
    exact there
  · obtain ⟨category, -, h⟩ := bind_eq_ok.mp h
    split at h
    · rename_i there
      cases h
      exact there.resolve_right (fun none => none other)
    · cases h
      exact other

/-! ### Values and attributes -/

theorem stops_unfit {α : Type} (fault : Fault) :
    FailsOnly (Stops P incomplete) (.error (.unfit fault) : Except Error α) :=
  failsOnly_error (Or.inl (.formula _))

theorem stops_display (standard : styler.service = Locale.Service.standard) {value : Value}
    (within : value.Within P) : FailsOnly (Stops P incomplete) (styler.display value) := by
  cases value with
  | int n => exact failsOnly_ok _
  | real x => exact failsOnly_ok _
  | str text => exact failsOnly_ok _
  | typed t =>
    rw [Styler.display, standard]
    exact failsOnly_mapError (stops_formatTyped styler.locale (within t .self))
  | array entries => exact stops_unfit _

theorem stops_countOfScalar (scalar : Scalar) :
    FailsOnly (Stops P incomplete) (countOfScalar scalar) := by
  unfold countOfScalar
  split
  · exact failsOnly_ok _
  · exact failsOnly_ok _
  · split
    · exact failsOnly_ok _
    · exact stops_unfit _

theorem stops_countOf (value : Value) : FailsOnly (Stops P incomplete) (countOf value) := by
  unfold countOf
  split
  · exact failsOnly_ok _
  · exact failsOnly_ok _
  · exact stops_countOfScalar _
  · split
    · exact failsOnly_ok _
    · exact stops_unfit _
  · exact stops_countOfScalar _

theorem failsOnly_required {Q : Error → Prop} {attr : String}
    (present : ∃ value, tag.attribute? attr = some value) : FailsOnly Q (required tag attr) := by
  obtain ⟨value, found⟩ := present
  rw [required, found]
  exact failsOnly_ok value

theorem stops_attributeValue {attr : String}
    (present : ∃ value, tag.attribute? attr = some value) :
    FailsOnly (Stops P incomplete) (attributeValue scope tag attr) := by
  refine (failsOnly_required present).bind fun formula _ => ?_
  refine failsOnly_mapError fun error _ => ?_
  exact Or.inl (.formula error)

/-! ### Colours -/

theorem stops_readColor (value : String) :
    FailsOnly (Stops P incomplete) (readColor value) := by
  unfold readColor
  dsimp only
  split
  · split
    · exact failsOnly_ok _
    · exact failsOnly_error (Or.inl (.colorOutOfRange _))
  · split
    · exact failsOnly_ok _
    · exact failsOnly_error (Or.inl (.unknownColor _ _))

theorem stops_channel (tag : Tag) (name : String) :
    FailsOnly (Stops P incomplete) (channel tag name) := by
  unfold channel
  split
  · exact failsOnly_ok _
  · split
    · exact failsOnly_ok _
    · exact failsOnly_map (stops_readColor _)

/-- An attribute that sets a colour gives one, if it can be read at all. -/
theorem channel_ne_none {name : String} (sets : tag.Sets name) : channel tag name ≠ .ok none := by
  obtain ⟨value, found, some⟩ := sets
  have filled : value.isEmpty = false := by simpa using some
  rw [channel, found]
  dsimp only
  rw [filled]
  cases readColor value with
  | error e => simp [Except.map]
  | ok color => simp [Except.map]

theorem stops_recolored (sets : tag.Sets "fg" ∨ tag.Sets "bg") :
    FailsOnly (Stops P incomplete) (recolored tag style) := by
  refine (stops_channel tag "fg").bind fun fg first => ?_
  refine (stops_channel tag "bg").bind fun bg second => ?_
  split
  · rename_i none
    rw [Bool.and_eq_true, Option.isNone_iff_eq_none, Option.isNone_iff_eq_none] at none
    obtain ⟨rfl, rfl⟩ := none
    rcases sets with sets | sets
    · exact absurd first (channel_ne_none sets)
    · exact absurd second (channel_ne_none sets)
  · exact failsOnly_ok _

/-! ### Loops -/

theorem failsOnly_checkName {Q : Error → Prop} {name : String}
    (valid : Formula.isName name = true) : FailsOnly Q (checkName name) := by
  rw [checkName, if_pos valid]
  exact failsOnly_ok ()

/-- The names in the attributes of a `for` element are valid. -/
theorem failsOnly_checkName_of_fits {Q : Error → Prop} {required optional names : List String}
    (fits : tag.Fits required optional names) {attr name : String} (named : attr ∈ names)
    (found : tag.attribute? attr = some name) : FailsOnly Q (checkName name) :=
  failsOnly_checkName (fits.named (attr, name) (mem_of_lookup_eq_some found) named)

theorem failsOnly_ofTag {Q : Error → Prop} {optional : List String}
    (fits : tag.Fits ["from", "item"] optional ["from", "item", "key"]) :
    FailsOnly Q (Loop.ofTag tag) := by
  unfold Loop.ofTag
  refine (failsOnly_required (fits.complete "from" (by simp))).bind fun source found => ?_
  refine (failsOnly_required (fits.complete "item" (by simp))).bind fun item found' => ?_
  refine (failsOnly_checkName_of_fits fits (by simp) (required_eq_ok.mp found)).bind fun _ _ => ?_
  refine (failsOnly_checkName_of_fits fits (by simp) (required_eq_ok.mp found')).bind
    fun _ _ => ?_
  refine FailsOnly.bind ?_ fun _ _ => failsOnly_ok _
  cases key : tag.attribute? "key" with
  | none => exact failsOnly_ok ()
  | some name => exact failsOnly_checkName_of_fits fits (by simp) key

theorem stops_entries (loop : Loop) (scope : Scope) :
    FailsOnly (Stops P incomplete) (loop.entries scope) := by
  unfold Loop.entries
  split
  · exact failsOnly_ok _
  · exact stops_unfit _
  · exact failsOnly_error (Or.inl (.formula _))

/-! ### Plurals -/

theorem HasCase.of_cons {node : Node} {form : String} (has : HasCase form (node :: nodes)) :
    (∃ tag body, node = .element tag body ∧ tag.name = "case" ∧
      tag.attribute? "form" = some form) ∨ HasCase form nodes := by
  obtain ⟨tag, body, member, name, attr⟩ := has
  rcases List.mem_cons.mp member with rfl | member
  · exact Or.inl ⟨tag, body, rfl, name, attr⟩
  · exact Or.inr ⟨tag, body, member, name, attr⟩

/-- The form of every case is among those of the rendered cases. -/
theorem mem_forms_of_renderCases {cases : List (String × List Char)} {form : String}
    (h : renderCases styler style scope nodes = .ok cases) (has : HasCase form nodes) :
    form ∈ cases.map Prod.fst := by
  induction nodes generalizing cases with
  | nil =>
    obtain ⟨tag, body, member, -⟩ := has
    cases member
  | cons node nodes ih =>
    cases node with
    | text text =>
      rw [renderCases] at h
      rcases has.of_cons with ⟨tag, body, e, -⟩ | has
      · cases e
      · exact ih h has
    | element tag body =>
      rw [renderCases] at h
      split at h
      · obtain ⟨own, found, h⟩ := bind_eq_ok.mp h
        obtain ⟨text, -, h⟩ := bind_eq_ok.mp h
        obtain ⟨others, rendered, h⟩ := bind_eq_ok.mp h
        cases h
        rcases has.of_cons with ⟨tag, body, e, -, attr⟩ | has
        · cases e
          rw [required_eq_ok, attr] at found
          cases found
          exact List.mem_cons_self
        · exact List.mem_cons_of_mem _ (ih rendered has)
      · rename_i other
        rcases has.of_cons with ⟨tag, body, e, name, -⟩ | has
        · cases e
          exact absurd name other
        · exact ih h has

theorem stops_selectCase (standard : styler.service = Locale.Service.standard) {count : Int64}
    {cases : List (String × List Char)}
    (other : Locale.otherForm ∈ cases.map Prod.fst ∨ incomplete) :
    FailsOnly (Stops P incomplete) (selectCase styler count cases) := by
  unfold selectCase
  rw [standard]
  refine FailsOnly.bind (failsOnly_mapError (stops_selectForm _ _ _)) fun form chosen => ?_
  cases found : cases.lookup form with
  | some text => exact failsOnly_ok text
  | none =>
    refine failsOnly_error (Or.inl (.missingCase _ _ (other.resolve_left fun there => ?_)))
    have member := mem_of_selectForm (Text.mem_nameSet.mpr there) (mapError_eq_ok.mp chosen)
    obtain ⟨case, inside, rfl⟩ := List.mem_map.mp (Text.mem_nameSet.mp member)
    have absent := List.lookup_eq_none_iff.mp found case inside
    simp at absent

/-! ### Names of elements -/

/-- Where the check lets an element stand, it has a meaning; only a case stands for its
    children, and it stands in a plural. -/
theorem role_of_conforms (h : Conforms parent (.element tag children)) (free : parent ≠ "plural") :
    Role.ofName tag.name ≠ .transparent := by
  cases h with
  | var name => simp [name, Role.ofName]
  | toggle name => rcases name with name | name <;> simp [name, Role.ofName]
  | color name => simp [name, Role.ofName]
  | loop name => simp [name, Role.ofName]
  | plural name => simp [name, Role.ofName]
  | case => exact absurd rfl free

/-- A case has a form. -/
theorem form_of_conforms (h : Conforms parent (.element tag children)) (name : tag.name = "case") :
    ∃ form, tag.attribute? "form" = some form := by
  cases h with
  | var other => simp [name] at other
  | toggle other => rcases other with other | other <;> simp [name] at other
  | color other => simp [name] at other
  | loop other => simp [name] at other
  | plural other => simp [name] at other
  | case _ fits => exact fits.complete "form" (by simp)

/-- **No element is left without a meaning.** -/
theorem role_of_reaches (conforms : ∀ node ∈ nodes, Conforms parent node)
    (free : parent ≠ "plural") (reaches : Reaches nodes tag) :
    Role.ofName tag.name ≠ .transparent := by
  induction reaches generalizing parent with
  | here member => exact role_of_conforms (conforms _ member) free
  | @inside nodes children outer tag member notVar notPlural further ih =>
    apply ih (inside_of_conforms (conforms _ member))
    intro plural
    apply notPlural
    rw [plural]
    rfl
  | @case nodes children body outer form tag member plural found name further ih =>
    have case := inside_of_conforms (conforms _ member) _ found
    apply ih (inside_of_conforms case)
    rw [name]
    decide

/-! ### Elements by their roles -/

/-- No rendering of some nodes is stopped by anything else. -/
def Proceeds (styler : Styler) (P : Typed → Prop) (incomplete : Prop) (nodes : List Node) : Prop :=
  ∀ ⦃style scope⦄, scope.Within P →
    FailsOnly (Stops P incomplete) (renderNodes styler style scope nodes)

def ProceedsCases (styler : Styler) (P : Typed → Prop) (incomplete : Prop)
    (nodes : List Node) : Prop :=
  ∀ ⦃style scope⦄, scope.Within P →
    FailsOnly (Stops P incomplete) (renderCases styler style scope nodes)

theorem stops_var (standard : styler.service = Locale.Service.standard)
    (name : tag.name = "var") (fits : tag.Fits ["name"] [] []) (within : scope.Within P) :
    FailsOnly (Stops P incomplete) (renderNode styler style scope (.element tag children)) := by
  have role : Role.ofName tag.name = .var := by simp [name, Role.ofName]
  simp only [renderNode, role]
  refine (stops_attributeValue (fits.complete "name" (by simp))).bind fun value h => ?_
  obtain ⟨formula, -, evaluated⟩ := attributeValue_eq_ok.mp h
  exact stops_display standard (Formula.within_evaluate within evaluated)

theorem stops_toggle (name : tag.name = "b" ∨ tag.name = "u")
    (inside : Proceeds styler P incomplete children) (within : scope.Within P) :
    FailsOnly (Stops P incomplete) (renderNode styler style scope (.element tag children)) := by
  rcases name with name | name
  · have role : Role.ofName tag.name = .bold := by simp [name, Role.ofName]
    simp only [renderNode, role]
    exact (inside within).bind fun text _ => failsOnly_ok _
  · have role : Role.ofName tag.name = .underline := by simp [name, Role.ofName]
    simp only [renderNode, role]
    exact (inside within).bind fun text _ => failsOnly_ok _

theorem stops_color (name : tag.name = "color") (sets : tag.Sets "fg" ∨ tag.Sets "bg")
    (inside : Proceeds styler P incomplete children) (within : scope.Within P) :
    FailsOnly (Stops P incomplete) (renderNode styler style scope (.element tag children)) := by
  have role : Role.ofName tag.name = .color := by simp [name, Role.ofName]
  simp only [renderNode, role]
  refine (stops_recolored sets).bind fun colored _ => ?_
  exact (inside within).bind fun text _ => failsOnly_ok _

theorem stops_loop (made : styler.wrappers.Make P) (name : tag.name = "for")
    {optional : List String} (fits : tag.Fits ["from", "item"] optional ["from", "item", "key"])
    (inside : Proceeds styler P incomplete children) (within : scope.Within P) :
    FailsOnly (Stops P incomplete) (renderNode styler style scope (.element tag children)) := by
  have role : Role.ofName tag.name = .loop := by simp [name, Role.ofName]
  simp only [renderNode, role]
  refine (failsOnly_ofTag fits).bind fun loop _ => ?_
  refine (stops_entries loop scope).bind fun entries found => ?_
  refine FailsOnly.bind ?_ fun texts _ => failsOnly_ok _
  apply failsOnly_mapM
  intro entry member
  exact inside (within_scopeFor within made loop (within_entries within found entry member))

theorem stops_plural (standard : styler.service = Locale.Service.standard)
    (name : tag.name = "plural") (fits : tag.Fits ["var"] [] [])
    (other : HasCase Locale.otherForm children ∨ incomplete)
    (inside : ProceedsCases styler P incomplete children) (within : scope.Within P) :
    FailsOnly (Stops P incomplete) (renderNode styler style scope (.element tag children)) := by
  have role : Role.ofName tag.name = .plural := by simp [name, Role.ofName]
  simp only [renderNode, role]
  refine (stops_attributeValue (fits.complete "var" (by simp))).bind fun value _ => ?_
  refine (stops_countOf value).bind fun count _ => ?_
  refine (inside within).bind fun cases rendered => ?_
  exact stops_selectCase standard (other.imp_left (mem_forms_of_renderCases rendered))

/-! ### Trees -/

theorem Incomplete.of_mem (member : .element tag children ∈ nodes) (h : Incomplete children) :
    Incomplete nodes := by
  obtain ⟨plural, cases, occurs, name, none⟩ := h
  exact ⟨plural, cases, .inside member occurs, name, none⟩

theorem Incomplete.mono {few many : List Node} (all : ∀ node ∈ few, node ∈ many)
    (h : Incomplete few) : Incomplete many := by
  obtain ⟨plural, cases, occurs, name, none⟩ := h
  refine ⟨plural, cases, ?_, name, none⟩
  cases occurs with
  | here member => exact .here (all _ member)
  | inside member deeper => exact .inside (all _ member) deeper

mutual

theorem stops_node (standard : styler.service = Locale.Service.standard)
    (made : styler.wrappers.Make P) (node : Node) {parent : String}
    (conforms : Conforms parent node) (free : parent ≠ "plural")
    (lacking : Incomplete [node] → incomplete) {style : Style} {scope : Scope}
    (within : scope.Within P) :
    FailsOnly (Stops P incomplete) (renderNode styler style scope node) :=
  match node with
  | .text text => failsOnly_ok text.toList
  | .element tag children => by
    have below (h : Incomplete children) : incomplete :=
      lacking (h.of_mem List.mem_cons_self)
    -- one rule for each way to conform, given what the recursion says of the children
    cases conforms with
    | var name fits => exact stops_var standard name fits within
    | toggle name fits inside =>
      have free : tag.name ≠ "plural" := by rcases name with name | name <;> simp [name]
      exact stops_toggle name (proceeds standard made children inside free below) within
    | color name fits sets inside =>
      have free : tag.name ≠ "plural" := by simp [name]
      exact stops_color name sets (proceeds standard made children inside free below) within
    | loop name fits inside =>
      have free : tag.name ≠ "plural" := by simp [name]
      exact stops_loop made name fits (proceeds standard made children inside free below) within
    | plural name fits some only inside =>
      -- a plural without a case for all other counts is what makes the tree incomplete
      have other : HasCase Locale.otherForm children ∨ incomplete := by
        by_cases has : HasCase Locale.otherForm children
        · exact Or.inl has
        · exact Or.inr (lacking ⟨tag, children, .here List.mem_cons_self, name, has⟩)
      exact stops_plural standard name fits other
        (proceedsCases standard made children (name ▸ inside) below) within
    | case => exact absurd rfl free

theorem proceeds (standard : styler.service = Locale.Service.standard)
    (made : styler.wrappers.Make P) (nodes : List Node) {parent : String}
    (conforms : ∀ node ∈ nodes, Conforms parent node) (free : parent ≠ "plural")
    (lacking : Incomplete nodes → incomplete) : Proceeds styler P incomplete nodes :=
  match nodes with
  | [] => fun _ _ _ => failsOnly_ok []
  | node :: rest => by
    intro style scope within
    obtain ⟨first, others⟩ := List.forall_mem_cons.mp conforms
    have lackingFirst (h : Incomplete [node]) : incomplete :=
      lacking (h.mono (by simp))
    have lackingRest (h : Incomplete rest) : incomplete :=
      lacking (h.mono fun _ => List.mem_cons_of_mem node)
    rw [renderNodes]
    refine (stops_node standard made node first free lackingFirst within).bind fun text _ => ?_
    exact (proceeds standard made rest others free lackingRest within).bind
      fun texts _ => failsOnly_ok _

theorem proceedsCases (standard : styler.service = Locale.Service.standard)
    (made : styler.wrappers.Make P) (nodes : List Node)
    (conforms : ∀ node ∈ nodes, Conforms "plural" node)
    (lacking : Incomplete nodes → incomplete) : ProceedsCases styler P incomplete nodes :=
  match nodes with
  | [] => fun _ _ _ => failsOnly_ok []
  | .text text :: rest => by
    intro style scope within
    rw [renderCases]
    exact proceedsCases standard made rest (List.forall_mem_cons.mp conforms).2
      (fun h => lacking (h.mono fun _ => List.mem_cons_of_mem _)) within
  | .element tag children :: rest => by
    intro style scope within
    obtain ⟨first, others⟩ := List.forall_mem_cons.mp conforms
    have lackingRest (h : Incomplete rest) : incomplete :=
      lacking (h.mono fun _ => List.mem_cons_of_mem _)
    have ih : ProceedsCases styler P incomplete rest :=
      proceedsCases standard made rest others lackingRest
    rw [renderCases]
    split
    · rename_i name
      have free : tag.name ≠ "plural" := by simp [name]
      have below (h : Incomplete children) : incomplete :=
        lacking (h.of_mem List.mem_cons_self)
      have inside := proceeds standard made children (inside_of_conforms first) free below
      -- a case that conforms has a form, so only its children can stop it
      refine (failsOnly_required (form_of_conforms first name)).bind fun form _ => ?_
      refine (inside within).bind fun text _ => ?_
      exact (ih within).bind fun cases _ => failsOnly_ok _
    · exact ih within

end

/-- **What may stop the rendering of a checked tree.** With the standard rules for locales and
    variables with valid names, the renderer comes to no element without a meaning, and the
    errors it may end with are about formulas, colours, the locale, timestamps and, if some
    plural has no case for all other counts, about a missing case.  Beyond that it may only
    be given up, and only for a moment whose local time is outside the calendar. -/
theorem permitted_or_givenUp_of_renderTree {root : Markup.Element} {vars : Variables}
    (standard : styler.service = Locale.Service.standard) (checked : Markup.checkRoot root = [])
    (named : ∀ var ∈ vars, Formula.isName var.1 = true) :
    (∀ tag, Reaches root.children tag → Role.ofName tag.name ≠ .transparent) ∧
      ∀ error, styler.renderTree root vars = .error error →
        Permitted (Incomplete root.children) error ∨ GivenUp (styler.Supplies vars) error := by
  have conforms := Markup.conforms_of_checkRoot checked
  have free : Markup.rootName ≠ "plural" := by decide
  constructor
  · intro tag reaches
    exact role_of_reaches conforms.inside free reaches
  · have made : styler.wrappers.Make (styler.Supplies vars) := ⟨.int, .real, .str⟩
    have start := styler.rootScope_of_named named
    rw [Styler.renderTree, start, ok_bind]
    have walk := proceeds standard made root.children conforms.inside free id
    exact (walk (within_rootScope start)).bind fun text _ => failsOnly_ok _

/-- A plural with a case for one only, and a count of two. -/
theorem permitted_missing_case :
    let nodes : List Node :=
      [.element ⟨"plural", [("var", "2")]⟩ [.element ⟨"case", [("form", "one")]⟩ [.text "x"]]]
    ({} : Styler).renderTree (Markup.root nodes) [] = .error (.missingCase "other" ["one"]) ∧
      Incomplete nodes := by
  intro nodes
  have rendered : ({} : Styler).renderTree (Markup.root nodes) [] =
      .error (.missingCase "other" ["one"]) := by decide +kernel
  refine ⟨rendered, ?_⟩
  have checked : Markup.checkRoot (Markup.root nodes) = [] := by decide
  have stops := (permitted_or_givenUp_of_renderTree rfl checked (by simp)).2 _ rendered
  rcases stops with permitted | ⟨other, -⟩
  · cases permitted with
    | missingCase _ _ missing => exact missing
  · cases other

/-- The last second of the calendar, an hour further east: the rendering is given up. -/
theorem givenUp_at_last_second :
    let moment : Moment := { timestamp := 253402300799, offset := ⟨3600, by decide⟩ }
    let nodes : List Node := [.element ⟨"var", [("name", "x")]⟩ []]
    Markup.checkRoot (Markup.root nodes) = [] ∧ Formula.isName "x" = true ∧
      ({} : Styler).renderTree (Markup.root nodes) [("x", .typed (.moment moment))] =
        .error (.locale .localTimeOutOfRange) ∧
      ∀ incomplete, ¬Permitted incomplete (.locale .localTimeOutOfRange) := by
  refine ⟨by decide, by decide, by decide +kernel, ?_⟩
  intro incomplete permitted
  cases permitted

end ChatMarkup.Render
