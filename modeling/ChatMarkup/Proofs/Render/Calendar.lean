/-
  ChatMarkup/Proofs/Render/Calendar.lean
  ======================================
  **When the rendering is given up** — for the local time of a moment, and for nothing else
  (`givenUp_only_leavingCalendar`).

  The offset is added to a timestamp that has been found to be in the calendar, and the sum is
  not checked again, whether or not any part of it is to be written.  So a moment can be
  written, or is refused with an error, exactly if its offset does not take it out of the
  calendar, which it can only do within 26 hours of either end.

  No tree and no template makes up a moment.  Whatever is to be rendered, checked or not, if it
  is given up then some moment among the variables, or one that the wrappers make, leaves the
  calendar.
-/
import ChatMarkup.Proofs.Render.Checked
import ChatMarkup.Proofs.Render.Reference

namespace ChatMarkup

variable {moment : Moment}

/-! ### Moments -/

namespace Locale

/-- What becomes of a moment depends on the calendar alone. -/
theorem formatMoment_cases (moment : Moment) :
    (formatMoment moment = .error .timestampOutOfRange ∧ ¬moment.LeavesCalendar) ∨
      (formatMoment moment = .error .localTimeOutOfRange ∧ moment.LeavesCalendar) ∨
      ∃ text, formatMoment moment = .ok text ∧ ¬moment.LeavesCalendar := by
  unfold formatMoment Moment.LeavesCalendar
  dsimp only
  by_cases universal : inCalendar moment.timestamp.toInt
  · by_cases shifted : inCalendar (moment.timestamp.toInt + moment.offset.seconds)
    · rw [if_neg (not_not.mpr universal), if_neg (not_not.mpr shifted)]
      exact Or.inr (Or.inr ⟨_, rfl, fun leaves => leaves.2 shifted⟩)
    · rw [if_neg (not_not.mpr universal), if_pos shifted]
      exact Or.inr (Or.inl ⟨rfl, universal, shifted⟩)
  · rw [if_pos universal]
    exact Or.inl ⟨rfl, fun leaves => universal leaves.1⟩

end Locale

namespace Render

open Markup (Node Tag)

/-! ### Errors that are excused -/

/-- The error for a local time outside the calendar has a moment for a reason. -/
def Excused (P : Typed → Prop) (error : Error) : Prop :=
  error = .locale .localTimeOutOfRange →
    ∃ moment, P (.moment moment) ∧ moment.LeavesCalendar

variable {styler : Styler} {P : Typed → Prop}

theorem Stops.excused {incomplete : Prop} {error : Error} (stops : Stops P incomplete error) :
    Excused P error := by
  rintro rfl
  rcases stops with permitted | ⟨-, reason⟩
  · cases permitted
  · exact reason

theorem excused_of_stops {α : Type} {x : Except Error α} (h : FailsOnly (Stops P True) x) :
    FailsOnly (Excused P) x := h.mono fun _ => Stops.excused

theorem excused_required (tag : Tag) (attr : String) :
    FailsOnly (Excused P) (required tag attr) := by
  unfold required
  split
  · exact failsOnly_ok _
  · exact failsOnly_error Error.noConfusion

theorem excused_attributeValue (scope : Scope) (tag : Tag) (attr : String) :
    FailsOnly (Excused P) (attributeValue scope tag attr) := by
  refine (excused_required tag attr).bind fun formula _ => ?_
  exact failsOnly_mapError fun _ _ => Error.noConfusion

theorem excused_recolored (tag : Tag) (style : Style) :
    FailsOnly (Excused P) (recolored tag style) := by
  refine (excused_of_stops (stops_channel tag "fg")).bind fun fg _ => ?_
  refine (excused_of_stops (stops_channel tag "bg")).bind fun bg _ => ?_
  split
  · exact failsOnly_error Error.noConfusion
  · exact failsOnly_ok _

theorem excused_checkName (name : String) : FailsOnly (Excused P) (checkName name) := by
  unfold checkName
  split
  · exact failsOnly_ok ()
  · exact failsOnly_error Error.noConfusion

theorem excused_ofTag (tag : Tag) : FailsOnly (Excused P) (Loop.ofTag tag) := by
  refine (excused_required tag "from").bind fun source _ => ?_
  refine (excused_required tag "item").bind fun item _ => ?_
  refine (excused_checkName source).bind fun _ _ => (excused_checkName item).bind fun _ _ => ?_
  refine FailsOnly.bind ?_ fun _ _ => failsOnly_ok _
  cases tag.attribute? "key" with
  | none => exact failsOnly_ok ()
  | some name => exact excused_checkName name

/-! ### Trees -/

mutual

theorem excused_node (standard : styler.service = Locale.Service.standard)
    (made : styler.wrappers.Make P) (node : Node) {style : Style} {scope : Scope}
    (within : scope.Within P) : FailsOnly (Excused P) (renderNode styler style scope node) :=
  match node with
  | .text text => failsOnly_ok text.toList
  | .element tag children => by
    have inside {style : Style} {scope : Scope} (within : scope.Within P) :
        FailsOnly (Excused P) (renderNodes styler style scope children) :=
      excused_nodes standard made children within
    rw [renderNode]
    cases Role.ofName tag.name with
    | var =>
      refine (excused_attributeValue scope tag "name").bind fun value h => ?_
      obtain ⟨formula, -, evaluated⟩ := attributeValue_eq_ok.mp h
      -- a typed value that a formula gives was in the scope already
      have held := Formula.within_evaluate within evaluated
      exact excused_of_stops (stops_display standard held)
    | bold => exact (inside within).bind fun text _ => failsOnly_ok _
    | underline => exact (inside within).bind fun text _ => failsOnly_ok _
    | color =>
      refine (excused_recolored tag style).bind fun colored _ => ?_
      exact (inside within).bind fun text _ => failsOnly_ok _
    | loop =>
      refine (excused_ofTag tag).bind fun loop _ => ?_
      refine (excused_of_stops (stops_entries loop scope)).bind fun entries found => ?_
      refine FailsOnly.bind ?_ fun texts _ => failsOnly_ok _
      apply failsOnly_mapM
      intro entry member
      exact inside (within_scopeFor within made loop (within_entries within found entry member))
    | plural =>
      refine (excused_attributeValue scope tag "var").bind fun value _ => ?_
      refine (excused_of_stops (stops_countOf value)).bind fun count _ => ?_
      refine (excused_cases standard made children within).bind fun cases _ => ?_
      exact excused_of_stops (stops_selectCase standard (Or.inr trivial))
    | transparent => exact inside within

theorem excused_nodes (standard : styler.service = Locale.Service.standard)
    (made : styler.wrappers.Make P) (nodes : List Node) {style : Style} {scope : Scope}
    (within : scope.Within P) : FailsOnly (Excused P) (renderNodes styler style scope nodes) :=
  match nodes with
  | [] => failsOnly_ok []
  | node :: rest => by
    rw [renderNodes]
    refine (excused_node standard made node within).bind fun text _ => ?_
    exact (excused_nodes standard made rest within).bind fun texts _ => failsOnly_ok _

theorem excused_cases (standard : styler.service = Locale.Service.standard)
    (made : styler.wrappers.Make P) (nodes : List Node) {style : Style} {scope : Scope}
    (within : scope.Within P) : FailsOnly (Excused P) (renderCases styler style scope nodes) :=
  match nodes with
  | [] => failsOnly_ok []
  | .text text :: rest => by
    rw [renderCases]
    exact excused_cases standard made rest within
  | .element tag children :: rest => by
    have others : FailsOnly (Excused P) (renderCases styler style scope rest) :=
      excused_cases standard made rest within
    rw [renderCases]
    split
    · refine (excused_required tag "form").bind fun form _ => ?_
      refine (excused_nodes standard made children within).bind fun text _ => ?_
      exact others.bind fun cases _ => failsOnly_ok _
    · exact others

end

/-! ### Templates -/

theorem excused_rootScope (styler : Styler) (vars : Variables) :
    FailsOnly (Excused P) (styler.rootScope vars) := by
  unfold Styler.rootScope
  split
  · exact failsOnly_error Error.noConfusion
  · exact failsOnly_ok _

theorem excused_renderTree (standard : styler.service = Locale.Service.standard)
    (root : Markup.Element) (vars : Variables) :
    FailsOnly (Excused (styler.Supplies vars)) (styler.renderTree root vars) := by
  have made : styler.wrappers.Make (styler.Supplies vars) := ⟨.int, .real, .str⟩
  refine (excused_rootScope styler vars).bind fun scope start => ?_
  refine (excused_nodes standard made root.children (within_rootScope start)).bind fun text _ => ?_
  exact failsOnly_ok _

theorem excused_render (standard : styler.service = Locale.Service.standard) (template : String)
    (vars : Variables) :
    FailsOnly (Excused (styler.Supplies vars)) (styler.render template vars) := by
  unfold Styler.render
  split
  · refine FailsOnly.bind (failsOnly_mapError fun _ _ => Error.noConfusion) fun root _ => ?_
    split
    · exact excused_renderTree standard root vars
    · exact failsOnly_error Error.noConfusion
  · exact failsOnly_ok template

/-- A variable is shown as the locale service writes it. -/
theorem renderTree_shown {name : String} {value : Value} (vars : Variables)
    (named : ∀ var ∈ vars, Formula.isName var.1 = true) (found : vars.value? name = some value)
    (valid : Formula.isName name = true) (proper : Formula.beginsNumber name.toList = false) :
    styler.renderTree (Markup.root [.element ⟨"var", [("name", name)]⟩ []]) vars =
      (styler.display (value.wrap styler.wrappers)).map fun text =>
        String.ofList (Wire.cleanUp text) := by
  obtain ⟨scope, start, bound⟩ := exists_rootScope styler named
  have evaluated : Formula.evaluate scope name = .ok (value.wrap styler.wrappers) := by
    rw [Formula.evaluate_name valid proper, Formula.resolve, bound, found]
    rfl
  have refers : Refers styler scope name (value.wrap styler.wrappers) := .of_evaluate evaluated
  rw [Styler.renderTree, start, ok_bind, Markup.root, renderNodes, renderNodes,
    refers.shown _ _ _ rfl rfl]
  cases styler.display (value.wrap styler.wrappers) with
  | error error => rfl
  | ok text =>
    simp only [ok_bind, List.append_nil]
    rfl

/-- A variable that is a moment. -/
theorem givenUp_shown_iff (standard : styler.service = Locale.Service.standard) {tag : Locale.Tag}
    (readable : Locale.readTag styler.locale = .ok tag) {name : String} {moment : Moment}
    (vars : Variables) (named : ∀ var ∈ vars, Formula.isName var.1 = true)
    (found : vars.value? name = some (.typed (.moment moment)))
    (valid : Formula.isName name = true) (proper : Formula.beginsNumber name.toList = false) :
    styler.renderTree (Markup.root [.element ⟨"var", [("name", name)]⟩ []]) vars =
        .error (.locale .localTimeOutOfRange) ↔ moment.LeavesCalendar := by
  -- the tag is readable, so the service gets as far as the moment
  have displayed : styler.display (.typed (.moment moment)) =
      (Locale.formatMoment moment).mapError Error.locale := by
    rw [Styler.display, standard]
    show (Locale.formatTyped styler.locale (.moment moment)).mapError Error.locale = _
    rw [Locale.formatTyped, readable, ok_bind]
  rw [renderTree_shown vars named found valid proper]
  show (styler.display (.typed (.moment moment))).map _ = _ ↔ _
  rw [displayed]
  rcases Locale.formatMoment_cases moment with ⟨e, stays⟩ | ⟨e, leaves⟩ | ⟨text, e, stays⟩
  · simp [e, Except.mapError, Except.map, stays]
  · simp [e, Except.mapError, Except.map, leaves]
  · simp [e, Except.mapError, Except.map, stays]

/-- **Only moments that leave the calendar stop a rendering without an error.** With the standard
    rules for locales, a moment is written or refused unless it leaves the calendar, and then
    no template and no tree is given up unless such a moment is supplied.  A variable that is
    a moment is enough to tell: where it is shown, the rendering is given up exactly if the
    moment leaves the calendar. -/
theorem givenUp_only_leavingCalendar (standard : styler.service = Locale.Service.standard)
    (vars : Variables) :
    (∀ moment : Moment,
        ((∃ text, Locale.formatMoment moment = .ok text) ∨
          Locale.formatMoment moment = .error .timestampOutOfRange) ↔ ¬moment.LeavesCalendar) ∧
      (∀ template, styler.render template vars = .error (.locale .localTimeOutOfRange) →
        ∃ moment, styler.Supplies vars (.moment moment) ∧ moment.LeavesCalendar) ∧
      (∀ root, styler.renderTree root vars = .error (.locale .localTimeOutOfRange) →
        ∃ moment, styler.Supplies vars (.moment moment) ∧ moment.LeavesCalendar) ∧
      ∀ tag name moment, Locale.readTag styler.locale = .ok tag →
        (∀ var ∈ vars, Formula.isName var.1 = true) → Formula.isName name = true →
        Formula.beginsNumber name.toList = false →
        vars.value? name = some (.typed (.moment moment)) →
        (styler.renderTree (Markup.root [.element ⟨"var", [("name", name)]⟩ []]) vars =
          .error (.locale .localTimeOutOfRange) ↔ moment.LeavesCalendar) := by
  refine ⟨?_, ?_, ?_, ?_⟩
  · intro moment
    rcases Locale.formatMoment_cases moment with ⟨e, stays⟩ | ⟨e, leaves⟩ | ⟨text, e, stays⟩
    · simp [e, stays]
    · simp [e, leaves]
    · simp [e, stays]
  · intro template givenUp
    exact excused_render standard template vars _ givenUp rfl
  · intro root givenUp
    exact excused_renderTree standard root vars _ givenUp rfl
  · intro tag name moment readable named valid proper found
    exact givenUp_shown_iff standard readable vars named found valid proper

/-- The last second of the calendar, an hour further west. -/
theorem not_givenUp_west_of_last_second :
    let moment : Moment := { timestamp := 253402300799, offset := ⟨-3600, by decide⟩ }
    ({} : Styler).service = Locale.Service.standard ∧ ¬moment.LeavesCalendar ∧
      ∀ template, ({} : Styler).render template [("x", .typed (.moment moment))] ≠
        .error (.locale .localTimeOutOfRange) := by
  intro moment
  have stays : ¬moment.LeavesCalendar := fun leaves => leaves.2 (by decide)
  refine ⟨rfl, stays, fun template givenUp => ?_⟩
  obtain ⟨-, only, -⟩ := @givenUp_only_leavingCalendar {} rfl [("x", .typed (.moment moment))]
  obtain ⟨other, supplied, leaves⟩ := only template givenUp
  generalize e : Typed.moment other = t at supplied
  -- the moment comes from the one variable; the wrappers make none
  rcases supplied with ⟨member, holds⟩ | n | x | s
  · rw [List.mem_singleton] at member
    cases member
    cases holds
    cases e
    exact stays leaves
  · cases e
  · cases e
  · cases e

/-- The first second of the calendar, a second further west, with nothing to be written. -/
theorem givenUp_before_first_second :
    let moment : Moment :=
      { timestamp := -377705116800, date := none, time := none, offset := ⟨-1, by decide⟩ }
    Locale.inCalendar moment.timestamp.toInt ∧
      ¬((∃ text, Locale.formatMoment moment = .ok text) ∨
        Locale.formatMoment moment = .error .timestampOutOfRange) ∧
      ({} : Styler).render "<var name=\"x\"/>" [("x", .typed (.moment moment))] =
        .error (.locale .localTimeOutOfRange) := by
  intro moment
  have outcome : Locale.formatMoment moment = .error .localTimeOutOfRange := by decide
  refine ⟨by decide, ?_, error?_eq_some_iff.mp (by decide +kernel)⟩
  rintro (⟨text, written⟩ | refused)
  · cases outcome.symm.trans written
  · cases outcome.symm.trans refused

end Render

end ChatMarkup
