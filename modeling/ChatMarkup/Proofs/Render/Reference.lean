/-
  ChatMarkup/Proofs/Render/Reference.lean
  =======================================
  **Which variables a template gets at** — those whose names do not begin with a number
  (`refers_iff`).

  A name may begin with a digit, but in a formula numbers come first: `12ab` is the number
  `12` with a name behind it, whatever the scope holds (`not_refers_digits_first`).  Loops
  ask for their source by its name and are not concerned.
-/
import ChatMarkup.Proofs.Render.Scoping

namespace ChatMarkup.Render

open Markup (Node Tag)

variable {styler : Styler} {scope : Scope} {tag : Tag} {name : String} {value : Value}

theorem attributeValue_of_evaluate {attr : String} (found : tag.attribute? attr = some name)
    (evaluated : Formula.evaluate scope name = .ok value) :
    attributeValue scope tag attr = .ok value := by
  rw [attributeValue, required_eq_ok.mpr found, ok_bind, evaluated]
  rfl

/-- Formulas decide what a name stands for in elements, too. -/
theorem Refers.of_evaluate (evaluated : Formula.evaluate scope name = .ok value) :
    Refers styler scope name value where
  evaluated := evaluated
  shown style tag children element found := by
    have role : Role.ofName tag.name = .var := by simp [element, Role.ofName]
    simp only [renderNode, role, attributeValue_of_evaluate found evaluated, ok_bind]
  counted style tag children element found := by
    have role : Role.ofName tag.name = .plural := by simp [element, Role.ofName]
    simp only [renderNode, role, attributeValue_of_evaluate found evaluated, ok_bind]

/-- A name that stands for its value in every scope does not begin with a number. -/
theorem not_beginsNumber_of_refers (valid : Formula.isName name = true)
    (refers : ∀ scope value, scope.get? name = some value → Refers styler scope name value) :
    Formula.beginsNumber name.toList = false := by
  rw [Bool.eq_false_iff]
  intro number
  -- a value that is the same in all scopes cannot be the one that each of them binds
  have stands (n : Int64) :
      Formula.evaluate (Scope.empty.bind name (.int n)) name = .ok (.int n) :=
    (refers _ _ (Scope.get?_bind_self Scope.empty name (.int n))).evaluated
  have same := Formula.evaluate_of_beginsNumber valid number
    (Scope.empty.bind name (.int 0)) (Scope.empty.bind name (.int 1))
  rw [stands, stands] at same
  cases same

theorem entries_of_get? {loop : Loop} (bound : scope.get? name = some value)
    (source : loop.source = name) : loop.entries scope = entriesOf name value := by
  subst source
  rw [Loop.entries, bound]
  cases value <;> rfl

/-- **Which variables a template gets at.** Formulas, and with them `var` and `plural` elements,
    get at every variable whose name is valid and does not begin with a number, that is, with
    a digit or with a dot and a digit, and at no other.  Loops get at all of them, and the
    variables supplied for a template are all bound in its scope. -/
theorem refers_iff (styler : Styler) (valid : Formula.isName name = true) :
    (Formula.beginsNumber name.toList = false ↔
        ∀ scope value, scope.get? name = some value → Refers styler scope name value) ∧
      (∀ (scope : Scope) value (loop : Loop), scope.get? name = some value → loop.source = name →
        loop.entries scope = entriesOf name value) ∧
      ∀ (vars : Variables) value, (∀ var ∈ vars, Formula.isName var.1 = true) →
        vars.value? name = some value →
        ∃ scope, styler.rootScope vars = .ok scope ∧
          scope.get? name = some (value.wrap styler.wrappers) := by
  refine ⟨⟨?_, not_beginsNumber_of_refers valid⟩, ?_, ?_⟩
  · intro proper scope value bound
    apply Refers.of_evaluate
    rw [Formula.evaluate_name valid proper, Formula.resolve, bound]
  · intro scope value loop bound source
    exact entries_of_get? bound source
  · intro vars value named supplied
    obtain ⟨scope, start, bound⟩ := exists_rootScope styler named
    refine ⟨scope, start, ?_⟩
    rw [bound, supplied, Option.map_some]

/-- Two dots do not begin a number, not even with a digit behind them. -/
theorem refers_two_dots :
    Formula.isName "..5" = true ∧
      Refers {} (Scope.empty.bind "..5" (.str "x")) "..5" (.str "x") := by
  have valid : Formula.isName "..5" = true := by decide
  have proper : Formula.beginsNumber "..5".toList = false := by decide
  refine ⟨valid, ?_⟩
  exact (refers_iff {} valid).1.mp proper _ _ (Scope.get?_bind_self _ _ _)

/-- A variable that a loop gets at, while the formula with its name fails. -/
theorem not_refers_digits_first :
    let list : Value := .array [("a", .int 5)]
    let scope : Scope := Scope.empty.bind "12ab" list
    Formula.isName "12ab" = true ∧ scope.get? "12ab" = some list ∧
      Formula.evaluate scope "12ab" = .error (.unexpectedToken (.named "ab") 2) ∧
      ¬Refers {} scope "12ab" list ∧
      ∀ loop : Loop, loop.source = "12ab" → loop.entries scope = .ok [("a", .int 5)] := by
  intro list scope
  have bound : scope.get? "12ab" = some list := Scope.get?_bind_self _ _ _
  have fails : Formula.evaluate scope "12ab" = .error (.unexpectedToken (.named "ab") 2) :=
    error?_eq_some_iff.mp (by decide +kernel)
  refine ⟨by decide, bound, fails, ?_, fun loop => entries_of_get? bound⟩
  intro refers
  have stands := refers.evaluated
  rw [fails] at stands
  cases stands

end ChatMarkup.Render
