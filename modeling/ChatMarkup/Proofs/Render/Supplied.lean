/-
  ChatMarkup/Proofs/Render/Supplied.lean
  ======================================
  **Where typed values come from** — no typed value is made while a template is rendered,
  except by the wrappers: formulas and loops only pass on what the variables hold.

  `P` is a property of typed values that those of the variables have, and those that the
  wrappers make (`Wrappers.Make`).  Every value of a formula then holds values with this
  property only, and so does every scope on the way (`Scope.Within`).
-/
import ChatMarkup.Proofs.Formula.Evaluation
import ChatMarkup.Render.Refusal

namespace ChatMarkup

/-- Every typed value that a value holds has a property. -/
def Value.Within (P : Typed → Prop) (value : Value) : Prop := ∀ t, value.Holds t → P t

def Scope.Within (P : Typed → Prop) (scope : Scope) : Prop :=
  ∀ name value, scope.get? name = some value → value.Within P

structure Wrappers.Make (wrappers : Wrappers) (P : Typed → Prop) : Prop where
  int : ∀ n, P (wrappers.int n)
  real : ∀ x, P (wrappers.real x)
  str : ∀ s, P (wrappers.str s)

variable {P : Typed → Prop} {scope : Scope} {wrappers : Wrappers}

/-! ### Values -/

theorem Value.within_typed {t : Typed} (h : P t) : (Value.typed t).Within P := by
  intro t' holds
  cases holds
  exact h

theorem Value.within_array {entries : Entries} :
    (Value.array entries).Within P ↔ ∀ value ∈ Entries.values entries, value.Within P := by
  constructor
  · intro h value member t holds
    obtain ⟨⟨key, _⟩, inside, rfl⟩ := List.mem_map.mp member
    exact h t (.entry inside holds)
  · intro h t holds
    cases holds with
    | @entry _ key value member holds =>
      exact h value (List.mem_map.mpr ⟨(key, value), member, rfl⟩) t holds

theorem Value.within_int (n : Int64) : (Value.int n).Within P := by
  intro t holds
  cases holds

theorem Value.within_real (x : Float) : (Value.real x).Within P := by
  intro t holds
  cases holds

theorem Value.Within.wrap {value : Value} (h : value.Within P) (made : wrappers.Make P) :
    (value.wrap wrappers).Within P := by
  cases value with
  | int n => exact Value.within_typed (made.int n)
  | real x => exact Value.within_typed (made.real x)
  | str s => exact Value.within_typed (made.str s)
  | typed t => exact h
  | array entries => exact h

/-! ### Scopes -/

theorem Scope.within_empty : Scope.empty.Within P := by
  intro name value found
  cases found

theorem Scope.Within.child (h : scope.Within P) : scope.child.Within P := h

theorem Scope.Within.bind (h : scope.Within P) (name : String) {value : Value}
    (within : value.Within P) : (scope.bind name value).Within P := by
  intro other found bound
  by_cases same : other = name
  · subst same
    rw [Scope.get?_bind_self] at bound
    cases bound
    exact within
  · rw [Scope.get?_bind_of_ne _ _ same] at bound
    exact h other found bound

/-! ### Formulas -/

namespace Formula

/-- An operation passes on what its operands hold. -/
theorem Sums.within {op : Op} {left right value : Value} (h : Sums op left right value)
    (first : left.Within P) (second : right.Within P) : value.Within P := by
  cases h with
  | arrays =>
    rw [Value.within_array] at first second ⊢
    intro value member
    rw [Entries.values_merge, List.mem_append] at member
    rcases member with member | member
    · exact first value member
    · exact second value member
  | addInts | subInts => exact Value.within_int _
  | addReals | subReals => exact Value.within_real _

mutual

theorem Primary.Denotes.within (h : scope.Within P) {value : Value} :
    (p : Primary) → p.Denotes scope value → value.Within P
  | .number n, denotes => by
    cases denotes with
    | int n => exact Value.within_int n
    | real x => exact Value.within_real x
  | .named name, denotes => by
    cases denotes with
    | named bound => exact h name value (findSome?_lookup_eq_some_iff.mpr bound)
  | .group inner, denotes => by
    cases denotes with
    | group denotes => exact Expr.Denotes.within h inner denotes

theorem Term.Denotes.within (h : scope.Within P) {value : Value} :
    (t : Term) → t.Denotes scope value → value.Within P
  | .plain operand, denotes => by
    cases denotes with
    | plain denotes => exact Primary.Denotes.within h operand denotes
  | .counted operand, denotes => by
    cases denotes
    exact Value.within_int _

theorem Expr.Denotes.within (h : scope.Within P) {value : Value} :
    (e : Expr) → e.Denotes scope value → value.Within P
  | .single term, denotes => by
    cases denotes with
    | single denotes => exact Term.Denotes.within h term denotes
  | .chain left op right, denotes => by
    cases denotes with
    | chain first second sum =>
      exact sum.within (Expr.Denotes.within h left first) (Term.Denotes.within h right second)

end

/-- **The value of a formula holds what the variables hold.** -/
theorem within_evaluate (h : scope.Within P) {formula : String} {value : Value}
    (evaluated : evaluate scope formula = .ok value) : value.Within P := by
  obtain ⟨tree, -, -, evaluated⟩ := exists_eval_of_evaluate evaluated
  exact Expr.Denotes.within h tree (tree.eval_eq_ok_iff.mp evaluated)

end Formula

/-! ### Scopes on the way -/

namespace Render

theorem within_scopeFor (h : scope.Within P) (made : wrappers.Make P) (loop : Loop)
    {entry : String × Value} (within : entry.2.Within P) :
    (loop.scopeFor wrappers scope entry).Within P := by
  unfold Loop.scopeFor
  cases loop.key with
  | none => exact h.child.bind loop.item (within.wrap made)
  | some key =>
    have layer := h.child.bind key (Value.within_typed (made.str entry.1))
    exact layer.bind loop.item (within.wrap made)

theorem within_entries (h : scope.Within P) {loop : Loop} {entries : Entries}
    (found : loop.entries scope = .ok entries) : ∀ entry ∈ entries, entry.2.Within P := by
  unfold Loop.entries at found
  split at found
  · rename_i bound
    cases found
    have within := Value.within_array.mp (h _ _ bound)
    intro entry member
    exact within entry.2 (List.mem_map.mpr ⟨entry, member, rfl⟩)
  · cases found
  · cases found

theorem within_foldl_bind {vars : Variables} (h : scope.Within P) (made : wrappers.Make P)
    (within : ∀ var ∈ vars, var.2.Within P) :
    (vars.foldl (fun scope var => scope.bind var.1 (var.2.wrap wrappers)) scope).Within P := by
  induction vars generalizing scope with
  | nil => exact h
  | cons var vars ih =>
    obtain ⟨first, others⟩ := List.forall_mem_cons.mp within
    exact ih (h.bind var.1 (first.wrap made)) others

/-- **The scope of a template holds what is supplied.** -/
theorem within_rootScope {styler : Styler} {vars : Variables}
    (h : styler.rootScope vars = .ok scope) : scope.Within (styler.Supplies vars) := by
  unfold Styler.rootScope at h
  split at h
  · cases h
  · cases h
    have made : styler.wrappers.Make (styler.Supplies vars) := ⟨.int, .real, .str⟩
    apply within_foldl_bind Scope.within_empty made
    intro var member t holds
    exact .variable member holds

end Render

end ChatMarkup
