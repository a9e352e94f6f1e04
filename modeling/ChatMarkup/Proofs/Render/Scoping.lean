/-
  ChatMarkup/Proofs/Render/Scoping.lean
  =====================================
  **Templates are lexically scoped** — what a tree is rendered as, text or error, depends on
  the variables that occur free in it and on no others (`renderTree_congr`).

  Two scopes that agree on the free names of a part of a tree agree on what they make of it.
  A loop keeps them agreeing on what is inside it: the names that it binds, it binds to the
  same values in both.
-/
import ChatMarkup.Proofs.Formula.Naming
import ChatMarkup.Proofs.Render.Saying
import ChatMarkup.Render.Mention
import Mathlib.Control.Monad.Basic

namespace ChatMarkup

/-- Two scopes give the same value to each of some names, or none. -/
def Scope.AgreeOn (names : List String) (first second : Scope) : Prop :=
  ∀ name ∈ names, first.get? name = second.get? name

theorem Scope.agreeOn_append {some others : List String} {first second : Scope} :
    AgreeOn (some ++ others) first second ↔
      AgreeOn some first second ∧ AgreeOn others first second :=
  List.forall_mem_append

namespace Render

open Markup (Node Tag)

variable {styler : Styler} {first second : Scope} {names : List String}
  {tag : Tag} {children nodes : List Node}

/-! ### Attributes -/

theorem mem_namesInFormula {formula name : String} :
    name ∈ namesInFormula formula ↔
      ∃ token ∈ Formula.tokens formula, token.kind = .named name := by
  rw [namesInFormula, List.mem_filterMap]
  constructor
  · rintro ⟨token, member, found⟩
    split at found
    · rename_i kind
      cases found
      exact ⟨token, member, kind⟩
    · cases found
  · rintro ⟨token, member, kind⟩
    exact ⟨token, member, by rw [kind]⟩

theorem attributeValue_congr {attr : String}
    (agree : Scope.AgreeOn (namesInAttribute tag attr) first second) :
    attributeValue first tag attr = attributeValue second tag attr := by
  unfold attributeValue required
  cases found : tag.attribute? attr with
  | none => rfl
  | some formula =>
    rw [namesInAttribute, found] at agree
    have same : Formula.evaluate first formula = Formula.evaluate second formula := by
      apply Formula.evaluate_congr
      intro token member name kind
      exact agree name (mem_namesInFormula.mpr ⟨token, member, kind⟩)
    simp only [ok_bind, same]

/-! ### Loops -/

theorem mem_boundByLoop {loop : Loop} (made : Loop.ofTag tag = .ok loop) {name : String} :
    name ∈ boundByLoop tag ↔ name = loop.item ∨ loop.key = some name := by
  obtain ⟨runsOver, key, -, -⟩ := ofTag_eq_ok_iff.mp made
  simp [boundByLoop, runsOver.itemGiven, key]

theorem entries_congr {loop : Loop}
    (agree : first.get? loop.source = second.get? loop.source) :
    loop.entries first = loop.entries second := by
  rw [Loop.entries, Loop.entries, agree]

/-- **A loop binds its names to the same values**, whatever is around it. -/
theorem agreeOn_scopeFor {loop : Loop} (made : Loop.ofTag tag = .ok loop)
    (agree : Scope.AgreeOn (names.filter fun name => !(boundByLoop tag).contains name) first second)
    (wrappers : Wrappers) (entry : String × Value) :
    Scope.AgreeOn names (loop.scopeFor wrappers first entry)
      (loop.scopeFor wrappers second entry) := by
  intro name member
  rw [Loop.get?_scopeFor, Loop.get?_scopeFor]
  -- what the loop binds is the same in both, everything else is looked up outside
  by_cases bound : name ∈ boundByLoop tag
  · rcases (mem_boundByLoop made).mp bound with item | key
    · rw [if_pos item, if_pos item]
    · rw [if_pos key, if_pos key]
  · have outer := agree name (List.mem_filter.mpr ⟨member, by simpa using bound⟩)
    rw [mem_boundByLoop made, not_or] at bound
    rw [if_neg bound.1, if_neg bound.2, if_neg bound.1, if_neg bound.2, outer]

/-! ### Elements by their roles -/

/-- A node is rendered the same in scopes that agree on what is free in it. -/
def LexicalNode (styler : Styler) (node : Node) : Prop :=
  ∀ ⦃style first second⦄, Scope.AgreeOn (freeNames node) first second →
    renderNode styler style first node = renderNode styler style second node

def Lexical (styler : Styler) (nodes : List Node) : Prop :=
  ∀ ⦃style first second⦄, Scope.AgreeOn (freeNamesOf nodes) first second →
    renderNodes styler style first nodes = renderNodes styler style second nodes

def LexicalCases (styler : Styler) (nodes : List Node) : Prop :=
  ∀ ⦃style first second⦄, Scope.AgreeOn (freeNamesOf nodes) first second →
    renderCases styler style first nodes = renderCases styler style second nodes

theorem lexical_var (role : Role.ofName tag.name = .var) :
    LexicalNode styler (.element tag children) := by
  intro style first second agree
  simp only [freeNames, role] at agree
  simp only [renderNode, role, attributeValue_congr agree]

theorem lexical_toggle
    (role : Role.ofName tag.name = .bold ∨ Role.ofName tag.name = .underline)
    (inside : Lexical styler children) : LexicalNode styler (.element tag children) := by
  intro style first second agree
  rcases role with role | role
  · simp only [freeNames, role] at agree
    simp only [renderNode, role, inside agree]
  · simp only [freeNames, role] at agree
    simp only [renderNode, role, inside agree]

theorem lexical_color (role : Role.ofName tag.name = .color)
    (inside : Lexical styler children) : LexicalNode styler (.element tag children) := by
  intro style first second agree
  simp only [freeNames, role] at agree
  simp only [renderNode, role, inside agree]

theorem lexical_loop (role : Role.ofName tag.name = .loop)
    (inside : Lexical styler children) : LexicalNode styler (.element tag children) := by
  intro style first second agree
  simp only [freeNames, role] at agree
  obtain ⟨agreeSource, agreeInside⟩ := Scope.agreeOn_append.mp agree
  simp only [renderNode, role]
  cases made : Loop.ofTag tag with
  | error e => rfl
  | ok loop =>
    -- the name of the array is free in the loop even if an entry has the same one
    have source : first.get? loop.source = second.get? loop.source := by
      apply agreeSource
      simp [(ofTag_eq_ok_iff.mp made).1.fromGiven]
    have bodies (entry : String × Value) :
        renderNodes styler style (loop.scopeFor styler.wrappers first entry) children =
          renderNodes styler style (loop.scopeFor styler.wrappers second entry) children := by
      apply inside
      exact agreeOn_scopeFor made agreeInside styler.wrappers entry
    simp only [ok_bind, entries_congr source, bodies]

theorem lexical_plural (role : Role.ofName tag.name = .plural)
    (inside : LexicalCases styler children) : LexicalNode styler (.element tag children) := by
  intro style first second agree
  simp only [freeNames, role] at agree
  obtain ⟨agreeCount, agreeInside⟩ := Scope.agreeOn_append.mp agree
  simp only [renderNode, role, attributeValue_congr agreeCount, inside agreeInside]

theorem lexical_transparent (role : Role.ofName tag.name = .transparent)
    (inside : Lexical styler children) : LexicalNode styler (.element tag children) := by
  intro style first second agree
  simp only [freeNames, role] at agree
  simp only [renderNode, role]
  exact inside agree

theorem freeNames_case (name : tag.name = "case") :
    freeNames (.element tag children) = freeNamesOf children := by
  simp [freeNames, name, Role.ofName]

/-! ### Trees -/

mutual

theorem lexicalNode (node : Node) : LexicalNode styler node :=
  match node with
  | .text _ => fun _ _ _ _ => rfl
  | .element tag children => by
    -- one lemma for each role, given what the recursion says of the children
    cases role : Role.ofName tag.name with
    | var => exact lexical_var role
    | bold => exact lexical_toggle (Or.inl role) (lexical children)
    | underline => exact lexical_toggle (Or.inr role) (lexical children)
    | color => exact lexical_color role (lexical children)
    | loop => exact lexical_loop role (lexical children)
    | plural => exact lexical_plural role (lexicalCases children)
    | transparent => exact lexical_transparent role (lexical children)

theorem lexical (nodes : List Node) : Lexical styler nodes :=
  match nodes with
  | [] => fun _ _ _ _ => rfl
  | node :: rest => by
    intro style first second agree
    obtain ⟨here, others⟩ := Scope.agreeOn_append.mp agree
    rw [renderNodes, renderNodes, lexicalNode node here, lexical rest others]

theorem lexicalCases (nodes : List Node) : LexicalCases styler nodes :=
  match nodes with
  | [] => fun _ _ _ _ => rfl
  | .text _ :: rest => by
    intro style first second agree
    obtain ⟨-, others⟩ := Scope.agreeOn_append.mp agree
    rw [renderCases, renderCases, lexicalCases rest others]
  | .element tag children :: rest => by
    intro style first second agree
    obtain ⟨here, others⟩ := Scope.agreeOn_append.mp agree
    rw [renderCases, renderCases, lexicalCases rest others]
    split
    · rename_i name
      rw [freeNames_case name] at here
      rw [lexical children here]
    · rfl

end

/-! ### Templates -/

theorem get?_foldl_bind (wrappers : Wrappers) (vars : Variables) (scope : Scope) (name : String) :
    (vars.foldl (fun scope var => scope.bind var.1 (var.2.wrap wrappers)) scope).get? name =
      ((vars.value? name).map fun value => value.wrap wrappers).or (scope.get? name) := by
  induction vars generalizing scope with
  | nil => rfl
  | cons var vars ih =>
    rw [List.foldl_cons, ih, Variables.value?_cons]
    by_cases same : name = var.1
    · rw [if_pos same, same, Scope.get?_bind_self]
      cases Variables.value? vars var.1 <;> rfl
    · rw [if_neg same, Scope.get?_bind_of_ne _ _ same, Option.or_none]

/-- The scope of a template holds its variables, their scalars wrapped, and nothing else. -/
theorem exists_rootScope {vars : Variables} (styler : Styler)
    (named : ∀ var ∈ vars, Formula.isName var.1 = true) :
    ∃ scope, styler.rootScope vars = .ok scope ∧
      ∀ name, scope.get? name = (vars.value? name).map fun value => value.wrap styler.wrappers := by
  refine ⟨_, styler.rootScope_of_named named, ?_⟩
  intro name
  rw [get?_foldl_bind, Scope.get?_empty, Option.or_none]

/-- **Templates are lexically scoped.** Variables with valid names that agree on what is free
    in a tree give the same result, be it a text or an error.  What a loop binds for itself,
    what is not mentioned, an earlier value of a variable and the order of the variables make
    no difference. -/
theorem renderTree_congr {root : Markup.Element} {vars vars' : Variables}
    (named : ∀ var ∈ vars, Formula.isName var.1 = true)
    (named' : ∀ var ∈ vars', Formula.isName var.1 = true)
    (agree : ∀ name ∈ freeNamesOf root.children, vars.value? name = vars'.value? name) :
    styler.renderTree root vars = styler.renderTree root vars' := by
  obtain ⟨first, start, bound⟩ := exists_rootScope styler named
  obtain ⟨second, start', bound'⟩ := exists_rootScope styler named'
  -- the scopes may bind other names in another order; only what is looked up counts
  have scopes : Scope.AgreeOn (freeNamesOf root.children) first second := by
    intro name free
    rw [bound, bound', agree name free]
  rw [Styler.renderTree, Styler.renderTree, start, start', ok_bind, ok_bind,
    lexical root.children scopes]

/-- A loop that binds `x` and `k`, and a plural that counts `n`: it makes no difference that `x`
    is bound around the loop, `k` is not, and `n` once had another value. -/
theorem renderTree_shadowed :
    let list : Value := .array [("a", .int 5), ("b", .int 6)]
    let root : Markup.Element := Markup.root
      [.element ⟨"for", [("from", "list"), ("item", "x"), ("key", "k")]⟩
          [.element ⟨"var", [("name", "k")]⟩ [], .text "=", .element ⟨"var", [("name", "x")]⟩ []],
        .element ⟨"plural", [("var", "n")]⟩
          [.element ⟨"case", [("form", "other")]⟩
            [.text " of ", .element ⟨"var", [("name", "n")]⟩ []]]]
    ({} : Styler).renderTree root [("n", .int 7), ("x", .int 1), ("n", .int 2), ("list", list)] =
        .ok "a=5 & b=6 of 2" ∧
      ({} : Styler).renderTree root [("list", list), ("n", .int 2), ("k", .str "?")] =
        .ok "a=5 & b=6 of 2" := by
  intro list root
  have rendered : ({} : Styler).renderTree root
      [("list", list), ("n", .int 2), ("k", .str "?")] = .ok "a=5 & b=6 of 2" := by
    decide +kernel
  have free : freeNamesOf root.children = ["list", "n", "n"] := by decide +kernel
  refine ⟨?_, rendered⟩
  rw [← rendered]
  apply renderTree_congr
  · decide
  · decide
  -- neither the loop's own names nor what an earlier binding of `n` said
  · rw [free]
    simp [Variables.value?, List.lookup_cons]

end Render

end ChatMarkup
