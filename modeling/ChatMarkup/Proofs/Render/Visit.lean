/-
  ChatMarkup/Proofs/Render/Visit.lean
  ===================================
  **What is rendered alike can stand in for each other** — two runs of nodes that are rendered
  alike wherever the renderer comes to a place make the same result when they are put there
  (`renderNodes_fill_congr`), be it a text or an error.  For a plural, the children are no
  nodes one after another but cases, so a place directly inside one is left out.

  Whenever the renderer comes to a place, it does so in the same style (`style_of_visits`), and
  outside of loops in the same scope (`scope_of_visits`).
-/
import ChatMarkup.Proofs.Result
import ChatMarkup.Proofs.Render.Writing
import ChatMarkup.Render.Template
import ChatMarkup.Render.Visit

namespace ChatMarkup.Render

open Markup (Node Tag Context)

variable {styler : Styler} {style style' : Style} {scope scope' : Scope} {tag : Tag}
  {first second : List Node}

/-! ### Nodes one after another -/

theorem renderNodes_append (styler : Styler) (style : Style) (scope : Scope)
    (nodes more : List Node) :
    renderNodes styler style scope (nodes ++ more) =
      renderNodes styler style scope nodes >>= fun text =>
        (renderNodes styler style scope more).map (text ++ ·) := by
  induction nodes with
  | nil =>
    rw [List.nil_append, renderNodes, ok_bind]
    cases renderNodes styler style scope more <;> rfl
  | cons node nodes ih =>
    rw [List.cons_append, renderNodes, renderNodes, ih]
    cases renderNode styler style scope node with
    | error error => rfl
    | ok text =>
      cases renderNodes styler style scope nodes with
      | error error => rfl
      | ok texts =>
        cases renderNodes styler style scope more with
        | error error => rfl
        | ok others => exact congrArg Except.ok (List.append_assoc text texts others).symm

theorem renderNodes_singleton (styler : Styler) (style : Style) (scope : Scope) (node : Node) :
    renderNodes styler style scope [node] = renderNode styler style scope node := by
  rw [renderNodes]
  cases renderNode styler style scope node with
  | error error => rfl
  | ok text => exact congrArg Except.ok (List.append_nil text)

theorem renderNodes_congr (before after : List Node)
    (same : renderNodes styler style scope first = renderNodes styler style scope second) :
    renderNodes styler style scope (before ++ (first ++ after)) =
      renderNodes styler style scope (before ++ (second ++ after)) := by
  simp only [renderNodes_append, same]

/-- One node can be exchanged for another among others. -/
theorem renderNodes_congr_node {node other : Node} (before after : List Node)
    (same : renderNode styler style scope node = renderNode styler style scope other) :
    renderNodes styler style scope (before ++ node :: after) =
      renderNodes styler style scope (before ++ other :: after) := by
  have alone : renderNodes styler style scope [node] = renderNodes styler style scope [other] := by
    rw [renderNodes_singleton, renderNodes_singleton, same]
  exact renderNodes_congr before after alone

theorem renderCases_congr (before : List Node)
    (same : renderCases styler style scope first = renderCases styler style scope second) :
    renderCases styler style scope (before ++ first) =
      renderCases styler style scope (before ++ second) := by
  induction before with
  | nil => exact same
  | cons node before ih =>
    rw [List.cons_append, List.cons_append]
    cases node with
    | text text => rw [renderCases, renderCases, ih]
    | element tag children => rw [renderCases, renderCases, ih]

/-! ### Elements -/

/-- An element is rendered alike if its children are, in every style and scope in which they
    are rendered for it. -/
theorem renderNode_congr (role : Role.ofName tag.name ≠ .plural)
    (same : ∀ style' scope', Enters styler tag style scope style' scope' →
      renderNodes styler style' scope' first = renderNodes styler style' scope' second) :
    renderNode styler style scope (.element tag first) =
      renderNode styler style scope (.element tag second) := by
  rw [renderNode, renderNode]
  cases does : Role.ofName tag.name with
  | var => rfl
  | plural => exact absurd does role
  | bold => simp only [same _ _ (.bold does)]
  | underline => simp only [same _ _ (.underline does)]
  | transparent => exact same _ _ (.transparent does)
  | color =>
    cases colors : recolored tag style with
    | error error => rfl
    | ok colored => simp only [ok_bind, same _ _ (.color does colors)]
  | loop =>
    cases said : Loop.ofTag tag with
    | error error => rfl
    | ok loop =>
      simp only [ok_bind]
      cases array : loop.entries scope with
      | error error => rfl
      | ok entries =>
        -- the entries are the same, and each body is rendered in a scope that the place may have
        have bodies : entries.mapM (fun entry =>
              renderNodes styler style (loop.scopeFor styler.wrappers scope entry) first) =
            entries.mapM (fun entry =>
              renderNodes styler style (loop.scopeFor styler.wrappers scope entry) second) := by
          apply mapM_congr
          intro entry member
          exact same _ _ (.loop does said array member)
        simp only [ok_bind, bodies]

/-- A case is rendered alike if its children are; what is no case is not looked at. -/
theorem renderCases_cons_congr (after : List Node)
    (same : tag.name = "case" →
      renderNodes styler style scope first = renderNodes styler style scope second) :
    renderCases styler style scope (.element tag first :: after) =
      renderCases styler style scope (.element tag second :: after) := by
  rw [renderCases, renderCases]
  split
  · rename_i name
    rw [same name]
  · rfl

/-! ### Places -/

theorem ofName_eq_plural_iff {name : String} : Role.ofName name = .plural ↔ name = "plural" := by
  constructor
  · intro role
    unfold Role.ofName at role
    split_ifs at role with _ _ _ _ _ plural
    exact plural
  · rintro rfl
    rfl

/-- What is rendered alike at a place can be put there in place of each other. -/
def Exchangeable (styler : Styler) (first second : List Node) (context : Context) : Prop :=
  ∀ style scope, context.parentName? ≠ some "plural" →
    (∀ style' scope', Visits styler context style scope style' scope' →
      renderNodes styler style' scope' first = renderNodes styler style' scope' second) →
    renderNodes styler style scope (context.fill first) =
      renderNodes styler style scope (context.fill second)

theorem exchangeable_here (before after : List Node) :
    Exchangeable styler first second (.here before after) := by
  intro style scope _ same
  exact renderNodes_congr before after (same style scope .here)

theorem exchangeable_inside {context : Context} (before after : List Node)
    (role : Role.ofName tag.name ≠ .plural) (inner : Exchangeable styler first second context) :
    Exchangeable styler first second (.inside before tag context after) := by
  intro style scope free same
  apply renderNodes_congr_node
  apply renderNode_congr role
  intro style' scope' enters
  apply inner
  · intro plural
    rw [Context.parentName?_inside, plural] at free
    exact free rfl
  · intro inner innerScope visits
    exact same inner innerScope (.inside enters visits)

/-- Inside a case of a plural.  A case next to it is what it was, and what is no case is not
    looked at. -/
theorem exchangeable_case {context : Context} {case : Tag} (before earlier later after : List Node)
    (role : Role.ofName tag.name = .plural) (inner : Exchangeable styler first second context) :
    Exchangeable styler first second
      (.inside before tag (.inside earlier case context later) after) := by
  intro style scope free same
  have cases : renderCases styler style scope
        ((Context.inside earlier case context later).fill first) =
      renderCases styler style scope ((Context.inside earlier case context later).fill second) := by
    apply renderCases_congr
    apply renderCases_cons_congr
    intro name
    apply inner
    · intro plural
      -- the plural itself is not directly around the place, the case is
      rw [Context.parentName?_inside, Context.parentName?_inside, plural] at free
      exact free rfl
    · intro inner innerScope visits
      exact same inner innerScope (.case role name visits)
  apply renderNodes_congr_node
  simp only [renderNode, role, cases]

/-- Directly inside a plural, nothing is claimed. -/
theorem exchangeable_plural (before earlier later after : List Node)
    (role : Role.ofName tag.name = .plural) :
    Exchangeable styler first second (.inside before tag (.here earlier later) after) := by
  intro style scope free
  rw [Context.parentName?_inside, ofName_eq_plural_iff.mp role] at free
  exact absurd rfl free

/-- **Nodes can be exchanged** at any place. -/
theorem exchangeable (styler : Styler) (first second : List Node) :
    ∀ context, Exchangeable styler first second context
  | .here before after => exchangeable_here before after
  | .inside before tag context after => by
    by_cases role : Role.ofName tag.name = .plural
    · match context with
      | .here earlier later => exact exchangeable_plural before earlier later after role
      | .inside earlier case inner later =>
        exact exchangeable_case before earlier later after role
          (exchangeable styler first second inner)
    · exact exchangeable_inside before after role (exchangeable styler first second context)

/-- So they can in a whole tree. -/
theorem renderTree_fill_congr {context : Context} {rootTag : Tag} {vars : Variables}
    (free : context.parentName? ≠ some "plural")
    (same : ∀ scope, styler.rootScope vars = .ok scope → ∀ style' scope',
      Visits styler context .plain scope style' scope' →
      renderNodes styler style' scope' first = renderNodes styler style' scope' second) :
    styler.renderTree ⟨rootTag, context.fill first⟩ vars =
      styler.renderTree ⟨rootTag, context.fill second⟩ vars := by
  rw [Styler.renderTree, Styler.renderTree]
  cases start : styler.rootScope vars with
  | error error => rfl
  | ok scope =>
    have text := exchangeable styler first second context .plain scope free (same scope start)
    rw [ok_bind, ok_bind, text]

/-! ### Styles and scopes at a place -/

theorem setBy_eq {name : String} {code : Option Color} (read : channel tag name = .ok code) :
    setBy tag name = code := by
  rw [setBy, read]

/-- An element takes the style around it to the same one whenever it is entered. -/
theorem style_of_enters (enters : Enters styler tag style scope style' scope') :
    style' = innerStyle style tag := by
  rw [innerStyle]
  cases enters with
  | bold role => rw [role]
  | underline role => rw [role]
  | loop role => rw [role]
  | transparent role => rw [role]
  | color role colors =>
    obtain ⟨fg, bg, foreground, background, rfl⟩ := recolored_eq_ok colors
    rw [role, setBy_eq foreground, setBy_eq background]

/-- **A place has one style.** -/
theorem style_of_visits {context : Context}
    (visits : Visits styler context style scope style' scope') : style' = styleAt style context := by
  induction visits with
  | here => rfl
  | inside enters _ ih =>
    rw [ih, style_of_enters enters]
    rfl
  | @case before tag earlier case context later after style scope _ _ role name _ ih =>
    have plural : innerStyle style tag = style := by
      rw [innerStyle, role]
    have case : innerStyle style case = style := by
      rw [innerStyle, name]
      rfl
    rw [ih, styleAt, styleAt, Context.enclosing, Context.enclosing, List.foldl_cons,
      List.foldl_cons, plural, case]

theorem ofName_eq_loop_iff {name : String} : Role.ofName name = .loop ↔ name = "for" := by
  constructor
  · intro role
    unfold Role.ofName at role
    split_ifs at role with _ _ _ _ loop
    exact loop
  · rintro rfl
    rfl

/-- **Outside of loops it has one scope**, the one around everything. -/
theorem scope_of_visits {context : Context}
    (visits : Visits styler context style scope style' scope')
    (outside : ∀ outer ∈ context.enclosing, outer.name ≠ "for") : scope' = scope := by
  induction visits with
  | here => rfl
  | inside enters _ ih =>
    obtain ⟨own, others⟩ := List.forall_mem_cons.mp outside
    rw [ih others]
    cases enters with
    | loop role => exact absurd (ofName_eq_loop_iff.mp role) own
    | _ => rfl
  | case role name _ ih =>
    obtain ⟨_, others⟩ := List.forall_mem_cons.mp outside
    exact ih (List.forall_mem_cons.mp others).2

end ChatMarkup.Render
