/-
  ChatMarkup/Proofs/Formula/Evaluation.lean
  =========================================
  **The evaluation in one pass follows the grammar** — a formula has a value just when the
  grammar derives it, with parentheses not nested too deeply, and its tree denotes that
  value (`evaluate_eq_ok_iff`).

  One way, what stands to the left of the next token spells the beginning of a tree whose
  finished parts have the values that the state holds (`State.Read`), and every token keeps
  it so.  The other way, the tokens of a tree bring a state that waits for an operand to
  what the value of the tree makes of it (`steps_expr`); this is an equation, so that the
  pass also reports the error that the tree has.
-/
import ChatMarkup.Formula.Evaluation
import ChatMarkup.Proofs.Formula.Meaning

namespace ChatMarkup.Formula

/-! ### The end of a formula -/

theorem operator?_ne_endOfInput (c : Char) : operator? c ≠ some .endOfInput := by
  unfold operator?
  split <;> simp

/-- No character is read as the end of a formula. -/
theorem scan_kind_ne_endOfInput (c : Char) (tail : List Char) :
    (scan c tail).kind ≠ .endOfInput := by
  unfold scan
  split
  · rename_i kind h
    rintro rfl
    exact operator?_ne_endOfInput c h
  · dsimp only
    split
    · simp
    · split
      · simp
      · split <;> simp

namespace Lexer

theorem next_cases (lexer : Lexer) :
    lexer.next.1.kind = .endOfInput ∧ lexer.next.2.finished = true ∨
      lexer.next.1.kind ≠ .endOfInput ∧ lexer.next.2.finished = lexer.finished := by
  unfold next
  dsimp only
  split
  · exact Or.inl ⟨rfl, rfl⟩
  · exact Or.inr ⟨scan_kind_ne_endOfInput _ _, rfl⟩

theorem toList_of_finished {lexer : Lexer} (h : lexer.finished = true) : lexer.toList = [] := by
  rw [toList]
  split <;> simp_all

/-- The end of a formula comes once, and last. -/
theorem exists_toList (lexer : Lexer) (h : lexer.finished = false) :
    ∃ front last, lexer.toList = front ++ [last] ∧ last.kind = .endOfInput ∧
      ∀ token ∈ front, token.kind ≠ .endOfInput := by
  fun_induction toList lexer with
  | case1 lexer finished => simp_all
  | case2 lexer unfinished ih =>
    rcases lexer.next_cases with ⟨ends, finished⟩ | ⟨kind, same⟩
    · exact ⟨[], lexer.next.1, by rw [toList_of_finished finished]; rfl, ends, by simp⟩
    · obtain ⟨front, last, e, ends, others⟩ := ih (same.trans unfinished)
      exact ⟨lexer.next.1 :: front, last, by rw [e]; rfl, ends,
        List.forall_mem_cons.mpr ⟨kind, others⟩⟩

end Lexer

/-- The tokens of a formula: what it is made of, and then the end of input. -/
theorem exists_tokens (formula : String) :
    ∃ front last, tokens formula = front ++ [last] ∧ last.kind = .endOfInput ∧
      ∀ token ∈ front, token.kind ≠ .endOfInput :=
  (Lexer.start formula).exists_toList rfl

/-! ### Steps -/

/-- The state behind some tokens, none of which is the end of the formula. -/
def steps (scope : Scope) (state : State) (tokens : List Token) : Except Error State :=
  tokens.foldlM (fun state token => state.step scope token) state

variable {scope : Scope} {state next : State} {level : Level} {outer : List Level}

theorem steps_cons (token : Token) (rest : List Token) :
    steps scope state (token :: rest) =
      state.step scope token >>= fun next => steps scope next rest :=
  List.foldlM_cons

theorem steps_append (front rest : List Token) :
    steps scope state (front ++ rest) =
      steps scope state front >>= fun next => steps scope next rest :=
  List.foldlM_append

theorem run_cons {token : Token} (h : token.kind ≠ .endOfInput) (rest : List Token) :
    run scope state (token :: rest) = state.step scope token >>= fun next => run scope next rest := by
  rw [run]
  rintro value position - rfl
  exact h rfl

theorem run_append {front : List Token} (h : ∀ token ∈ front, token.kind ≠ .endOfInput)
    (rest : List Token) :
    run scope state (front ++ rest) =
      steps scope state front >>= fun next => run scope next rest := by
  induction front generalizing state with
  | nil => rfl
  | cons token front ih =>
    obtain ⟨first, others⟩ := List.forall_mem_cons.mp h
    rw [List.cons_append, run_cons first, steps_cons, bind_assoc]
    congr 1
    funext next
    exact ih others

/-- At the end of a formula there is a value only if nothing waits any more. -/
theorem run_end_eq_ok_iff {last : Token} (ends : last.kind = .endOfInput) {value : Value} :
    run scope state [last] = .ok value ↔ state = .operator value [] := by
  obtain ⟨kind, position⟩ := last
  cases ends
  cases state with
  | operand level outer =>
    constructor <;> intro h <;> cases h
  | operator held outer =>
    cases outer with
    | nil =>
      constructor <;> intro h <;> cases h <;> rfl
    | cons level outer =>
      constructor <;> intro h <;> cases h

/-- The value of a formula is the one in the state behind its tokens. -/
theorem evaluate_eq_ok_iff_steps {formula : String} {front : List Token} {last : Token}
    (e : tokens formula = front ++ [last]) (ends : last.kind = .endOfInput)
    (others : ∀ token ∈ front, token.kind ≠ .endOfInput) {value : Value} :
    evaluate scope formula = .ok value ↔ steps scope .initial front = .ok (.operator value []) := by
  rw [evaluate, e, run_append others, bind_eq_ok]
  simp only [run_end_eq_ok_iff ends]
  constructor
  · rintro ⟨_, h, rfl⟩
    exact h
  · intro h
    exact ⟨_, h, rfl⟩

/-! ### From trees to steps -/

theorem steps_singleton (token : Token) : steps scope state [token] = state.step scope token := by
  rw [steps_cons]
  exact bind_pure _

/-- A count sign applies before the operation to its left. -/
theorem afterOperand_counted (left : Option (Value × Op)) (operand : Value) :
    State.afterOperand ⟨left, true⟩ outer operand =
      count operand >>= State.afterOperand ⟨left, false⟩ outer :=
  bind_assoc _ _ _

mutual

/-- The tokens of a primary complete the operand that a state waits for. -/
theorem steps_primary {scope : Scope} {level : Level} {outer : List Level} :
    (p : Primary) → (tokens : List Token) → tokens.map Token.kind = p.kinds →
      p.depth + outer.length ≤ maxDepth →
      steps scope (.operand level outer) tokens =
        p.eval scope >>= State.afterOperand level outer
  | .number n, tokens, spelt, _ => by
    obtain ⟨token, rest, rfl, kind, ends⟩ := List.map_eq_cons_iff.mp spelt
    rw [List.map_eq_nil_iff.mp ends, steps_singleton]
    simp only [State.step, kind, Primary.eval]
    rfl
  | .named name, tokens, spelt, _ => by
    obtain ⟨token, rest, rfl, kind, ends⟩ := List.map_eq_cons_iff.mp spelt
    rw [List.map_eq_nil_iff.mp ends, steps_singleton]
    simp only [State.step, kind, Primary.eval]
  | .group inner, tokens, spelt, shallow => by
    rw [Primary.kinds, List.cons_append] at spelt
    obtain ⟨opening, rest, rfl, opens, spelt⟩ := List.map_eq_cons_iff.mp spelt
    obtain ⟨body, ending, rfl, inside, ending⟩ := List.map_eq_append_iff.mp spelt
    obtain ⟨closing, none, rfl, closes, ends⟩ := List.map_eq_cons_iff.mp ending
    rw [Primary.depth] at shallow
    have opened : (State.operand level outer).step scope opening =
        .ok (.operand .fresh (level :: outer)) := by
      simp only [State.step, opens]
      exact if_pos (by omega)
    have closed (value : Value) : (State.operator value (level :: outer)).step scope closing =
        State.afterOperand level outer value := by
      simp only [State.step, closes]
    have room : inner.depth + (level :: outer).length ≤ maxDepth := by
      rw [List.length_cons]
      omega
    -- inside, the parentheses count as one more level around the expression
    have ih : steps scope (.operand .fresh (level :: outer)) body =
        inner.eval scope >>= fun value => .ok (.operator value (level :: outer)) :=
      steps_expr inner body inside room
    rw [List.map_eq_nil_iff.mp ends, steps_cons, opened, ok_bind, steps_append, ih, bind_assoc,
      Primary.eval]
    congr 1
    funext value
    rw [ok_bind, steps_singleton, closed]

theorem steps_term {scope : Scope} {left : Option (Value × Op)} {outer : List Level} :
    (t : Term) → (tokens : List Token) → tokens.map Token.kind = t.kinds →
      t.depth + outer.length ≤ maxDepth →
      steps scope (.operand ⟨left, false⟩ outer) tokens =
        t.eval scope >>= State.afterOperand ⟨left, false⟩ outer
  | .plain operand, tokens, spelt, shallow => steps_primary operand tokens spelt shallow
  | .counted operand, tokens, spelt, shallow => by
    obtain ⟨sign, rest, rfl, counts, spelt⟩ := List.map_eq_cons_iff.mp spelt
    have counting : (State.operand ⟨left, false⟩ outer).step scope sign =
        .ok (.operand ⟨left, true⟩ outer) := by
      simp only [State.step, counts]
      rfl
    rw [steps_cons, counting, ok_bind, steps_primary operand rest spelt shallow, Term.eval,
      bind_assoc]
    congr 1
    funext value
    exact afterOperand_counted left value

theorem steps_expr {scope : Scope} {outer : List Level} :
    (e : Expr) → (tokens : List Token) → tokens.map Token.kind = e.kinds →
      e.depth + outer.length ≤ maxDepth →
      steps scope (.operand .fresh outer) tokens =
        e.eval scope >>= fun value => .ok (.operator value outer)
  | .single term, tokens, spelt, shallow => by
    rw [Level.fresh, steps_term term tokens spelt shallow, Expr.eval]
    rfl
  | .chain left op right, tokens, spelt, shallow => by
    obtain ⟨before, behind, rfl, first, behind⟩ := List.map_eq_append_iff.mp spelt
    obtain ⟨sign, after, rfl, operates, second⟩ := List.map_eq_cons_iff.mp behind
    rw [Expr.depth] at shallow
    -- the value so far becomes the left operand of the level
    have operating (value : Value) : (State.operator value outer).step scope sign =
        .ok (.operand ⟨some (value, op), false⟩ outer) := by
      cases op <;> simp only [State.step, operates, Op.kind]
    rw [steps_append, steps_expr left before first (by omega), Expr.eval, bind_assoc, bind_assoc]
    congr 1
    funext a
    rw [ok_bind, steps_cons, operating, ok_bind, steps_term right after second (by omega),
      bind_assoc]
    rfl

end

/-! ### From steps to trees -/

def countKinds (counted : Bool) : List Kind := if counted then [.count] else []

/-- What a level says has been read inside its parentheses: nothing but perhaps a count sign,
    or an expression with its value and an operator before that. -/
inductive Level.Read (scope : Scope) (room : Nat) : Level → List Kind → Prop where
  | first (counted : Bool) : Level.Read scope room ⟨none, counted⟩ (countKinds counted)
  | later {left : Expr} {value : Value} (op : Op) (counted : Bool)
      (evaluated : left.eval scope = .ok value) (shallow : left.depth ≤ room) :
      Level.Read scope room ⟨some (value, op), counted⟩
        (left.kinds ++ op.kind :: countKinds counted)

/-- What the levels of the open parentheses say has been read, up to the innermost opening
    parenthesis. -/
inductive Enclosing (scope : Scope) : List Level → List Kind → Prop where
  | none : Enclosing scope [] []
  | opened {level : Level} {outer : List Level} {before inside : List Kind}
      (enclosing : Enclosing scope outer before)
      (read : level.Read scope (maxDepth - outer.length) inside)
      (shallow : outer.length < maxDepth) :
      Enclosing scope (level :: outer) (before ++ inside ++ [.opening])

inductive State.Read (scope : Scope) : State → List Kind → Prop where
  | operand {level : Level} {outer : List Level} {before inside : List Kind}
      (enclosing : Enclosing scope outer before)
      (read : level.Read scope (maxDepth - outer.length) inside) :
      State.Read scope (.operand level outer) (before ++ inside)
  | operator {tree : Expr} {value : Value} {outer : List Level} {before : List Kind}
      (enclosing : Enclosing scope outer before) (evaluated : tree.eval scope = .ok value)
      (shallow : tree.depth ≤ maxDepth - outer.length) :
      State.Read scope (.operator value outer) (before ++ tree.kinds)

theorem State.read_initial : State.Read scope .initial [] :=
  .operand .none (.first false)

def termOf (counted : Bool) (p : Primary) : Term := if counted then .counted p else .plain p

theorem kinds_termOf (counted : Bool) (p : Primary) :
    (termOf counted p).kinds = countKinds counted ++ p.kinds := by
  cases counted <;> rfl

theorem depth_termOf (counted : Bool) (p : Primary) : (termOf counted p).depth = p.depth := by
  cases counted <;> rfl

/-- A complete operand makes an expression of what a level has read. -/
theorem Level.Read.complete {room : Nat} {inside : List Kind} {p : Primary}
    {operand value : Value} (h : level.Read scope room inside)
    (evaluated : p.eval scope = .ok operand) (shallow : p.depth ≤ room)
    (completed : level.complete operand = .ok value) :
    ∃ tree : Expr, tree.eval scope = .ok value ∧ tree.depth ≤ room ∧
      tree.kinds = inside ++ p.kinds := by
  have term (counted : Bool) : (termOf counted p).eval scope =
      if counted then count operand else .ok operand := by
    cases counted <;> simp [termOf, Term.eval, evaluated, ok_bind]
  -- either nothing but a count sign was read here, or an expression and an operator
  cases h with
  | first counted =>
    have completed : ((if counted then count operand else .ok operand) >>= pure) =
        .ok value := by
      cases counted <;> exact completed
    refine ⟨.single (termOf counted p), ?_, ?_, ?_⟩
    · rw [Expr.eval, term, ← completed, bind_pure]
    · rw [Expr.depth, depth_termOf]
      exact shallow
    · rw [Expr.kinds, kinds_termOf]
  | @later left held op counted evaluated' shallow' =>
    have completed : ((if counted then count operand else .ok operand) >>= combine op held) =
        .ok value := by
      cases counted <;> exact completed
    refine ⟨.chain left op (termOf counted p), ?_, ?_, ?_⟩
    · rw [Expr.eval, evaluated', ok_bind, term, ← completed]
    · rw [Expr.depth, depth_termOf]
      exact Nat.max_le.mpr ⟨shallow', shallow⟩
    · rw [Expr.kinds, kinds_termOf, List.append_assoc, List.cons_append]

theorem read_afterOperand {before inside : List Kind} {p : Primary} {operand : Value}
    (enclosing : Enclosing scope outer before)
    (read : level.Read scope (maxDepth - outer.length) inside)
    (evaluated : p.eval scope = .ok operand) (shallow : p.depth ≤ maxDepth - outer.length)
    (h : State.afterOperand level outer operand = .ok next) :
    next.Read scope (before ++ inside ++ p.kinds) := by
  obtain ⟨value, completed, h⟩ := bind_eq_ok.mp h
  cases h
  obtain ⟨tree, evaluated, shallow, kinds⟩ := read.complete evaluated shallow completed
  rw [List.append_assoc, ← kinds]
  exact .operator enclosing evaluated shallow

theorem Level.Read.countSign {room : Nat} {inside : List Kind}
    (h : level.Read scope room inside) (uncounted : level.counted = false) :
    Level.Read scope room { level with counted := true } (inside ++ [.count]) := by
  cases h with
  | first counted =>
    cases uncounted
    exact .first true
  | later op counted evaluated shallow =>
    cases uncounted
    have read := Level.Read.later op true evaluated shallow
    simpa [countKinds] using read

/-- **Every token keeps what has been read the beginning of a tree.** -/
theorem State.Read.step {token : Token} {read : List Kind} (h : state.Read scope read)
    (stepped : state.step scope token = .ok next) : next.Read scope (read ++ [token.kind]) := by
  -- the cases follow the state and then the token, as `step` does
  cases h with
  | @operand level outer before inside enclosing read =>
    simp only [State.step] at stepped
    split at stepped
    · rename_i n kind
      rw [kind]
      exact read_afterOperand (p := .number n) enclosing read rfl (Nat.zero_le _) stepped
    · rename_i name kind
      rw [kind]
      obtain ⟨value, resolved, stepped⟩ := bind_eq_ok.mp stepped
      exact read_afterOperand (p := .named name) enclosing read resolved (Nat.zero_le _) stepped
    · rename_i kind
      split at stepped
      · rename_i room
        cases stepped
        rw [kind]
        have opened := Enclosing.opened enclosing read room
        simpa [countKinds, Level.fresh] using State.Read.operand opened (.first false)
      · cases stepped
    · rename_i kind
      split at stepped
      · cases stepped
      · rename_i uncounted
        cases stepped
        rw [kind, List.append_assoc]
        exact .operand enclosing (read.countSign (by simpa using uncounted))
    · cases stepped
  | @operator tree value outer before enclosing evaluated shallow =>
    simp only [State.step] at stepped
    split at stepped
    · rename_i kind
      cases stepped
      rw [kind, List.append_assoc]
      exact .operand enclosing (.later .add false evaluated shallow)
    · rename_i kind
      cases stepped
      rw [kind, List.append_assoc]
      exact .operand enclosing (.later .sub false evaluated shallow)
    · rename_i kind
      rw [kind]
      cases enclosing with
      | @opened level outer before inside enclosing read room =>
        -- the parentheses close: what was an expression is a primary now
        have evaluated : (Primary.group tree).eval scope = .ok value := evaluated
        rw [List.length_cons] at shallow
        have closed := read_afterOperand enclosing read evaluated (by
          rw [Primary.depth]
          omega) stepped
        simpa [Primary.kinds] using closed
    · cases stepped

theorem State.Read.steps {tokens : List Token} {read : List Kind} (h : state.Read scope read)
    (stepped : Formula.steps scope state tokens = .ok next) :
    next.Read scope (read ++ tokens.map Token.kind) := by
  induction tokens generalizing state read with
  | nil =>
    cases stepped
    simpa using h
  | cons token rest ih =>
    rw [steps_cons] at stepped
    obtain ⟨between, first, others⟩ := bind_eq_ok.mp stepped
    have := ih (h.step first) others
    simpa using this

/-! ### Formulas and their trees -/

/-- **The pass evaluates trees.** What the grammar derives is evaluated like its tree, with the
    same value or the same error. -/
theorem evaluate_eq_eval {formula : String} {tree : Expr} (derives : Derives formula tree)
    (shallow : tree.depth ≤ maxDepth) : evaluate scope formula = tree.eval scope := by
  obtain ⟨front, last, e, ends, others⟩ := exists_tokens formula
  rw [Derives, e, List.map_append, List.map_singleton, ends] at derives
  have spelt := List.append_cancel_right derives
  have run : steps scope (.operand .fresh []) front =
      tree.eval scope >>= fun value => .ok (.operator value []) :=
    steps_expr tree front spelt (by simpa using shallow)
  rw [evaluate, e, run_append others, State.initial, run, bind_assoc]
  calc
    _ = tree.eval scope >>= pure := by
      congr 1
      funext value
      exact (run_end_eq_ok_iff ends).mpr rfl
    _ = tree.eval scope := bind_pure _

/-- **What has a value is derived**, and its tree has that value. -/
theorem exists_eval_of_evaluate {formula : String} {value : Value}
    (h : evaluate scope formula = .ok value) :
    ∃ tree : Expr, Derives formula tree ∧ tree.depth ≤ maxDepth ∧ tree.eval scope = .ok value := by
  obtain ⟨front, last, e, ends, others⟩ := exists_tokens formula
  have stepped := (evaluate_eq_ok_iff_steps e ends others).mp h
  have read := State.read_initial.steps stepped
  rw [List.nil_append] at read
  generalize spelt : front.map Token.kind = kinds at read
  cases read with
  | @operator tree _ _ _ enclosing evaluated shallow =>
    cases enclosing
    refine ⟨tree, ?_, shallow, evaluated⟩
    rw [Derives, e, List.map_append, List.map_singleton, ends, spelt, List.nil_append]

/-- **A formula has a value just when the grammar derives it and its tree denotes that
    value.** -/
theorem evaluate_eq_ok_iff {scope : Scope} {formula : String} {value : Value} :
    evaluate scope formula = .ok value ↔
      ∃ tree : Expr, Derives formula tree ∧ tree.depth ≤ maxDepth ∧ tree.Denotes scope value := by
  constructor
  · intro h
    obtain ⟨tree, derives, shallow, evaluated⟩ := exists_eval_of_evaluate h
    exact ⟨tree, derives, shallow, tree.eval_eq_ok_iff.mp evaluated⟩
  · rintro ⟨tree, derives, shallow, denotes⟩
    rw [evaluate_eq_eval derives shallow]
    exact tree.eval_eq_ok_iff.mpr denotes

/-- Operators associate to the left, a text and a duration count as numbers, an integer next to a
    real becomes one, and of two bindings the inner one is taken. -/
theorem evaluate_operands_of_all_kinds :
    let scope := ((((Scope.empty.bind "t" (.str " 4 ")).bind "r" (.real 0.5)).bind "d"
      (.int 1)).bind "xs" (.array [("k", .int 2)])).child.bind "d" (.typed (.duration 90))
    evaluate scope "10-t+1" = .ok (.int 7) ∧ evaluate scope "10-(t+#xs)" = .ok (.int 5) ∧
      evaluate scope "d+t" = .ok (.int 94) ∧
      evaluate scope "t-r" = .ok (.real ((4 : Int64).toFloat - 0.5)) ∧
      evaluate scope "r+r" = .ok (.real (0.5 + 0.5)) ∧
      evaluate scope "xs+xs" = .ok (.array [("k", .int 2), ("k", .int 2)]) := by
  intro scope
  have four : SpellsNumber " 4 ".toList (.int 4) := by
    have blank : ∀ c ∈ [' '] ++ [' '], Text.isBlank c = true := List.all_eq_true.mp (by decide)
    have digit : Decimal.SpellsInt ['4'] (4 : Int64).toInt :=
      .unsigned ⟨by decide, List.all_eq_true.mp (by decide)⟩
    exact .int blank digit
  have ninety : Contributes (.typed (.duration 90)) (.int 90) := .duration (by decide)
  have t : Primary.Denotes scope (.named "t") (.str " 4 ") :=
    .named (.further rfl (.here rfl))
  have r : Primary.Denotes scope (.named "r") (.real 0.5) := .named (.further rfl (.here rfl))
  have xs : Primary.Denotes scope (.named "xs") (.array [("k", .int 2)]) :=
    .named (.further rfl (.here rfl))
  have d : Primary.Denotes scope (.named "d") (.typed (.duration 90)) := .named (.here rfl)
  refine ⟨evaluate_eq_ok_iff.mpr ?_, evaluate_eq_ok_iff.mpr ?_, evaluate_eq_ok_iff.mpr ?_,
    evaluate_eq_ok_iff.mpr ?_, evaluate_eq_ok_iff.mpr ?_, evaluate_eq_ok_iff.mpr ?_⟩
  · have difference : Expr.Denotes scope
        (.chain (.single (.plain (.number (.int 10)))) .sub (.plain (.named "t"))) (.int 6) :=
      .chain (.single (.plain (.int 10))) (.plain t) (.subInts (.int 10) (.str four) (by decide))
    exact ⟨_, by unfold Derives; decide +kernel, by decide, .chain difference (.plain (.int 1))
      (.addInts (.int 6) (.int 1) (by decide))⟩
  · have sum : Expr.Denotes scope
        (.chain (.single (.plain (.named "t"))) .add (.counted (.named "xs"))) (.int 5) :=
      .chain (.single (.plain t)) (.counted xs (by decide))
        (.addInts (.str four) (.int 1) (by decide))
    exact ⟨_, by unfold Derives; decide +kernel, by decide,
      .chain (.single (.plain (.int 10))) (.plain (.group sum))
        (.subInts (.int 10) (.int 5) (by decide))⟩
  · exact ⟨_, by unfold Derives; decide +kernel, by decide, .chain (.single (.plain d)) (.plain t)
      (.addInts ninety (.str four) (by decide))⟩
  · exact ⟨_, by unfold Derives; decide +kernel, by decide, .chain (.single (.plain t)) (.plain r)
      (.subReals (.str four) (.real 0.5) (Or.inr ⟨0.5, rfl⟩) (.int 4) (.real 0.5))⟩
  · exact ⟨_, by unfold Derives; decide +kernel, by decide, .chain (.single (.plain r)) (.plain r)
      (.addReals (.real 0.5) (.real 0.5) (Or.inl ⟨0.5, rfl⟩) (.real 0.5) (.real 0.5))⟩
  · exact ⟨_, by unfold Derives; decide +kernel, by decide,
      .chain (.single (.plain xs)) (.plain xs) (.arrays _ _)⟩

end ChatMarkup.Formula
