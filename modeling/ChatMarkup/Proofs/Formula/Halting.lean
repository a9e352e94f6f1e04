/-
  ChatMarkup/Proofs/Formula/Halting.lean
  ======================================
  **The pass halts where a tree stops** — every tree either has a value or stops somewhere
  (`Expr.denotes_or_stops`), and where it stops, the pass over its tokens fails with the same
  error: at the last token that the tree has read, and at none before it (`halts_expr`).

  The recursion is over the tree, like that of `steps_expr`.  What is new is that the very last
  token counts, so the last step of an operand is told apart from those before it
  (`exists_completing`).
-/
import ChatMarkup.Formula.Failure
import ChatMarkup.Proofs.Formula.Evaluation

namespace ChatMarkup.Formula

variable {scope : Scope} {state next : State} {level : Level} {outer : List Level}
  {tokens : List Token} {error : Error}

/-! ### Errors -/

theorem position?_unexpected (token : Token) :
    (Error.unexpected token).position? = some token.position := by
  unfold Error.unexpected
  split
  · rfl
  · rfl

theorem unexpected_eq_strayCharacter_iff {token : Token} {c : Char} :
    Error.unexpected token = .strayCharacter c token.position ↔ token.kind = .stray c := by
  unfold Error.unexpected
  split
  · rename_i d kind
    rw [kind]
    simp
  · rename_i kind proper
    constructor
    · intro h
      cases h
    · intro kind
      exact absurd kind (proper c)

theorem unexpected_eq_unexpectedToken_iff {token : Token} {kind : Kind} :
    Error.unexpected token = .unexpectedToken kind token.position ↔
      token.kind = kind ∧ ∀ c, kind ≠ .stray c := by
  unfold Error.unexpected
  split
  · rename_i d stray
    constructor
    · intro h
      cases h
    · rintro ⟨same, proper⟩
      exact absurd (same.symm.trans stray) (proper d)
  · rename_i proper
    constructor
    · intro h
      cases h
      exact ⟨rfl, proper⟩
    · rintro ⟨same, -⟩
      rw [same]

/-- An error that has nothing to do with the order of the tokens. -/
abbrev Error.Semantic (error : Error) : Prop := error.position? = none

theorem resolve_eq_error_iff {name : String} :
    resolve scope name = .error error ↔
      error = .undefinedVariable name ∧ ∀ value, ¬Bound name value scope.layers := by
  constructor
  · intro h
    refine ⟨?_, ?_⟩
    · unfold resolve at h
      split at h
      · cases h
      · cases h
        rfl
    · intro value bound
      rw [resolve_eq_ok_iff.mpr bound] at h
      cases h
  · rintro ⟨rfl, unbound⟩
    cases found : resolve scope name with
    | ok value => exact absurd (resolve_eq_ok_iff.mp found) (unbound value)
    | error other =>
      unfold resolve at found
      split at found
      · cases found
      · cases found
        rfl

theorem semantic_unfit (fault : Fault) : (Error.unfit fault).Semantic := rfl

theorem semantic_numberOfScalar (scalar : Scalar) :
    FailsOnly Error.Semantic (numberOfScalar scalar) := by
  unfold numberOfScalar
  split
  · exact failsOnly_ok _
  · exact failsOnly_ok _
  · split
    · exact failsOnly_ok _
    · exact failsOnly_error (semantic_unfit _)

theorem semantic_numberOf (value : Value) : FailsOnly Error.Semantic (numberOf value) := by
  unfold numberOf
  split
  · exact failsOnly_ok _
  · exact failsOnly_ok _
  · exact semantic_numberOfScalar _
  · exact semantic_numberOfScalar _
  · exact failsOnly_error (semantic_unfit _)

theorem semantic_combineNumbers (op : Op) (a b : Number) :
    FailsOnly Error.Semantic (combineNumbers op a b) := by
  unfold combineNumbers
  split
  · split
    · exact failsOnly_ok _
    · exact failsOnly_error (semantic_unfit _)
  · exact failsOnly_ok _

theorem semantic_combine (op : Op) (left right : Value) :
    FailsOnly Error.Semantic (combine op left right) := by
  unfold combine
  split
  · split
    · exact failsOnly_ok _
    · exact failsOnly_error (semantic_unfit _)
  · exact failsOnly_error (semantic_unfit _)
  · exact failsOnly_error (semantic_unfit _)
  · apply (semantic_numberOf _).bind
    intro a _
    apply (semantic_numberOf _).bind
    intro b _
    exact semantic_combineNumbers op a b

theorem semantic_count (value : Value) : FailsOnly Error.Semantic (count value) := by
  unfold count
  split
  · split
    · exact failsOnly_ok _
    · exact failsOnly_error (semantic_unfit _)
  · exact failsOnly_error (semantic_unfit _)

theorem semantic_complete (level : Level) (operand : Value) :
    FailsOnly Error.Semantic (level.complete operand) := by
  obtain ⟨left, counted⟩ := level
  have operation (term : Value) :
      FailsOnly Error.Semantic (Level.complete ⟨left, false⟩ term) := by
    cases left with
    | none => exact failsOnly_ok term
    | some held => exact semantic_combine held.2 held.1 term
  cases counted with
  | false => exact operation operand
  | true => exact (semantic_count operand).bind fun term _ => operation term

theorem semantic_afterOperand (level : Level) (outer : List Level) (operand : Value) :
    FailsOnly Error.Semantic (State.afterOperand level outer operand) :=
  (semantic_complete level operand).bind fun _ _ => failsOnly_ok _

/-! ### Where a tree stops -/

mutual

theorem Primary.stops_facts {opened : Nat} : (p : Primary) → (read : List Kind) →
    (error : Error) → p.Stops scope opened read error → read <+: p.kinds ∧ error.Semantic
  | .named name, _, _, .named unbound => ⟨List.prefix_rfl, rfl⟩
  | .group inner, _, _, .tooDeep full => ⟨⟨inner.kinds ++ [.closing], rfl⟩, rfl⟩
  | .group inner, _, error, .group room inside => by
    obtain ⟨front, semantic⟩ := inner.stops_facts _ error inside
    refine ⟨?_, semantic⟩
    rw [Primary.kinds, List.cons_append, List.cons_prefix_cons]
    exact ⟨rfl, front.trans (List.prefix_append _ _)⟩

theorem Term.stops_facts {opened : Nat} : (t : Term) → (read : List Kind) →
    (error : Error) → t.Stops scope opened read error → read <+: t.kinds ∧ error.Semantic
  | .plain operand, _, error, .plain stops => operand.stops_facts _ error stops
  | .counted operand, _, error, .operand stops => by
    obtain ⟨front, semantic⟩ := operand.stops_facts _ error stops
    exact ⟨List.cons_prefix_cons.mpr ⟨rfl, front⟩, semantic⟩
  | .counted operand, _, error, .counting denotes shallow failed =>
    ⟨List.prefix_rfl, semantic_count _ error failed⟩

/-- What has been read when an expression stops is its beginning, and the error is not one
    about the order of tokens. -/
theorem Expr.stops_facts {opened : Nat} : (e : Expr) → (read : List Kind) →
    (error : Error) → e.Stops scope opened read error → read <+: e.kinds ∧ error.Semantic
  | .single term, _, error, .single stops => term.stops_facts _ error stops
  | .chain left op right, _, error, .left stops => by
    obtain ⟨front, semantic⟩ := left.stops_facts _ error stops
    exact ⟨front.trans (List.prefix_append _ _), semantic⟩
  | .chain left op right, _, error, .right denotes shallow stops => by
    obtain ⟨front, semantic⟩ := right.stops_facts _ error stops
    refine ⟨?_, semantic⟩
    rw [Expr.kinds, List.prefix_append_right_inj, List.cons_prefix_cons]
    exact ⟨rfl, front⟩
  | .chain left op right, _, error, .operation first second shallow failed =>
    ⟨List.prefix_rfl, semantic_combine _ _ _ error failed⟩

end

mutual

/-- A primary has a value, or its reduction stops. -/
theorem Primary.denotes_or_stops (scope : Scope) {opened : Nat} (room : opened ≤ maxDepth) :
    (p : Primary) → (∃ value, p.Denotes scope value ∧ opened + p.depth ≤ maxDepth) ∨
      ∃ read error, p.Stops scope opened read error
  | .number n => Or.inl ⟨n.toValue, denotes_number n, room⟩
  | .named name => by
    by_cases bound : ∃ value, Bound name value scope.layers
    · obtain ⟨value, bound⟩ := bound
      exact Or.inl ⟨value, .named bound, room⟩
    · exact Or.inr ⟨_, _, .named (not_exists.mp bound)⟩
  | .group inner => by
    by_cases full : maxDepth ≤ opened
    · exact Or.inr ⟨_, _, .tooDeep full⟩
    · have below : opened < maxDepth := Nat.lt_of_not_le full
      rcases inner.denotes_or_stops scope below with ⟨value, denotes, shallow⟩ | ⟨read, error, stops⟩
      · refine Or.inl ⟨value, .group denotes, ?_⟩
        rw [Primary.depth]
        omega
      · exact Or.inr ⟨_, error, .group below stops⟩

theorem Term.denotes_or_stops (scope : Scope) {opened : Nat} (room : opened ≤ maxDepth) :
    (t : Term) → (∃ value, t.Denotes scope value ∧ opened + t.depth ≤ maxDepth) ∨
      ∃ read error, t.Stops scope opened read error
  | .plain operand => by
    rcases operand.denotes_or_stops scope room with ⟨value, denotes, shallow⟩ | ⟨read, error, stops⟩
    · exact Or.inl ⟨value, .plain denotes, shallow⟩
    · exact Or.inr ⟨read, error, .plain stops⟩
  | .counted operand => by
    rcases operand.denotes_or_stops scope room with ⟨value, denotes, shallow⟩ | ⟨read, error, stops⟩
    · cases counted : count value with
      | ok result =>
        obtain ⟨entries, n, rfl, length, rfl⟩ := count_eq_ok_iff.mp counted
        exact Or.inl ⟨_, .counted denotes length, shallow⟩
      | error error => exact Or.inr ⟨_, error, .counting denotes shallow counted⟩
    · exact Or.inr ⟨_, error, .operand stops⟩

/-- An expression has a value, or its reduction stops. -/
theorem Expr.denotes_or_stops (scope : Scope) {opened : Nat} (room : opened ≤ maxDepth) :
    (e : Expr) → (∃ value, e.Denotes scope value ∧ opened + e.depth ≤ maxDepth) ∨
      ∃ read error, e.Stops scope opened read error
  | .single term => by
    rcases term.denotes_or_stops scope room with ⟨value, denotes, shallow⟩ | ⟨read, error, stops⟩
    · exact Or.inl ⟨value, .single denotes, shallow⟩
    · exact Or.inr ⟨read, error, .single stops⟩
  | .chain left op right => by
    rcases left.denotes_or_stops scope room with ⟨a, first, shallow⟩ | ⟨read, error, stops⟩
    · rcases right.denotes_or_stops scope room with ⟨b, second, shallow'⟩ | ⟨read, error, stops⟩
      · have both : opened + max left.depth right.depth ≤ maxDepth := by omega
        cases combined : combine op a b with
        | ok value => exact Or.inl ⟨value, .chain first second (combine_eq_ok_iff.mp combined), both⟩
        | error error => exact Or.inr ⟨_, error, .operation first second both combined⟩
      · exact Or.inr ⟨_, error, .right first shallow stops⟩
    · exact Or.inr ⟨read, error, .left stops⟩

end

/-! ### The pass stops where the tree does -/

/-- The evaluation fails at the last of some tokens, and at none before it. -/
def HaltsAt (scope : Scope) (state : State) (tokens : List Token) (error : Error) : Prop :=
  ∃ front last next, tokens = front ++ [last] ∧ steps scope state front = .ok next ∧
    next.step scope last = .error error

theorem HaltsAt.of_step {token : Token} (failed : state.step scope token = .error error) :
    HaltsAt scope state [token] error :=
  ⟨[], token, state, rfl, rfl, failed⟩

theorem HaltsAt.after {before : List Token} (reached : steps scope state before = .ok next)
    (halts : HaltsAt scope next tokens error) : HaltsAt scope state (before ++ tokens) error := by
  obtain ⟨front, last, between, rfl, further, failed⟩ := halts
  refine ⟨before ++ front, last, between, (List.append_assoc _ _ _).symm, ?_, failed⟩
  rw [steps_append, reached, ok_bind, further]

theorem HaltsAt.cons {token : Token} (stepped : state.step scope token = .ok next)
    (halts : HaltsAt scope next tokens error) : HaltsAt scope state (token :: tokens) error := by
  have reached : steps scope state [token] = .ok next := by rw [steps_singleton, stepped]
  exact halts.after reached

theorem HaltsAt.steps_eq (halts : HaltsAt scope state tokens error) :
    steps scope state tokens = .error error := by
  obtain ⟨front, last, next, rfl, reached, failed⟩ := halts
  rw [steps_append, reached, ok_bind, steps_singleton, failed]

theorem steps_reduced {tree : Expr} {value : Value} (spelt : tokens.map Token.kind = tree.kinds)
    (denotes : tree.Denotes scope value) (shallow : outer.length + tree.depth ≤ maxDepth) :
    steps scope (.operand .fresh outer) tokens = .ok (.operator value outer) := by
  rw [steps_expr tree tokens spelt (by omega), tree.eval_eq_ok_iff.mpr denotes, ok_bind]

/-- The last token of a primary that can be reduced completes the operand, and none before it
    makes the evaluation fail. -/
theorem exists_completing {p : Primary} {operand : Value} (level : Level)
    (spelt : tokens.map Token.kind = p.kinds) (denotes : p.Denotes scope operand)
    (shallow : outer.length + p.depth ≤ maxDepth) :
    ∃ front last next, tokens = front ++ [last] ∧
      steps scope (.operand level outer) front = .ok next ∧
      next.step scope last = State.afterOperand level outer operand := by
  -- the last token of a primary is the one that completes it
  cases denotes with
  | int | real =>
    obtain ⟨token, rest, rfl, kind, ends⟩ := List.map_eq_cons_iff.mp spelt
    rw [List.map_eq_nil_iff.mp ends]
    refine ⟨[], token, .operand level outer, rfl, rfl, ?_⟩
    simp only [State.step, kind, Number.toValue]
  | named bound =>
    obtain ⟨token, rest, rfl, kind, ends⟩ := List.map_eq_cons_iff.mp spelt
    rw [List.map_eq_nil_iff.mp ends]
    refine ⟨[], token, .operand level outer, rfl, rfl, ?_⟩
    simp only [State.step, kind, resolve_eq_ok_iff.mpr bound, ok_bind]
  | @group inner _ denotes =>
    rw [Primary.kinds, List.cons_append] at spelt
    obtain ⟨opening, rest, rfl, opens, spelt⟩ := List.map_eq_cons_iff.mp spelt
    obtain ⟨body, ending, rfl, inside, ending⟩ := List.map_eq_append_iff.mp spelt
    obtain ⟨closing, none, rfl, closes, ends⟩ := List.map_eq_cons_iff.mp ending
    rw [List.map_eq_nil_iff.mp ends]
    rw [Primary.depth] at shallow
    have opened : (State.operand level outer).step scope opening =
        .ok (.operand .fresh (level :: outer)) := by
      simp only [State.step, opens]
      exact if_pos (by omega)
    have room : inner.depth + (level :: outer).length ≤ maxDepth := by
      rw [List.length_cons]
      omega
    refine ⟨opening :: body, closing, .operator operand (level :: outer), by simp, ?_, ?_⟩
    · rw [steps_cons, opened, ok_bind, steps_expr inner body inside room,
        inner.eval_eq_ok_iff.mpr denotes, ok_bind]
    · simp only [State.step, closes]

/-- An operand that its level cannot take is refused with its last token. -/
theorem HaltsAt.of_operand {p : Primary} {operand : Value}
    (spelt : tokens.map Token.kind = p.kinds) (denotes : p.Denotes scope operand)
    (shallow : outer.length + p.depth ≤ maxDepth)
    (failed : State.afterOperand level outer operand = .error error) :
    HaltsAt scope (.operand level outer) tokens error := by
  obtain ⟨front, last, next, split, reached, completes⟩ :=
    exists_completing level spelt denotes shallow
  exact ⟨front, last, next, split, reached, completes.trans failed⟩

theorem step_count {left : Option (Value × Op)} {sign : Token} (counts : sign.kind = .count) :
    (State.operand ⟨left, false⟩ outer).step scope sign = .ok (.operand ⟨left, true⟩ outer) := by
  simp only [State.step, counts]
  rfl

theorem step_operation {value : Value} {op : Op} {sign : Token} (operates : sign.kind = op.kind) :
    (State.operator value outer).step scope sign =
      .ok (.operand ⟨some (value, op), false⟩ outer) := by
  cases op with
  | add => simp only [State.step, operates, Op.kind]
  | sub => simp only [State.step, operates, Op.kind]

theorem afterOperand_operation (held operand : Value) (op : Op) :
    State.afterOperand ⟨some (held, op), false⟩ outer operand =
      combine op held operand >>= fun value => .ok (.operator value outer) := rfl

/-- So is a term whose operation cannot be carried out. -/
theorem HaltsAt.of_term {left : Option (Value × Op)} {t : Term} {value : Value}
    (spelt : tokens.map Token.kind = t.kinds) (denotes : t.Denotes scope value)
    (shallow : outer.length + t.depth ≤ maxDepth)
    (failed : State.afterOperand ⟨left, false⟩ outer value = .error error) :
    HaltsAt scope (.operand ⟨left, false⟩ outer) tokens error := by
  cases denotes with
  | plain denotes => exact HaltsAt.of_operand spelt denotes shallow failed
  | @counted operand entries n denotes length =>
    obtain ⟨sign, rest, rfl, counts, spelt⟩ := List.map_eq_cons_iff.mp spelt
    have counted : count (.array entries) = .ok (.int n) :=
      count_eq_ok_iff.mpr ⟨entries, n, rfl, length, rfl⟩
    apply HaltsAt.cons (step_count counts)
    apply HaltsAt.of_operand spelt denotes shallow
    rw [afterOperand_counted, counted, ok_bind, failed]

mutual

theorem halts_primary {level : Level} {outer : List Level} : (p : Primary) → (read : List Kind) →
    (error : Error) → p.Stops scope outer.length read error → (tokens : List Token) →
    tokens.map Token.kind = read → HaltsAt scope (.operand level outer) tokens error
  | .named name, _, _, .named unbound, tokens, spelt => by
    obtain ⟨token, rest, rfl, kind, ends⟩ := List.map_eq_cons_iff.mp spelt
    rw [List.map_eq_nil_iff.mp ends]
    have failed : resolve scope name = .error (.undefinedVariable name) :=
      resolve_eq_error_iff.mpr ⟨rfl, unbound⟩
    apply HaltsAt.of_step
    simp only [State.step, kind, failed]
    rfl
  | .group inner, _, _, .tooDeep full, tokens, spelt => by
    obtain ⟨token, rest, rfl, kind, ends⟩ := List.map_eq_cons_iff.mp spelt
    rw [List.map_eq_nil_iff.mp ends]
    apply HaltsAt.of_step
    simp only [State.step, kind]
    exact if_neg (Nat.not_lt.mpr full)
  | .group inner, _, error, .group room inside, tokens, spelt => by
    obtain ⟨token, rest, rfl, kind, spelt⟩ := List.map_eq_cons_iff.mp spelt
    have opened : (State.operand level outer).step scope token =
        .ok (.operand .fresh (level :: outer)) := by
      simp only [State.step, kind]
      exact if_pos room
    have inside : inner.Stops scope (level :: outer).length _ error := inside
    exact (halts_expr inner _ error inside rest spelt).cons opened

theorem halts_term {left : Option (Value × Op)} {outer : List Level} : (t : Term) →
    (read : List Kind) → (error : Error) → t.Stops scope outer.length read error →
    (tokens : List Token) → tokens.map Token.kind = read →
    HaltsAt scope (.operand ⟨left, false⟩ outer) tokens error
  | .plain operand, _, error, .plain stops, tokens, spelt =>
    halts_primary operand _ error stops tokens spelt
  | .counted operand, _, error, .operand stops, tokens, spelt => by
    obtain ⟨sign, rest, rfl, counts, spelt⟩ := List.map_eq_cons_iff.mp spelt
    exact (halts_primary operand _ error stops rest spelt).cons (step_count counts)
  | .counted operand, _, error, .counting denotes shallow failed, tokens, spelt => by
    obtain ⟨sign, rest, rfl, counts, spelt⟩ := List.map_eq_cons_iff.mp spelt
    apply HaltsAt.cons (step_count counts)
    apply HaltsAt.of_operand spelt denotes shallow
    rw [afterOperand_counted, failed]
    rfl

/-- **The pass halts where a tree stops**, with the same error. -/
theorem halts_expr {outer : List Level} : (e : Expr) → (read : List Kind) → (error : Error) →
    e.Stops scope outer.length read error → (tokens : List Token) →
    tokens.map Token.kind = read → HaltsAt scope (.operand .fresh outer) tokens error
  | .single term, _, error, .single stops, tokens, spelt =>
    halts_term term _ error stops tokens spelt
  | .chain left op right, _, error, .left stops, tokens, spelt =>
    halts_expr left _ error stops tokens spelt
  | .chain left op right, _, error, .right denotes shallow stops, tokens, spelt => by
    obtain ⟨before, behind, rfl, first, behind⟩ := List.map_eq_append_iff.mp spelt
    obtain ⟨sign, after, rfl, operates, second⟩ := List.map_eq_cons_iff.mp behind
    have reached : steps scope (.operand .fresh outer) before = .ok (.operator _ outer) :=
      steps_reduced first denotes shallow
    -- the left operand is evaluated, the operator waits: only the right one can stop
    apply HaltsAt.after reached
    apply HaltsAt.cons (step_operation operates)
    exact halts_term right _ error stops after second
  | .chain left op right, _, error, .operation denotes denotes' shallow failed, tokens, spelt => by
    obtain ⟨before, behind, rfl, first, behind⟩ := List.map_eq_append_iff.mp spelt
    obtain ⟨sign, after, rfl, operates, second⟩ := List.map_eq_cons_iff.mp behind
    have reached : steps scope (.operand .fresh outer) before = .ok (.operator _ outer) :=
      steps_reduced first denotes (by omega)
    apply HaltsAt.after reached
    apply HaltsAt.cons (step_operation operates)
    -- both operands are evaluated, and the operation fails with the last token
    apply HaltsAt.of_term second denotes' (by omega)
    rw [afterOperand_operation, failed]
    rfl

end

/-- Before its last token an evaluation that halts there is under way. -/
theorem HaltsAt.exists_steps {before rest : List Token}
    (halts : HaltsAt scope state (before ++ rest) error) (some : rest ≠ []) :
    ∃ next, steps scope state before = .ok next := by
  obtain ⟨front, last, next, split, reached, -⟩ := halts
  obtain ⟨between, final, rfl⟩ := (List.eq_nil_or_concat rest).resolve_left some
  rw [List.concat_eq_append, ← List.append_assoc] at split
  obtain ⟨rfl, -⟩ := List.append_inj' split rfl
  rw [steps_append] at reached
  obtain ⟨next, here, -⟩ := bind_eq_ok.mp reached
  exact ⟨next, here⟩

end ChatMarkup.Formula
