/-
  ChatMarkup/Proofs/Formula/Failure.lean
  ======================================
  **A formula fails for its leftmost cause** — the first token that the grammar does not allow,
  or the first operand or operation that cannot be reduced, whichever is read first
  (`leftmost_cause`).

  Take any formula of the grammar that begins with the tokens up to the error.  If it had a
  value, the pass would have gone on; so it stops, and it can only stop where the pass did.
  An error about a value is therefore its error, and if the token was refused as such, there
  is no such formula.  Conversely, what stands to the left of a token can always be completed
  (`Enclosing.exists_tree`).
-/
import ChatMarkup.Proofs.Formula.Halting
import ChatMarkup.Proofs.Formula.Tiling

namespace ChatMarkup.Formula

variable {scope : Scope} {state next : State} {level : Level} {outer : List Level}
  {tokens : List Token} {error : Error}

/-! ### Formulas that begin with some tokens -/

def unplaced (kinds : List Kind) : List Token := kinds.map fun kind => ⟨kind, 0⟩

theorem kinds_unplaced (kinds : List Kind) : (unplaced kinds).map Token.kind = kinds := by
  rw [unplaced, List.map_map]
  exact List.map_id kinds

/-- What has been evaluated without an error is reduced in every formula that begins so. -/
theorem reduced_of_steps (reached : steps scope .initial tokens = .ok state) :
    Reduced scope (tokens.map Token.kind) := by
  intro tree _ read error stops front
  obtain ⟨rest, e⟩ := front
  obtain ⟨before, after, rfl, spelt, -⟩ := List.map_eq_append_iff.mp e.symm
  have halts : HaltsAt scope .initial before error := halts_expr tree read error stops before spelt
  rw [steps_append, halts.steps_eq] at reached
  cases reached

/-- **A formula that begins with the tokens up to the first error stops there.** -/
theorem stops_of_step {front : List Token} {last : Token}
    (reached : steps scope .initial front = .ok state)
    (failed : state.step scope last = .error error) {tree : Expr}
    (begins : (front ++ [last]).map Token.kind <+: tree.kinds) :
    tree.Stops scope 0 ((front ++ [last]).map Token.kind) error := by
  have fails : steps scope .initial (front ++ [last]) = .error error := by
    rw [steps_append, reached, ok_bind, steps_singleton, failed]
  obtain ⟨rest, whole⟩ := begins
  -- the same tokens, followed by what the formula goes on with
  have spelt : (front ++ [last] ++ unplaced rest).map Token.kind = tree.kinds := by
    rw [List.map_append, kinds_unplaced, whole]
  -- a tree that denotes something would let the evaluation pass the last token
  rcases tree.denotes_or_stops scope (Nat.zero_le _) with
    ⟨value, denotes, shallow⟩ | ⟨read, other, stops⟩
  · have all : steps scope (.operand .fresh []) (front ++ [last] ++ unplaced rest) =
        .ok (.operator value []) := steps_reduced spelt denotes shallow
    rw [steps_append, ← State.initial, fails] at all
    cases all
  · obtain ⟨within, -⟩ := tree.stops_facts read other stops
    have begins : (front ++ [last]).map Token.kind <+: tree.kinds := ⟨rest, whole⟩
    have notEarlier : ¬read <+: front.map Token.kind := by
      rw [List.map_append] at begins
      exact reduced_of_steps reached tree ((List.prefix_append _ _).trans begins) read other stops
    have later : (front ++ [last]).map Token.kind <+: read := by
      rcases List.prefix_or_prefix_of_prefix begins within with later | earlier
      · exact later
      · rw [List.map_append, List.map_singleton, List.prefix_concat_iff] at earlier
        have same : read = (front ++ [last]).map Token.kind := by
          rw [List.map_append, List.map_singleton]
          exact earlier.resolve_right notEarlier
        exact same ▸ List.prefix_rfl
    obtain ⟨more, later⟩ := later
    have spelt : (front ++ [last] ++ unplaced more).map Token.kind = read := by
      rw [List.map_append, kinds_unplaced, later]
    have halts : HaltsAt scope .initial (front ++ [last] ++ unplaced more) other :=
      halts_expr tree read other stops _ spelt
    by_cases none : more = []
    · subst none
      rw [List.append_nil] at later
      rw [unplaced, List.map_nil, List.append_nil] at halts
      rw [halts.steps_eq] at fails
      cases fails
      rwa [later]
    · obtain ⟨next, under⟩ := halts.exists_steps (by simpa [unplaced] using none)
      rw [fails] at under
      cases under

/-! ### How tokens can go on -/

/-- A primary makes an expression of what has been read inside its parentheses. -/
theorem Level.Read.exists_expr {room : Nat} {inside : List Kind}
    (h : level.Read scope room inside) (p : Primary) : ∃ e : Expr, e.kinds = inside ++ p.kinds := by
  cases h with
  | first counted => exact ⟨.single (termOf counted p), kinds_termOf counted p⟩
  | @later left held op counted evaluated shallow =>
    refine ⟨.chain left op (termOf counted p), ?_⟩
    rw [Expr.kinds, kinds_termOf, List.append_assoc, List.cons_append]

/-- **What stands around an expression can be completed to a formula**, parenthesis by
    parenthesis. -/
theorem Enclosing.exists_tree {before : List Kind} (h : Enclosing scope outer before) :
    ∀ e : Expr, ∃ tree : Expr, before ++ e.kinds <+: tree.kinds := by
  induction h with
  | none =>
    intro e
    exact ⟨e, List.prefix_rfl⟩
  | @opened level outer before inside enclosing read room ih =>
    intro e
    obtain ⟨around, spelt⟩ := read.exists_expr (.group e)
    obtain ⟨tree, begins⟩ := ih around
    refine ⟨tree, List.IsPrefix.trans ⟨[.closing], ?_⟩ begins⟩
    rw [spelt, Primary.kinds]
    simp

/-- Wherever an operand is waited for, any primary can follow. -/
theorem Enclosing.exists_tree_primary {before inside : List Kind}
    (h : Enclosing scope outer before) (read : level.Read scope (maxDepth - outer.length) inside)
    (p : Primary) : ∃ tree : Expr, before ++ inside ++ p.kinds <+: tree.kinds := by
  obtain ⟨e, spelt⟩ := read.exists_expr p
  rw [List.append_assoc, ← spelt]
  exact h.exists_tree e

/-- **What has been read is the beginning of a formula.** -/
theorem State.Read.exists_tree {read : List Kind} (h : state.Read scope read) :
    ∃ tree : Expr, read <+: tree.kinds := by
  cases h with
  | operand enclosing read =>
    obtain ⟨tree, begins⟩ := enclosing.exists_tree_primary read (.number (.int 0))
    exact ⟨tree, (List.prefix_append _ _).trans begins⟩
  | @operator tree value outer before enclosing evaluated shallow => exact enclosing.exists_tree tree

theorem State.Read.viable {read : List Kind} (h : state.Read scope read) : Viable read := by
  obtain ⟨tree, begins⟩ := h.exists_tree
  exact ⟨tree, begins.trans (List.prefix_append _ _)⟩

/-- A token is refused as such, or it could follow and what it completes cannot be reduced. -/
theorem State.Read.unexpected_or_semantic {token : Token} {read : List Kind}
    (h : state.Read scope read) (failed : state.step scope token = .error error) :
    error = .unexpected token ∨
      error.Semantic ∧ ∃ tree : Expr, read ++ [token.kind] <+: tree.kinds := by
  cases h with
  | @operand level outer before inside enclosing read =>
    simp only [State.step] at failed
    split at failed
    · rename_i n kind
      rw [kind]
      exact Or.inr ⟨semantic_afterOperand _ _ _ _ failed,
        enclosing.exists_tree_primary read (.number n)⟩
    · rename_i name kind
      rw [kind]
      refine Or.inr ⟨?_, enclosing.exists_tree_primary read (.named name)⟩
      have semantic : FailsOnly Error.Semantic
          (resolve scope name >>= State.afterOperand level outer) := by
        apply FailsOnly.bind
        · intro e unbound
          rw [(resolve_eq_error_iff.mp unbound).1]
          rfl
        · intro value _
          exact semantic_afterOperand level outer value
      exact semantic _ failed
    · rename_i kind
      split at failed
      · cases failed
      · cases failed
        rw [kind]
        -- any formula between the parentheses will do to complete the tree
        obtain ⟨tree, begins⟩ :=
          enclosing.exists_tree_primary read (.group (.single (.plain (.number (.int 0)))))
        refine Or.inr ⟨rfl, tree, List.IsPrefix.trans ⟨[.number (.int 0), .closing], ?_⟩ begins⟩
        simp [Primary.kinds, Expr.kinds, Term.kinds]
    · split at failed
      · cases failed
        exact Or.inl rfl
      · cases failed
    · cases failed
      exact Or.inl rfl
  | @operator tree value outer before enclosing evaluated shallow =>
    simp only [State.step] at failed
    split at failed
    · cases failed
    · cases failed
    · rename_i kind
      rw [kind]
      refine Or.inr ⟨semantic_afterOperand _ _ _ _ failed, ?_⟩
      cases enclosing with
      | @opened level outer before inside enclosing read room =>
        have closed := enclosing.exists_tree_primary read (.group tree)
        simpa [Primary.kinds] using closed
    · cases failed
      exact Or.inl rfl

/-! ### The end of a formula -/

mutual

theorem Primary.endOfInput_not_mem : (p : Primary) → Kind.endOfInput ∉ p.kinds
  | .number _ => by simp [Primary.kinds]
  | .named _ => by simp [Primary.kinds]
  | .group inner => by simp [Primary.kinds, inner.endOfInput_not_mem]

theorem Term.endOfInput_not_mem : (t : Term) → Kind.endOfInput ∉ t.kinds
  | .plain operand => operand.endOfInput_not_mem
  | .counted operand => by simp [Term.kinds, operand.endOfInput_not_mem]

theorem Expr.endOfInput_not_mem : (e : Expr) → Kind.endOfInput ∉ e.kinds
  | .single term => term.endOfInput_not_mem
  | .chain left op right => by
    cases op <;>
      simp [Expr.kinds, Op.kind, left.endOfInput_not_mem, right.endOfInput_not_mem]

end

/-- Tokens before the end of a formula that begins with them are its own. -/
theorem kinds_begin_without_end {read : List Kind} {tree : Expr}
    (begins : read <+: tree.kinds ++ [.endOfInput]) (absent : Kind.endOfInput ∉ read) :
    read <+: tree.kinds := by
  rcases List.prefix_concat_iff.mp begins with whole | begins
  · rw [whole] at absent
    exact absurd (List.mem_append_right _ List.mem_cons_self) absent
  · exact begins

/-- Only a whole formula can end. -/
theorem eq_kinds_of_begins {read : List Kind} {tree : Expr}
    (begins : read ++ [.endOfInput] <+: tree.kinds ++ [.endOfInput]) : read = tree.kinds := by
  rcases List.prefix_concat_iff.mp begins with whole | within
  · exact List.append_cancel_right whole
  · exact absurd (within.subset (List.mem_append_right _ List.mem_cons_self))
      tree.endOfInput_not_mem

/-! ### Tokens that cannot follow -/

/-- **Before a token that is refused as such, there is no formula that goes on with it.** -/
theorem not_viable_of_unexpected {front : List Token} {last : Token}
    (reached : steps scope .initial front = .ok state)
    (failed : state.step scope last = .error (.unexpected last)) (kind : last.kind ≠ .endOfInput)
    (others : ∀ token ∈ front, token.kind ≠ .endOfInput) :
    ¬Viable ((front ++ [last]).map Token.kind) := by
  rintro ⟨tree, begins⟩
  have absent : Kind.endOfInput ∉ (front ++ [last]).map Token.kind := by
    intro member
    obtain ⟨token, inside, ends⟩ := List.mem_map.mp member
    rcases List.mem_append.mp inside with earlier | here
    · exact others token earlier ends
    · rw [List.mem_singleton.mp here] at ends
      exact kind ends
  -- a tree that goes on like this would stop here with an error that has no place
  have stops := stops_of_step reached failed (kinds_begin_without_end begins absent)
  have semantic := (tree.stops_facts _ _ stops).2
  rw [Error.Semantic, position?_unexpected] at semantic
  cases semantic

/-- **No formula ends where something is still waited for.** -/
theorem not_viable_of_waiting {front : List Token}
    (reached : steps scope .initial front = .ok state)
    (waiting : ∀ value, state ≠ .operator value []) :
    ¬Viable (front.map Token.kind ++ [.endOfInput]) := by
  rintro ⟨tree, begins⟩
  -- nothing follows the end, so the tree has just the tokens that were read
  have whole := eq_kinds_of_begins begins
  rcases tree.denotes_or_stops scope (Nat.zero_le _) with
    ⟨value, denotes, shallow⟩ | ⟨read, error, stops⟩
  · have complete : steps scope (.operand .fresh []) front = .ok (.operator value []) :=
      steps_reduced whole denotes shallow
    rw [← State.initial, reached] at complete
    cases complete
    exact waiting value rfl
  · have front' := (tree.stops_facts read error stops).1
    rw [← whole] at front'
    have begins' : front.map Token.kind <+: tree.kinds := whole ▸ List.prefix_rfl
    exact reduced_of_steps reached tree begins' read error stops front'

/-! ### Formulas that fail -/

/-- Steps fail at one of the tokens. -/
theorem exists_of_steps_eq_error (failed : steps scope state tokens = .error error) :
    ∃ before token after next, tokens = before ++ token :: after ∧
      steps scope state before = .ok next ∧ next.step scope token = .error error := by
  induction tokens generalizing state with
  | nil => cases failed
  | cons token rest ih =>
    rw [steps_cons] at failed
    cases stepped : state.step scope token with
    | error other =>
      rw [stepped] at failed
      cases failed
      exact ⟨[], token, rest, state, rfl, rfl, stepped⟩
    | ok next =>
      rw [stepped, ok_bind] at failed
      obtain ⟨before, last, after, further, rfl, reached, failed⟩ := ih failed
      refine ⟨token :: before, last, after, further, rfl, ?_, failed⟩
      rw [steps_cons, stepped, ok_bind, reached]

/-- At the end of a formula something may still be waited for. -/
theorem run_end_eq_error {last : Token} (ends : last.kind = .endOfInput)
    (failed : run scope state [last] = .error error) :
    error = .unexpected last ∧ ∀ value, state ≠ .operator value [] := by
  constructor
  · obtain ⟨kind, position⟩ := last
    cases ends
    cases state with
    | operand level outer =>
      cases failed
      rfl
    | operator value outer =>
      cases outer with
      | nil => cases failed
      | cons level outer =>
        cases failed
        rfl
  · rintro value rfl
    rw [(run_end_eq_ok_iff ends).mpr rfl] at failed
    cases failed

theorem tiles_start (formula : String) : Tiles 0 formula.toList (Formula.tokens formula) :=
  tiles_toList (Lexer.start formula) rfl

/-- The last token of a formula is its end, and no other is. -/
theorem ends_tokens (formula : String) :
    ∃ front, Formula.tokens formula =
        front ++ [⟨.endOfInput, Text.byteLength formula.toList⟩] ∧
      ∀ token ∈ front, token.kind ≠ .endOfInput := by
  have ends := (tiles_start formula).ends
  rwa [Nat.zero_add] at ends

/-- **A formula fails for its leftmost cause**, and up to it everything is reduced.  An error with an
    offset is about the first token that no formula of the grammar has there.  Any other error
    is the one at which every formula stops that begins with the tokens so far, and there are
    such formulas. -/
theorem leftmost_cause {formula : String} (failed : evaluate scope formula = .error error) :
    ∃ before token after, Formula.tokens formula = before ++ token :: after ∧
      Reduced scope (before.map Token.kind) ∧
      (∀ position, error.position? = some position →
        token.position = position ∧ Viable (before.map Token.kind) ∧
          ¬Viable ((before ++ [token]).map Token.kind) ∧
          (token.kind = .endOfInput → position = Text.byteLength formula.toList) ∧
          (∀ c, error = .strayCharacter c position ↔ token.kind = .stray c) ∧
          ∀ kind, error = .unexpectedToken kind position ↔
            token.kind = kind ∧ ∀ c, kind ≠ .stray c) ∧
      (error.position? = none →
        (∃ tree : Expr, (before ++ [token]).map Token.kind <+: tree.kinds) ∧
          ∀ tree : Expr, (before ++ [token]).map Token.kind <+: tree.kinds →
            tree.Stops scope 0 ((before ++ [token]).map Token.kind) error) := by
  obtain ⟨front, whole, others⟩ := ends_tokens formula
  rw [evaluate, whole, run_append others] at failed
  -- an error before the end, or the end itself where a formula cannot end
  cases stepped : steps scope .initial front with
  | error other =>
    rw [stepped] at failed
    cases failed
    obtain ⟨before, token, after, next, rfl, reached, halted⟩ := exists_of_steps_eq_error stepped
    rw [List.forall_mem_append, List.forall_mem_cons] at others
    obtain ⟨earlier, notEnd, -⟩ := others
    have read := State.read_initial.steps reached
    rw [List.nil_append] at read
    refine ⟨before, token, _, by rw [whole, List.append_assoc, List.cons_append],
      reduced_of_steps reached, ?_, ?_⟩
    · intro position some
      rcases read.unexpected_or_semantic halted with rfl | ⟨none, -⟩
      · rw [position?_unexpected, Option.some.injEq] at some
        subst some
        exact ⟨rfl, read.viable, not_viable_of_unexpected reached halted notEnd earlier,
          fun ends => absurd ends notEnd, fun c => unexpected_eq_strayCharacter_iff,
          fun kind => unexpected_eq_unexpectedToken_iff⟩
      · cases none.symm.trans some
    · intro none
      rcases read.unexpected_or_semantic halted with rfl | ⟨-, begins⟩
      · cases (position?_unexpected token).symm.trans none
      · rw [List.map_append, List.map_singleton]
        refine ⟨begins, fun tree begins => ?_⟩
        rw [← List.map_singleton, ← List.map_append] at begins ⊢
        exact stops_of_step reached halted begins
  | ok next =>
    rw [stepped, ok_bind] at failed
    -- the evaluation takes every token but the end, so that one is not expected
    obtain ⟨refused, waiting⟩ := run_end_eq_error rfl failed
    have read := State.read_initial.steps stepped
    rw [List.nil_append] at read
    refine ⟨front, _, [], whole, reduced_of_steps stepped, ?_, ?_⟩
    · intro position some
      rw [refused, position?_unexpected, Option.some.injEq] at some
      subst some
      rw [refused, List.map_append, List.map_singleton]
      exact ⟨rfl, read.viable, not_viable_of_waiting stepped waiting, fun _ => rfl,
        fun c => unexpected_eq_strayCharacter_iff, fun kind => unexpected_eq_unexpectedToken_iff⟩
    · intro none
      rw [refused, position?_unexpected] at none
      cases none

/-- Its offset tells a token of a formula from all others. -/
theorem split_unique {formula : String} {before before' after after' : List Token}
    {token token' : Token} (split : Formula.tokens formula = before ++ token :: after)
    (split' : Formula.tokens formula = before' ++ token' :: after')
    (place : token.position = token'.position) : before = before' ∧ token = token' := by
  have ascending := (tiles_start formula).ascending
  -- tokens stand one behind the other, so there is one of them at any place
  have between {first second : Token} {front more rest : List Token}
      (e : Formula.tokens formula = front ++ (first :: more ++ second :: rest)) :
      first.position < second.position := by
    rw [e, List.pairwise_append, List.cons_append, List.pairwise_cons] at ascending
    exact ascending.2.1.1 second (List.mem_append_right _ List.mem_cons_self)
  rcases List.append_eq_append_iff.mp (split.symm.trans split') with
    ⟨more, rfl, rest⟩ | ⟨more, rfl, rest⟩
  · rcases List.cons_eq_append_iff.mp rest with ⟨rfl, same⟩ | ⟨more, rfl, rfl⟩
    · cases same
      exact ⟨(List.append_nil _).symm, rfl⟩
    · have := between split
      omega
  · rcases List.cons_eq_append_iff.mp rest with ⟨rfl, same⟩ | ⟨more, rfl, rfl⟩
    · cases same
      exact ⟨List.append_nil _, rfl⟩
    · have := between split'
      omega

/-- The parenthesis is refused, which comes before the name without a value. -/
theorem leftmost_parenthesis :
    let scope := Scope.empty.bind "x" (.int 1)
    let front : List Kind := [.number (.int 2), .plus, .named "x"]
    evaluate scope "2 + x) - y" = .error (.unexpectedToken .closing 5) ∧
      Reduced scope front ∧ Viable front ∧ ¬Viable (front ++ [.closing]) := by
  intro scope front
  have failed : evaluate scope "2 + x) - y" = .error (.unexpectedToken .closing 5) :=
    error?_eq_some_iff.mp (by decide +kernel)
  have read : Formula.tokens "2 + x) - y" =
      [⟨.number (.int 2), 0⟩, ⟨.plus, 2⟩, ⟨.named "x", 4⟩] ++ ⟨.closing, 5⟩ ::
        [⟨.minus, 7⟩, ⟨.named "y", 9⟩, ⟨.endOfInput, 10⟩] := by decide +kernel
  obtain ⟨before, token, after, split, reduced, misplaced, -⟩ := leftmost_cause failed
  obtain ⟨place, viable, notViable, -, -, kind⟩ := misplaced 5 rfl
  obtain ⟨here, same⟩ := split_unique read split place.symm
  rw [← here] at reduced viable notViable
  rw [← same] at notViable
  exact ⟨failed, reduced, viable, notViable⟩

end ChatMarkup.Formula
