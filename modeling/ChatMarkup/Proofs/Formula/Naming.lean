/-
  ChatMarkup/Proofs/Formula/Naming.lean
  =====================================
  **What formulas ask of their scope** — the value of a formula depends on the names among its
  tokens only (`evaluate_congr`), and which variables a formula can name at all.

  A formula that is nothing but a name has the value of that variable (`evaluate_name`),
  unless it begins with a number.  Then the lexer takes the number first, so that no scope
  makes any difference (`evaluate_of_beginsNumber`).
-/
import ChatMarkup.Formula.Tiling
import ChatMarkup.Proofs.Formula.Evaluation

namespace ChatMarkup.Formula

variable {scope first second : Scope}

/-! ### Scopes that agree -/

theorem State.step_congr {token : Token}
    (agree : ∀ name, token.kind = .named name → first.get? name = second.get? name)
    (state : State) : state.step first token = state.step second token := by
  obtain ⟨kind, position⟩ := token
  cases state with
  | operator value outer => rfl
  | operand level outer =>
    cases kind with
    | named name =>
      have same := agree name rfl
      simp only [State.step, resolve, same]
    | _ => rfl

/-- At the end of a formula the scope has nothing more to say. -/
theorem run_end_congr {token : Token} (ends : token.kind = .endOfInput) (rest : List Token)
    (state : State) : run first state (token :: rest) = run second state (token :: rest) := by
  obtain ⟨kind, position⟩ := token
  cases ends
  cases state with
  | operand level outer => rfl
  | operator value outer => cases outer <;> rfl

theorem run_congr {tokens : List Token}
    (agree : ∀ token ∈ tokens, ∀ name, token.kind = .named name →
      first.get? name = second.get? name) (state : State) :
    run first state tokens = run second state tokens := by
  induction tokens generalizing state with
  | nil =>
    cases state with
    | operand level outer => rfl
    | operator value outer => cases outer <;> rfl
  | cons token rest ih =>
    obtain ⟨here, others⟩ := List.forall_mem_cons.mp agree
    -- the end of input looks no name up, whatever the state
    by_cases ends : token.kind = .endOfInput
    · exact run_end_congr ends rest state
    · rw [run_cons ends, run_cons ends, State.step_congr here]
      congr 1
      funext next
      exact ih others next

/-- **The value of a formula depends on the names in it only.** -/
theorem evaluate_congr {formula : String}
    (agree : ∀ token ∈ tokens formula, ∀ name, token.kind = .named name →
      first.get? name = second.get? name) : evaluate first formula = evaluate second formula :=
  run_congr agree .initial

/-! ### Formulas that are names -/

variable {c : Char} {tail : List Char} {name : String}

theorem operator?_of_isNameChar (h : isNameChar c = true) : operator? c = none := by
  unfold operator?
  split
  · cases h
  · cases h
  · cases h
  · cases h
  · cases h
  · rfl

theorem isGap_of_isNameChar (h : isNameChar c = true) : isGap c = false := by
  rw [Bool.eq_false_iff]
  intro gap
  simp only [isGap, Bool.or_eq_true, beq_iff_eq] at gap
  rcases gap with rfl | rfl
  · cases h
  · cases h

theorem Lexer.toList_nil (position : Nat) :
    (⟨[], position, false⟩ : Lexer).toList = [⟨.endOfInput, position⟩] := by
  rw [toList]
  exact congrArg _ (toList_of_finished rfl)

theorem Lexer.toList_cons (solid : isGap c = false) (position : Nat) :
    (⟨c :: tail, position, false⟩ : Lexer).toList =
      ⟨(scan c tail).kind, position⟩ ::
        (⟨(scan c tail).rest, position + Text.byteLength (scan c tail).text, false⟩ :
          Lexer).toList := by
  rw [toList]
  simp [next, solid]

theorem tokens_of_cons {formula : String} (e : formula.toList = c :: tail)
    (solid : isGap c = false) :
    tokens formula = ⟨(scan c tail).kind, 0⟩ ::
      (⟨(scan c tail).rest, 0 + Text.byteLength (scan c tail).text, false⟩ : Lexer).toList := by
  rw [tokens, Lexer.start, e, Lexer.toList_cons solid]

theorem exists_of_isName (valid : isName name = true) :
    ∃ c tail, name.toList = c :: tail ∧ ∀ d ∈ c :: tail, isNameChar d = true := by
  rw [isName, Bool.and_eq_true, List.all_eq_true] at valid
  cases e : name.toList with
  | nil => simp [e] at valid
  | cons c tail =>
    rw [e] at valid
    exact ⟨c, tail, rfl, valid.2⟩

theorem beginsNumber_cons_iff :
    beginsNumber (c :: tail) = true ↔
      c.isDigit = true ∨ c = '.' ∧ tail.takeWhile Char.isDigit ≠ [] := by
  have point : Char.isDigit '.' = false := by decide
  by_cases dot : c = '.'
  · subst dot
    cases tail with
    | nil => simp [beginsNumber, point]
    | cons d tail => cases digit : d.isDigit <;> simp [beginsNumber, point, digit]
  · simp [beginsNumber, dot]

/-- A name is read as a whole, unless it begins with a number. -/
theorem scan_name (valid : ∀ d ∈ c :: tail, isNameChar d = true)
    (proper : beginsNumber (c :: tail) = false) :
    scan c tail = ⟨.named (String.ofList (c :: tail)), c :: tail, []⟩ := by
  have none := operator?_of_isNameChar (valid c List.mem_cons_self)
  rw [← Bool.not_eq_true, beginsNumber_cons_iff, not_or, Bool.not_eq_true] at proper
  obtain ⟨noDigit, noFraction⟩ := proper
  have all : (c :: tail).takeWhile isNameChar = c :: tail := by
    rw [← List.append_nil (c :: tail), List.takeWhile_append_of_pos valid]
    rfl
  have nothing : (c :: tail).dropWhile isNameChar = [] := by
    rw [← List.append_nil (c :: tail), List.dropWhile_append_of_pos valid]
    rfl
  have digits : (c :: tail).takeWhile Char.isDigit = [] := by simp [noDigit]
  have behind : (c :: tail).dropWhile Char.isDigit = c :: tail := by simp [noDigit]
  simp only [scan, none, all, nothing, digits, behind]
  rw [if_neg, if_neg (fun some => some rfl), if_pos (List.cons_ne_nil _ _)]
  rintro ⟨point, some⟩
  exact noFraction ⟨Option.some.inj point, some.resolve_left fun some => some rfl⟩

/-- A name that begins with a number is read from that number on. -/
theorem exists_number_of_scan (named : isNameChar c = true)
    (number : beginsNumber (c :: tail) = true) : ∃ n, (scan c tail).kind = .number n := by
  have none := operator?_of_isNameChar named
  simp only [scan, none]
  split
  · exact ⟨_, rfl⟩
  · rename_i notReal
    rcases beginsNumber_cons_iff.mp number with digit | ⟨rfl, some⟩
    · rw [if_pos (by simp [digit])]
      exact ⟨_, rfl⟩
    · exact absurd ⟨rfl, Or.inr some⟩ notReal

/-- Behind a token of a name there are name characters only. -/
theorem isNameChar_of_mem_rest (valid : ∀ d ∈ c :: tail, isNameChar d = true) :
    ∀ d ∈ (scan c tail).rest, isNameChar d = true := by
  intro d member
  apply valid
  rw [← scan_text c tail]
  exact List.mem_append_right _ member

/-- **A name has the value of its variable**, unless it begins with a number. -/
theorem evaluate_name (valid : isName name = true) (proper : beginsNumber name.toList = false) :
    evaluate scope name = resolve scope name := by
  obtain ⟨c, tail, e, named⟩ := exists_of_isName valid
  rw [e] at proper
  have derives : Derives name (.single (.plain (.named name))) := by
    have solid := isGap_of_isNameChar (named c List.mem_cons_self)
    rw [Derives, tokens_of_cons e solid, scan_name named proper, Lexer.toList_nil, ← e,
      String.ofList_toList]
    rfl
  exact evaluate_eq_eval derives (Nat.zero_le _)

theorem scan_ne_operation (named : isNameChar c = true) :
    (scan c tail).kind ≠ .plus ∧ (scan c tail).kind ≠ .minus := by
  have none := operator?_of_isNameChar named
  simp only [scan, none]
  split
  · simp
  · split
    · simp
    · split <;> simp

/-- Behind a value, only an operation goes on to ask the scope. -/
theorem run_value_congr {value : Value} {token : Token} (rest : List Token)
    (notPlus : token.kind ≠ .plus) (notMinus : token.kind ≠ .minus) :
    run first (.operator value []) (token :: rest) =
      run second (.operator value []) (token :: rest) := by
  obtain ⟨kind, position⟩ := token
  cases kind with
  | plus => exact absurd rfl notPlus
  | minus => exact absurd rfl notMinus
  | _ => rfl

/-- **No variable is named by what begins with a number**: whatever comes of it, comes of it in
    any scope. -/
theorem evaluate_of_beginsNumber (valid : isName name = true)
    (number : beginsNumber name.toList = true) (first second : Scope) :
    evaluate first name = evaluate second name := by
  obtain ⟨c, tail, e, named⟩ := exists_of_isName valid
  rw [e] at number
  have here := named c List.mem_cons_self
  have behind := isNameChar_of_mem_rest named
  obtain ⟨n, kind⟩ := exists_number_of_scan here number
  have start := tokens_of_cons e (isGap_of_isNameChar here)
  rw [kind] at start
  -- the number itself does not depend on the scope, so only what follows it could
  have value (scope : Scope) (rest : List Token) :
      run scope .initial (⟨.number n, 0⟩ :: rest) = run scope (.operator n.toValue []) rest :=
    run_cons (by simp) rest
  rw [evaluate, evaluate, start, value, value]
  cases rest : (scan c tail).rest with
  | nil =>
    rw [Lexer.toList_nil]
    exact run_end_congr rfl _ _
  | cons d more =>
    have next : isNameChar d = true := behind d (by simp [rest])
    -- behind the number stands a name character, which no operator is: an error in any scope
    have operates : (scan d more).kind ≠ .plus ∧ (scan d more).kind ≠ .minus :=
      scan_ne_operation next
    rw [Lexer.toList_cons (isGap_of_isNameChar next)]
    exact run_value_congr _ operates.1 operates.2

end ChatMarkup.Formula
