/-
  ChatMarkup/Proofs/Formula/Tiling.lean
  =====================================
  **Tokens tile their formula** — reading a formula as tokens takes it apart without anything
  left over, each text of a token being the one that the order of the patterns chooses at its
  place (`tiles_tokens`).

  What a single reading chooses is shown pattern by pattern (`chosen_scan`).  Everything else
  that is said of the positions of tokens follows from the tiles alone.
-/
import ChatMarkup.Formula.Tiling
import ChatMarkup.Proofs.Formula.Evaluation
import ChatMarkup.Text.Octets

namespace ChatMarkup.Formula

variable {source text places rest whole : List Char}

/-! ### Runs of characters -/

/-- A beginning that is a run of some class of characters is part of the longest one. -/
theorem run_at {p : Char → Bool} (all : ∀ c ∈ text, p c = true) (some : text ≠ [])
    (front : text <+: source) :
    source.takeWhile p ≠ [] ∧ text.length ≤ (source.takeWhile p).length := by
  obtain ⟨rest, rfl⟩ := front
  rw [List.takeWhile_append_of_pos all, List.length_append]
  constructor
  · intro none
    exact some (List.append_eq_nil_iff.mp none).1
  · exact Nat.le_add_right _ _

/-- Digits end where there is a point. -/
theorem split_at_point (left : AllDigits whole) (front : whole ++ '.' :: places <+: source) :
    source.takeWhile Char.isDigit = whole ∧
      ∃ rest, source.dropWhile Char.isDigit = '.' :: rest ∧ places <+: rest := by
  obtain ⟨rest, rfl⟩ := front
  rw [List.append_assoc, List.cons_append, List.takeWhile_append_of_pos left,
    List.dropWhile_append_of_pos left]
  have point : Char.isDigit '.' = false := by decide
  simp [point]

theorem allDigits_takeWhile (source : List Char) : AllDigits (source.takeWhile Char.isDigit) := by
  intro c member
  exact List.all_eq_true.mp List.all_takeWhile c member

/-! ### Numbers -/

/-- Digits are read without any sign. -/
theorem readInt64?_of_allDigits (all : AllDigits text) (some : text ≠ []) :
    Decimal.readInt64? text = Decimal.int64? (Decimal.value text) := by
  cases text with
  | nil => exact absurd rfl some
  | cons c text =>
    have first : c.isDigit = true := all c List.mem_cons_self
    have digits : Decimal.isDigits (c :: text) = true := by
      rw [Decimal.isDigits, Bool.and_eq_true, List.all_eq_true]
      exact ⟨rfl, all⟩
    have notMinus : c ≠ '-' := by
      rintro rfl
      cases first
    have notPlus : c ≠ '+' := by
      rintro rfl
      cases first
    simp [Decimal.readInt64?, Decimal.readInt?, Decimal.readNat?, digits, notMinus, notPlus]

/-- Digits alone are a number. -/
theorem accepts_digits (all : AllDigits text) (some : text ≠ []) :
    Pattern.digits.Accepts text (.number (numberOfDigits text)) := by
  unfold numberOfDigits
  rw [readInt64?_of_allDigits all some]
  split
  · rename_i n fits
    exact .integer all some (Decimal.int64?_eq_some_iff.mp fits)
  · rename_i large
    refine .large all some fun n fits => ?_
    rw [Decimal.int64?_eq_some_iff.mpr fits] at large
    cases large

/-! ### Patterns -/

theorem accepts_operator_iff {kind : Kind} :
    Pattern.operator.Accepts text kind ↔ ∃ c, text = [c] ∧ operator? c = some kind := by
  constructor
  · intro h
    cases h <;> exact ⟨_, rfl, rfl⟩
  · rintro ⟨c, rfl, h⟩
    unfold operator? at h
    split at h
    · cases h
      exact .opening
    · cases h
      exact .closing
    · cases h
      exact .plus
    · cases h
      exact .minus
    · cases h
      exact .count
    · cases h

theorem operator_at {c : Char} {tail : List Char} {kind : Kind}
    (accepts : Pattern.operator.Accepts text kind) (front : text <+: c :: tail) :
    operator? c = some kind ∧ text.length = 1 := by
  obtain ⟨d, rfl, found⟩ := accepts_operator_iff.mp accepts
  obtain ⟨same, -⟩ := List.cons_prefix_cons.mp front
  rw [← same]
  exact ⟨found, rfl⟩

theorem fraction_at {kind : Kind} (accepts : Pattern.fraction.Accepts text kind)
    (front : text <+: source) :
    (source.dropWhile Char.isDigit).head? = some '.' ∧
      (source.dropWhile Char.isDigit).tail.takeWhile Char.isDigit ≠ [] ∧
      text.length ≤ (source.takeWhile Char.isDigit).length + 1 +
        ((source.dropWhile Char.isDigit).tail.takeWhile Char.isDigit).length := by
  cases accepts with
  | fraction left right some =>
    obtain ⟨whole, rest, e, inside⟩ := split_at_point left front
    obtain ⟨more, short⟩ := run_at right some inside
    rw [e, whole]
    refine ⟨rfl, more, ?_⟩
    rw [List.length_append, List.length_cons, List.tail_cons]
    omega

theorem pointed_at {kind : Kind} (accepts : Pattern.pointed.Accepts text kind)
    (front : text <+: source) :
    (source.dropWhile Char.isDigit).head? = some '.' ∧ source.takeWhile Char.isDigit ≠ [] ∧
      text.length = (source.takeWhile Char.isDigit).length + 1 := by
  cases accepts with
  | pointed left some =>
    obtain ⟨whole, rest, e, -⟩ := split_at_point left front
    rw [e, whole]
    exact ⟨rfl, some, List.length_append⟩

theorem digits_at {kind : Kind} (accepts : Pattern.digits.Accepts text kind)
    (front : text <+: source) :
    source.takeWhile Char.isDigit ≠ [] ∧
      text.length ≤ (source.takeWhile Char.isDigit).length := by
  cases accepts with
  | integer all some => exact run_at all some front
  | large all some => exact run_at all some front

theorem name_at {kind : Kind} (accepts : Pattern.name.Accepts text kind)
    (front : text <+: source) :
    source.takeWhile isNameChar ≠ [] ∧ text.length ≤ (source.takeWhile isNameChar).length := by
  cases accepts with
  | name all some => exact run_at all some front

/-! ### Patterns that do not apply -/

theorem not_applies_operator {c : Char} {tail : List Char} (none : operator? c = none) :
    ¬Pattern.operator.Applies (c :: tail) := by
  rintro ⟨front, kind, inside, accepts⟩
  rw [(operator_at accepts inside).1] at none
  cases none

theorem not_applies_fraction
    (none : (source.dropWhile Char.isDigit).head? = some '.' →
      (source.dropWhile Char.isDigit).tail.takeWhile Char.isDigit = []) :
    ¬Pattern.fraction.Applies source := by
  rintro ⟨front, kind, inside, accepts⟩
  obtain ⟨point, some, -⟩ := fraction_at accepts inside
  exact some (none point)

theorem not_applies_pointed
    (none : (source.dropWhile Char.isDigit).head? = some '.' →
      source.takeWhile Char.isDigit = []) : ¬Pattern.pointed.Applies source := by
  rintro ⟨front, kind, inside, accepts⟩
  obtain ⟨point, some, -⟩ := pointed_at accepts inside
  exact some (none point)

/-- Neither kind of real applies where there is no point, or no digit on either side of it. -/
theorem not_applies_real
    (notReal : ¬((source.dropWhile Char.isDigit).head? = some '.' ∧
      (source.takeWhile Char.isDigit ≠ [] ∨
        (source.dropWhile Char.isDigit).tail.takeWhile Char.isDigit ≠ []))) :
    ¬Pattern.fraction.Applies source ∧ ¬Pattern.pointed.Applies source := by
  constructor
  · apply not_applies_fraction
    intro point
    exact Classical.not_not.mp fun some => notReal ⟨point, Or.inr some⟩
  · apply not_applies_pointed
    intro point
    exact Classical.not_not.mp fun some => notReal ⟨point, Or.inl some⟩

theorem not_applies_digits (none : source.takeWhile Char.isDigit = []) :
    ¬Pattern.digits.Applies source := by
  rintro ⟨front, kind, inside, accepts⟩
  exact (digits_at accepts inside).1 none

theorem not_applies_name (none : source.takeWhile isNameChar = []) :
    ¬Pattern.name.Applies source := by
  rintro ⟨front, kind, inside, accepts⟩
  exact (name_at accepts inside).1 none

/-! ### The token at the front of a text -/

theorem Chosen.of_source {kind : Kind} (earlier : List Pattern) (pattern : Pattern)
    {later : List Pattern} (whole : text ++ rest = source)
    (order : Pattern.order = earlier ++ pattern :: later) (accepts : pattern.Accepts text kind)
    (inapplicable : ∀ other ∈ earlier, ¬other.Applies source)
    (longest : ∀ front kind', front <+: source → pattern.Accepts front kind' →
      front.length ≤ text.length) : Chosen kind text rest := by
  subst whole
  exact .matched order inapplicable ⟨accepts, longest⟩

theorem chosen_operator {c : Char} {kind : Kind} (whole : [c] ++ rest = source)
    (found : operator? c = some kind) : Chosen kind [c] rest := by
  apply Chosen.of_source [] .operator whole rfl (accepts_operator_iff.mpr ⟨c, rfl, found⟩)
  · simp
  · intro front kind' inside accepts
    rw [← whole] at inside
    exact Nat.le_of_eq (operator_at accepts inside).2

theorem chosen_real (notOperator : ¬Pattern.operator.Applies source)
    (whole : source.takeWhile Char.isDigit ++
      '.' :: (source.dropWhile Char.isDigit).tail.takeWhile Char.isDigit ++ rest = source)
    (some : source.takeWhile Char.isDigit ≠ [] ∨
      (source.dropWhile Char.isDigit).tail.takeWhile Char.isDigit ≠ []) :
    Chosen (.number (numberOfParts (source.takeWhile Char.isDigit)
        ((source.dropWhile Char.isDigit).tail.takeWhile Char.isDigit)))
      (source.takeWhile Char.isDigit ++
        '.' :: (source.dropWhile Char.isDigit).tail.takeWhile Char.isDigit) rest := by
  by_cases behind : (source.dropWhile Char.isDigit).tail.takeWhile Char.isDigit = []
  · -- no digit behind the point, so there is one before it
    have notFraction := not_applies_fraction fun _ => behind
    have before := some.resolve_right (absurd behind)
    rw [behind] at whole ⊢
    apply Chosen.of_source [.operator, .fraction] .pointed whole rfl
      (.pointed (allDigits_takeWhile source) before)
    · simp [notOperator, notFraction]
    · intro front kind' inside accepts
      rw [(pointed_at accepts inside).2.2, List.length_append]
      exact Nat.le_refl _
  -- with a digit behind the point, the longest text runs through all of them
  · apply Chosen.of_source [.operator] .fraction whole rfl
      (.fraction (allDigits_takeWhile source) (allDigits_takeWhile _) behind)
    · simp [notOperator]
    · intro front kind' inside accepts
      rw [List.length_append, List.length_cons]
      have := (fraction_at accepts inside).2.2
      omega

theorem chosen_digits (notOperator : ¬Pattern.operator.Applies source)
    (notReal : ¬Pattern.fraction.Applies source ∧ ¬Pattern.pointed.Applies source)
    (whole : source.takeWhile Char.isDigit ++ rest = source)
    (some : source.takeWhile Char.isDigit ≠ []) :
    Chosen (.number (numberOfDigits (source.takeWhile Char.isDigit)))
      (source.takeWhile Char.isDigit) rest := by
  apply Chosen.of_source [.operator, .fraction, .pointed] .digits whole rfl
    (accepts_digits (allDigits_takeWhile source) some)
  · simp [notOperator, notReal]
  · intro front kind' inside accepts
    exact (digits_at accepts inside).2

theorem chosen_name (notOperator : ¬Pattern.operator.Applies source)
    (notReal : ¬Pattern.fraction.Applies source ∧ ¬Pattern.pointed.Applies source)
    (notDigits : ¬Pattern.digits.Applies source)
    (whole : source.takeWhile isNameChar ++ rest = source)
    (some : source.takeWhile isNameChar ≠ []) :
    Chosen (.named (String.ofList (source.takeWhile isNameChar)))
      (source.takeWhile isNameChar) rest := by
  have named : ∀ c ∈ source.takeWhile isNameChar, isNameChar c = true :=
    List.all_eq_true.mp List.all_takeWhile
  apply Chosen.of_source [.operator, .fraction, .pointed, .digits] .name whole rfl
    (.name named some)
  · simp [notOperator, notReal, notDigits]
  · intro front kind' inside accepts
    exact (name_at accepts inside).2

/-- **The reading of a token follows the order of the patterns.** -/
theorem chosen_scan {c : Char} {tail : List Char} (solid : isGap c = false) :
    Chosen (scan c tail).kind (scan c tail).text (scan c tail).rest := by
  have whole := scan_text c tail
  -- `read` keeps the case that is taken; `whole` is what all cases share
  generalize read : scan c tail = lexeme at whole ⊢
  unfold scan at read
  split at read
  · rename_i kind found
    subst read
    exact chosen_operator whole found
  · rename_i none
    have notOperator : ¬Pattern.operator.Applies (c :: tail) := not_applies_operator none
    dsimp only at read
    split at read
    · rename_i real
      subst read
      exact chosen_real notOperator whole real.2
    · rename_i other
      have notReal := not_applies_real other
      split at read
      · rename_i some
        subst read
        exact chosen_digits notOperator notReal whole some
      · rename_i noDigits
        have notDigits := not_applies_digits (Classical.not_not.mp noDigits)
        split at read
        · rename_i some
          subst read
          exact chosen_name notOperator notReal notDigits whole some
        · rename_i noName
          subst read
          -- no branch was taken, so no pattern applies at all
          apply Chosen.stray solid
          intro pattern
          cases pattern with
          | operator => exact notOperator
          | fraction => exact notReal.1
          | pointed => exact notReal.2
          | digits => exact notDigits
          | name => exact not_applies_name (Classical.not_not.mp noName)

/-! ### Texts of tokens -/

theorem isNameChar_of_isDigit {c : Char} (h : c.isDigit = true) : isNameChar c = true := by
  simp [isNameChar, Char.isAlphanum, h]

/-- What a pattern accepts is written in the alphabet, and is a token proper. -/
theorem Pattern.Accepts.proper {pattern : Pattern} {kind : Kind} (h : pattern.Accepts text kind) :
    text ≠ [] ∧ (∀ c ∈ text, InAlphabet c) ∧ kind ≠ .endOfInput ∧ ∀ c, kind ≠ .stray c := by
  -- digits and the point are name characters, so the alphabet has them
  have digits {text : List Char} (all : AllDigits text) : ∀ c ∈ text, InAlphabet c :=
    fun c member => Or.inr (isNameChar_of_isDigit (all c member))
  have point : InAlphabet '.' := Or.inr (by decide)
  cases h with
  | fraction left right some =>
    refine ⟨by simp, ?_, by simp, by simp⟩
    exact List.forall_mem_append.mpr ⟨digits left, List.forall_mem_cons.mpr ⟨point, digits right⟩⟩
  | pointed left some =>
    refine ⟨by simp, ?_, by simp, by simp⟩
    exact List.forall_mem_append.mpr ⟨digits left, by simpa using point⟩
  | integer all some fits => exact ⟨some, digits all, by simp, by simp⟩
  | large all some large => exact ⟨some, digits all, by simp, by simp⟩
  | name all some => exact ⟨some, fun c member => Or.inr (all c member), by simp, by simp⟩
  | _ => exact ⟨by simp, by simp [InAlphabet], by simp, by simp⟩

/-- Where no pattern applies and no gap goes on, there is a character outside the alphabet. -/
theorem not_inAlphabet {c : Char} {rest : List Char} (solid : isGap c = false)
    (inapplicable : ∀ pattern : Pattern, ¬pattern.Applies (c :: rest)) : ¬InAlphabet c := by
  have notOperator : operator? c = none := by
    rw [← Option.not_isSome_iff_eq_none, Option.isSome_iff_exists]
    rintro ⟨kind, found⟩
    exact inapplicable .operator ⟨[c], kind, by simp, accepts_operator_iff.mpr ⟨c, rfl, found⟩⟩
  rintro (member | named)
  · simp only [List.mem_cons, List.not_mem_nil, or_false] at member
    rcases member with rfl | rfl | rfl | rfl | rfl | rfl | rfl <;> simp_all [operator?, isGap]
  · exact inapplicable .name ⟨[c], _, by simp, .name (by simpa using named) (by simp)⟩

theorem Chosen.text_ne_nil {kind : Kind} (h : Chosen kind text rest) : text ≠ [] := by
  cases h with
  | matched order inapplicable longest => exact longest.accepts.proper.1
  | stray => simp

theorem Chosen.ne_endOfInput {kind : Kind} (h : Chosen kind text rest) : kind ≠ .endOfInput := by
  cases h with
  | matched order inapplicable longest => exact longest.accepts.proper.2.2.1
  | stray => simp

/-- A token is stray just when it is a character outside the alphabet. -/
theorem Chosen.proper_or_stray {kind : Kind} (h : Chosen kind text rest) :
    ((∀ c ∈ text, InAlphabet c) ∧ ∀ c, kind ≠ .stray c) ∨
      ∃ c, kind = .stray c ∧ text = [c] ∧ ¬InAlphabet c := by
  cases h with
  | matched order inapplicable longest =>
    obtain ⟨-, inside, -, proper⟩ := longest.accepts.proper
    exact Or.inl ⟨inside, proper⟩
  | @stray c rest solid inapplicable =>
    exact Or.inr ⟨c, rfl, rfl, not_inAlphabet solid inapplicable⟩

/-- A character that is not in the first part of a text is found in the second. -/
theorem exists_of_not_mem {c : Char} {front before after : List Char} (absent : c ∉ front)
    (e : front ++ rest = before ++ c :: after) :
    ∃ middle, before = front ++ middle ∧ rest = middle ++ c :: after := by
  induction front generalizing before with
  | nil => exact ⟨before, rfl, e⟩
  | cons d front ih =>
    cases before with
    | nil => exact absurd ((List.cons.inj e).1 ▸ List.mem_cons_self) absent
    | cons b before =>
      obtain ⟨rfl, others⟩ := List.cons.inj e
      have absent : c ∉ front := fun member => absent (List.mem_cons_of_mem d member)
      obtain ⟨middle, rfl, found⟩ := ih absent others
      exact ⟨middle, rfl, found⟩

/-- A character outside the alphabet is the token that is read, or comes behind its text. -/
theorem Chosen.of_outside {kind : Kind} {c : Char} {before after : List Char}
    (h : Chosen kind text rest) (outside : ¬InAlphabet c)
    (e : text ++ rest = before ++ c :: after) :
    (kind = .stray c ∧ before = []) ∨
      ∃ middle, before = text ++ middle ∧ rest = middle ++ c :: after := by
  rcases h.proper_or_stray with ⟨inside, -⟩ | ⟨d, stray, rfl, -⟩
  · apply Or.inr
    -- the text has only characters of the alphabet, so the stray one is behind it
    apply exists_of_not_mem _ e
    intro member
    exact outside (inside c member)
  · cases before with
    | nil =>
      obtain ⟨rfl, -⟩ := List.cons.inj e
      exact Or.inl ⟨stray, rfl⟩
    | cons first before =>
      obtain ⟨rfl, further⟩ := List.cons.inj e
      exact Or.inr ⟨before, rfl, further⟩

/-! ### Tiles -/

theorem byteLength_pos (some : text ≠ []) : 0 < Text.byteLength text := by
  cases text with
  | nil => exact absurd rfl some
  | cons c text =>
    have := c.utf8Size_pos
    rw [Text.byteLength]
    omega

theorem inAlphabet_of_isGap {c : Char} (h : isGap c = true) : InAlphabet c := by
  simp only [isGap, Bool.or_eq_true, beq_iff_eq] at h
  rcases h with rfl | rfl
  · exact Or.inl (by decide)
  · exact Or.inl (by decide)

namespace Tiles

variable {offset : Nat} {tokens : List Token}

/-- There is one end of input, it comes last, and it is where the text ends. -/
theorem ends (h : Tiles offset source tokens) :
    ∃ front, tokens = front ++ [⟨.endOfInput, offset + Text.byteLength source⟩] ∧
      ∀ token ∈ front, token.kind ≠ .endOfInput := by
  induction h with
  | done => exact ⟨[], rfl, by simp⟩
  | @token offset gap text rest kind tokens blank chosen more ih =>
    obtain ⟨front, e, others⟩ := ih
    refine ⟨⟨kind, offset + Text.byteLength gap⟩ :: front, ?_,
      List.forall_mem_cons.mpr ⟨chosen.ne_endOfInput, others⟩⟩
    rw [e, Text.byteLength_append, Text.byteLength_append, List.cons_append]
    simp only [Nat.add_assoc]

/-- There are no more tokens than characters, the end of input aside. -/
theorem length_le (h : Tiles offset source tokens) : tokens.length ≤ source.length + 1 := by
  induction h with
  | done => simp
  | token blank chosen more ih =>
    have some := List.length_pos_iff.mpr chosen.text_ne_nil
    simp only [List.length_append, List.length_cons]
    omega

/-- Every token is between two parts of the text. -/
theorem exists_of_mem (h : Tiles offset source tokens) {token : Token} (member : token ∈ tokens) :
    ∃ before after, source = before ++ after ∧
      token.position = offset + Text.byteLength before := by
  induction h with
  | @done offset gap blank =>
    rw [List.mem_singleton.mp member]
    exact ⟨gap, [], by simp, rfl⟩
  | @token offset gap text rest kind tokens blank chosen more ih =>
    rcases List.mem_cons.mp member with here | further
    · rw [here]
      exact ⟨gap, text ++ rest, List.append_assoc _ _ _, rfl⟩
    · obtain ⟨before, after, rfl, position⟩ := ih further
      refine ⟨gap ++ text ++ before, after, (List.append_assoc _ _ _).symm, ?_⟩
      rw [position, Text.byteLength_append, Text.byteLength_append]
      omega

/-- Every token is further on than those before it. -/
theorem ascending (h : Tiles offset source tokens) :
    tokens.Pairwise fun first second => first.position < second.position := by
  induction h with
  | done => exact List.pairwise_singleton _ _
  | token blank chosen more ih =>
    refine List.pairwise_cons.mpr ⟨?_, ih⟩
    intro token member
    obtain ⟨before, after, -, position⟩ := more.exists_of_mem member
    have some := byteLength_pos chosen.text_ne_nil
    rw [position]
    dsimp only
    omega

/-- The stray characters are those outside the alphabet. -/
theorem stray_mem_iff (h : Tiles offset source tokens) {c : Char} {position : Nat} :
    ⟨.stray c, position⟩ ∈ tokens ↔
      ∃ before after, source = before ++ c :: after ∧
        position = offset + Text.byteLength before ∧ ¬InAlphabet c := by
  induction h with
  | @done offset gap blank =>
    constructor
    · intro member
      cases List.mem_singleton.mp member
    · rintro ⟨before, after, rfl, -, outside⟩
      exact absurd (inAlphabet_of_isGap (blank c (by simp))) outside
  | @token offset gap text rest kind tokens blank chosen more ih =>
    rw [List.mem_cons, ih, Token.mk.injEq]
    constructor
    · rintro (⟨stray, rfl⟩ | ⟨before, after, rfl, rfl, outside⟩)
      · rcases chosen.proper_or_stray with ⟨-, proper⟩ | ⟨d, e, rfl, outside⟩
        · exact absurd stray.symm (proper c)
        · obtain rfl : c = d := by
            rw [e] at stray
            exact Kind.stray.inj stray
          exact ⟨gap, rest, by simp, rfl, outside⟩
      · refine ⟨gap ++ text ++ before, after, (List.append_assoc _ _ _).symm, ?_, outside⟩
        rw [Text.byteLength_append, Text.byteLength_append]
        omega
    -- neither the gap nor a proper token can hold the character
    · rintro ⟨before, after, e, rfl, outside⟩
      have notGap : c ∉ gap := fun member => outside (inAlphabet_of_isGap (blank c member))
      rw [List.append_assoc] at e
      obtain ⟨before, rfl, behind⟩ := exists_of_not_mem notGap e
      rcases chosen.of_outside outside behind with ⟨stray, rfl⟩ | ⟨middle, rfl, further⟩
      · exact Or.inl ⟨stray.symm, by simp⟩
      · refine Or.inr ⟨middle, after, further, ?_, outside⟩
        rw [Text.byteLength_append, Text.byteLength_append]
        omega

end Tiles

/-! ### Formulas -/

/-- From every place on, tokens tile what is left. -/
theorem tiles_toList (lexer : Lexer) (h : lexer.finished = false) :
    Tiles lexer.position lexer.rest lexer.toList := by
  fun_induction Lexer.toList lexer with
  | case1 lexer finished => simp_all
  | case2 lexer unfinished ih =>
    have parts := List.takeWhile_append_dropWhile (p := isGap) (l := lexer.rest)
    have blank : AllGaps (lexer.rest.takeWhile isGap) :=
      fun c member => List.all_eq_true.mp List.all_takeWhile c member
    cases behind : lexer.rest.dropWhile isGap with
    | nil =>
      rw [behind, List.append_nil] at parts
      rw [parts] at blank
      have last : lexer.next.1 = ⟨.endOfInput, lexer.position + Text.byteLength lexer.rest⟩ := by
        simp only [Lexer.next, behind, parts]
      have finished : lexer.next.2.finished = true := by simp only [Lexer.next, behind]
      rw [last, Lexer.toList_of_finished finished]
      exact .done blank
    | cons c tail =>
      have solid : isGap c = false := by
        have stop := List.head?_dropWhile_not isGap lexer.rest
        rwa [behind] at stop
      have tiles := ih (by simp only [Lexer.next, behind, unfinished])
      simp only [Lexer.next, behind] at tiles ⊢
      rw [behind, ← scan_text c tail, ← List.append_assoc] at parts
      have whole := Tiles.token blank (chosen_scan solid) tiles
      rwa [parts] at whole

/-- **Tokens tile their formula.** -/
theorem tiles_tokens (formula : String) :
    Tiles 0 formula.toList (tokens formula) ∧
      (tokens formula).length ≤ formula.toList.length + 1 ∧
      (∃ front, tokens formula = front ++ [⟨.endOfInput, Text.byteLength formula.toList⟩] ∧
        ∀ token ∈ front, token.kind ≠ .endOfInput) ∧
      ((tokens formula).Pairwise fun first second => first.position < second.position) ∧
      (∀ token ∈ tokens formula,
        Text.isBoundary (Text.octets formula.toList) token.position = true) ∧
      ∀ c position, ⟨.stray c, position⟩ ∈ tokens formula ↔
        ∃ before after, formula.toList = before ++ c :: after ∧
          position = Text.byteLength before ∧ ¬InAlphabet c := by
  have tiles : Tiles 0 formula.toList (tokens formula) := tiles_toList (Lexer.start formula) rfl
  refine ⟨tiles, tiles.length_le, ?_, tiles.ascending, ?_, ?_⟩
  · simpa using tiles.ends
  -- a token begins where some front part of the formula ends, and that is a boundary
  · intro token member
    obtain ⟨before, after, e, position⟩ := tiles.exists_of_mem member
    have behind : Text.Behind (Text.octets formula.toList) 0 (before ++ after) :=
      e ▸ Text.Behind.start formula.toList
    rw [position]
    exact behind.append.isBoundary
  · intro c position
    simpa using tiles.stray_mem_iff

end ChatMarkup.Formula
