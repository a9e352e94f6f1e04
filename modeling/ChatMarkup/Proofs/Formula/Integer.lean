/-
  ChatMarkup/Proofs/Formula/Integer.lean
  ======================================
  **Integer formulas are exact or refused** (`evaluate_integers`) — if the exact result of
  every operation fits 64 signed bits, so does the value and it is exact; if one does not, the
  formula overflows, whatever the operations after it would make of that result.

  The induction is on the tree.  It carries both halves (`Exact`), since the right operand of
  an operation is reached only if the left one has a value.
-/
import ChatMarkup.Proofs.Decimal.Numeral
import ChatMarkup.Proofs.Formula.Spelling

namespace ChatMarkup.Formula

variable {scope : Scope} {n : Int} {partials : List Int}

/-! ### Words -/

theorem Fits.exists_word (fits : Fits n) : ∃ word : Int64, word.toInt = n :=
  ⟨Int64.ofInt n, Decimal.int64?_eq_some_iff.mp (Decimal.int64?_eq_some fits)⟩

/-! ### Operands -/

theorem SpellsWord.spellsNumber {text : List Char} (spelt : SpellsWord text n) :
    ∃ word : Int64, word.toInt = n ∧ SpellsNumber text (.int word) := by
  cases spelt with
  | mk blank spelt fits =>
    obtain ⟨word, rfl⟩ := fits.exists_word
    exact ⟨word, rfl, .int blank spelt⟩

/-- An integral value contributes the word of its integer to a sum. -/
theorem Integral.contributes {value : Value} (integral : Integral value n) :
    ∃ word : Int64, word.toInt = n ∧ Contributes value (.int word) := by
  cases integral with
  | int word => exact ⟨word, rfl, .int word⟩
  | str spelt =>
    obtain ⟨word, same, number⟩ := spelt.spellsNumber
    exact ⟨word, same, .str number⟩
  | typedInt word => exact ⟨word, rfl, .typedInt word⟩
  | typedStr spelt =>
    obtain ⟨word, same, number⟩ := spelt.spellsNumber
    exact ⟨word, same, .typedStr number⟩
  | moment m => exact ⟨m.timestamp, rfl, .moment m⟩
  | duration fits =>
    obtain ⟨word, same⟩ := fits.exists_word
    exact ⟨word, same, .duration same⟩

/-! ### Operations -/

theorem combine_of_contributes {op : Op} {left right : Value} {a b : Number}
    (first : Contributes left a) (second : Contributes right b) :
    combine op left right = combineNumbers op a b := by
  unfold combine
  split
  · cases first
  · cases first
  · cases second
  · rw [numberOf_eq_ok_iff.mpr first, numberOf_eq_ok_iff.mpr second]
    rfl

theorem combineNumbers_of_fits {op : Op} {a b : Int64}
    (fits : Fits (op.onInt a.toInt b.toInt)) :
    ∃ value, combineNumbers op (.int a) (.int b) = .ok value ∧
      Integral value (op.onInt a.toInt b.toInt) := by
  obtain ⟨word, same⟩ := fits.exists_word
  refine ⟨.int word, combineNumbers_int_eq_ok_iff.mpr ⟨word, same, rfl⟩, ?_⟩
  rw [← same]
  exact .int word

theorem combineNumbers_of_not_fits {op : Op} {a b : Int64}
    (large : ¬Fits (op.onInt a.toInt b.toInt)) :
    combineNumbers op (.int a) (.int b) = .error (.unfit .overflow) := by
  simp only [combineNumbers, Decimal.int64?_eq_none large]

/-! ### Exact results -/

/-- The result of an evaluation whose operations have these exact results. -/
structure Exact (n : Int) (partials : List Int) (result : Except Error Value) : Prop where
  value : (∀ sum ∈ partials, Fits sum) → ∃ value, result = .ok value ∧ Integral value n
  overflow : (∃ sum ∈ partials, ¬Fits sum) → result = .error (.unfit .overflow)

theorem Exact.of_value {value : Value} (integral : Integral value n) :
    Exact n [] (.ok value) :=
  ⟨fun _ => ⟨value, rfl, integral⟩, by simp⟩

theorem Exact.integral {value : Value} (h : Exact n partials (.ok value)) :
    Integral value n := by
  by_cases fit : ∀ sum ∈ partials, Fits sum
  · obtain ⟨_, ⟨⟩, integral⟩ := h.value fit
    exact integral
  · cases h.overflow (by simpa using fit)

theorem exact_combine {op : Op} {left right : Value} {a b : Int} (first : Integral left a)
    (second : Integral right b) (total : op.onInt a b = n) :
    Exact n [n] (combine op left right) := by
  subst total
  obtain ⟨word, rfl, contributes⟩ := first.contributes
  obtain ⟨word', rfl, contributes'⟩ := second.contributes
  rw [combine_of_contributes contributes contributes']
  constructor
  · intro fits
    exact combineNumbers_of_fits (List.forall_mem_singleton.mp fits)
  · rintro ⟨sum, member, large⟩
    rw [List.mem_singleton.mp member] at large
    exact combineNumbers_of_not_fits large

/-- Of two steps, the second one matters only if the first has a value. -/
theorem Exact.bind {a : Int} {before after : List Int} {left : Except Error Value}
    {next : Value → Except Error Value} (first : Exact a before left)
    (second : ∀ value, Integral value a → Exact n after (next value)) :
    Exact n (before ++ after) (left >>= next) := by
  -- if a result of the left operand overflows, the right one is not come to
  by_cases fit : ∀ sum ∈ before, Fits sum
  · obtain ⟨value, rfl, integral⟩ := first.value fit
    obtain ⟨result, overflow⟩ := second value integral
    constructor
    · intro all
      exact result (List.forall_mem_append.mp all).2
    · rintro ⟨sum, member, large⟩
      rcases List.mem_append.mp member with early | late
      · exact absurd (fit sum early) large
      · exact overflow ⟨sum, late, large⟩
  · have failed := first.overflow (by simpa using fit)
    rw [failed]
    constructor
    · intro all
      exact absurd (List.forall_mem_append.mp all).1 fit
    · intro _
      rfl

mutual

theorem Primary.exact_eval {n : Int} {partials : List Int} :
    (p : Primary) → p.Totals scope n partials → Exact n partials (p.eval scope)
  | .number m, totals => by
    cases totals with
    | literal m => exact .of_value (.int m)
  | .named name, totals => by
    cases totals with
    | named bound worth =>
      rw [Primary.eval, resolve_eq_ok_iff.mpr bound]
      exact .of_value worth
  | .group inner, totals => by
    cases totals with
    | group totals => exact inner.exact_eval totals

theorem Term.exact_eval {n : Int} {partials : List Int} :
    (t : Term) → t.Totals scope n partials → Exact n partials (t.eval scope)
  | .plain operand, totals => by
    cases totals with
    | plain totals => exact operand.exact_eval totals
  | .counted operand, totals => by
    cases totals with
    | counted denotes fits =>
      obtain ⟨word, same⟩ := fits.exists_word
      have counted := (Term.counted operand).eval_eq_ok_iff.mpr (.counted denotes same)
      rw [counted, ← same]
      exact .of_value (.int word)

theorem Expr.exact_eval {n : Int} {partials : List Int} :
    (e : Expr) → e.Totals scope n partials → Exact n partials (e.eval scope)
  | .single term, totals => by
    cases totals with
    | single totals => exact term.exact_eval totals
  | .chain left op right, totals => by
    cases totals with
    | add first second | sub first second =>
      rw [List.append_assoc]
      refine (left.exact_eval first).bind fun _ worth => ?_
      exact (right.exact_eval second).bind fun _ worth' => exact_combine worth worth' rfl

end

/-! ### Names alone -/

theorem Lone.eval_eq {name : String} {e : Expr} (lone : Lone name e) :
    e.eval scope = resolve scope name := by
  induction lone with
  | bare => rfl
  | group _ ih => exact ih

mutual

/-- The value of what is not a name alone is a plain integer. -/
theorem Primary.lone_or_int {n : Int} {partials : List Int} {value : Value} :
    (p : Primary) → p.Totals scope n partials → p.Denotes scope value →
      (∃ name, Lone name (.single (.plain p))) ∨ ∃ word, value = .int word
  | .number m, totals, denotes => by
    cases totals with
    | literal word =>
      cases denotes with
      | int => exact Or.inr ⟨word, rfl⟩
  | .named name, _, _ => Or.inl ⟨name, .bare⟩
  | .group inner, totals, denotes => by
    cases totals with
    | group totals =>
      cases denotes with
      | group denotes =>
        refine (inner.lone_or_int totals denotes).imp_left ?_
        rintro ⟨name, lone⟩
        exact ⟨name, .group lone⟩

theorem Term.lone_or_int {n : Int} {partials : List Int} {value : Value} :
    (t : Term) → t.Totals scope n partials → t.Denotes scope value →
      (∃ name, Lone name (.single t)) ∨ ∃ word, value = .int word
  | .plain operand, totals, denotes => by
    cases totals with
    | plain totals =>
      cases denotes with
      | plain denotes => exact operand.lone_or_int totals denotes
  | .counted operand, _, denotes => by
    cases denotes with
    | counted => exact Or.inr ⟨_, rfl⟩

theorem Expr.lone_or_int {n : Int} {partials : List Int} {value : Value} :
    (e : Expr) → e.Totals scope n partials → e.Denotes scope value →
      (∃ name, Lone name e) ∨ ∃ word, value = .int word
  | .single term, totals, denotes => by
    cases totals with
    | single totals =>
      cases denotes with
      | single denotes => exact term.lone_or_int totals denotes
  | .chain left op right, totals, denotes => by
    cases totals with
    | add first second | sub first second =>
      cases denotes with
      | @chain _ _ _ a b _ denotes denotes' sum =>
        have left' := left.exact_eval first
        have right' := right.exact_eval second
        rw [left.eval_eq_ok_iff.mpr denotes] at left'
        rw [right.eval_eq_ok_iff.mpr denotes'] at right'
        obtain ⟨_, -, contributes⟩ := left'.integral.contributes
        obtain ⟨_, -, contributes'⟩ := right'.integral.contributes
        have result := combine_eq_ok_iff.mpr sum
        rw [combine_of_contributes contributes contributes'] at result
        obtain ⟨word, -, rfl⟩ := combineNumbers_int_eq_ok_iff.mp result
        exact Or.inr ⟨word, rfl⟩

end

/-- **Integer formulas are exact or refused.** If the exact result of every operation fits 64
    signed bits, the value is the exact one: the binding of the variable for a name alone, and a
    plain integer otherwise. If one of them does not fit, the formula overflows. -/
theorem evaluate_integers {formula : String} {tree : Expr} (spelt : tree.Spelt formula.toList)
    (shallow : tree.depth ≤ maxDepth) (totals : tree.Totals scope n partials) :
    ((∀ sum ∈ partials, Fits sum) →
      (∀ name, Lone name tree → ∃ value, Bound name value scope.layers ∧ Integral value n ∧
        evaluate scope formula = .ok value) ∧
      ((∀ name, ¬Lone name tree) → ∃ word : Int64, word.toInt = n ∧
        evaluate scope formula = .ok (.int word))) ∧
    ((∃ sum ∈ partials, ¬Fits sum) →
      evaluate scope formula = .error (.unfit .overflow)) := by
  have evaluated : evaluate scope formula = tree.eval scope :=
    evaluate_eq_eval (derives_of_spelt spelt) shallow
  have answer := tree.exact_eval totals
  rw [← evaluated] at answer
  refine ⟨fun fit => ?_, answer.overflow⟩
  obtain ⟨value, result, integral⟩ := answer.value fit
  constructor
  -- a name alone keeps its value, which need not be an integer itself
  · intro name lone
    have resolved : resolve scope name = .ok value := by rw [← lone.eval_eq, ← evaluated, result]
    exact ⟨value, resolve_eq_ok_iff.mp resolved, integral, result⟩
  · intro compound
    have denotes := tree.eval_eq_ok_iff.mp (evaluated ▸ result)
    obtain ⟨name, lone⟩ | ⟨word, rfl⟩ := tree.lone_or_int totals denotes
    · exact absurd lone (compound name)
    · cases integral with
      | int => exact ⟨word, rfl, result⟩

/-- An operand with no gaps around it. -/
theorem Primary.Spelt.term {operand : Primary} {text : List Char} (spelt : operand.Spelt text) :
    Term.Spelt (.plain operand) text := by
  have noGap : AllGaps ([] ++ []) := by simp [AllGaps]
  simpa using Term.Spelt.plain noGap spelt

/-- The least integer can be reached from a text, but nothing below it, not even on the way to an
    integer that fits. -/
theorem evaluate_integers_least :
    let scope := Scope.empty.bind "s" (.str " -1 ")
    let least : Expr :=
      .chain (.single (.plain (.named "s"))) .sub (.plain (.number (.int Int64.maxValue)))
    let below : Expr := .chain (.chain least .sub (.plain (.number (.int 1)))) .add
      (.plain (.number (.int 1)))
    (least.Spelt "s-9223372036854775807".toList ∧ least.depth ≤ maxDepth ∧
      least.Totals scope (-9223372036854775808) [-9223372036854775808] ∧
      evaluate scope "s-9223372036854775807" = .ok (.int Int64.minValue)) ∧
    below.Spelt "s-9223372036854775807-1+1".toList ∧ below.depth ≤ maxDepth ∧
      below.Totals scope (-9223372036854775808)
        [-9223372036854775808, -9223372036854775809, -9223372036854775808] ∧
      evaluate scope "s-9223372036854775807-1+1" = .error (.unfit .overflow) := by
  intro scope least below
  have numeral {digits : List Char} (all : digits.all Char.isDigit = true) (some : digits ≠ []) :
      Decimal.IsNumeral digits := ⟨some, List.all_eq_true.mp all⟩
  have name : Primary.Spelt (.named "s") ['s'] := .named (by decide) (by decide)
  have max : Primary.Spelt (.number (.int Int64.maxValue)) "9223372036854775807".toList :=
    .literal (numeral (by decide) (by decide)) (by decide +kernel)
  have one : Primary.Spelt (.number (.int 1)) ['1'] :=
    .literal (numeral (by decide) (by decide)) (by decide)
  have spelt : least.Spelt "s-9223372036854775807".toList := .chain (.single name.term) max.term
  have spelt' : below.Spelt "s-9223372036854775807-1+1".toList :=
    .chain (.chain spelt one.term) one.term
  have word : SpellsWord " -1 ".toList (-1) := by
    have blank : ∀ c ∈ [' '] ++ [' '], Text.isBlank c = true :=
      List.all_eq_true.mp (by decide)
    have spelt : Decimal.SpellsInt ['-', '1'] (-1) := .minus (numeral (by decide) (by decide))
    exact .mk blank spelt (by decide)
  have bound : Bound "s" (.str " -1 ") scope.layers := .here rfl
  have totals : least.Totals scope (-9223372036854775808) [-9223372036854775808] :=
    .sub (.single (.plain (.named bound (.str word)))) (.plain (.literal Int64.maxValue))
  have totals' : below.Totals scope (-9223372036854775808)
        [-9223372036854775808, -9223372036854775809, -9223372036854775808] :=
    .add (.sub totals (.plain (.literal 1))) (.plain (.literal 1))
  have compound : ∀ name, ¬Lone name least := by
    intro name lone
    change Lone name (.chain _ _ _) at lone
    cases lone
  -- the least word is reached exactly; one less overflows though the last sum would fit
  obtain ⟨value, -⟩ := evaluate_integers spelt (by decide) totals
  obtain ⟨word, same, result⟩ := (value (by decide)).2 compound
  obtain ⟨-, overflow⟩ := evaluate_integers spelt' (by decide) totals'
  have least_eq : word = Int64.minValue := Int64.toInt_inj.mp same
  rw [least_eq] at result
  exact ⟨⟨spelt, by decide, totals, result⟩, spelt', by decide, totals', overflow (by decide)⟩

end ChatMarkup.Formula
