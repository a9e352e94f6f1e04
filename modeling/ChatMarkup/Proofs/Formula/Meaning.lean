/-
  ChatMarkup/Proofs/Formula/Meaning.lean
  ======================================
  **Trees have the values that they denote** — computing the value of a tree from its leaves
  to its root succeeds just where the rules of `ChatMarkup.Formula.Meaning` give it a value,
  and with that value (`Expr.eval_eq_ok_iff`).
-/
import ChatMarkup.Formula.Meaning
import ChatMarkup.Proofs.Decimal.Numeral
import ChatMarkup.Proofs.Result
import ChatMarkup.Proofs.Text.Run

namespace ChatMarkup.Formula

/-! ### Texts of numbers -/

theorem readInt64?_eq_some_iff {text : List Char} {n : Int64} :
    Decimal.readInt64? text = some n ↔ Decimal.SpellsInt text n.toInt := by
  rw [Decimal.readInt64?, Option.bind_eq_some_iff]
  simp only [Decimal.readInt?_eq_some_iff, Decimal.int64?_eq_some_iff]
  constructor
  · rintro ⟨_, spelt, rfl⟩
    exact spelt
  · exact fun spelt => ⟨_, spelt, rfl⟩

theorem isBlank_of_isDigit {c : Char} (digit : c.isDigit = true) : Text.isBlank c = false := by
  rw [Char.isDigit_iff_toNat] at digit
  simp only [Char.reduceToNat] at digit
  simp only [Text.isBlank, Text.blankRanges, Text.inRanges, List.any_cons, List.any_nil,
    Bool.or_false, Bool.or_eq_false_iff, Bool.and_eq_false_iff, decide_eq_false_iff_not]
  omega

/-- No part of an integer is white space. -/
theorem solid_of_spellsInt {text : List Char} {n : Int} (spelt : Decimal.SpellsInt text n) :
    ∀ c ∈ text, Text.isBlank c = false := by
  have digits {text : List Char} (numeral : Decimal.IsNumeral text) :
      ∀ c ∈ text, Text.isBlank c = false := fun c member => isBlank_of_isDigit (numeral.2 c member)
  cases spelt with
  | unsigned numeral => exact digits numeral
  | plus numeral => exact List.forall_mem_cons.mpr ⟨by decide, digits numeral⟩
  | minus numeral => exact List.forall_mem_cons.mpr ⟨by decide, digits numeral⟩

theorem numberOfText?_eq_some_iff {text : String} {n : Number} :
    numberOfText? text = some n ↔ SpellsNumber text.toList n := by
  constructor
  · intro h
    obtain ⟨before, after, whole, blank, solid⟩ :=
      Text.trim_eq_iff.mp (Eq.refl (Text.trim text.toList))
    simp only [numberOfText?] at h
    split at h
    · rename_i word spelt
      cases h
      rw [whole]
      exact .int blank (readInt64?_eq_some_iff.mp spelt)
    -- only what no integer is read from is read as a real
    · rename_i none
      obtain ⟨x, read, rfl⟩ := Option.map_eq_some_iff.mp h
      rw [whole]
      refine .real blank solid (fun word spelt => ?_) read
      rw [readInt64?_eq_some_iff.mpr spelt] at none
      cases none
  · intro h
    generalize whole : text.toList = chars at h
    cases h with
    | int blank spelt =>
      have solid := solid_of_spellsInt spelt
      have trimmed := Text.trim_eq_iff.mpr ⟨_, _, whole, blank, fun c ends =>
        solid c (ends.elim List.mem_of_mem_head? List.mem_of_mem_getLast?)⟩
      simp only [numberOfText?, trimmed, readInt64?_eq_some_iff.mpr spelt]
    | @real before word after x blank solid noWord read =>
      have trimmed := Text.trim_eq_iff.mpr ⟨_, _, whole, blank, solid⟩
      have none : Decimal.readInt64? word = none :=
        Option.eq_none_iff_forall_ne_some.mpr fun n spelt =>
          noWord n (readInt64?_eq_some_iff.mp spelt)
      simp only [numberOfText?, trimmed, none, read, Option.map_some]

/-! ### Operands -/

theorem numberOfScalar_str_eq_ok_iff {text : String} {n : Number} :
    numberOfScalar (.str text) = .ok n ↔ SpellsNumber text.toList n := by
  rw [← numberOfText?_eq_some_iff, numberOfScalar]
  cases numberOfText? text with
  | none => exact ⟨nofun, nofun⟩
  | some m => simp

theorem contributes_clamp (seconds : UInt64) :
    Contributes (.typed (.duration seconds)) (.int (Decimal.Binary64.clamp seconds.toNat)) := by
  have lower : ¬(seconds.toNat : Int) < Int64.minValue.toInt := by
    rw [Int64.toInt_minValue]
    omega
  rw [Decimal.Binary64.clamp, if_neg lower]
  split
  · rename_i large
    exact .longDuration large
  · rename_i small
    rw [Int.not_lt] at small lower
    exact .duration (Decimal.int64?_eq_some_iff.mp (Decimal.int64?_eq_some ⟨lower, small⟩))

/-- Seconds are worth one number only. -/
theorem eq_of_contributes_duration {seconds : UInt64} {n m : Number}
    (first : Contributes (.typed (.duration seconds)) n)
    (second : Contributes (.typed (.duration seconds)) m) : n = m := by
  cases first with
  | @duration _ n fits =>
    cases second with
    | duration fits' => rw [Int64.toInt_inj.mp (fits.trans fits'.symm)]
    | longDuration large => exact absurd n.toInt_le (by omega)
  | longDuration large =>
    cases second with
    | @duration _ n fits => exact absurd n.toInt_le (by omega)
    | longDuration => rfl

theorem numberOf_eq_ok_iff {value : Value} {n : Number} :
    numberOf value = .ok n ↔ Contributes value n := by
  constructor
  · intro h
    match value with
    | .int m =>
      cases h
      exact .int m
    | .real x =>
      cases h
      exact .real x
    | .str text => exact .str (numberOfScalar_str_eq_ok_iff.mp h)
    | .typed (.int m) =>
      cases h
      exact .typedInt m
    | .typed (.float x) =>
      cases h
      exact .typedReal x
    | .typed (.str text) => exact .typedStr (numberOfScalar_str_eq_ok_iff.mp h)
    | .typed (.currency money) =>
      cases h
      exact .currency money
    | .typed (.moment m) =>
      cases h
      exact .moment m
    | .typed (.duration seconds) =>
      cases h
      exact contributes_clamp seconds
  · intro h
    cases h with
    | str spelt => exact numberOfScalar_str_eq_ok_iff.mpr spelt
    | typedStr spelt => exact numberOfScalar_str_eq_ok_iff.mpr spelt
    | @duration seconds n fits =>
      exact congrArg _ (eq_of_contributes_duration (contributes_clamp seconds) (.duration fits))
    | @longDuration seconds large =>
      exact congrArg _ (eq_of_contributes_duration (contributes_clamp seconds) (.longDuration large))
    | _ => rfl

/-! ### Operations -/

theorem Number.promotes_iff {n : Number} {x : Float} : n.Promotes x ↔ n.toFloat = x := by
  constructor
  · rintro (_ | _) <;> rfl
  · rintro rfl
    cases n with
    | int n => exact .int n
    | real x => exact .real x

theorem combineNumbers_int_eq_ok_iff {op : Op} {a b : Int64} {value : Value} :
    combineNumbers op (.int a) (.int b) = .ok value ↔
      ∃ n : Int64, n.toInt = op.onInt a.toInt b.toInt ∧ value = .int n := by
  simp only [combineNumbers]
  constructor
  · intro h
    split at h
    · rename_i n fits
      cases h
      exact ⟨n, Decimal.int64?_eq_some_iff.mp fits, rfl⟩
    · cases h
  · intro h
    obtain ⟨n, result, rfl⟩ := h
    rw [Decimal.int64?_eq_some_iff.mpr result]

theorem combineNumbers_of_isReal (op : Op) {a b : Number} (real : a.IsReal ∨ b.IsReal) :
    combineNumbers op a b = .ok (.real (op.onReal a.toFloat b.toFloat)) := by
  rcases real with ⟨x, rfl⟩ | ⟨y, rfl⟩
  · rfl
  · cases a <;> rfl

/-- What is made of two numbers is a sum of the operands that contribute them. -/
theorem Sums.of_combineNumbers {op : Op} {left right value : Value} {a b : Number}
    (first : Contributes left a) (second : Contributes right b)
    (result : combineNumbers op a b = .ok value) : Sums op left right value := by
  by_cases real : a.IsReal ∨ b.IsReal
  · rw [combineNumbers_of_isReal op real] at result
    cases result
    have promoted := Number.promotes_iff.mpr (Eq.refl a.toFloat)
    have promoted' := Number.promotes_iff.mpr (Eq.refl b.toFloat)
    cases op with
    | add => exact .addReals first second real promoted promoted'
    | sub => exact .subReals first second real promoted promoted'
  · match a, b with
    | .real x, _ => exact absurd (Or.inl ⟨x, rfl⟩) real
    | _, .real y => exact absurd (Or.inr ⟨y, rfl⟩) real
    | .int m, .int k =>
      obtain ⟨n, same, rfl⟩ := combineNumbers_int_eq_ok_iff.mp result
      cases op with
      | add => exact .addInts first second same
      | sub => exact .subInts first second same

/-- A sum is one of arrays, or it is made of the numbers that the operands contribute. -/
theorem Sums.arrays_or_numbers {op : Op} {left right value : Value}
    (sum : Sums op left right value) :
    (∃ first second, op = .add ∧ left = .array first ∧ right = .array second ∧
        value = .array (Entries.merge first second)) ∨
      ∃ a b, Contributes left a ∧ Contributes right b ∧ combineNumbers op a b = .ok value := by
  cases sum with
  | arrays first second => exact Or.inl ⟨first, second, rfl, rfl, rfl, rfl⟩
  | addInts first second result | subInts first second result =>
    exact Or.inr ⟨_, _, first, second, combineNumbers_int_eq_ok_iff.mpr ⟨_, result, rfl⟩⟩
  | addReals first second real promoted promoted' | subReals first second real promoted promoted' =>
    obtain rfl := Number.promotes_iff.mp promoted
    obtain rfl := Number.promotes_iff.mp promoted'
    exact Or.inr ⟨_, _, first, second, combineNumbers_of_isReal _ real⟩

/-- Unless both operands are arrays, an operation is one on numbers. -/
theorem combine_eq_ok_iff_of_not_arrays {op : Op} {left right value : Value}
    (h : ∀ first second, ¬(left = .array first ∧ right = .array second)) :
    combine op left right = .ok value ↔
      ∃ a b, Contributes left a ∧ Contributes right b ∧ combineNumbers op a b = .ok value := by
  unfold combine
  split
  · exact absurd ⟨rfl, rfl⟩ (h _ _)
  · constructor
    · intro h
      cases h
    · rintro ⟨a, b, ⟨⟩, -, -⟩
  · constructor
    · intro h
      cases h
    · rintro ⟨a, b, -, ⟨⟩, -⟩
  · simp only [bind_eq_ok, numberOf_eq_ok_iff]
    constructor
    · rintro ⟨a, first, b, second, h⟩
      exact ⟨a, b, first, second, h⟩
    · rintro ⟨a, b, first, second, h⟩
      exact ⟨a, first, b, second, h⟩

theorem combine_eq_ok_iff {op : Op} {left right value : Value} :
    combine op left right = .ok value ↔ Sums op left right value := by
  by_cases arrays : ∃ first second, left = .array first ∧ right = .array second
  · obtain ⟨first, second, rfl, rfl⟩ := arrays
    constructor
    · intro h
      cases op with
      | add =>
        cases h
        exact .arrays first second
      | sub => cases h
    · intro sum
      obtain ⟨_, _, rfl, ⟨⟩, ⟨⟩, rfl⟩ | ⟨_, _, ⟨⟩, -, -⟩ := sum.arrays_or_numbers
      rfl
  · rw [combine_eq_ok_iff_of_not_arrays fun first second h => arrays ⟨first, second, h⟩]
    constructor
    · rintro ⟨a, b, first, second, result⟩
      exact .of_combineNumbers first second result
    · intro sum
      rcases sum.arrays_or_numbers with ⟨first, second, -, left, right, -⟩ | numbers
      · exact absurd ⟨first, second, left, right⟩ arrays
      · exact numbers

theorem count_eq_ok_iff {operand value : Value} :
    count operand = .ok value ↔
      ∃ (entries : Entries) (n : Int64), operand = .array entries ∧ n.toInt = entries.length ∧
        value = .int n := by
  constructor
  · intro h
    unfold count at h
    split at h
    · rename_i entries
      split at h
      · rename_i n counted
        cases h
        exact ⟨entries, n, rfl, Decimal.int64?_eq_some_iff.mp counted, rfl⟩
      · cases h
    · cases h
  · rintro ⟨entries, n, rfl, counted, rfl⟩
    simp only [count, Decimal.int64?_eq_some_iff.mpr counted]

/-! ### Names -/

theorem findSome?_lookup_eq_some_iff {name : String} {value : Value} {layers : List Bindings} :
    layers.findSome? (fun layer => layer.lookup name) = some value ↔ Bound name value layers := by
  induction layers with
  | nil =>
    constructor
    · intro h
      cases h
    · intro h
      cases h
  | cons layer outer ih =>
    rw [List.findSome?_cons]
    constructor
    · intro h
      split at h
      · rename_i bound
        cases h
        exact .here bound
      · rename_i unbound
        exact .further unbound (ih.mp h)
    · intro h
      cases h with
      | here bound => rw [bound]
      | further unbound bound =>
        rw [unbound]
        exact ih.mpr bound

theorem resolve_eq_ok_iff {scope : Scope} {name : String} {value : Value} :
    resolve scope name = .ok value ↔ Bound name value scope.layers := by
  rw [← findSome?_lookup_eq_some_iff]
  constructor
  · intro h
    unfold resolve at h
    split at h
    · rename_i found
      cases h
      exact found
    · cases h
  · intro h
    have found : scope.get? name = some value := h
    simp only [resolve, found]

/-! ### Trees -/

theorem denotes_number {scope : Scope} (n : Number) :
    Primary.Denotes scope (.number n) n.toValue := by
  cases n with
  | int n => exact .int n
  | real x => exact .real x

mutual

theorem Primary.eval_eq_ok_iff {scope : Scope} {value : Value} :
    (p : Primary) → (p.eval scope = .ok value ↔ p.Denotes scope value)
  | .number (.int n) => by
    rw [Primary.eval]
    constructor
    · intro h
      cases h
      exact .int n
    · intro h
      cases h
      rfl
  | .number (.real x) => by
    rw [Primary.eval]
    constructor
    · intro h
      cases h
      exact .real x
    · intro h
      cases h
      rfl
  | .named name => by
    rw [Primary.eval, resolve_eq_ok_iff]
    constructor
    · exact .named
    · intro h
      cases h with
      | named bound => exact bound
  | .group inner => by
    rw [Primary.eval, inner.eval_eq_ok_iff]
    constructor
    · exact .group
    · intro h
      cases h with
      | group denotes => exact denotes

theorem Term.eval_eq_ok_iff {scope : Scope} {value : Value} :
    (t : Term) → (t.eval scope = .ok value ↔ t.Denotes scope value)
  | .plain operand => by
    rw [Term.eval, operand.eval_eq_ok_iff]
    constructor
    · exact .plain
    · intro h
      cases h with
      | plain denotes => exact denotes
  | .counted operand => by
    simp only [Term.eval, bind_eq_ok, operand.eval_eq_ok_iff, count_eq_ok_iff]
    constructor
    · rintro ⟨_, denotes, entries, n, rfl, counted, rfl⟩
      exact .counted denotes counted
    · intro h
      cases h with
      | counted denotes counted => exact ⟨_, denotes, _, _, rfl, counted, rfl⟩

theorem Expr.eval_eq_ok_iff {scope : Scope} {value : Value} :
    (e : Expr) → (e.eval scope = .ok value ↔ e.Denotes scope value)
  | .single term => by
    rw [Expr.eval, term.eval_eq_ok_iff]
    constructor
    · exact .single
    · intro h
      cases h with
      | single denotes => exact denotes
  | .chain left op right => by
    simp only [Expr.eval, bind_eq_ok, left.eval_eq_ok_iff, right.eval_eq_ok_iff, combine_eq_ok_iff]
    constructor
    · rintro ⟨a, first, b, second, sum⟩
      exact .chain first second sum
    · intro h
      cases h with
      | chain first second sum => exact ⟨_, first, _, second, sum⟩

end

end ChatMarkup.Formula
