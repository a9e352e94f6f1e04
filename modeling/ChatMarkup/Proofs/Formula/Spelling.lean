/-
  ChatMarkup/Proofs/Formula/Spelling.lean
  =======================================
  **The texts of integer formulas** — a formula that is written as `ChatMarkup.Formula.Integer`
  says is derived by the grammar (`derives_of_spelt`).

  Gaps leave no tokens, so it is enough to know the tokens of the parts and that two parts with
  an operator between them are read one by one.
-/
import ChatMarkup.Formula.Integer
import ChatMarkup.Proofs.Formula.Joining

namespace ChatMarkup.Formula

theorem kindsOf_numeral {digits : List Char} {word : Int64} (numeral : Decimal.IsNumeral digits)
    (number : word.toInt = Decimal.value digits) : kindsOf digits = [.number (.int word)] := by
  obtain ⟨some, all⟩ := numeral
  cases digits with
  | nil => exact absurd rfl some
  | cons c tail =>
    have named := isNameChar_of_isDigit (all c List.mem_cons_self)
    have inside : (c :: tail).takeWhile Char.isDigit = c :: tail := by
      rw [← List.append_nil (c :: tail), List.takeWhile_append_of_pos all]
      rfl
    have behind : (c :: tail).dropWhile Char.isDigit = [] := by
      rw [← List.append_nil (c :: tail), List.dropWhile_append_of_pos all]
      rfl
    have read : numberOfDigits (c :: tail) = .int word := by
      simp only [numberOfDigits, readInt64?_of_allDigits all some,
        Decimal.int64?_eq_some_iff.mpr number]
    have scanned : scan c tail = ⟨.number (.int word), c :: tail, []⟩ := by
      simp only [scan, operator?_of_isNameChar named, inside, behind, read]
      rw [if_neg (by simp), if_pos some]
    rw [kindsOf_cons (isGap_of_isNameChar named), scanned, kindsOf_nil]

theorem kindsOf_name {name : String} (valid : isName name = true)
    (proper : beginsNumber name.toList = false) : kindsOf name.toList = [.named name] := by
  obtain ⟨c, tail, e, named⟩ := exists_of_isName valid
  rw [e] at proper
  rw [e, kindsOf_cons (isGap_of_isNameChar (named c List.mem_cons_self)), scan_name named proper,
    kindsOf_nil, ← e, String.ofList_toList]

theorem operator?_sign (op : Op) : operator? op.sign = some op.kind := by
  cases op <;> rfl

mutual

theorem Primary.kindsOf_spelt {text : List Char} :
    (p : Primary) → p.Spelt text → kindsOf text = p.kinds
  | .number m, spelt => by
    cases spelt with
    | literal numeral number => exact kindsOf_numeral numeral number
  | .named name, spelt => by
    cases spelt with
    | named valid proper => exact kindsOf_name valid proper
  | .group inner, spelt => by
    cases spelt with
    | group spelt =>
      have opening : operator? '(' = some .opening := rfl
      have closing : operator? ')' = some .closing := rfl
      rw [kindsOf_operator opening, kindsOf_append_operator closing, inner.kindsOf_spelt spelt,
        kindsOf_nil]
      rfl

theorem Term.kindsOf_spelt {text : List Char} :
    (t : Term) → t.Spelt text → kindsOf text = t.kinds
  | .plain operand, spelt => by
    cases spelt with
    | plain blank spelt =>
      obtain ⟨before, after⟩ := List.forall_mem_append.mp blank
      rw [kindsOf_append_allGaps after, kindsOf_allGaps_append before, operand.kindsOf_spelt spelt]
      rfl
  | .counted operand, spelt => by
    cases spelt with
    | counted blank spelt =>
      obtain ⟨blank, after⟩ := List.forall_mem_append.mp blank
      obtain ⟨before, between⟩ := List.forall_mem_append.mp blank
      have count : operator? '#' = some .count := rfl
      rw [kindsOf_append_allGaps after, List.append_assoc, kindsOf_allGaps_append before,
        List.cons_append, kindsOf_operator count, kindsOf_allGaps_append between,
        operand.kindsOf_spelt spelt]
      rfl

theorem Expr.kindsOf_spelt {text : List Char} :
    (e : Expr) → e.Spelt text → kindsOf text = e.kinds
  | .single term, spelt => by
    cases spelt with
    | single spelt => exact term.kindsOf_spelt spelt
  | .chain left op right, spelt => by
    cases spelt with
    | chain spelt spelt' =>
      rw [kindsOf_append_operator (operator?_sign op), left.kindsOf_spelt spelt,
        right.kindsOf_spelt spelt']
      rfl

end

theorem derives_of_spelt {formula : String} {tree : Expr} (spelt : tree.Spelt formula.toList) :
    Derives formula tree :=
  derives_iff.mpr (tree.kindsOf_spelt spelt)

end ChatMarkup.Formula
