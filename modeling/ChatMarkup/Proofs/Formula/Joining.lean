/-
  ChatMarkup/Proofs/Formula/Joining.lean
  ======================================
  **Formulas side by side** — what two texts are read as together is what they are read as one
  by one, as long as the second begins with no character of a name (`kindsOf_append`).

  A token never looks further than to the first character that cannot belong to it, so an
  operator or a gap always ends it.
-/
import ChatMarkup.Proofs.Formula.Naming
import ChatMarkup.Proofs.Formula.Tiling

namespace ChatMarkup.Formula

variable {c : Char} {tail text rest : List Char}

/-! ### Where a token ends -/

/-- A text does not go on with a token that stands in front of it. -/
def Apart (rest : List Char) : Prop := ∀ c ∈ rest.head?, isNameChar c = false

theorem apart_nil : Apart [] := by simp [Apart]

theorem apart_cons (other : isNameChar c = false) : Apart (c :: rest) := by
  simpa [Apart] using other

theorem apart_operator {kind : Kind} (operator : operator? c = some kind) : Apart (c :: rest) := by
  apply apart_cons
  rw [Bool.eq_false_iff]
  intro named
  rw [operator?_of_isNameChar named] at operator
  cases operator

theorem apart_gap (gap : isGap c = true) : Apart (c :: rest) := by
  apply apart_cons
  rw [Bool.eq_false_iff]
  intro named
  rw [isGap_of_isNameChar named] at gap
  cases gap

/-- A run of characters that names are made of ends at the end of its text. -/
theorem Apart.span (apart : Apart rest) {p : Char → Bool}
    (named : ∀ c, p c = true → isNameChar c = true) (text : List Char) :
    (text ++ rest).takeWhile p = text.takeWhile p ∧
      (text ++ rest).dropWhile p = text.dropWhile p ++ rest := by
  induction text with
  | nil =>
    cases rest with
    | nil => exact ⟨rfl, rfl⟩
    | cons c rest =>
      have outside : p c = false := by
        rw [Bool.eq_false_iff]
        intro inside
        have other := apart c rfl
        rw [named c inside] at other
        cases other
      simp [outside]
  | cons c tail ih =>
    cases inside : p c with
    | false => simp [inside]
    | true => simpa [inside] using ih

/-- The token at the front of a text is not changed by what stands apart behind the text. -/
theorem scan_append (apart : Apart rest) (c : Char) (tail : List Char) :
    scan c (tail ++ rest) =
      ⟨(scan c tail).kind, (scan c tail).text, (scan c tail).rest ++ rest⟩ := by
  -- no run of characters goes on into `rest`, so every test comes out as before
  obtain ⟨digits, afterDigits⟩ := apart.span (fun _ => isNameChar_of_isDigit) (c :: tail)
  obtain ⟨name, afterName⟩ := apart.span (fun _ => id) (c :: tail)
  rw [List.cons_append] at digits afterDigits name afterName
  unfold scan
  rw [digits, afterDigits, name, afterName]
  cases operator? c with
  | some kind => rfl
  | none =>
    dsimp only
    cases behind : (c :: tail).dropWhile Char.isDigit with
    | nil =>
      have point : rest.head? ≠ some '.' := by
        intro point
        have other := apart '.' point
        cases other
      simp only [List.nil_append, point, List.head?_nil, false_and, if_false, reduceCtorEq]
      split
      · rfl
      · split <;> rfl
    | cons d after =>
      obtain ⟨fraction, afterFraction⟩ := apart.span (fun _ => isNameChar_of_isDigit) after
      simp only [List.cons_append, List.head?_cons, List.tail_cons, fraction, afterFraction]
      by_cases real : some d = some '.' ∧
          ((c :: tail).takeWhile Char.isDigit ≠ [] ∨ after.takeWhile Char.isDigit ≠ [])
      · simp only [real, and_self, if_true]
      · simp only [real, if_false]
        split
        · rfl
        · split <;> rfl

/-! ### The kinds of the tokens of a text -/

/-- The kinds of the tokens that a text is read as, the end of input left out. -/
def kindsOf (text : List Char) : List Kind :=
  match text with
  | [] => []
  | c :: tail =>
    if isGap c then kindsOf tail else (scan c tail).kind :: kindsOf (scan c tail).rest
termination_by text.length
decreasing_by
  · simp
  · exact scan_rest_length c tail

theorem kindsOf_nil : kindsOf [] = [] := by rw [kindsOf]

theorem kindsOf_gap_cons (gap : isGap c = true) : kindsOf (c :: tail) = kindsOf tail := by
  rw [kindsOf, if_pos gap]

theorem kindsOf_cons (solid : isGap c = false) :
    kindsOf (c :: tail) = (scan c tail).kind :: kindsOf (scan c tail).rest := by
  rw [kindsOf, if_neg (by simp [solid])]

theorem Lexer.toList_gap_cons (gap : isGap c = true) (position : Nat) :
    (⟨c :: tail, position, false⟩ : Lexer).toList =
      (⟨tail, position + c.utf8Size, false⟩ : Lexer).toList := by
  have same : (⟨c :: tail, position, false⟩ : Lexer).next =
      (⟨tail, position + c.utf8Size, false⟩ : Lexer).next := by
    simp only [next, List.takeWhile_cons_of_pos gap, List.dropWhile_cons_of_pos gap,
      Text.byteLength, Nat.add_assoc]
  conv_lhs => rw [toList]
  conv_rhs => rw [toList]
  rw [same]

theorem map_kind_toList (text : List Char) (position : Nat) :
    (⟨text, position, false⟩ : Lexer).toList.map Token.kind = kindsOf text ++ [.endOfInput] := by
  induction text using kindsOf.induct generalizing position with
  | case1 =>
    rw [Lexer.toList_nil, kindsOf_nil]
    rfl
  | case2 c tail gap ih => rw [Lexer.toList_gap_cons gap, kindsOf_gap_cons gap, ih]
  | case3 c tail solid ih =>
    rw [Bool.not_eq_true] at solid
    rw [Lexer.toList_cons solid, kindsOf_cons solid, List.map_cons, ih, List.cons_append]

theorem derives_iff {formula : String} {tree : Expr} :
    Derives formula tree ↔ kindsOf formula.toList = tree.kinds := by
  have kinds : (tokens formula).map Token.kind = kindsOf formula.toList ++ [.endOfInput] :=
    map_kind_toList formula.toList 0
  rw [Derives, kinds]
  constructor
  · exact List.append_cancel_right
  · intro same
    rw [same]

/-- **What two texts are read as.** -/
theorem kindsOf_append (apart : Apart rest) (text : List Char) :
    kindsOf (text ++ rest) = kindsOf text ++ kindsOf rest := by
  induction text using kindsOf.induct with
  | case1 => rw [kindsOf_nil, List.nil_append, List.nil_append]
  | case2 c tail gap ih => rw [List.cons_append, kindsOf_gap_cons gap, kindsOf_gap_cons gap, ih]
  | case3 c tail solid ih =>
    rw [Bool.not_eq_true] at solid
    rw [List.cons_append, kindsOf_cons solid, kindsOf_cons solid, scan_append apart, ih,
      List.cons_append]

theorem kindsOf_allGaps_append {gap : List Char} (blank : AllGaps gap) (text : List Char) :
    kindsOf (gap ++ text) = kindsOf text := by
  induction gap with
  | nil => rfl
  | cons c gap ih =>
    obtain ⟨here, others⟩ := List.forall_mem_cons.mp blank
    rw [List.cons_append, kindsOf_gap_cons here, ih others]

theorem kindsOf_append_allGaps {gap : List Char} (blank : AllGaps gap) (text : List Char) :
    kindsOf (text ++ gap) = kindsOf text := by
  have apart : Apart gap := by
    cases gap with
    | nil => exact apart_nil
    | cons c gap => exact apart_gap (blank c List.mem_cons_self)
  have nothing := kindsOf_allGaps_append blank []
  rw [List.append_nil, kindsOf_nil] at nothing
  rw [kindsOf_append apart, nothing, List.append_nil]

theorem kindsOf_operator {kind : Kind} (operator : operator? c = some kind) :
    kindsOf (c :: rest) = kind :: kindsOf rest := by
  have solid : isGap c = false := by
    rw [Bool.eq_false_iff]
    intro gap
    simp only [isGap, Bool.or_eq_true, beq_iff_eq] at gap
    rcases gap with rfl | rfl <;> cases operator
  have scanned : scan c rest = ⟨kind, [c], rest⟩ := by simp only [scan, operator]
  rw [kindsOf_cons solid, scanned]

/-- **An operator separates what stands before it from what stands behind it.** -/
theorem kindsOf_append_operator {kind : Kind} (operator : operator? c = some kind)
    (text rest : List Char) :
    kindsOf (text ++ c :: rest) = kindsOf text ++ kind :: kindsOf rest := by
  rw [kindsOf_append (apart_operator operator), kindsOf_operator operator]

end ChatMarkup.Formula
