/-
  ChatMarkup/Proofs/Formula/Concatenation.lean
  ============================================
  **Adding arrays concatenates, and counting distributes over it** (`evaluate_sums`) — for the
  texts of formulas, not just for their trees.

  A plus sign between two texts never changes what either is read as, but it takes the second
  tree apart (`Expr.plus`).  Nothing in that tree can be a number or a difference, since its
  value is an array; so its terms are arrays, too, and only their keys depend on the order in
  which they are added.
-/
import ChatMarkup.Formula.Concatenation
import ChatMarkup.Proofs.Formula.Integer
import ChatMarkup.Proofs.Value.Merge

namespace ChatMarkup.Formula

open Entries (values ofValues merge)

variable {scope : Scope} {first second : String} {left right : Expr} {a b : Entries}

/-! ### The tree of a sum -/

theorem Expr.kinds_plus (left right : Expr) :
    (left.plus right).kinds = left.kinds ++ .plus :: right.kinds := by
  induction right using Expr.plus.induct with
  | case1 term => rfl
  | case2 inner op term ih =>
    rw [Expr.plus, Expr.kinds, ih, Expr.kinds, List.append_assoc, List.cons_append]

theorem Expr.depth_plus (left right : Expr) :
    (left.plus right).depth = max left.depth right.depth := by
  induction right using Expr.plus.induct with
  | case1 term => rfl
  | case2 inner op term ih => rw [Expr.plus, Expr.depth, ih, Expr.depth, Nat.max_assoc]

/-- Only a sum of arrays is an array. -/
theorem Sums.arrays_of_array {op : Op} {x y : Value} (sum : Sums op x y (.array a)) :
    op = .add ∧ ∃ b c, x = .array b ∧ y = .array c ∧ a = merge b c := by
  cases sum with
  | arrays first second => exact ⟨rfl, first, second, rfl, rfl, rfl⟩

theorem Expr.denotes_plus (first : left.Denotes scope (.array a))
    (second : right.Denotes scope (.array b)) :
    ∃ total, (left.plus right).Denotes scope (.array total) ∧
      values total = values a ++ values b := by
  induction right using Expr.plus.induct generalizing b with
  | case1 term =>
    cases second with
    | single second =>
      exact ⟨merge a b, .chain first second (.arrays a b), Entries.values_merge a b⟩
  | case2 inner op term ih =>
    cases second with
    | chain second third sum =>
      obtain ⟨rfl, c, d, rfl, rfl, rfl⟩ := sum.arrays_of_array
      obtain ⟨total, denotes, whole⟩ := ih second
      refine ⟨merge total d, .chain denotes third (.arrays total d), ?_⟩
      rw [Entries.values_merge, whole, Entries.values_merge, List.append_assoc]

/-! ### The texts of sums and groups -/

theorem derives_plus (derives : Derives first left) (derives' : Derives second right) :
    Derives (first ++ "+" ++ second) (left.plus right) := by
  rw [derives_iff] at derives derives' ⊢
  have plus : operator? '+' = some .plus := rfl
  have whole : (first ++ "+" ++ second).toList = first.toList ++ '+' :: second.toList := by simp
  rw [whole, kindsOf_append_operator plus, derives, derives', Expr.kinds_plus]

theorem derives_group (derives : Derives first left) :
    Derives ("(" ++ first ++ ")") (.single (.plain (.group left))) := by
  rw [derives_iff] at derives ⊢
  have opening : operator? '(' = some .opening := rfl
  have closing : operator? ')' = some .closing := rfl
  have whole : ("(" ++ first ++ ")").toList = '(' :: (first.toList ++ [')']) := by simp
  rw [whole, kindsOf_operator opening, kindsOf_append_operator closing, derives, kindsOf_nil]
  rfl

theorem derives_counted {operand : Primary} (derives : Derives first (.single (.plain operand))) :
    Derives ("#" ++ first) (.single (.counted operand)) := by
  rw [derives_iff] at derives ⊢
  have count : operator? '#' = some .count := rfl
  have whole : ("#" ++ first).toList = '#' :: first.toList := by simp
  rw [whole, kindsOf_operator count, derives]
  rfl

theorem derives_name {name : String} (valid : isName name = true)
    (proper : beginsNumber name.toList = false) :
    Derives name (.single (.plain (.named name))) :=
  derives_iff.mpr (kindsOf_name valid proper)

/-! ### Sums of formulas -/

theorem evaluate_of_denotes {formula : String} {tree : Expr} {value : Value}
    (derives : Derives formula tree) (shallow : tree.depth ≤ maxDepth)
    (denotes : tree.Denotes scope value) : evaluate scope formula = .ok value := by
  rw [evaluate_eq_eval derives shallow]
  exact tree.eval_eq_ok_iff.mpr denotes

theorem exists_denotes_of_evaluate {formula : String} {value : Value}
    (h : evaluate scope formula = .ok value) :
    ∃ tree : Expr, Derives formula tree ∧ tree.depth ≤ maxDepth ∧ tree.Denotes scope value := by
  obtain ⟨tree, derives, shallow, evaluated⟩ := exists_eval_of_evaluate h
  exact ⟨tree, derives, shallow, tree.eval_eq_ok_iff.mp evaluated⟩

/-- **A sum of two formulas.** -/
theorem evaluate_plus (h : evaluate scope first = .ok (.array a))
    (h' : evaluate scope second = .ok (.array b)) :
    ∃ total, evaluate scope (first ++ "+" ++ second) = .ok (.array total) ∧
      values total = values a ++ values b := by
  obtain ⟨left, derives, shallow, denotes⟩ := exists_denotes_of_evaluate h
  obtain ⟨right, derives', shallow', denotes'⟩ := exists_denotes_of_evaluate h'
  obtain ⟨total, denotes, whole⟩ := Expr.denotes_plus denotes denotes'
  refine ⟨total, evaluate_of_denotes (derives_plus derives derives') ?_ denotes, whole⟩
  rw [Expr.depth_plus]
  exact Nat.max_le.mpr ⟨shallow, shallow'⟩

/-- A sum of any number of formulas. -/
theorem evaluate_sum {texts : List String} {arrays : List Entries} (some : texts ≠ [])
    (each : List.Forall₂ (fun text entries => evaluate scope text = .ok (.array entries))
      texts arrays) :
    ∃ total, evaluate scope ("+".intercalate texts) = .ok (.array total) ∧
      values total = arrays.flatMap values := by
  induction each with
  | nil => exact absurd rfl some
  | @cons text entries texts arrays head tail ih =>
    cases tail with
    | nil => exact ⟨entries, by simpa using head, by simp⟩
    | cons next tail =>
      obtain ⟨rest, evaluated, whole⟩ := ih (List.cons_ne_nil _ _)
      obtain ⟨total, evaluated, whole'⟩ := evaluate_plus head evaluated
      rw [String.intercalate_cons_cons]
      exact ⟨total, evaluated, by rw [whole', whole]; exact List.flatMap_cons.symm⟩

/-! ### Sums of sequences -/

/-- The operand that a summand is. -/
theorem Summand.exists_operand {text : String} (summand : Summand scope text a) :
    ∃ operand : Primary, Derives text (.single (.plain operand)) ∧ operand.depth ≤ maxDepth ∧
      operand.Denotes scope (.array a) := by
  cases summand with
  | named valid proper bound => exact ⟨_, derives_name valid proper, Nat.zero_le _, .named bound⟩
  | group nested value =>
    obtain ⟨tree, derives, shallow⟩ := nested
    have below : tree.depth ≤ maxDepth := Nat.le_trans shallow (Nat.sub_le _ _)
    rw [evaluate_eq_eval derives below, tree.eval_eq_ok_iff] at value
    exact ⟨.group tree, derives_group derives, Nat.succ_le_succ shallow, .group value⟩

theorem evaluate_summand {text : String} (summand : Summand scope text a) :
    evaluate scope text = .ok (.array a) := by
  obtain ⟨operand, derives, shallow, denotes⟩ := summand.exists_operand
  exact evaluate_of_denotes derives shallow (.single (.plain denotes))

theorem evaluate_plus_summand (h : evaluate scope first = .ok (.array a))
    (summand : Summand scope second b) :
    evaluate scope (first ++ "+" ++ second) = .ok (.array (merge a b)) := by
  obtain ⟨left, derives, shallow, denotes⟩ := exists_denotes_of_evaluate h
  obtain ⟨operand, derives', shallow', denotes'⟩ := summand.exists_operand
  exact evaluate_of_denotes (derives_plus derives derives') (Nat.max_le.mpr ⟨shallow, shallow'⟩)
    (.chain denotes (.plain denotes') (.arrays _ _))

/-- A sum of sequences behind a sequence. -/
theorem evaluate_plus_sequences {text : String} {texts : List String} {vs : List Value}
    {sequences : List (List Value)} (h : evaluate scope first = .ok (.array (ofValues vs)))
    (each : List.Forall₂ (fun text vs => Summand scope text (ofValues vs)) (text :: texts)
      sequences)
    (short : (vs ++ sequences.flatten).length ≤ UInt64.size) :
    evaluate scope (first ++ "+" ++ "+".intercalate (text :: texts)) =
      .ok (.array (ofValues (vs ++ sequences.flatten))) := by
  induction texts generalizing first text vs sequences with
  | nil =>
    obtain ⟨ws, _, head, tail, rfl⟩ := List.forall₂_cons_left_iff.mp each
    cases tail
    rw [List.flatten_singleton] at short ⊢
    rw [String.intercalate_singleton, evaluate_plus_summand h head,
      Entries.merge_ofValues vs ws short]
  | cons next texts ih =>
    obtain ⟨ws, _, head, tail, rfl⟩ := List.forall₂_cons_left_iff.mp each
    rw [List.flatten_cons, ← List.append_assoc] at short ⊢
    -- the sum so far is a sequence again, so the next one is added to a sequence
    have front : (vs ++ ws).length ≤ UInt64.size := by
      rw [List.length_append] at short
      omega
    have sum := evaluate_plus_summand h head
    rw [Entries.merge_ofValues vs ws front] at sum
    rw [String.intercalate_cons_cons, ← String.append_assoc, ← String.append_assoc]
    exact ih sum tail short

theorem evaluate_sequences {texts : List String} {sequences : List (List Value)} (some : texts ≠ [])
    (each : List.Forall₂ (fun text vs => Summand scope text (ofValues vs)) texts sequences)
    (short : sequences.flatten.length ≤ UInt64.size) :
    evaluate scope ("+".intercalate texts) = .ok (.array (ofValues sequences.flatten)) := by
  cases each with
  | nil => exact absurd rfl some
  | @cons text vs texts sequences head tail =>
    cases tail with
    | nil =>
      rw [String.intercalate_singleton, List.flatten_singleton]
      exact evaluate_summand head
    | cons next tail =>
      rw [String.intercalate_cons_cons]
      exact evaluate_plus_sequences (evaluate_summand head) (.cons next tail) short

/-! ### Counting -/

theorem derives_counted_group (derives : Derives first left) :
    Derives ("#(" ++ first ++ ")") (.single (.counted (.group left))) := by
  have whole : "#(" ++ first ++ ")" = "#" ++ ("(" ++ first ++ ")") := by
    apply String.toList_inj.mp
    simp
  rw [whole]
  exact derives_counted (derives_group derives)

theorem length_eq_of_values {total : Entries} (whole : values total = values a ++ values b) :
    total.length = a.length + b.length := by
  have same := congrArg List.length whole
  simpa [values] using same

theorem fits_of_le {n m : Nat} (le : n ≤ m) (fits : Fits m) : Fits n := by
  have lower : Int64.minValue.toInt ≤ 0 := by decide
  obtain ⟨-, upper⟩ := fits
  exact ⟨by omega, by omega⟩

/-- **Counting distributes over the addition of arrays.** -/
theorem evaluate_counted_sum (nested : Nested (maxDepth - 1) first)
    (nested' : Nested (maxDepth - 1) second) (h : evaluate scope first = .ok (.array a))
    (h' : evaluate scope second = .ok (.array b)) (fits : Fits (a.length + b.length)) :
    ∃ n : Int64, n.toInt = a.length + b.length ∧
      evaluate scope ("#(" ++ first ++ "+" ++ second ++ ")") = .ok (.int n) ∧
      evaluate scope ("#(" ++ first ++ ")+#(" ++ second ++ ")") = .ok (.int n) := by
  obtain ⟨left, derives, shallow⟩ := nested
  obtain ⟨right, derives', shallow'⟩ := nested'
  have below : maxDepth - 1 ≤ maxDepth := Nat.sub_le _ _
  rw [evaluate_eq_eval derives (Nat.le_trans shallow below), left.eval_eq_ok_iff] at h
  rw [evaluate_eq_eval derives' (Nat.le_trans shallow' below), right.eval_eq_ok_iff] at h'
  obtain ⟨n, count⟩ := fits.exists_word
  refine ⟨n, count, ?_, ?_⟩
  -- counted together: the entries of the sum are those of both arrays
  · obtain ⟨total, denotes, whole⟩ := Expr.denotes_plus h h'
    have derives := derives_counted_group (derives_plus derives derives')
    have shallow : (left.plus right).depth ≤ maxDepth - 1 := by
      rw [Expr.depth_plus]
      exact Nat.max_le.mpr ⟨shallow, shallow'⟩
    have length : n.toInt = total.length := by
      rw [count, length_eq_of_values whole, Int.natCast_add]
    rw [← String.append_assoc, ← String.append_assoc] at derives
    exact evaluate_of_denotes derives (Nat.succ_le_succ shallow)
      (.single (.counted (.group denotes) length))
  · obtain ⟨m, count'⟩ := (fits_of_le (Nat.le_add_right a.length b.length) fits).exists_word
    obtain ⟨k, count''⟩ := (fits_of_le (Nat.le_add_left b.length a.length) fits).exists_word
    have whole : "#(" ++ first ++ ")+#(" ++ second ++ ")" =
        "#(" ++ first ++ ")" ++ "+" ++ ("#(" ++ second ++ ")") := by
      apply String.toList_inj.mp
      simp
    have derives := derives_plus (derives_counted_group derives) (derives_counted_group derives')
    have sum : Sums .add (.int m) (.int k) (.int n) :=
      .addInts (.int m) (.int k) (by rw [count, count', count''])
    rw [whole]
    have shallow := Nat.max_le.mpr ⟨Nat.succ_le_succ shallow, Nat.succ_le_succ shallow'⟩
    exact evaluate_of_denotes derives shallow
      (.chain (.single (.counted (.group h) count')) (.counted (.group h') count'') sum)

/-- **Adding arrays concatenates, and counting distributes over it.** The values of a sum of
    formulas that are worth arrays are theirs in order. A sum of sequences is the sequence of all
    their values, as far as machine-sized positions can number them. The entries of a sum are as
    many as those of its parts, counted one by one. -/
theorem evaluate_sums (scope : Scope) :
    (∀ texts arrays, texts ≠ [] →
      List.Forall₂ (fun text entries => evaluate scope text = .ok (.array entries)) texts arrays →
      ∃ total, evaluate scope ("+".intercalate texts) = .ok (.array total) ∧
        values total = arrays.flatMap values) ∧
    (∀ texts sequences, texts ≠ [] →
      List.Forall₂ (fun text vs => Summand scope text (ofValues vs)) texts sequences →
      sequences.flatten.length ≤ UInt64.size →
      evaluate scope ("+".intercalate texts) = .ok (.array (ofValues sequences.flatten))) ∧
    ∀ first second a b, Nested (maxDepth - 1) first → Nested (maxDepth - 1) second →
      evaluate scope first = .ok (.array a) → evaluate scope second = .ok (.array b) →
      Fits (a.length + b.length) →
      ∃ n : Int64, n.toInt = a.length + b.length ∧
        evaluate scope ("#(" ++ first ++ "+" ++ second ++ ")") = .ok (.int n) ∧
        evaluate scope ("#(" ++ first ++ ")+#(" ++ second ++ ")") = .ok (.int n) := by
  refine ⟨fun _ _ => evaluate_sum, fun _ _ => evaluate_sequences, ?_⟩
  intro first second a b nested nested' h h' fits
  exact evaluate_counted_sum nested nested' h h' fits

/-- A sequence three times, and a sequence in a sum with an array that keeps its keys. -/
theorem evaluate_sums_nested :
    let sequence := [Value.int 1, .int 2]
    let scope :=
      (Scope.empty.bind "x" (.array (ofValues sequence))).bind "m" (.array [("k", .int 3)])
    (Summand scope "x" (ofValues sequence) ∧
      Summand scope "(x+x)" (ofValues (sequence ++ sequence)) ∧
      evaluate scope "x+(x+x)" = .ok (.array (ofValues (sequence ++ sequence ++ sequence)))) ∧
    Nested (maxDepth - 1) "m" ∧ Nested (maxDepth - 1) "x+m" ∧
      evaluate scope "m" = .ok (.array [("k", .int 3)]) ∧
      evaluate scope "x+m" = .ok (.array [("0", .int 1), ("1", .int 2), ("k", .int 3)]) ∧
      evaluate scope "#(m+x+m)" = .ok (.int 4) ∧ evaluate scope "#(m)+#(x+m)" = .ok (.int 4) := by
  intro sequence scope
  have x : Summand scope "x" (ofValues sequence) := .named (by decide) (by decide) (.here rfl)
  have m : Summand scope "m" [("k", .int 3)] := .named (by decide) (by decide) (.here rfl)
  have x' : Derives "x" (.single (.plain (.named "x"))) := derives_name (by decide) (by decide)
  have m' : Derives "m" (.single (.plain (.named "m"))) := derives_name (by decide) (by decide)
  have nested : Nested (maxDepth - 1) "x+x" := ⟨_, derives_plus x' x', by decide⟩
  have nested' : Nested (maxDepth - 1) "x+m" := ⟨_, derives_plus x' m', by decide⟩
  have nested'' : Nested (maxDepth - 1) "m" := ⟨_, m', by decide⟩
  obtain ⟨-, sequences, counts⟩ := evaluate_sums scope
  have twice : evaluate scope "x+x" = .ok (.array (ofValues (sequence ++ sequence))) :=
    sequences ["x", "x"] [sequence, sequence] (by simp) (.cons x (.cons x .nil)) (by decide)
  have group : Summand scope "(x+x)" (ofValues (sequence ++ sequence)) := .group nested twice
  have sum : evaluate scope "x+m" = .ok (.array [("0", .int 1), ("1", .int 2), ("k", .int 3)]) :=
    evaluate_plus_summand (evaluate_summand x) m
  have whole :
      evaluate scope "x+(x+x)" = .ok (.array (ofValues (sequence ++ sequence ++ sequence))) :=
    sequences ["x", "(x+x)"] [sequence, sequence ++ sequence] (by simp)
      (.cons x (.cons group .nil)) (by decide)
  obtain ⟨n, count, inside, outside⟩ := counts "m" "x+m" _ _ nested'' nested'
    (evaluate_summand m) sum (by decide)
  obtain rfl : n = 4 := Int64.toInt_inj.mp count
  exact ⟨⟨x, group, whole⟩, nested'', nested', evaluate_summand m, sum, inside, outside⟩

end ChatMarkup.Formula
