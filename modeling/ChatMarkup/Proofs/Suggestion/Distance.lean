/-
  ChatMarkup/Proofs/Suggestion/Distance.lean
  ==========================================
  **The edit distance is the least number of edits** (`leastEdits_editDistance`).

  Edits can be made in any order and at any place, the rows of the distance go through both
  texts from the front.  Between the two stand texts side by side (`Aligned`): an alignment
  says what happens to each character, so it can be read off from the front, and an edit more
  in front of an alignment changes it in one place.
-/
import ChatMarkup.Suggestion
import ChatMarkup.Text.Edit
import Mathlib.Order.Nat

namespace ChatMarkup.Suggestion

open Text (Edit Edits LeastEdits)

variable {a b t : List Char} {c d : Char} {n : Nat}

/-! ### The rows -/

theorem distances_cons_right (a : List Char) (d : Char) (b : List Char) :
    distances a (d :: b) = editDistance a (d :: b) :: distances a b := by
  induction a generalizing d b with
  | nil =>
    simp only [editDistance, distances, List.length_cons]
    rw [List.range_succ, List.reverse_append]
    rfl
  | cons c a ih =>
    have tail : (distances a (d :: b)).tail = distances a b := by rw [ih, List.tail_cons]
    rw [editDistance, distances, distances, extend, tail]
    rfl

theorem distances_nil_right (a : List Char) : distances a [] = [a.length] := by
  induction a with
  | nil => rfl
  | cons c a ih => rw [distances, ih, extend, List.map_singleton, List.length_cons]

@[simp] theorem editDistance_nil_left (b : List Char) : editDistance [] b = b.length := by
  rw [editDistance, distances, List.range_succ, List.reverse_append]
  rfl

@[simp] theorem editDistance_nil_right (a : List Char) : editDistance a [] = a.length := by
  rw [editDistance, distances_nil_right]
  rfl

/-- Where two texts begin with the same character, nothing is to be done about it.  Else it is
    replaced, deleted or inserted, whatever comes cheapest. -/
theorem editDistance_cons_cons (c d : Char) (a b : List Char) :
    editDistance (c :: a) (d :: b) =
      if c = d then editDistance a b
      else
        1 + min (editDistance a b) (min (editDistance a (d :: b)) (editDistance (c :: a) b)) := by
  have tail : (distances a (d :: b)).tail = distances a b := by
    rw [distances_cons_right, List.tail_cons]
  rw [editDistance, distances, extend, tail]
  rfl

/-! ### Texts side by side -/

/-- Two texts side by side, character by character, and in how many places they differ. -/
inductive Aligned : List Char → List Char → Nat → Prop where
  | nil : Aligned [] [] 0
  | keep (c : Char) {a b : List Char} {n : Nat} (rest : Aligned a b n) :
      Aligned (c :: a) (c :: b) n
  | replace (c d : Char) {a b : List Char} {n : Nat} (rest : Aligned a b n) :
      Aligned (c :: a) (d :: b) (n + 1)
  | delete (c : Char) {a b : List Char} {n : Nat} (rest : Aligned a b n) :
      Aligned (c :: a) b (n + 1)
  | insert (d : Char) {a b : List Char} {n : Nat} (rest : Aligned a b n) :
      Aligned a (d :: b) (n + 1)

namespace Aligned

theorem refl (a : List Char) : Aligned a a 0 := by
  induction a with
  | nil => exact nil
  | cons c a ih => exact ih.keep c

theorem symm (aligned : Aligned a b n) : Aligned b a n := by
  induction aligned with
  | nil => exact nil
  | keep c _ ih => exact ih.keep c
  | replace c d _ ih => exact ih.replace d c
  | delete c _ ih => exact ih.insert c
  | insert d _ ih => exact ih.delete d

/-- A text side by side with nothing differs from it everywhere. -/
theorem eq_length (aligned : Aligned a [] n) : n = a.length := by
  induction a generalizing n with
  | nil =>
    cases aligned
    rfl
  | cons c a ih =>
    cases aligned with
    | delete _ rest => rw [ih rest, List.length_cons]

/-- What is inserted in front of the first character on the left can stay there.  So it is enough
    to say what another text on the left has in place of that character. -/
theorem of_cons (aligned : Aligned (c :: b) t n)
    (kept : ∀ {s k}, Aligned b s k → ∃ m ≤ k + 1, Aligned a (c :: s) m)
    (replaced : ∀ {d s k}, Aligned b s k → ∃ m ≤ k + 2, Aligned a (d :: s) m)
    (deleted : ∀ {s k}, Aligned b s k → ∃ m ≤ k + 2, Aligned a s m) :
    ∃ m ≤ n + 1, Aligned a t m := by
  -- what was done with the first character decides; insertions in front of it are kept
  generalize whole : c :: b = source at aligned
  induction aligned with
  | nil => cases whole
  | keep _ rest =>
    cases whole
    exact kept rest
  | replace _ _ rest =>
    cases whole
    exact replaced rest
  | delete _ rest =>
    cases whole
    exact deleted rest
  | insert d _ ih =>
    obtain ⟨m, most, shorter⟩ := ih whole
    exact ⟨m + 1, by omega, shorter.insert d⟩

/-- An edit of the text on the left changes the alignment in one place at most. -/
theorem of_edit (edit : Edit a b) (aligned : Aligned b t n) : ∃ m ≤ n + 1, Aligned a t m := by
  induction edit generalizing t n with
  | insert c a =>
    refine aligned.of_cons ?_ ?_ ?_
    · intro s k rest
      exact ⟨k + 1, le_rfl, rest.insert c⟩
    · intro d s k rest
      exact ⟨k + 1, Nat.le_succ _, rest.insert d⟩
    · intro s k rest
      exact ⟨k, by omega, rest⟩
  | delete c a => exact ⟨n + 1, le_rfl, aligned.delete c⟩
  | replace c d a =>
    refine aligned.of_cons ?_ ?_ ?_
    · intro s k rest
      exact ⟨k + 1, le_rfl, rest.replace c d⟩
    · intro e s k rest
      exact ⟨k + 1, Nat.le_succ _, rest.replace c e⟩
    · intro s k rest
      exact ⟨k + 1, Nat.le_succ _, rest.delete c⟩
  | @behind c a b edit ih =>
    refine aligned.of_cons ?_ ?_ ?_
    · intro s k rest
      obtain ⟨m, most, edited⟩ := ih rest
      exact ⟨m, most, edited.keep c⟩
    · intro d s k rest
      obtain ⟨m, most, edited⟩ := ih rest
      exact ⟨m + 1, Nat.succ_le_succ most, edited.replace c d⟩
    · intro s k rest
      obtain ⟨m, most, edited⟩ := ih rest
      exact ⟨m + 1, Nat.succ_le_succ most, edited.delete c⟩

/-- Without its first character a text differs in one more place at most. -/
theorem tail_left (aligned : Aligned (c :: a) b n) : ∃ m ≤ n + 1, Aligned a b m :=
  aligned.of_edit (Edit.insert c a)

theorem tail_right (aligned : Aligned a (d :: b) n) : ∃ m ≤ n + 1, Aligned a b m := by
  obtain ⟨m, most, shorter⟩ := aligned.symm.tail_left
  exact ⟨m, most, shorter.symm⟩

/-- Beside an equal character there is nothing better than to keep it. -/
theorem tail_of_same (aligned : Aligned (c :: a) (c :: b) n) : ∃ m ≤ n, Aligned a b m := by
  cases aligned with
  | keep _ rest => exact ⟨n, le_rfl, rest⟩
  | replace _ _ rest => exact ⟨_, Nat.le_succ _, rest⟩
  | delete _ rest => exact rest.tail_right
  | insert _ rest => exact rest.tail_left

end Aligned

theorem aligned_editDistance (a b : List Char) : Aligned a b (editDistance a b) := by
  induction a generalizing b with
  | nil =>
    rw [editDistance_nil_left]
    induction b with
    | nil => exact .nil
    | cons d b ih => exact ih.insert d
  | cons c a ih =>
    induction b with
    | nil =>
      rw [editDistance_nil_right, List.length_cons, ← editDistance_nil_right]
      exact (ih []).delete c
    | cons d b inner =>
      rw [editDistance_cons_cons, Nat.add_comm]
      split
      · rename_i same
        subst same
        exact (ih b).keep c
      · rcases Nat.le_total (editDistance a b)
          (min (editDistance a (d :: b)) (editDistance (c :: a) b)) with first | first
        · rw [Nat.min_eq_left first]
          exact (ih b).replace c d
        · rw [Nat.min_eq_right first]
          rcases Nat.le_total (editDistance a (d :: b)) (editDistance (c :: a) b) with
            second | second
          · rw [Nat.min_eq_left second]
            exact (ih (d :: b)).delete c
          · rw [Nat.min_eq_right second]
            exact inner.insert d

theorem editDistance_le_of_aligned (aligned : Aligned a b n) : editDistance a b ≤ n := by
  induction a generalizing b n with
  | nil => rw [editDistance_nil_left, aligned.symm.eq_length]
  | cons c a ih =>
    induction b generalizing n with
    | nil => rw [editDistance_nil_right, aligned.eq_length]
    | cons d b inner =>
      rw [editDistance_cons_cons]
      split
      · rename_i same
        subst same
        -- to keep equal first characters is never worse than anything else
        obtain ⟨m, most, rest⟩ := aligned.tail_of_same
        exact (ih rest).trans most
      · rename_i other
        cases aligned with
        | keep => exact absurd rfl other
        | replace _ _ rest =>
          have := ih rest
          omega
        | delete _ rest =>
          have := ih rest
          omega
        | insert _ rest =>
          have := inner rest
          omega

/-! ### Edits -/

theorem edits_behind (c : Char) (edits : Edits n a b) : Edits n (c :: a) (c :: b) := by
  induction edits with
  | none text => exact .none _
  | more edit _ ih => exact .more (edit.behind c) ih

theorem edits_of_aligned (aligned : Aligned a b n) : Edits n a b := by
  induction aligned with
  | nil => exact .none []
  | keep c _ ih => exact edits_behind c ih
  | @replace c d a b n _ ih => exact .more (.replace c d a) (edits_behind d ih)
  | @delete c a b n _ ih => exact .more (.delete c a) ih
  | @insert d a b n _ ih => exact .more (.insert d a) (edits_behind d ih)

theorem aligned_of_edits (edits : Edits n a b) : ∃ m ≤ n, Aligned a b m := by
  induction edits with
  | none text => exact ⟨0, le_rfl, .refl text⟩
  | more edit _ ih =>
    obtain ⟨m, most, aligned⟩ := ih
    obtain ⟨m', most', edited⟩ := aligned.of_edit edit
    exact ⟨m', by omega, edited⟩

/-- **The edit distance is the least number of edits.** -/
theorem leastEdits_editDistance (a b : List Char) : LeastEdits a b (editDistance a b) := by
  refine ⟨edits_of_aligned (aligned_editDistance a b), ?_⟩
  intro n edits
  obtain ⟨m, most, aligned⟩ := aligned_of_edits edits
  exact (editDistance_le_of_aligned aligned).trans most

end ChatMarkup.Suggestion
