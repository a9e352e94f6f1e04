/-
  ChatMarkup/Proofs/Text/Run.lean
  ===============================
  **Runs of a class of characters** — where a run ends is seen from the text: it goes on up
  to the first character outside the class.  So a text that begins with a run, and does not
  go on with more of it, is split behind the run in one way only (`append_inj_of_runs`), and
  the white space at the two ends of a text is as much as there can be (`trim_eq_iff`).
-/
import ChatMarkup.Text.Blank
import Mathlib.Data.List.DropRight
import Mathlib.Data.List.TakeWhile

namespace ChatMarkup.Text

variable {α : Type} {p : α → Bool} {run run' rest rest' : List α}

theorem ends_nil : ∀ c ∈ ([] : List α).head?, p c = false := by
  intro c none
  cases none

theorem ends_cons {c : α} (outside : p c = false) (rest : List α) :
    ∀ d ∈ (c :: rest).head?, p d = false := by
  intro d first
  cases first
  exact outside

theorem takeWhile_append_of_run (inside : ∀ c ∈ run, p c = true)
    (ends : ∀ c ∈ rest.head?, p c = false) : (run ++ rest).takeWhile p = run := by
  rw [List.takeWhile_append_of_pos inside]
  cases rest with
  | nil => simp
  | cons c rest =>
    rw [List.takeWhile_cons_of_neg (Bool.eq_false_iff.mp (ends c rfl)), List.append_nil]

theorem dropWhile_append_of_run (inside : ∀ c ∈ run, p c = true)
    (ends : ∀ c ∈ rest.head?, p c = false) : (run ++ rest).dropWhile p = rest := by
  rw [List.dropWhile_append_of_pos inside]
  cases rest with
  | nil => rfl
  | cons c rest => exact List.dropWhile_cons_of_neg (Bool.eq_false_iff.mp (ends c rfl))

theorem rdropWhile_append_of_run (inside : ∀ c ∈ run, p c = true)
    (ends : ∀ c ∈ rest.getLast?, p c = false) : (rest ++ run).rdropWhile p = rest := by
  rw [List.rdropWhile, List.reverse_append, dropWhile_append_of_run, List.reverse_reverse]
  · intro c member
    exact inside c (List.mem_reverse.mp member)
  · intro c first
    rw [List.head?_reverse] at first
    exact ends c first

theorem not_of_mem_head?_dropWhile {text : List α} {c : α}
    (first : c ∈ (text.dropWhile p).head?) : p c = false := by
  have outside := List.head?_dropWhile_not p text
  rw [Option.mem_def.mp first] at outside
  exact outside

/-- A text has one run only that it begins with and does not go on with. -/
theorem append_inj_of_runs (inside : ∀ c ∈ run, p c = true) (inside' : ∀ c ∈ run', p c = true)
    (ends : ∀ c ∈ rest.head?, p c = false) (ends' : ∀ c ∈ rest'.head?, p c = false)
    (same : run ++ rest = run' ++ rest') : run = run' ∧ rest = rest' := by
  have front : run = run' := by
    rw [← takeWhile_append_of_run inside ends, same, takeWhile_append_of_run inside' ends']
  subst front
  exact ⟨rfl, List.append_cancel_left same⟩

/-- Trimmed, a text is the word in it, if there is one. -/
theorem trim_eq_iff {text word : List Char} :
    trim text = word ↔ ∃ before after, text = before ++ word ++ after ∧
      (∀ c ∈ before ++ after, isBlank c = true) ∧
      ∀ c, c ∈ word.head? ∨ c ∈ word.getLast? → isBlank c = false := by
  constructor
  · rintro rfl
    have front : text.takeWhile isBlank ++ text.dropWhile isBlank = text :=
      List.takeWhile_append_dropWhile
    have behind : trim text ++ (text.dropWhile isBlank).rtakeWhile isBlank =
        text.dropWhile isBlank := List.rdropWhile_append_rtakeWhile
    refine ⟨_, _, by rw [List.append_assoc, behind, front], ?_, ?_⟩
    · intro c member
      rcases List.mem_append.mp member with early | late
      · exact List.mem_takeWhile_imp early
      · exact List.mem_rtakeWhile_imp late
    · rintro c (first | last)
      · have first : c ∈ (text.dropWhile isBlank).head? := by
          rw [← behind]
          exact List.mem_head?_append_of_mem_head? first
        exact not_of_mem_head?_dropWhile first
      · rw [trim, List.getLast?_reverse] at last
        exact not_of_mem_head?_dropWhile last
  · rintro ⟨before, after, rfl, blank, solid⟩
    obtain ⟨blank, blank'⟩ := List.forall_mem_append.mp blank
    rw [trim, ← List.rdropWhile, List.append_assoc]
    cases word with
    | nil =>
      -- nothing is left to tell the white space in front from that behind
      rw [List.nil_append, List.dropWhile_append_of_pos blank, List.dropWhile_eq_nil_iff.mpr blank',
        List.rdropWhile_nil]
    | cons c word =>
      rw [dropWhile_append_of_run blank, rdropWhile_append_of_run blank']
      · exact fun d last => solid d (Or.inr last)
      · exact fun d first => solid d (Or.inl first)

end ChatMarkup.Text
