/-
  ChatMarkup/Proofs/Markup/Piece.lean
  ===================================
  **What the pieces of a template are read from** — for every reader of a piece, exactly the
  texts that it reads: a spelling of the piece, and what is left behind it.

  Each statement is an equivalence, and from right to left it says that the reader goes on
  for as long as it can.  So what is left must not begin with more of the piece, which is
  what `Ends` says.
-/
import ChatMarkup.Markup.Spelling
import ChatMarkup.Proofs.Result
import ChatMarkup.Proofs.Text.Run

namespace ChatMarkup.Markup

/-! ### Longest fronts -/

/-- A text that does not go on with a character of a class. -/
def Ends (p : Char → Bool) : List Char → Prop
  | [] => True
  | c :: _ => p c = false

variable {p : Char → Bool} {text rest : List Char}

theorem ends_dropWhile (p : Char → Bool) (text : List Char) : Ends p (text.dropWhile p) := by
  induction text with
  | nil => exact trivial
  | cons c text ih =>
    rw [List.dropWhile_cons]
    split
    · exact ih
    · rename_i outside
      exact Bool.eq_false_iff.mpr outside

theorem Ends.extend (ends : Ends p text) (some : text ≠ []) : Ends p (text ++ rest) := by
  cases text with
  | nil => exact absurd rfl some
  | cons => exact ends

theorem Ends.of_append (ends : Ends p (text ++ rest)) : Ends p text := by
  cases text with
  | nil => exact trivial
  | cons => exact ends

theorem Ends.head (ends : Ends p rest) : ∀ c ∈ rest.head?, p c = false := by
  cases rest with
  | nil => exact Text.ends_nil
  | cons _ rest => exact Text.ends_cons ends rest

theorem takeWhile_append_of_ends {front : List Char} (inside : ∀ c ∈ front, p c = true)
    (ends : Ends p rest) : (front ++ rest).takeWhile p = front :=
  Text.takeWhile_append_of_run inside ends.head

theorem dropWhile_append_of_ends {front : List Char} (inside : ∀ c ∈ front, p c = true)
    (ends : Ends p rest) : (front ++ rest).dropWhile p = rest :=
  Text.dropWhile_append_of_run inside ends.head

theorem skipSpace_eq_iff :
    skipSpace text = rest ↔ ∃ gap, IsSpace gap ∧ text = gap ++ rest ∧ Ends isSpace rest := by
  constructor
  · rintro rfl
    refine ⟨text.takeWhile isSpace, fun c => List.mem_takeWhile_imp, ?_, ends_dropWhile _ _⟩
    exact List.takeWhile_append_dropWhile.symm
  · intro h
    rcases h with ⟨gap, space, rfl, ends⟩
    exact dropWhile_append_of_ends space ends

theorem skipSpace_of_isSpace (space : IsSpace text) : skipSpace text = [] :=
  skipSpace_eq_iff.mpr ⟨text, space, (List.append_nil text).symm, trivial⟩

theorem isSpace_append_iff {first second : List Char} :
    IsSpace (first ++ second) ↔ IsSpace first ∧ IsSpace second := List.forall_mem_append

/-! ### References and runs -/

theorem readReference_eq_ok_iff {c : Char} :
    readReference text = .ok (c, rest) ↔
      ∃ name, name ≠ [] ∧ (∀ d ∈ name, endsReference d = false) ∧ decode? name = some c ∧
        text = name ++ ';' :: rest := by
  constructor
  · intro h
    have whole := List.takeWhile_append_dropWhile (p := fun d => !endsReference d) (l := text)
    unfold readReference at h
    dsimp only at h
    split at h
    · cases h
    · rename_i some
      split at h
      · rename_i tail e
        split at h
        · rename_i decoded
          cases h
          refine ⟨_, some, ?_, decoded, ?_⟩
          · intro d member
            simpa using List.mem_takeWhile_imp member
          · rw [← e, whole]
        · cases h
      · cases h
  · intro h
    rcases h with ⟨name, some, inner, decoded, rfl⟩
    -- the name ends at the semicolon, the first character that ends a reference
    have inside : ∀ d ∈ name, (!endsReference d) = true := fun d member => by simp [inner d member]
    have ends : Ends (fun d => !endsReference d) (';' :: rest) := rfl
    unfold readReference
    rw [takeWhile_append_of_ends inside ends, dropWhile_append_of_ends inside ends]
    simp [some, decoded]

def Raw (stop : Char → Bool) (c : Char) : Prop := stop c = false ∧ c ≠ '&'

theorem raw_text : Raw (· == '<') = PlainText := by
  funext c
  simp [Raw, PlainText]

theorem raw_value (quote : Char) :
    Raw (fun c => c == quote || c == '<') = PlainValue quote := by
  funext c
  simp [Raw, PlainValue, and_assoc]

section Runs

variable {stop : Char → Bool} {run : List Char} {c : Char} {tail : List Char}

theorem readRun_of_stop (ends : Ends (fun c => !stop c) rest) :
    readRun stop rest = .ok ([], rest) := by
  cases rest with
  | nil => rw [readRun]
  | cons c rest =>
    have stops : stop c = true := by simpa [Ends] using ends
    rw [readRun, if_pos stops]

theorem readRun_raw (raw : Raw stop c) :
    readRun stop (c :: tail) =
      (readRun stop tail).map fun found => (c :: found.1, found.2) := by
  rw [readRun, if_neg (Bool.eq_false_iff.mp raw.1), if_neg raw.2]
  cases readRun stop tail <;> rfl

theorem readRun_reference (free : stop '&' = false) :
    readRun stop ('&' :: tail) = readReference tail >>= fun found =>
      (readRun stop found.2).map fun more => (found.1 :: more.1, more.2) := by
  rw [readRun, if_neg (Bool.eq_false_iff.mp free), if_pos rfl]
  split
  · rename_i e
    rw [e]
    rfl
  · rename_i decoded behind e
    rw [e, ok_bind]
    cases readRun stop behind <;> rfl

theorem readRun_sound (h : readRun stop text = .ok (run, rest)) :
    ∃ spelling, SpellsText (Raw stop) run spelling ∧ text = spelling ++ rest ∧
      Ends (fun c => !stop c) rest := by
  -- on the reader itself; the cases that fail have nothing to show
  fun_induction readRun stop text generalizing run rest with
  | case1 =>
    cases h
    exact ⟨[], .nil, rfl, trivial⟩
  | case2 c tail stops =>
    cases h
    exact ⟨[], .nil, rfl, by simp [Ends, stops]⟩
  | case3 => cases h
  | case4 => cases h
  | case5 tail decoded behind e run' rest' e' _ ih =>
    cases h
    obtain ⟨name, some, inner, decodes, rfl⟩ := readReference_eq_ok_iff.mp e
    obtain ⟨spelling, spells, rfl, ends⟩ := ih e'
    exact ⟨'&' :: name ++ [';'] ++ spelling, .cons (.reference some inner decodes) spells,
      by simp, ends⟩
  | case6 => cases h
  | case7 c tail going other run' rest' e ih =>
    cases h
    obtain ⟨spelling, spells, rfl, ends⟩ := ih e
    have raw : Raw stop c := ⟨Bool.eq_false_iff.mpr going, other⟩
    exact ⟨[c] ++ spelling, .cons (.raw raw) spells, by simp, ends⟩

theorem readRun_complete (free : stop '&' = false) {spelling : List Char}
    (spells : SpellsText (Raw stop) run spelling) (ends : Ends (fun c => !stop c) rest) :
    readRun stop (spelling ++ rest) = .ok (run, rest) := by
  induction spells with
  | nil => exact readRun_of_stop ends
  | cons head _ ih =>
    rw [List.append_assoc]
    cases head with
    | raw self =>
      rw [List.singleton_append, readRun_raw self, ih]
      rfl
    | reference some inner decoded =>
      simp only [List.cons_append, List.append_assoc, List.nil_append] at ih ⊢
      rw [readRun_reference free, readReference_eq_ok_iff.mpr ⟨_, some, inner, decoded, rfl⟩,
        ok_bind, ih]
      rfl

end Runs

end ChatMarkup.Markup
