/-
  ChatMarkup/Text/Segments.lean
  =============================
  **Segments** — a text as parts between separators, and parts joined to a text: with
  the same separator everywhere, or as a series with a separator of its own before the
  last part.
-/

namespace ChatMarkup.Text

/-- The parts of a text between the occurrences of a separator; there is always one more
    of them than of the separators. -/
def splitOn (separator : Char) : List Char → List (List Char)
  | [] => [[]]
  | c :: text =>
    if c = separator then [] :: splitOn separator text
    else match splitOn separator text with
      | [] => [[c]]
      | part :: parts => (c :: part) :: parts

def joinWith (separator : List Char) : List (List Char) → List Char
  | [] => []
  | [part] => part
  | part :: parts => part ++ separator ++ joinWith separator parts

/-- The parts with a separator between each two of them, and one of its own before the
    last. -/
def joinSeries {α : Type} (separator lastSeparator : List α) : List (List α) → List α
  | [] => []
  | [part] => part
  | [part, last] => part ++ lastSeparator ++ last
  | part :: parts => part ++ separator ++ joinSeries separator lastSeparator parts

/-- A series, told by how many parts there are. Of two or more parts, the last has its own
    separator before it, and each of those between it and the first has the other one. -/
inductive Series {α : Type} (separator lastSeparator : List α) : List (List α) → List α → Prop where
  | none : Series separator lastSeparator [] []
  | one (part : List α) : Series separator lastSeparator [part] part
  | more (first : List α) (between : List (List α)) (last : List α) :
      Series separator lastSeparator (first :: between ++ [last])
        (first ++ between.flatMap (separator ++ ·) ++ lastSeparator ++ last)

theorem joinSeries_cons_concat {α : Type} (separator lastSeparator : List α) (first : List α)
    (between : List (List α)) (last : List α) :
    joinSeries separator lastSeparator (first :: between ++ [last]) =
      first ++ between.flatMap (separator ++ ·) ++ lastSeparator ++ last := by
  induction between generalizing first with
  | nil => simp [joinSeries]
  | cons next between ih =>
    have step : joinSeries separator lastSeparator (first :: next :: between ++ [last]) =
        first ++ separator ++ joinSeries separator lastSeparator (next :: between ++ [last]) := by
      cases between <;> rfl
    rw [step, ih]
    simp

/-- Joined parts make a series. -/
theorem series_joinSeries {α : Type} (separator lastSeparator : List α) (parts : List (List α)) :
    Series separator lastSeparator parts (joinSeries separator lastSeparator parts) := by
  cases parts with
  | nil => exact .none
  | cons first rest =>
    rcases List.eq_nil_or_concat rest with rfl | ⟨between, last, rfl⟩
    · exact .one first
    · rw [List.concat_eq_append, ← List.cons_append, joinSeries_cons_concat]
      exact .more first between last

/-- There is one text only that a series of parts makes. -/
theorem Series.eq_joinSeries {α : Type} {separator lastSeparator : List α} {parts : List (List α)}
    {text : List α} (series : Series separator lastSeparator parts text) :
    text = joinSeries separator lastSeparator parts := by
  cases series with
  | none => rfl
  | one part => rfl
  | more first between last => rw [joinSeries_cons_concat]

end ChatMarkup.Text
