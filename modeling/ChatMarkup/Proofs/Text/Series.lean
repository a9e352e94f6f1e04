/-
  ChatMarkup/Proofs/Text/Series.lean
  ==================================
  **Series are read in one way** — the parts of a series can be told from its text, if the
  two separators begin with different characters and a part can be told from what follows it
  (`joinSeries_inj`).

  A part need not be free of the separators for that: it is enough that of two parts that a
  text begins with, in front of a separator or the end, neither is longer.
-/
import ChatMarkup.Text.Segments

namespace ChatMarkup.Text

variable {α : Type} {separator lastSeparator : List α} {s l : α} {parts parts' : List (List α)}

def behindFirst (separator lastSeparator : List α) : List (List α) → List α
  | [] => []
  | [last] => lastSeparator ++ last
  | next :: parts => separator ++ (next ++ behindFirst separator lastSeparator parts)

theorem joinSeries_cons (part : List α) (parts : List (List α)) :
    joinSeries separator lastSeparator (part :: parts) =
      part ++ behindFirst separator lastSeparator parts := by
  induction parts generalizing part with
  | nil => exact (List.append_nil part).symm
  | cons next parts ih =>
    cases parts with
    | nil => exact List.append_assoc ..
    | cons last parts =>
      have step : joinSeries separator lastSeparator (part :: next :: last :: parts) =
          part ++ separator ++ joinSeries separator lastSeparator (next :: last :: parts) := rfl
      rw [step, ih next, List.append_assoc]
      rfl

theorem head?_behindFirst (parts : List (List α)) :
    ∀ c ∈ (behindFirst (s :: separator) (l :: lastSeparator) parts).head?, c = s ∨ c = l := by
  intro c first
  match parts with
  | [] => cases first
  | [_] =>
    cases first
    exact Or.inr rfl
  | _ :: _ :: _ =>
    cases first
    exact Or.inl rfl

/-- Of the texts that a text can begin with in front of one of two characters or the end, only
    one is in the class. -/
def ToldApart (s l : α) (P : List α → Prop) : Prop :=
  ∀ {part part' rest rest' : List α}, P part → P part' → (∀ c ∈ rest.head?, c = s ∨ c = l) →
    (∀ c ∈ rest'.head?, c = s ∨ c = l) → part ++ rest = part' ++ rest' →
      part = part' ∧ rest = rest'

section
variable {P : List α → Prop} (apart : ToldApart s l P) (distinct : s ≠ l)
include apart distinct

theorem behindFirst_inj (each : ∀ part ∈ parts, P part) (each' : ∀ part ∈ parts', P part)
    (same : behindFirst (s :: separator) (l :: lastSeparator) parts =
      behindFirst (s :: separator) (l :: lastSeparator) parts') : parts = parts' := by
  induction parts generalizing parts' with
  | nil =>
    match parts', same with
    | [], _ => rfl
    | [_], same => cases same
    | _ :: _ :: _, same => cases same
  | cons next parts ih =>
    -- where only one of the two goes on behind the next part, the separators differ
    match parts, parts', same with
    | [], [], same => cases same
    | _ :: _, [], same => cases same
    | [], _ :: _ :: _, same => exact absurd (List.cons.inj same).1 distinct.symm
    | _ :: _, [_], same => exact absurd (List.cons.inj same).1 distinct
    | [], [last], same => rw [List.append_cancel_left same]
    | part :: parts, next' :: part' :: parts', same =>
      obtain ⟨first, others⟩ := List.forall_mem_cons.mp each
      obtain ⟨first', others'⟩ := List.forall_mem_cons.mp each'
      have behind := List.append_cancel_left same
      obtain ⟨rfl, rest⟩ := apart first first' (head?_behindFirst _) (head?_behindFirst _) behind
      rw [ih others others' rest]

/-- **Series are read in one way.** -/
theorem joinSeries_inj (solid : ¬P []) (each : ∀ part ∈ parts, P part)
    (each' : ∀ part ∈ parts', P part)
    (same : joinSeries (s :: separator) (l :: lastSeparator) parts =
      joinSeries (s :: separator) (l :: lastSeparator) parts') : parts = parts' := by
  have filled {part : List α} {more : List (List α)} (each : ∀ text ∈ part :: more, P text) :
      joinSeries (s :: separator) (l :: lastSeparator) (part :: more) ≠ [] := by
    rw [joinSeries_cons]
    intro empty
    rw [(List.append_eq_nil_iff.mp empty).1] at each
    exact solid (each [] List.mem_cons_self)
  -- no part is empty, so a text tells whether there is a part at all
  match parts, parts', same with
  | [], [], _ => rfl
  | [], _ :: _, same => exact absurd same.symm (filled each')
  | _ :: _, [], same => exact absurd same (filled each)
  | part :: parts, part' :: parts', same =>
    rw [joinSeries_cons, joinSeries_cons] at same
    obtain ⟨first, others⟩ := List.forall_mem_cons.mp each
    obtain ⟨first', others'⟩ := List.forall_mem_cons.mp each'
    obtain ⟨rfl, rest⟩ := apart first first' (head?_behindFirst _) (head?_behindFirst _) same
    rw [behindFirst_inj apart distinct others others' rest]

end

end ChatMarkup.Text
