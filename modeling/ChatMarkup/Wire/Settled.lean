/-
  ChatMarkup/Wire/Settled.lean
  ============================
  **Settled text** — text in which no colour character is left at which a rule of the
  clean-up applies.
-/
import ChatMarkup.Wire.Cleanup

namespace ChatMarkup.Wire

def Settled (text : List Char) : Prop :=
  ∀ before behind, text = before ++ color :: behind → reduce? behind = none

theorem settled_nil : Settled [] := by
  intro before behind h
  cases before <;> cases h

theorem Settled.color_cons {text : List Char} (h : Settled text) (stays : reduce? text = none) :
    Settled (color :: text) := by
  rintro (_ | ⟨c, before⟩) behind e
  · cases e
    exact stays
  · cases e
    exact h before behind rfl

theorem Settled.cons {c : Char} {text : List Char} (h : Settled text) (notColor : c ≠ color) :
    Settled (c :: text) := by
  rintro (_ | ⟨d, before⟩) behind e
  · cases e
    exact absurd rfl notColor
  · cases e
    exact h before behind rfl

theorem Settled.tail {c : Char} {text : List Char} (h : Settled (c :: text)) : Settled text := by
  intro before behind e
  exact h (c :: before) behind (by rw [e]; rfl)

/-- Without colour characters there is nothing to clean up. -/
theorem settled_of_color_not_mem {text : List Char} (h : color ∉ text) : Settled text := by
  rintro before behind rfl
  exact absurd (by simp) h

end ChatMarkup.Wire
