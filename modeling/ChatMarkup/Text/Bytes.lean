/-
  ChatMarkup/Text/Bytes.lean
  ==========================
  **Lengths in bytes** — offsets in formulas and the lengths of the parts of a locale
  tag are counted in bytes of UTF-8.
-/

namespace ChatMarkup.Text

def byteLength : List Char → Nat
  | [] => 0
  | c :: text => c.utf8Size + byteLength text

@[simp] theorem byteLength_nil : byteLength [] = 0 := rfl

@[simp] theorem byteLength_append (a b : List Char) :
    byteLength (a ++ b) = byteLength a + byteLength b := by
  induction a with
  | nil => simp
  | cons c a ih => rw [List.cons_append, byteLength, byteLength, ih, Nat.add_assoc]

end ChatMarkup.Text
