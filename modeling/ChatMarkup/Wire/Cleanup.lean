/-
  ChatMarkup/Wire/Cleanup.lean
  ============================
  **Cleaning up colour sequences** — the removal of what a client does not need from
  rendered text. At a colour character the first rule that applies is carried out:

  1. `C,` followed by neither `0` nor `1` is dropped;
  2. a sequence `C`, optional code, `,`, optional code, optional padding that another
     colour character follows directly is dropped;
  3. padding behind `C`, optional code, `,` is dropped where no digit follows it;
  4. padding behind `C` and a code is dropped where no comma follows it.

  Here `C` is the colour character, a code is two digits, and an optional part is taken
  if the rule can succeed with it. A sweep goes over the text once and does not look
  again at what it has produced; sweeps are repeated as long as the text gets shorter.
-/
import ChatMarkup.Style.Basic

namespace ChatMarkup.Wire

/-- What a rule keeps of a sequence, and the text behind the sequence. -/
structure Reduction where
  kept : List Char
  rest : List Char
  deriving DecidableEq, Repr

/-- The ways to take an optional code from the front of a text: what is taken and what is
    left, the longer way first. -/
def codeChoices : List Char → List (List Char × List Char)
  | a :: b :: rest =>
    if a.isDigit && b.isDigit then [([a, b], rest), ([], a :: b :: rest)]
    else [([], a :: b :: rest)]
  | text => [([], text)]

/-- The ways to take optional padding from the front of a text, by what is left. -/
def paddingChoices : List Char → List (List Char)
  | a :: b :: rest =>
    if a = bold ∧ b = bold then [rest, a :: b :: rest] else [a :: b :: rest]
  | text => [text]

def startsWith (p : Char → Bool) : List Char → Bool
  | [] => false
  | c :: _ => p c

/-! ### The four rules, given the text behind the colour character -/

/-- Rule 1: a comma that no background code can follow. -/
def emptyBackground? : List Char → Option Reduction
  | ',' :: rest => if startsWith (fun c => c == '0' || c == '1') rest then none else some ⟨[], rest⟩
  | _ => none

/-- Rule 2, once the comma has been read: the text from the next colour character on. -/
def overriddenBackground? (text : List Char) : Option (List Char) :=
  (codeChoices text).findSome? fun choice =>
    (paddingChoices choice.2).find? (startsWith (· == color))

/-- Rule 2: a sequence that another one follows directly. -/
def overridden? (text : List Char) : Option Reduction :=
  (codeChoices text).findSome? fun choice =>
    match choice.2 with
    | ',' :: rest => (overriddenBackground? rest).map fun rest => ⟨[], rest⟩
    | _ => none

/-- Rule 3: padding behind a comma, with no digit after it. -/
def paddedComma? (text : List Char) : Option Reduction :=
  (codeChoices text).findSome? fun choice =>
    match choice.2 with
    | ',' :: a :: b :: rest =>
      -- with the padding gone a digit would be read as a part of the background
      if a = bold ∧ b = bold ∧ startsWith Char.isDigit rest = false then
        some ⟨color :: choice.1 ++ [','], rest⟩
      else none
    | _ => none

/-- Rule 4: padding behind a foreground code, with no comma after it. -/
def paddedForeground? : List Char → Option Reduction
  | a :: b :: c :: d :: rest =>
    -- with the padding gone a comma would announce a background
    if a.isDigit = true ∧ b.isDigit = true ∧ c = bold ∧ d = bold ∧
        startsWith (· == ',') rest = false then
      some ⟨[color, a, b], rest⟩
    else none
  | _ => none

def reduce? (text : List Char) : Option Reduction :=
  emptyBackground? text <|> overridden? text <|> paddedComma? text <|> paddedForeground? text

/-! ### What a reduction leaves -/

theorem codeChoices_append {text : List Char} {choice : List Char × List Char}
    (h : choice ∈ codeChoices text) : choice.1 ++ choice.2 = text := by
  unfold codeChoices at h
  split at h
  · split at h
    · simp only [List.mem_cons, List.not_mem_nil, or_false] at h
      rcases h with rfl | rfl <;> rfl
    · simp only [List.mem_cons, List.not_mem_nil, or_false] at h
      subst h; rfl
  · simp only [List.mem_cons, List.not_mem_nil, or_false] at h
    subst h; rfl

theorem paddingChoices_length {text rest : List Char} (h : rest ∈ paddingChoices text) :
    rest.length ≤ text.length := by
  unfold paddingChoices at h
  split at h
  · split at h
    · simp only [List.mem_cons, List.not_mem_nil, or_false] at h
      rcases h with rfl | rfl <;> simp; omega
    · simp only [List.mem_cons, List.not_mem_nil, or_false] at h
      subst h; simp
  · simp only [List.mem_cons, List.not_mem_nil, or_false] at h
    subst h; simp

theorem overriddenBackground?_length {text rest : List Char}
    (h : overriddenBackground? text = some rest) : rest.length ≤ text.length := by
  unfold overriddenBackground? at h
  obtain ⟨choice, member, found⟩ := List.exists_of_findSome?_eq_some h
  have whole := congrArg List.length (codeChoices_append member)
  have shorter := paddingChoices_length (List.mem_of_find?_eq_some found)
  rw [List.length_append] at whole
  omega

/-- A reduction makes the text shorter: what it keeps and what follows are together no
    longer than the text behind the colour character. -/
theorem reduce?_length {text : List Char} {reduction : Reduction}
    (h : reduce? text = some reduction) :
    reduction.kept.length + reduction.rest.length ≤ text.length := by
  simp only [reduce?, Option.orElse_eq_orElse, Option.orElse_eq_or, Option.or_eq_some_iff] at h
  rcases h with h | ⟨-, h | ⟨-, h | ⟨-, h⟩⟩⟩
  · unfold emptyBackground? at h
    split at h
    · split at h <;> cases h
      simp
    · cases h
  · unfold overridden? at h
    obtain ⟨choice, member, found⟩ := List.exists_of_findSome?_eq_some h
    have whole := congrArg List.length (codeChoices_append member)
    rw [List.length_append] at whole
    split at found
    · rename_i rest e
      rw [e, List.length_cons] at whole
      obtain ⟨rest', e', rfl⟩ := Option.map_eq_some_iff.mp found
      have := overriddenBackground?_length e'
      simp only [List.length_nil]
      omega
    · cases found
  · unfold paddedComma? at h
    obtain ⟨choice, member, found⟩ := List.exists_of_findSome?_eq_some h
    have whole := congrArg List.length (codeChoices_append member)
    rw [List.length_append] at whole
    split at found
    · rename_i a b rest e
      rw [e] at whole
      split at found
      · cases found
        simp only [List.length_cons, List.length_append, List.length_nil] at whole ⊢
        omega
      · cases found
    · cases found
  · unfold paddedForeground? at h
    split at h
    · split at h <;> cases h
      simp only [List.length_cons, List.length_nil]
      omega
    · cases h

/-! ### Sweeps -/

def sweep (text : List Char) : List Char :=
  match text with
  | [] => []
  | c :: tail =>
    if c = color then
      match _h : reduce? tail with
      | some reduction => reduction.kept ++ sweep reduction.rest
      | none => c :: sweep tail
    else c :: sweep tail
termination_by text.length
decreasing_by
  · have := reduce?_length _h
    simp only [List.length_cons]
    omega
  · simp
  · simp

/-- The text without redundant colour sequences. -/
def cleanUp (text : List Char) : List Char :=
  let next := sweep text
  -- a sweep that changes anything makes the text shorter
  if next.length < text.length then cleanUp next else text
termination_by text.length

theorem sweep_length_le (text : List Char) : (sweep text).length ≤ text.length := by
  fun_induction sweep text with
  | case1 => simp
  | case2 tail reduction h ih =>
    have := reduce?_length h
    simp only [List.length_append, List.length_cons]
    omega
  | case3 => simpa
  | case4 => simpa

end ChatMarkup.Wire
