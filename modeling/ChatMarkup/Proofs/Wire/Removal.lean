/-
  ChatMarkup/Proofs/Wire/Removal.lean
  ===================================
  **What the clean-up takes away** — on any text, rendered or not.

  Every rule takes away characters that colour sequences are written with (`isColorSyntax`),
  and besides at most one double bold toggle, the two next to one another.  A sweep
  therefore `Thins` a text, and what thinning leaves alone, any number of sweeps leaves
  alone: the order of the characters, whether bold is on, and everything that has no part in
  colours (`undisturbed_cleanUp`).

  One sweep alone does not say what several do: the two toggles of a pair may have been
  brought together by an earlier sweep, so texts are not thinned transitively.  Their
  parity, which `Undisturbed` speaks of, is transitive.
-/
import ChatMarkup.Proofs.Wire.Surviving
import Mathlib.Data.List.Basic

namespace ChatMarkup.Wire

def isColorSyntax (c : Char) : Bool := c == color || c == ',' || c.isDigit

theorem isColorSyntax_of_isDigit {c : Char} (h : c.isDigit = true) : isColorSyntax c = true := by
  simp [isColorSyntax, h]

/-! ### What a reduction takes away -/

theorem isDigit_of_mem_codeChoices {text : List Char} {choice : List Char × List Char}
    (h : choice ∈ codeChoices text) : ∀ c ∈ choice.1, c.isDigit = true := by
  unfold codeChoices at h
  split at h
  · split at h
    · rename_i digits
      rw [Bool.and_eq_true] at digits
      rcases List.mem_pair.mp h with rfl | rfl
      · intro c member
        rcases List.mem_pair.mp member with rfl | rfl
        · exact digits.1
        · exact digits.2
      · simp
    · rw [List.mem_singleton.mp h]
      simp
  · rw [List.mem_singleton.mp h]
    simp

theorem eq_of_mem_paddingChoices {text rest : List Char} (h : rest ∈ paddingChoices text) :
    text = rest ∨ text = padding ++ rest := by
  unfold paddingChoices at h
  split at h
  · split at h
    · rename_i both
      rcases both with ⟨rfl, rfl⟩
      rcases List.mem_pair.mp h with rfl | rfl
      · exact Or.inr rfl
      · exact Or.inl rfl
    · exact Or.inl (List.mem_singleton.mp h).symm
  · exact Or.inl (List.mem_singleton.mp h).symm

/-- What a reduction at a colour character keeps, what it takes away (characters of the
    sequence, then perhaps padding) and what is left. -/
structure Removes (text : List Char) (reduction : Reduction) (codes pad : List Char) : Prop where
  whole : color :: text = reduction.kept ++ (codes ++ (pad ++ reduction.rest))
  keeps : ∀ c ∈ reduction.kept, isColorSyntax c = true
  drops : ∀ c ∈ codes, isColorSyntax c = true
  unpads : pad = [] ∨ pad = padding
  shortens : 2 ≤ codes.length + pad.length

variable {text : List Char} {reduction : Reduction}

theorem removes_of_emptyBackground? (h : emptyBackground? text = some reduction) :
    Removes text reduction [color, ','] [] := by
  unfold emptyBackground? at h
  split at h
  · split at h
    · cases h
    · cases h
      refine ⟨rfl, by simp, ?_, Or.inl rfl, by simp⟩
      intro c member
      rcases List.mem_pair.mp member with rfl | rfl <;> decide
  · cases h

theorem exists_of_overriddenBackground? {rest : List Char}
    (h : overriddenBackground? text = some rest) :
    ∃ code pad, text = code ++ (pad ++ rest) ∧ (∀ c ∈ code, c.isDigit = true) ∧
      (pad = [] ∨ pad = padding) := by
  unfold overriddenBackground? at h
  obtain ⟨choice, member, found⟩ := List.exists_of_findSome?_eq_some h
  have digits := isDigit_of_mem_codeChoices member
  rcases eq_of_mem_paddingChoices (List.mem_of_find?_eq_some found) with e | e
  · exact ⟨choice.1, [], by rw [← codeChoices_append member, e]; rfl, digits, Or.inl rfl⟩
  · exact ⟨choice.1, padding, by rw [← codeChoices_append member, e], digits, Or.inr rfl⟩

theorem removes_of_overridden? (h : overridden? text = some reduction) :
    ∃ codes pad, Removes text reduction codes pad := by
  unfold overridden? at h
  obtain ⟨choice, member, found⟩ := List.exists_of_findSome?_eq_some h
  have digits := isDigit_of_mem_codeChoices member
  split at found
  · rename_i rest e
    obtain ⟨rest', found', rfl⟩ := Option.map_eq_some_iff.mp found
    obtain ⟨code, pad, rfl, digits', paddings⟩ := exists_of_overriddenBackground? found'
    -- the whole sequence is dropped, with its codes and perhaps its padding; nothing is kept
    refine ⟨color :: choice.1 ++ ',' :: code, pad, ?_, by simp, ?_, paddings, by simp; omega⟩
    · rw [← codeChoices_append member, e]
      simp
    · intro c h
      simp only [List.cons_append, List.mem_cons, List.mem_append] at h
      rcases h with rfl | h | rfl | h
      · rfl
      · exact isColorSyntax_of_isDigit (digits c h)
      · rfl
      · exact isColorSyntax_of_isDigit (digits' c h)
  · cases found

theorem removes_of_paddedComma? (h : paddedComma? text = some reduction) :
    Removes text reduction [] padding := by
  unfold paddedComma? at h
  obtain ⟨choice, member, found⟩ := List.exists_of_findSome?_eq_some h
  have digits := isDigit_of_mem_codeChoices member
  split at found
  · rename_i a b rest e
    split at found
    · rename_i cond
      rcases cond with ⟨rfl, rfl, -⟩
      cases found
      refine ⟨?_, ?_, by simp, Or.inr rfl, by simp [padding]⟩
      · rw [← codeChoices_append member, e]
        simp [padding]
      · intro c h
        simp only [List.cons_append, List.mem_cons, List.mem_append, List.not_mem_nil,
          or_false] at h
        rcases h with rfl | h | rfl
        · rfl
        · exact isColorSyntax_of_isDigit (digits c h)
        · rfl
    · cases found
  · cases found

theorem removes_of_paddedForeground? (h : paddedForeground? text = some reduction) :
    Removes text reduction [] padding := by
  unfold paddedForeground? at h
  split at h
  · split at h
    · rename_i cond
      rcases cond with ⟨first, second, rfl, rfl, -⟩
      cases h
      refine ⟨rfl, ?_, by simp, Or.inr rfl, by simp [padding]⟩
      intro c member
      rcases List.mem_cons.mp member with rfl | member
      · rfl
      · rcases List.mem_pair.mp member with rfl | rfl
        · exact isColorSyntax_of_isDigit first
        · exact isColorSyntax_of_isDigit second
    · cases h
  · cases h

/-- **What the rules take away.** -/
theorem removes_of_reduce? (h : reduce? text = some reduction) :
    ∃ codes pad, Removes text reduction codes pad := by
  simp only [reduce?, Option.orElse_eq_orElse, Option.orElse_eq_or, Option.or_eq_some_iff] at h
  rcases h with h | ⟨-, h | ⟨-, h | ⟨-, h⟩⟩⟩
  · exact ⟨_, _, removes_of_emptyBackground? h⟩
  · exact removes_of_overridden? h
  · exact ⟨_, _, removes_of_paddedComma? h⟩
  · exact ⟨_, _, removes_of_paddedForeground? h⟩

/-! ### Thinning -/

/-- A text becomes another one if characters of colour sequences and double bold toggles are
    dropped here and there. -/
inductive Thins : List Char → List Char → Prop where
  | nil : Thins [] []
  | keep {a b} (c : Char) (rest : Thins a b) : Thins (c :: a) (c :: b)
  | code {a b} {c : Char} (h : isColorSyntax c = true) (rest : Thins a b) : Thins (c :: a) b
  | toggles {a b} (rest : Thins a b) : Thins (padding ++ a) b

theorem Thins.keepAll {a b : List Char} (rest : Thins a b) (kept : List Char) :
    Thins (kept ++ a) (kept ++ b) := by
  induction kept with
  | nil => exact rest
  | cons c kept ih => exact .keep c ih

theorem Thins.codes {a b codes : List Char} (rest : Thins a b)
    (h : ∀ c ∈ codes, isColorSyntax c = true) : Thins (codes ++ a) b := by
  induction codes with
  | nil => exact rest
  | cons c codes ih =>
    obtain ⟨first, others⟩ := List.forall_mem_cons.mp h
    exact .code first (ih others)

theorem Removes.thins {codes pad swept : List Char} (h : Removes text reduction codes pad)
    (rest : Thins reduction.rest swept) : Thins (color :: text) (reduction.kept ++ swept) := by
  have padded : Thins (pad ++ reduction.rest) swept := by
    rcases h.unpads with rfl | rfl
    · exact rest
    · exact .toggles rest
  rw [h.whole]
  exact (padded.codes h.drops).keepAll reduction.kept

/-- **A sweep only thins a text.** -/
theorem thins_sweep (text : List Char) : Thins text (sweep text) := by
  fun_induction sweep text with
  | case1 => exact .nil
  | case2 tail reduction reduced ih =>
    obtain ⟨codes, pad, removes⟩ := removes_of_reduce? reduced
    exact removes.thins ih
  | case3 tail _ ih => exact .keep color ih
  | case4 c tail _ ih => exact .keep c ih

/-! ### What is left alone -/

/-- The characters that have no part in colours, each with the parity of the bold toggles
    before it; `toggles` counts those that came earlier. -/
def bystanders (toggles : Nat) : List Char → List (Char × Nat)
  | [] => []
  | c :: text =>
    if c = bold then bystanders (toggles + 1) text
    else if isColorSyntax c then bystanders toggles text
    else (c, toggles % 2) :: bystanders toggles text

/-- Only the parity of earlier toggles matters. -/
theorem bystanders_add_two (toggles : Nat) (text : List Char) :
    bystanders (toggles + 2) text = bystanders toggles text := by
  induction text generalizing toggles with
  | nil => rfl
  | cons c text ih =>
    unfold bystanders
    rw [Nat.add_right_comm, ih, ih, Nat.add_mod_right]

/-- A text keeps its order, the parity of its bold toggles, and for everything that has no
    part in colours whether it is bold. -/
structure Undisturbed (before after : List Char) : Prop where
  sublist : after.Sublist before
  toggles : ∃ pairs, before.count bold = after.count bold + 2 * pairs
  bystanders : ∀ toggles, bystanders toggles after = bystanders toggles before

namespace Undisturbed

theorem refl (text : List Char) : Undisturbed text text :=
  ⟨List.Sublist.refl text, ⟨0, rfl⟩, fun _ => rfl⟩

theorem trans {a b c : List Char} (first : Undisturbed a b) (second : Undisturbed b c) :
    Undisturbed a c := by
  obtain ⟨pairs, counted⟩ := first.toggles
  obtain ⟨pairs', counted'⟩ := second.toggles
  refine ⟨second.sublist.trans first.sublist, ⟨pairs + pairs', by omega⟩, ?_⟩
  intro toggles
  rw [second.bystanders, first.bystanders]

theorem of_thins {a b : List Char} (h : Thins a b) : Undisturbed a b := by
  induction h with
  | nil => exact refl []
  | keep c _ ih =>
    obtain ⟨pairs, counted⟩ := ih.toggles
    refine ⟨ih.sublist.cons_cons c, ⟨pairs, ?_⟩, ?_⟩
    · rw [List.count_cons, List.count_cons, counted]
      omega
    · intro toggles
      simp only [Wire.bystanders, ih.bystanders]
  | @code _ _ c syn _ ih =>
    have notBold : c ≠ bold := by
      rintro rfl
      cases syn
    refine ⟨ih.sublist.cons c, ?_, ?_⟩
    · rw [List.count_cons_of_ne notBold]
      exact ih.toggles
    · intro toggles
      rw [Wire.bystanders, if_neg notBold, if_pos syn, ih.bystanders]
  -- two toggles more or less leave the parity of those behind them as it was
  | toggles _ ih =>
    obtain ⟨pairs, counted⟩ := ih.toggles
    refine ⟨ih.sublist.trans (List.sublist_append_right _ _), ⟨pairs + 1, ?_⟩, ?_⟩
    · simp only [padding, List.cons_append, List.nil_append, List.count_cons_self, counted]
      omega
    · intro toggles
      simp only [padding, List.cons_append, List.nil_append, Wire.bystanders, if_pos]
      rw [bystanders_add_two, ih.bystanders]

end Undisturbed

theorem undisturbed_cleanUp (text : List Char) : Undisturbed text (cleanUp text) := by
  fun_induction cleanUp text with
  | case1 text next shorter ih => exact (Undisturbed.of_thins (thins_sweep text)).trans ih
  | case2 text next same => exact .refl text

/-- **Cleaning up touches only colours.** On any text it leaves some of the characters in
    their order, takes away an even number of bold toggles, and loses nothing that has no
    part in colours, nor whether it is bold. -/
theorem bystanders_cleanUp (text : List Char) :
    (cleanUp text).Sublist text ∧
      (∃ pairs, text.count bold = (cleanUp text).count bold + 2 * pairs) ∧
      bystanders 0 (cleanUp text) = bystanders 0 text := by
  have undisturbed := undisturbed_cleanUp text
  exact ⟨undisturbed.sublist, undisturbed.toggles, undisturbed.bystanders 0⟩

/-! ### How much a sweep takes away -/

theorem Removes.length_le {codes pad : List Char} (h : Removes text reduction codes pad) :
    reduction.kept.length + reduction.rest.length + 1 ≤ text.length := by
  have whole := congrArg List.length h.whole
  have shortens := h.shortens
  simp only [List.length_cons, List.length_append] at whole
  omega

/-- A sweep that changes a text takes away two characters at least. -/
theorem settled_or_length_le (text : List Char) :
    Settled text ∨ (sweep text).length + 2 ≤ text.length := by
  fun_induction sweep text with
  | case1 => exact Or.inl settled_nil
  -- what a rule takes away has two characters at least, whatever the rest of the sweep does
  | case2 tail reduction reduced ih =>
    obtain ⟨codes, pad, removes⟩ := removes_of_reduce? reduced
    have shorter := removes.length_le
    have rest := sweep_length_le reduction.rest
    right
    simp only [List.length_append, List.length_cons]
    omega
  | case3 tail stays ih =>
    rcases ih with settled | shorter
    · exact Or.inl (settled.color_cons stays)
    · exact Or.inr (Nat.succ_le_succ shorter)
  | case4 c tail notColor ih =>
    rcases ih with settled | shorter
    · exact Or.inl (settled.cons notColor)
    · exact Or.inr (Nat.succ_le_succ shorter)

theorem sweep_of_settled (h : Settled text) : sweep text = text := by
  fun_induction sweep text with
  | case1 => rfl
  | case2 tail reduction reduced _ =>
    rw [reduce?_none_of_settled h] at reduced
    cases reduced
  | case3 tail _ ih => rw [ih h.tail]
  | case4 c tail _ ih => rw [ih h.tail]

/-- Cleaning up leaves a settled text as it is. -/
theorem cleanUp_of_settled (h : Settled text) : cleanUp text = text := by
  rw [cleanUp, sweep_of_settled h]
  exact if_neg (Nat.lt_irrefl _)

/-- What cleaning up leaves alone is what no rule applies to. -/
theorem cleanUp_eq_self_iff : cleanUp text = text ↔ Settled text := by
  refine ⟨fun same => ?_, cleanUp_of_settled⟩
  rw [← same]
  exact settled_cleanUp text

end ChatMarkup.Wire
