/-
  ChatMarkup/Proofs/Wire/Offset.lean
  ==================================
  **Cleaning up by offset comes to an end** — the passes over the octets of a text are the
  sweeps over its characters, and stop at a text that is settled.

  The rules look for ASCII characters only.  What they ask at an offset they ask of the text
  behind it (`Behind`), so a rule applies at an offset when it applies to that text
  (`rewriteAt?_eq`), and the places where it begins and ends stand between characters.
-/
import ChatMarkup.Proofs.Wire.Removal
import ChatMarkup.Wire.Offset
import Mathlib.Data.List.Find

namespace ChatMarkup.Wire

open Text (octets byteLength hasAt isAscii part? Behind IsAsciiClass)

variable {all : List UInt8} {offset start : Nat} {text : List Char}

/-! ### Asking at an offset -/

theorem isAsciiClass_isDigit : IsAsciiClass Char.isDigit := by
  intro c h
  exact Nat.lt_of_le_of_lt (Char.isDigit_iff_toNat.mp h).2 (by decide)

theorem isAsciiClass_beq {c : Char} (ascii : c.toNat < 128) : IsAsciiClass (· == c) := by
  intro d h
  rw [beq_iff_eq.mp h]
  exact ascii

theorem hasAt_eq_startsWith {p : Char → Bool} (narrow : IsAsciiClass p)
    (h : Behind all offset text) : hasAt p all offset = startsWith p text := by
  rw [h.hasAt_eq narrow]
  cases text <;> rfl

theorem startsWith_cons (p : Char → Bool) (c : Char) (rest : List Char) :
    startsWith p (c :: rest) = p c := rfl

/-- Two characters in a row, asked for at an offset. -/
theorem hasAt_and_hasAt {p : Char → Bool} (narrow : IsAsciiClass p) (h : Behind all offset text) :
    (hasAt p all offset && hasAt p all (offset + 1)) =
      (startsWith p text && startsWith p text.tail) := by
  rw [hasAt_eq_startsWith narrow h]
  cases text with
  | nil => rfl
  | cons c rest =>
    by_cases first : p c = true
    · rw [hasAt_eq_startsWith narrow (h.next (narrow c first))]
      rfl
    · simp [startsWith, first]

theorem hasAt_comma (h : Behind all offset text) :
    hasAt (· == ',') all offset = startsWith (· == ',') text :=
  hasAt_eq_startsWith (isAsciiClass_beq (by decide)) h

theorem hasAt_color (h : Behind all offset text) :
    hasAt (· == color) all offset = startsWith (· == color) text :=
  hasAt_eq_startsWith (isAsciiClass_beq (by decide)) h

theorem hasAt_isDigit (h : Behind all offset text) :
    hasAt Char.isDigit all offset = startsWith Char.isDigit text :=
  hasAt_eq_startsWith isAsciiClass_isDigit h

theorem hasCodeAt_eq (h : Behind all offset text) :
    hasCodeAt all offset = (startsWith Char.isDigit text && startsWith Char.isDigit text.tail) :=
  hasAt_and_hasAt isAsciiClass_isDigit h

theorem exists_of_hasCodeAt (h : Behind all offset text) (code : hasCodeAt all offset = true) :
    ∃ a b rest, text = a :: b :: rest ∧ a.isDigit = true ∧ b.isDigit = true ∧
      Behind all (offset + 2) rest := by
  rw [hasCodeAt_eq h] at code
  match text with
  | [] => cases code
  | [a] => simp [startsWith] at code
  | a :: b :: rest =>
    obtain ⟨first, second⟩ := (Bool.and_eq_true _ _).mp code
    have behind := (h.next (isAsciiClass_isDigit a first)).next (isAsciiClass_isDigit b second)
    exact ⟨a, b, rest, rfl, first, second, behind⟩

theorem hasPaddingAt_eq (h : Behind all offset text) :
    hasPaddingAt all offset = (startsWith (· == bold) text && startsWith (· == bold) text.tail) :=
  hasAt_and_hasAt (isAsciiClass_beq (by decide)) h

theorem hasPaddingAt_of_padding {rest : List Char} (h : Behind all offset (padding ++ rest)) :
    hasPaddingAt all offset = true ∧ Behind all (offset + 2) rest :=
  ⟨hasPaddingAt_eq h, h.append⟩

theorem hasPaddingAt_of_ne (h : Behind all offset text) (other : ∀ rest, text ≠ padding ++ rest) :
    hasPaddingAt all offset = false := by
  rw [hasPaddingAt_eq h]
  match text with
  | [] => rfl
  | [a] => simp [startsWith]
  | a :: b :: rest =>
    rw [Bool.eq_false_iff]
    intro both
    simp only [startsWith, List.tail_cons, Bool.and_eq_true, beq_iff_eq] at both
    rcases both with ⟨rfl, rfl⟩
    exact other rest rfl

/-! ### Optional parts -/

theorem optional_hasCodeAt (h : Behind all offset text) :
    optional (hasCodeAt all offset) = (codeChoices text).map fun choice => choice.1.length := by
  rw [hasCodeAt_eq h]
  match text with
  | [] => rfl
  | [a] => simp [startsWith, codeChoices, optional]
  | a :: b :: rest =>
    simp only [startsWith, List.tail_cons, codeChoices]
    split <;> rename_i both
    · rw [both]; rfl
    · rw [Bool.not_eq_true] at both
      rw [both]; rfl

theorem optional_hasPaddingAt (h : Behind all offset text) :
    optional (hasPaddingAt all offset) =
      (paddingChoices text).map fun rest => text.length - rest.length := by
  rw [hasPaddingAt_eq h]
  match text with
  | [] => rfl
  | [a] => simp [startsWith, paddingChoices, optional]
  | a :: b :: rest =>
    by_cases both : a = bold ∧ b = bold
    · simp only [startsWith, paddingChoices, optional, both, List.tail_cons, and_self, if_true,
        List.map_cons, List.map_nil, List.length_cons, Nat.sub_self, beq_self_eq_true, Bool.and_self]
      rw [Nat.add_assoc, Nat.add_sub_cancel_left]
    · rcases not_and_or.mp both with other | other <;>
        simp [startsWith, paddingChoices, optional, other]

theorem behind_code (h : Behind all offset text) {choice : List Char × List Char}
    (member : choice ∈ codeChoices text) : Behind all (offset + choice.1.length) choice.2 := by
  have ascii : ∀ c ∈ choice.1, c.toNat < 128 := by
    intro c inside
    exact isAsciiClass_isDigit c (isDigit_of_mem_codeChoices member c inside)
  rw [← codeChoices_append member] at h
  rw [← Text.byteLength_of_ascii ascii]
  exact h.append

theorem behind_padding (h : Behind all offset text) {rest : List Char}
    (member : rest ∈ paddingChoices text) :
    Behind all (offset + (text.length - rest.length)) rest := by
  rcases eq_of_mem_paddingChoices member with rfl | rfl
  · rwa [Nat.sub_self]
  · rw [List.length_append, Nat.add_sub_cancel_right]
    exact h.append

/-! ### Rules -/

/-- The rewrite that a reduction is, where `text` stands behind the colour character. -/
def Reduction.asRewrite (text : List Char) (reduction : Reduction) : Rewrite :=
  ⟨text.length + 1 - reduction.rest.length, reduction.kept.length⟩

theorem findSome?_congr {α β : Type} {f g : α → Option β} {l : List α}
    (h : ∀ a ∈ l, f a = g a) : l.findSome? f = l.findSome? g := by
  induction l with
  | nil => rfl
  | cons a l ih =>
    obtain ⟨first, others⟩ := List.forall_mem_cons.mp h
    rw [List.findSome?_cons, List.findSome?_cons, first, ih others]

theorem emptyBackgroundAt?_eq (h : Behind all (start + 1) text) :
    emptyBackgroundAt? all start = (emptyBackground? text).map (·.asRewrite text) := by
  unfold emptyBackgroundAt?
  rw [hasAt_comma h]
  cases text with
  | nil => rfl
  | cons c rest =>
    by_cases comma : c = ','
    · subst comma
      -- of an ASCII class the octet at the offset tells as much as the character
      have narrow : IsAsciiClass fun c => c == '0' || c == '1' := by
        intro c member
        rcases (Bool.or_eq_true _ _).mp member with zero | one
        · rw [beq_iff_eq.mp zero]; decide
        · rw [beq_iff_eq.mp one]; decide
      rw [hasAt_eq_startsWith narrow (h.next (by decide))]
      simp only [emptyBackground?]
      cases startsWith (fun c => c == '0' || c == '1') rest with
      | true => rfl
      | false => simp [startsWith, Reduction.asRewrite, Nat.add_assoc]
    · simp [startsWith, emptyBackground?, comma]

/-- Trying the lengths of an optional code is trying the ways to take it. -/
theorem findSome?_optional_hasCodeAt {α β : Type} (h : Behind all offset text)
    {f : Nat → Option β} {g : List Char × List Char → Option α} {e : α → β}
    (each : ∀ code rest : List Char, Behind all (offset + code.length) rest →
      code.length + rest.length = text.length → f code.length = (g (code, rest)).map e) :
    (optional (hasCodeAt all offset)).findSome? f = ((codeChoices text).findSome? g).map e := by
  rw [optional_hasCodeAt h, List.findSome?_map, List.map_findSome?]
  apply findSome?_congr
  intro choice member
  have whole := congrArg List.length (codeChoices_append member)
  rw [List.length_append] at whole
  exact each choice.1 choice.2 (behind_code h member) whole

theorem overriddenBackgroundAt?_eq (h : Behind all offset text) :
    overriddenBackgroundAt? all offset =
      (overriddenBackground? text).map fun rest => offset + (text.length - rest.length) := by
  apply findSome?_optional_hasCodeAt h
  intro code rest behind whole
  -- each way to take padding is asked at the offset that it leaves
  have asked : ∀ left ∈ paddingChoices rest,
      hasAt (· == color) all (offset + code.length + (rest.length - left.length)) =
        startsWith (· == color) left :=
    fun left inside => hasAt_color (behind_padding behind inside)
  simp only [optional_hasPaddingAt behind, List.find?_map, Function.comp_def]
  rw [List.find?_congr asked]
  cases found : (paddingChoices rest).find? (startsWith (· == color)) with
  | none => rfl
  | some left =>
    have shorter := paddingChoices_length (List.mem_of_find?_eq_some found)
    simp only [Option.map_some, Option.some.injEq]
    omega

theorem overriddenAt?_eq (h : Behind all (start + 1) text) :
    overriddenAt? all start = (overridden? text).map (·.asRewrite text) := by
  apply findSome?_optional_hasCodeAt h
  intro code rest behind whole
  dsimp only
  rw [hasAt_comma behind]
  cases rest with
  | nil => rfl
  | cons c rest =>
    by_cases comma : c = ','
    · subst comma
      simp only [startsWith_cons, beq_self_eq_true, if_true, Option.map_map]
      rw [overriddenBackgroundAt?_eq (behind.next (by decide)), Option.map_map]
      cases found : overriddenBackground? rest with
      | none => rfl
      | some left =>
        have shorter := overriddenBackground?_length found
        simp only [Option.map_some, Function.comp_apply, Reduction.asRewrite, List.length_nil,
          Option.some.injEq, Rewrite.mk.injEq, and_true]
        rw [List.length_cons] at whole
        omega
    · simp [startsWith, comma]

theorem paddedCommaAt?_eq (h : Behind all (start + 1) text) :
    paddedCommaAt? all start = (paddedComma? text).map (·.asRewrite text) := by
  apply findSome?_optional_hasCodeAt h
  intro code rest behind whole
  dsimp only
  rw [hasAt_comma behind]
  by_cases padded : ∃ left, rest = ',' :: (padding ++ left)
  · obtain ⟨left, rfl⟩ := padded
    obtain ⟨pads, behind'⟩ := hasPaddingAt_of_padding (behind.next (by decide))
    have digit : hasAt Char.isDigit all (start + 1 + code.length + 1 + padding.length) =
        startsWith Char.isDigit left := hasAt_isDigit behind'
    rw [pads, digit]
    simp only [padding, List.length_cons, List.length_nil, List.cons_append, List.nil_append,
      startsWith_cons, beq_self_eq_true, Bool.and_self, Bool.true_and, true_and] at whole ⊢
    cases startsWith Char.isDigit left with
    | true => rfl
    | false =>
      simp only [Reduction.asRewrite, Bool.not_false, if_true, Option.map_some, Option.some.injEq,
        Rewrite.mk.injEq, List.length_append, List.length_cons, List.length_nil]
      omega
  -- without comma and padding neither form of the rule applies
  · have stays : (startsWith (· == ',') rest &&
        hasPaddingAt all (start + 1 + code.length + 1)) = false := by
      cases rest with
      | nil => rfl
      | cons c left =>
        by_cases comma : c = ','
        · subst comma
          refine hasPaddingAt_of_ne (behind.next (by decide)) fun left' e => ?_
          exact padded ⟨left', by rw [e]⟩
        · simp [startsWith, comma]
    rw [stays, Bool.false_and, if_neg Bool.false_ne_true]
    split
    · rename_i a b left
      rw [if_neg]
      · rfl
      · intro h
        rcases h with ⟨rfl, rfl, -⟩
        exact padded ⟨left, rfl⟩
    · rfl

theorem paddedForegroundAt?_eq (h : Behind all (start + 1) text) :
    paddedForegroundAt? all start = (paddedForeground? text).map (·.asRewrite text) := by
  unfold paddedForegroundAt?
  by_cases padded : ∃ a b rest, text = a :: b :: (padding ++ rest) ∧ a.isDigit ∧ b.isDigit
  · obtain ⟨a, b, rest, rfl, first, second⟩ := padded
    have behind := (h.next (isAsciiClass_isDigit a first)).next (isAsciiClass_isDigit b second)
    obtain ⟨pads, behind'⟩ := hasPaddingAt_of_padding behind
    rw [hasCodeAt_eq h, pads, hasAt_comma behind']
    simp only [padding, paddedForeground?, List.cons_append, List.nil_append, startsWith_cons,
      List.tail_cons, first, second, Bool.and_self, Bool.true_and, true_and]
    cases startsWith (· == ',') rest with
    | true => rfl
    | false => simp [Reduction.asRewrite, Nat.add_assoc]
  · have stays : (hasCodeAt all (start + 1) && hasPaddingAt all (start + 3)) = false := by
      rw [Bool.and_eq_false_imp]
      intro code
      obtain ⟨a, b, rest, rfl, first, second, behind⟩ := exists_of_hasCodeAt h code
      refine hasPaddingAt_of_ne behind fun rest' e => ?_
      exact padded ⟨a, b, rest', by rw [e], first, second⟩
    rw [stays, Bool.false_and, if_neg Bool.false_ne_true]
    unfold paddedForeground?
    split
    · rename_i a b c d rest
      rw [if_neg]
      · rfl
      · intro h
        rcases h with ⟨first, second, rfl, rfl, -⟩
        exact padded ⟨a, b, rest, rfl, first, second⟩
    · rfl

/-- **A rule applies at an offset when it applies to the text behind it.** -/
theorem rewriteAt?_eq (h : Behind all (start + 1) text) :
    rewriteAt? all start = (reduce? text).map (·.asRewrite text) := by
  simp only [rewriteAt?, reduce?, Option.orElse_eq_orElse, Option.orElse_eq_or, Option.map_or]
  rw [emptyBackgroundAt?_eq h, overriddenAt?_eq h, paddedCommaAt?_eq h, paddedForegroundAt?_eq h]

/-! ### Passes -/

variable {out : List UInt8} {copied here distance : Nat}

theorem passFrom_none (inside : here ≤ all.length)
    (found : (all.drop here).findIdx? (isAscii (· == color)) = none) :
    passFrom all out copied here =
      if copied = 0 then some none
      else (part? all copied all.length).map fun part => some (out ++ part) := by
  rw [passFrom, if_pos inside]
  split <;> simp_all

theorem passFrom_rewrite (inside : here ≤ all.length)
    (found : (all.drop here).findIdx? (isAscii (· == color)) = some distance) {rewrite : Rewrite}
    (rewritten : rewriteAt? all (here + distance) = some rewrite) :
    passFrom all out copied here =
      (part? all copied (here + distance + rewrite.kept)).bind fun part =>
        passFrom all (out ++ part) (here + distance + rewrite.length)
          (here + distance + rewrite.length) := by
  rw [passFrom, if_pos inside]
  split
  · rename_i distance' found'
    rw [found] at found'
    cases found'
    split <;> simp_all
  · simp_all

theorem passFrom_skip (inside : here ≤ all.length)
    (found : (all.drop here).findIdx? (isAscii (· == color)) = some distance)
    (stays : rewriteAt? all (here + distance) = none) :
    passFrom all out copied here = passFrom all out copied (here + distance + 1) := by
  rw [passFrom, if_pos inside]
  split
  · rename_i distance' found'
    rw [found] at found'
    cases found'
    split <;> simp_all
  · simp_all

theorem beq_color_of_not_mem (h : color ∉ text) : ∀ c ∈ text, (c == color) = false := by
  intro c member
  rw [beq_eq_false_iff_ne]
  rintro rfl
  exact h member

theorem toNat_color_lt : color.toNat < 128 := by decide

theorem toNat_lt_of_isColorSyntax {c : Char} (h : isColorSyntax c = true) : c.toNat < 128 := by
  simp only [isColorSyntax, Bool.or_eq_true] at h
  rcases h with (h | h) | h
  · exact isAsciiClass_beq toNat_color_lt c h
  · exact isAsciiClass_beq (by decide) c h
  · exact isAsciiClass_isDigit c h

/-- Where a reduction begins and ends, measured in octets. -/
theorem Removes.byteLength_eq {reduction : Reduction} {codes pad : List Char}
    (h : Removes text reduction codes pad) :
    byteLength reduction.kept = reduction.kept.length ∧
      byteLength (reduction.kept ++ (codes ++ pad)) = (reduction.asRewrite text).length := by
  -- everything that a rule touches is ASCII, so octets can be counted as characters
  have ascii : ∀ c ∈ reduction.kept ++ (codes ++ pad), c.toNat < 128 := by
    intro c member
    simp only [List.mem_append] at member
    rcases member with member | member | member
    · exact toNat_lt_of_isColorSyntax (h.keeps c member)
    · exact toNat_lt_of_isColorSyntax (h.drops c member)
    · rcases h.unpads with rfl | rfl
      · cases member
      · rcases List.mem_pair.mp member with rfl | rfl <;> decide
  have whole := congrArg List.length h.whole
  simp only [List.length_cons, List.length_append] at whole
  constructor
  · exact Text.byteLength_of_ascii fun c member => ascii c (List.mem_append_left _ member)
  · rw [Text.byteLength_of_ascii ascii, Reduction.asRewrite]
    simp only [List.length_append]
    omega

/-- A reduction cuts the text between characters. -/
theorem Removes.cut {reduction : Reduction} {codes pad pending : List Char}
    (removes : Removes text reduction codes pad) (h : Behind all copied (pending ++ color :: text)) :
    part? all copied (copied + byteLength pending + (reduction.asRewrite text).kept) =
        some (octets (pending ++ reduction.kept)) ∧
      Behind all (copied + byteLength pending + (reduction.asRewrite text).length)
        reduction.rest := by
  obtain ⟨keptLength, wholeLength⟩ := removes.byteLength_eq
  have kept : pending ++ color :: text =
      pending ++ reduction.kept ++ (codes ++ (pad ++ reduction.rest)) := by
    rw [removes.whole, List.append_assoc]
  have dropped : pending ++ color :: text =
      pending ++ (reduction.kept ++ (codes ++ pad)) ++ reduction.rest := by
    rw [kept]
    simp only [List.append_assoc]
  constructor
  · rw [kept] at h
    rw [Reduction.asRewrite, ← keptLength, Nat.add_assoc, ← Text.byteLength_append]
    exact h.part?_eq
  · rw [dropped] at h
    rw [← wholeLength, Nat.add_assoc, ← Text.byteLength_append]
    exact h.append

theorem sweep_ne_self_of_reduce? {front behind : List Char} (h : color ∉ front)
    {reduction : Reduction} (reduced : reduce? behind = some reduction) :
    sweep (front ++ color :: behind) = front ++ reduction.kept ++ sweep reduction.rest ∧
      sweep (front ++ color :: behind) ≠ front ++ color :: behind := by
  obtain ⟨codes, pad, removes⟩ := removes_of_reduce? reduced
  have swept : sweep (front ++ color :: behind) =
      front ++ reduction.kept ++ sweep reduction.rest := by
    rw [sweep_append h, sweep_color, reduced, List.append_assoc]
  refine ⟨swept, fun same => ?_⟩
  have lengths := congrArg List.length (swept.symm.trans same)
  have shorter := removes.length_le
  have rest := sweep_length_le reduction.rest
  simp only [List.length_append, List.length_cons] at lengths
  omega

/-- **The rest of a pass is a sweep of the rest of the text.** Between `copied` and `here`
    stands text that has been passed over and not copied yet. -/
theorem passFrom_eq (out : List UInt8) (copied : Nat) (pending rest : List Char)
    (h : Behind all copied (pending ++ rest)) :
    passFrom all out copied (copied + byteLength pending) =
      some (if copied = 0 ∧ sweep rest = rest then none
        else some (out ++ octets (pending ++ sweep rest))) := by
  have behind := h.append
  -- on the next colour character; `pending` is what has been passed over but not copied
  by_cases found : color ∈ rest
  · obtain ⟨front, tail, rfl, before⟩ := List.eq_append_cons_of_mem found
    have first : (octets (front ++ color :: tail)).findIdx? (isAscii (· == color)) =
        some (byteLength front) :=
      Text.findIdx?_octets_append (beq_color_of_not_mem before) (beq_self_eq_true color) toNat_color_lt
    rw [← behind.drop] at first
    have place := behind.append.next toNat_color_lt
    cases reduced : reduce? tail with
    | none =>
      -- nothing applies here: the colour character is passed over as well
      have stays := rewriteAt?_eq place
      rw [reduced] at stays
      rw [passFrom_skip behind.le first stays]
      have ih := passFrom_eq out copied (pending ++ front ++ [color]) tail
        (by simpa using h)
      have swept : sweep (front ++ color :: tail) = front ++ color :: sweep tail := by
        rw [sweep_append before, sweep_color, reduced]
      simp only [Text.byteLength_append, byteLength, Text.utf8Size_of_lt toNat_color_lt,
        ← Nat.add_assoc, Nat.add_zero] at ih
      rw [ih, swept, List.append_assoc, List.append_assoc]
      simp
    | some reduction =>
      -- a rule applies: `pending` is copied with what is kept, and nothing is pending behind it
      obtain ⟨codes, pad, removes⟩ := removes_of_reduce? reduced
      have shorter := removes.length_le
      have rewritten := rewriteAt?_eq place
      rw [reduced, Option.map_some] at rewritten
      obtain ⟨swept, changed⟩ := sweep_ne_self_of_reduce? before reduced
      have : 2 ≤ (reduction.asRewrite tail).length := length_of_rewriteAt? rewritten
      rw [← List.append_assoc] at h
      obtain ⟨part, next⟩ := removes.cut h
      rw [Text.byteLength_append, ← Nat.add_assoc] at part next
      have ih := passFrom_eq (out ++ octets (pending ++ front ++ reduction.kept)) _ []
        reduction.rest next
      rw [byteLength, Nat.add_zero, if_neg (by omega)] at ih
      rw [passFrom_rewrite behind.le first rewritten, part, Option.bind_some, ih,
        if_neg fun h => changed h.2, swept]
      simp
  -- no colour character is left: the rest is copied, if anything has been at all
  · have swept := sweep_append found []
    rw [List.append_nil, sweep, List.append_nil] at swept
    have none := Text.findIdx?_octets_eq_none (beq_color_of_not_mem found)
    rw [← behind.drop] at none
    rw [passFrom_none behind.le none, swept]
    by_cases fresh : copied = 0
    · simp [fresh]
    · have part : part? all copied all.length = some (octets (pending ++ rest)) := by
        rw [h.length_eq]
        exact Behind.part?_eq (by rwa [List.append_nil] : Behind all copied (pending ++ rest ++ []))
      simp [fresh, part]
termination_by rest.length
decreasing_by
  all_goals
    subst_vars
    simp only [List.length_append, List.length_cons]
    omega

/-- **A pass over the octets of a text is a sweep of its characters**, and has nothing to do
    just when the sweep changes nothing. -/
theorem pass_octets (text : List Char) :
    pass (octets text) =
      some (if sweep text = text then none else some (octets (sweep text))) := by
  have run := passFrom_eq [] 0 [] text (Behind.start text)
  simpa [pass] using run

/-- A cut next to characters of two octets. -/
example : pass (octets "é\x03,é".toList) = some (some (octets "éé".toList)) := by decide +kernel

theorem pass_of_settled (h : Settled text) : pass (octets text) = some none := by
  rw [pass_octets, if_pos (sweep_of_settled h)]

/-! ### All passes -/

/-- Passes come to an end, at the cleaned text; each of them takes two characters away. -/
theorem passes_octets (text : List Char) :
    ∃ n, 2 * n + (cleanUp text).length ≤ text.length ∧
      Passes n (octets text) (octets (cleanUp text)) := by
  fun_induction cleanUp text with
  | case1 text next shorter ih =>
    obtain ⟨n, few, passes⟩ := ih
    have changed : next ≠ text := by
      intro same
      rw [same] at shorter
      exact Nat.lt_irrefl _ shorter
    have first : pass (octets text) = some (some (octets next)) := by
      rw [pass_octets, if_neg changed]
    refine ⟨n + 1, ?_, .more first passes⟩
    -- a pass that changes something takes two characters away at least
    rcases settled_or_length_le text with settled | two
    · exact absurd (sweep_of_settled settled) changed
    · have two : next.length + 2 ≤ text.length := two
      omega
  | case2 text next same =>
    have settled := settled_of_length_le (Nat.le_of_not_lt same)
    exact ⟨0, by omega, .stop (pass_of_settled settled)⟩

/-- In the octets of a settled text, no rule applies at a colour character. -/
theorem rewriteAt?_of_settled (h : Settled text)
    (found : hasAt (· == color) (octets text) start = true) :
    rewriteAt? (octets text) start = none := by
  obtain ⟨before, c, behind, rfl, same, rfl⟩ := Text.exists_of_hasAt found
  rw [beq_iff_eq.mp same] at h ⊢
  have place : Behind (octets (before ++ color :: behind)) (0 + byteLength before)
      (color :: behind) := Behind.append (Behind.start _)
  rw [Nat.zero_add] at place
  rw [rewriteAt?_eq (place.next toNat_color_lt), h before behind rfl]
  rfl

/-- **Cleaning up reaches a normal form.** On every text the passes come to an end without a
    cut that cannot be made, after half as many passes as there are characters at most.
    There no rule applies at any colour character any more, so that cleaning up once more
    changes nothing; and the text has not become longer. -/
theorem passes_cleanUp (text : List Char) :
    (∃ n, 2 * n + (cleanUp text).length ≤ text.length ∧
      Passes n (octets text) (octets (cleanUp text))) ∧
    (∀ start, hasAt (· == color) (octets (cleanUp text)) start = true →
      rewriteAt? (octets (cleanUp text)) start = none) ∧
    cleanUp (cleanUp text) = cleanUp text ∧
    byteLength (cleanUp text) ≤ byteLength text := by
  have settled := settled_cleanUp text
  refine ⟨passes_octets text, ?_, cleanUp_of_settled settled, ?_⟩
  · intro start found
    exact rewriteAt?_of_settled settled found
  · exact Text.byteLength_le_of_sublist (undisturbed_cleanUp text).sublist

end ChatMarkup.Wire
