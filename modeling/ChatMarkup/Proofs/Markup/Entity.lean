/-
  ChatMarkup/Proofs/Markup/Entity.lean
  ====================================
  **What references are decoded to** — the documented ones to the characters that they stand
  for, and also numbers with a plus sign; everything else to nothing
  (`decode?_eq_some_iff`).
-/
import ChatMarkup.Markup.Entity
import ChatMarkup.Proofs.Decimal.Numeral

namespace ChatMarkup.Markup

variable {name digits number : List Char} {c : Char}

/-! ### Names -/

theorem lookup_namedCharacters_eq_some_iff :
    namedCharacters.lookup (String.ofList name) = some c ↔ Named name c := by
  constructor
  · intro h
    obtain ⟨before, after, split, -⟩ := List.lookup_eq_some_iff.mp h
    have member : (String.ofList name, c) ∈ namedCharacters := by simp [split]
    have spelt {text : String} (same : String.ofList name = text) : name = text.toList := by
      rw [← same, String.toList_ofList]
    simp only [namedCharacters, List.mem_cons, Prod.mk.injEq, List.not_mem_nil, or_false] at member
    rcases member with ⟨same, rfl⟩ | ⟨same, rfl⟩ | ⟨same, rfl⟩ | ⟨same, rfl⟩ | ⟨same, rfl⟩
    · exact spelt same ▸ .amp
    · exact spelt same ▸ .lt
    · exact spelt same ▸ .gt
    · exact spelt same ▸ .quot
    · exact spelt same ▸ .apos
  · intro h
    cases h <;> decide

/-! ### Numbers -/

theorem character?_eq_some_iff {n : Nat} : character? n = some c ↔ c.toNat = n := by
  unfold character?
  constructor
  · intro h
    split at h
    · rename_i valid
      cases h
      have made : Char.ofNat n = Char.ofNatAux n valid := dif_pos valid
      rw [made]
      rfl
    · cases h
  · rintro rfl
    have valid : c.toNat.isValidChar := c.valid
    rw [if_pos valid, Char.ofNat_toNat]

theorem decimal_eq_some_iff :
    (Decimal.readNat? number).bind character? = some c ↔ ∃ digits, Decimal.IsNumeral digits ∧
      c.toNat = Decimal.value digits ∧ (number = digits ∨ number = '+' :: digits) := by
  rw [Option.bind_eq_some_iff]
  constructor
  · rintro ⟨n, read, found⟩
    obtain ⟨digits, numeral, rfl, whole⟩ := Decimal.readNat?_eq_some_iff.mp read
    exact ⟨digits, numeral, character?_eq_some_iff.mp found, whole⟩
  · rintro ⟨digits, numeral, found, whole⟩
    exact ⟨_, Decimal.readNat?_eq_some_iff.mpr ⟨digits, numeral, rfl, whole⟩,
      character?_eq_some_iff.mpr found⟩

theorem hexadecimal_eq_some_iff :
    (Decimal.readHex? number).bind character? = some c ↔ ∃ digits, Decimal.IsHexNumeral digits ∧
      c.toNat = Decimal.hexValue digits ∧ (number = digits ∨ number = '+' :: digits) := by
  rw [Option.bind_eq_some_iff]
  constructor
  · rintro ⟨n, read, found⟩
    obtain ⟨digits, numeral, rfl, whole⟩ := Decimal.readHex?_eq_some_iff.mp read
    exact ⟨digits, numeral, character?_eq_some_iff.mp found, whole⟩
  · rintro ⟨digits, numeral, found, whole⟩
    exact ⟨_, Decimal.readHex?_eq_some_iff.mpr ⟨digits, numeral, rfl, whole⟩,
      character?_eq_some_iff.mpr found⟩

/-- The mark of hexadecimal digits begins no decimal number. -/
theorem numbered?_of_isNumeral (numeral : Decimal.IsNumeral digits)
    (whole : number = digits ∨ number = '+' :: digits) :
    numbered? number = (Decimal.readNat? number).bind character? := by
  have free : ∀ mark, mark = 'x' ∨ mark = 'X' → mark ∉ number := by
    rintro mark marked member
    have digit : mark.isDigit = true ∨ mark = '+' := by
      rcases whole with rfl | rfl
      · exact Or.inl (numeral.2 mark member)
      · exact (List.mem_cons.mp member).symm.imp_left (numeral.2 mark)
    rcases marked with rfl | rfl
    · exact absurd digit (by decide)
    · exact absurd digit (by decide)
  unfold numbered?
  split
  · exact absurd List.mem_cons_self (free 'x' (Or.inl rfl))
  · exact absurd List.mem_cons_self (free 'X' (Or.inr rfl))
  · rfl

theorem numeric_of_decimal (numeral : Decimal.IsNumeral digits)
    (value : c.toNat = Decimal.value digits) (whole : number = digits ∨ number = '+' :: digits) :
    Numeric [] ('#' :: number) c ∨ Numeric ['+'] ('#' :: number) c := by
  rcases whole with rfl | rfl
  · exact Or.inl (.decimal numeral value)
  · exact Or.inr (.decimal numeral value)

theorem numeric_of_hexadecimal {mark : Char} (marked : mark = 'x' ∨ mark = 'X')
    (found : (Decimal.readHex? number).bind character? = some c) :
    Numeric [] ('#' :: mark :: number) c ∨ Numeric ['+'] ('#' :: mark :: number) c := by
  obtain ⟨digits, numeral, value, rfl | rfl⟩ := hexadecimal_eq_some_iff.mp found
  · exact Or.inl (.hexadecimal marked numeral value)
  · exact Or.inr (.hexadecimal marked numeral value)

theorem numbered?_of_numeric {sign : List Char} (signed : sign = [] ∨ sign = ['+'])
    (numeric : Numeric sign ('#' :: number) c) : numbered? number = some c := by
  have whole (digits : List Char) : sign ++ digits = digits ∨ sign ++ digits = '+' :: digits := by
    rcases signed with rfl | rfl
    · exact Or.inl rfl
    · exact Or.inr rfl
  cases numeric with
  | decimal numeral value =>
    rw [numbered?_of_isNumeral numeral (whole _)]
    exact decimal_eq_some_iff.mpr ⟨_, numeral, value, whole _⟩
  | hexadecimal marked numeral value =>
    have found := hexadecimal_eq_some_iff.mpr ⟨_, numeral, value, whole _⟩
    rcases marked with rfl | rfl
    · exact found
    · exact found

theorem numbered?_eq_some_iff :
    numbered? number = some c ↔ Numeric [] ('#' :: number) c ∨ Numeric ['+'] ('#' :: number) c := by
  constructor
  · intro h
    unfold numbered? at h
    split at h
    · exact numeric_of_hexadecimal (Or.inl rfl) h
    · exact numeric_of_hexadecimal (Or.inr rfl) h
    · obtain ⟨digits, numeral, value, whole⟩ := decimal_eq_some_iff.mp h
      exact numeric_of_decimal numeral value whole
  · rintro (numeric | numeric)
    · exact numbered?_of_numeric (Or.inl rfl) numeric
    · exact numbered?_of_numeric (Or.inr rfl) numeric

theorem Numeric.exists_cons {sign : List Char} (numeric : Numeric sign name c) :
    ∃ number, name = '#' :: number := by
  cases numeric with
  | decimal => exact ⟨_, rfl⟩
  | hexadecimal => exact ⟨_, rfl⟩

theorem not_named_numeric : ¬Named ('#' :: number) c := by
  intro named
  cases named

/-! ### All references -/

/-- **What is decoded.** -/
theorem decode?_eq_some_iff : decode? name = some c ↔ Taken name c := by
  have named : namedCharacters.lookup (String.ofList name) = some c ↔ Named name c :=
    lookup_namedCharacters_eq_some_iff
  -- no reference by number begins like one by name
  have notNamed {sign : List Char} (numeric : Numeric sign name c) (d : Char) : ¬Named name d := by
    obtain ⟨number, rfl⟩ := numeric.exists_cons
    exact not_named_numeric
  cases found : namedCharacters.lookup (String.ofList name) with
  | some d =>
    have named' := lookup_namedCharacters_eq_some_iff.mp found
    rw [found] at named
    simp only [decode?, found]
    rw [named, Taken, Documented, or_assoc]
    refine ⟨Or.inl, ?_⟩
    rintro (here | numeric | numeric)
    · exact here
    · exact absurd named' (notNamed numeric d)
    · exact absurd named' (notNamed numeric d)
  | none =>
    have unnamed : ¬Named name c := by
      rw [← named, found]
      simp
    rw [Taken, Documented, or_assoc, or_iff_right unnamed]
    -- behind the `#` only a number is left, and without it nothing is
    by_cases hash : ∃ number, name = '#' :: number
    · obtain ⟨number, rfl⟩ := hash
      simp only [decode?, found]
      exact numbered?_eq_some_iff
    · have nothing : decode? name = none := by
        cases name with
        | nil => simp only [decode?, found]
        | cons d rest =>
          have other : d ≠ '#' := fun same => hash ⟨rest, by rw [same]⟩
          unfold decode?
          rw [found]
          simp [other]
      rw [nothing]
      constructor
      · intro h
        cases h
      · rintro (numeric | numeric)
        · exact absurd numeric.exists_cons hash
        · exact absurd numeric.exists_cons hash

theorem decode?_eq_none (unknown : ∀ c, ¬Taken name c) : decode? name = none :=
  Option.eq_none_iff_forall_not_mem.mpr fun c decoded => unknown c (decode?_eq_some_iff.mp decoded)

end ChatMarkup.Markup
