/-
  ChatMarkup/Proofs/Locale/Number.lean
  ====================================
  **Numerals in a language** — the digits of a numeral are put into groups of three, and the
  numeral can be restored from them, so that different numerals look different in every
  language (`restore_localizeDigits`).

  Both need of the symbols that neither is a digit and that they are not the same, whatever
  the language is (`numberSymbols_apart`).
-/
import ChatMarkup.Locale.Grouping
import ChatMarkup.Proofs.Text.Run

namespace ChatMarkup.Locale

variable {symbols : NumberSymbols} {group : Char} {first digits fraction plain text : List Char}
  {groups : List (List Char)}

/-! ### Symbols -/

/-- No language writes one symbol for two things. -/
theorem numberSymbols_apart (language : String) :
    (numberSymbols language).group.isDigit = false ∧
      (numberSymbols language).decimal.isDigit = false ∧
      (numberSymbols language).group ≠ (numberSymbols language).decimal := by
  unfold numberSymbols
  split
  · decide
  · split
    · decide
    · split
      · decide
      · decide

theorem ne_of_isDigit {c symbol : Char} (digit : c.isDigit = true)
    (other : symbol.isDigit = false) : c ≠ symbol := by
  rintro rfl
  rw [digit] at other
  cases other

/-! ### Groups -/

theorem Grouped.length_eq (grouped : Grouped first groups) :
    (first ++ groups.flatten).length = first.length + 3 * groups.length := by
  have three : ∀ lengths : List (List Char), (∀ group ∈ lengths, group.length = 3) →
      lengths.flatten.length = 3 * lengths.length := by
    intro lengths all
    induction lengths with
    | nil => rfl
    | cons group lengths ih =>
      obtain ⟨here, others⟩ := List.forall_mem_cons.mp all
      rw [List.flatten_cons, List.length_append, here, ih others, List.length_cons]
      omega
  rw [List.length_append, three groups grouped.three]

/-- A digit more in front goes into the first group, or begins a new one if that is full. -/
theorem exists_grouped (group : Char) (digits : List Char) (some : digits ≠ [])
    (all : ∀ c ∈ digits, c.isDigit = true) :
    ∃ first groups, Grouped first groups ∧ digits = first ++ groups.flatten ∧
      groupDigits group digits = Text.joinWith [group] (first :: groups) := by
  induction digits with
  | nil => exact absurd rfl some
  | cons d rest ih =>
    by_cases last : rest = []
    · subst last
      exact ⟨[d], [], ⟨by simpa using all, by simp, by simp⟩, rfl, rfl⟩
    · obtain ⟨digit, others⟩ := List.forall_mem_cons.mp all
      obtain ⟨first, groups, grouped, rfl, written⟩ := ih last others
      have long := grouped.length_eq
      have filled := grouped.filled
      -- a full group in front is closed, and the digit begins a new one
      by_cases full : first.length = 3
      · refine ⟨[d], first :: groups, ⟨all, by simp, ?_⟩, rfl, ?_⟩
        · exact List.forall_mem_cons.mpr ⟨full, grouped.three⟩
        · rw [groupDigits, if_pos ⟨last, by omega⟩, written]
          rfl
      · refine ⟨d :: first, groups, ⟨all, ⟨by simp, ?_⟩, grouped.three⟩, rfl, ?_⟩
        · rw [List.length_cons]
          omega
        · rw [groupDigits, if_neg (by omega), written]
          cases groups with
          | nil => rfl
          | cons => rfl

theorem localized_localizeDigits (symbols : NumberSymbols) (numeral : PlainNumeral plain) :
    Localized symbols plain (localizeDigits symbols plain) := by
  have inside {digits : List Char} (all : ∀ c ∈ digits, c.isDigit = true) :
      ∀ c ∈ digits, (c != '.') = true := by
    intro c member
    exact bne_iff_ne.mpr (ne_of_isDigit (all c member) rfl)
  cases numeral with
  | whole numeral =>
    obtain ⟨first, groups, grouped, rfl, written⟩ :=
      exists_grouped symbols.group plain numeral.1 numeral.2
    have front := inside numeral.2
    rw [localizeDigits, ← List.append_nil (first ++ groups.flatten),
      Text.takeWhile_append_of_run front Text.ends_nil,
      Text.dropWhile_append_of_run front Text.ends_nil, List.append_nil, written]
    exact .whole grouped
  | @point digits fraction numeral decimals =>
    obtain ⟨first, groups, grouped, rfl, written⟩ :=
      exists_grouped symbols.group digits numeral.1 numeral.2
    -- the digits run up to the point, and there is nothing to group behind it
    have front := inside numeral.2
    have ends : ∀ c ∈ ('.' :: fraction).head?, (c != '.') = false :=
      Text.ends_cons (p := fun c => c != '.') rfl fraction
    rw [localizeDigits, Text.takeWhile_append_of_run front ends,
      Text.dropWhile_append_of_run front ends, written]
    exact .point grouped decimals

/-! ### Back to the numeral -/

theorem filter_joinWith (absent : ∀ part ∈ groups, group ∉ part) :
    (Text.joinWith [group] groups).filter (fun c => c != group) = groups.flatten := by
  have kept {part : List Char} (without : group ∉ part) :
      part.filter (fun c => c != group) = part := by
    rw [List.filter_eq_self]
    intro c member
    exact bne_iff_ne.mpr fun same => without (same ▸ member)
  induction groups with
  | nil => rfl
  | cons part groups ih =>
    obtain ⟨here, others⟩ := List.forall_mem_cons.mp absent
    cases groups with
    | nil => rw [Text.joinWith, kept here, List.flatten_singleton]
    | cons next groups =>
      have step : Text.joinWith [group] (part :: next :: groups) =
          part ++ group :: Text.joinWith [group] (next :: groups) := by
        rw [Text.joinWith, List.append_assoc]
        · rfl
        · intro none
          cases none
      rw [step, List.filter_append, kept here, List.filter_cons_of_neg (by simp), ih others]
      rfl

/-- Digits stay as they are. -/
theorem restore_digits (apart : symbols.decimal.isDigit = false)
    (all : ∀ c ∈ digits, c.isDigit = true) :
    digits.map (fun c => if c = symbols.decimal then '.' else c) = digits := by
  have same : ∀ c ∈ digits, (if c = symbols.decimal then '.' else c) = id c := by
    intro c member
    exact if_neg (ne_of_isDigit (all c member) apart)
  rw [List.map_congr_left same, List.map_id]

theorem Localized.restore_eq (localized : Localized symbols plain text)
    (group : symbols.group.isDigit = false) (decimal : symbols.decimal.isDigit = false)
    (apart : symbols.group ≠ symbols.decimal) : restore symbols text = plain := by
  -- the symbol for groups is no digit, so it is found between groups only
  have absent {first : List Char} {groups : List (List Char)} (grouped : Grouped first groups) :
      ∀ part ∈ first :: groups, symbols.group ∉ part := by
    intro part among member
    have digit := grouped.digits symbols.group (List.mem_flatten.mpr ⟨part, among, member⟩)
    rw [group] at digit
    cases digit
  cases localized with
  | @whole first groups grouped =>
    rw [restore, filter_joinWith (absent grouped)]
    exact restore_digits decimal grouped.digits
  | @point first groups fraction grouped decimals =>
    have behind : fraction.filter (fun c => c != symbols.group) = fraction := by
      rw [List.filter_eq_self]
      intro c member
      exact bne_iff_ne.mpr (ne_of_isDigit (decimals c member) group)
    rw [restore, List.filter_append, filter_joinWith (absent grouped),
      List.filter_cons_of_pos (by simpa using apart.symm), behind, List.map_append, List.map_cons,
      if_pos rfl, restore_digits decimal decimals]
    exact congrArg (· ++ _) (restore_digits decimal grouped.digits)

/-- **Numerals in a language are grouped, and they can be restored.**  Before the decimal symbol
    are groups of three digits, behind it there are none.  Without the symbols the text is the
    numeral again, so different numerals look different. -/
theorem restore_localizeDigits (language : String) (numeral : PlainNumeral plain) :
    let symbols := numberSymbols language
    Localized symbols plain (localizeDigits symbols plain) ∧
      restore symbols (localizeDigits symbols plain) = plain ∧
      ∀ other, PlainNumeral other →
        localizeDigits symbols other = localizeDigits symbols plain → other = plain := by
  intro symbols
  obtain ⟨group, decimal, apart⟩ := numberSymbols_apart language
  have restored {plain : List Char} (numeral : PlainNumeral plain) :
      restore symbols (localizeDigits symbols plain) = plain :=
    (localized_localizeDigits symbols numeral).restore_eq group decimal apart
  refine ⟨localized_localizeDigits symbols numeral, restored numeral, ?_⟩
  intro other numeral' same
  rw [← restored numeral', same, restored numeral]

/-- A point separates the groups in one language, and it is the decimal symbol of another. -/
theorem restore_grouped_by_points :
    let plain := "1234567.045".toList
    PlainNumeral plain ∧
      localizeDigits (numberSymbols "de") plain = "1.234.567,045".toList ∧
      localizeDigits (numberSymbols "ja") plain = "1,234,567.045".toList ∧
      restore (numberSymbols "de") "1.234.567,045".toList = plain ∧
      restore (numberSymbols "ja") "1,234,567.045".toList = plain := by
  intro plain
  have whole : Decimal.IsNumeral "1234567".toList := by simp [Decimal.IsNumeral]
  have decimals : ∀ c ∈ "045".toList, c.isDigit = true := by simp
  have numeral : PlainNumeral plain := .point whole decimals
  have points : localizeDigits (numberSymbols "de") plain = "1.234.567,045".toList := by decide
  have commas : localizeDigits (numberSymbols "ja") plain = "1,234,567.045".toList := by decide
  refine ⟨numeral, points, commas, ?_, ?_⟩
  · rw [← points]
    exact (restore_localizeDigits "de" numeral).2.1
  · rw [← commas]
    exact (restore_localizeDigits "ja" numeral).2.1

end ChatMarkup.Locale
