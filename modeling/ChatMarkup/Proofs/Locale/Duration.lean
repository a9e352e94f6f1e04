/-
  ChatMarkup/Proofs/Locale/Duration.lean
  ======================================
  **Durations in words are read back** — the words tell the breakdown of the seconds into
  units, and they tell nothing else (`tells_formatDuration`).  So different durations have
  different words.

  That the words tell nothing else needs no reader: the amounts of two tellings of one text are
  compared from the front.  A number ends at the first character that is no digit, a name at
  the first that is no letter, and both separators begin with such a character.
-/
import ChatMarkup.Locale.Breakdown
import ChatMarkup.Proofs.Decimal.Numeral
import ChatMarkup.Proofs.Text.Run
import ChatMarkup.Proofs.Text.Series

namespace ChatMarkup.Locale

variable {unit unit' : TimeUnit} {units : List TimeUnit} {n n' seconds : Nat}
  {parts : List (Nat × TimeUnit)} {text rest : List Char}

/-! ### Amounts in words -/

/-- A name of a unit tells the unit. -/
theorem unit_of_name (known : unit ∈ timeUnits) (known' : unit' ∈ timeUnits) {name : String}
    (named : name = unit.singular ∨ name = unit.plural)
    (named' : name = unit'.singular ∨ name = unit'.plural) : unit = unit' := by
  have table : ∀ unit ∈ timeUnits, ∀ unit' ∈ timeUnits,
      unit.singular = unit'.singular ∨ unit.singular = unit'.plural ∨
        unit.plural = unit'.singular ∨ unit.plural = unit'.plural → unit = unit' := by decide
  apply table unit known unit' known'
  rcases named with rfl | rfl
  · rcases named' with same | same
    · exact Or.inl same
    · exact Or.inr (Or.inl same)
  · rcases named' with same | same
    · exact Or.inr (Or.inr (Or.inl same))
    · exact Or.inr (Or.inr (Or.inr same))

theorem isAlpha_of_name (known : unit ∈ timeUnits) {name : String}
    (named : name = unit.singular ∨ name = unit.plural) : ∀ c ∈ name.toList, c.isAlpha = true := by
  have table : ∀ unit ∈ timeUnits, (∀ c ∈ unit.singular.toList, c.isAlpha = true) ∧
      ∀ c ∈ unit.plural.toList, c.isAlpha = true := by simp [timeUnits]
  rcases named with rfl | rfl
  · exact (table unit known).1
  · exact (table unit known).2

theorem SpellsAmount.exists_name (spells : SpellsAmount unit n text) :
    ∃ name, (name = unit.singular ∨ name = unit.plural) ∧
      text = Decimal.ofNat n ++ ' ' :: name.toList := by
  cases spells with
  | one => exact ⟨_, Or.inl rfl, rfl⟩
  | many other => exact ⟨_, Or.inr rfl, rfl⟩

theorem spellsAmount_unitText (part : Nat × TimeUnit) :
    SpellsAmount part.2 part.1 (unitText part) := by
  obtain ⟨n, unit⟩ := part
  dsimp only [unitText]
  by_cases one : n = 1
  · subst one
    rw [if_pos rfl]
    exact SpellsAmount.one
  · rw [if_neg one]
    exact .many one

/-- A text that begins with an amount tells the number, the unit and what is left. -/
theorem SpellsAmount.inj {text' rest' : List Char} (spells : SpellsAmount unit n text)
    (spells' : SpellsAmount unit' n' text') (known : unit ∈ timeUnits)
    (known' : unit' ∈ timeUnits) (ends : ∀ c ∈ rest.head?, c = ',' ∨ c = ' ')
    (ends' : ∀ c ∈ rest'.head?, c = ',' ∨ c = ' ') (same : text ++ rest = text' ++ rest') :
    (n = n' ∧ unit = unit') ∧ text = text' ∧ rest = rest' := by
  obtain ⟨name, named, rfl⟩ := spells.exists_name
  obtain ⟨name', named', rfl⟩ := spells'.exists_name
  -- a name ends at a comma or a space, so the letters of both texts end in the same place
  have noLetter {rest : List Char} (ends : ∀ c ∈ rest.head?, c = ',' ∨ c = ' ') :
      ∀ c ∈ rest.head?, c.isAlpha = false := by
    intro c first
    rcases ends c first with rfl | rfl <;> rfl
  rw [List.append_assoc, List.append_assoc] at same
  have blank : ' '.isDigit = false := rfl
  obtain ⟨number, behind⟩ := Text.append_inj_of_runs (Decimal.isNumeral_ofNat n).2
    (Decimal.isNumeral_ofNat n').2 (Text.ends_cons blank _) (Text.ends_cons blank _) same
  obtain ⟨letters, left⟩ := Text.append_inj_of_runs (isAlpha_of_name known named)
    (isAlpha_of_name known' named') (noLetter ends) (noLetter ends') (List.cons.inj behind).2
  obtain rfl := String.toList_inj.mp letters
  refine ⟨⟨Decimal.ofNat_injective number, unit_of_name known known' named named'⟩, ?_, left⟩
  rw [number]

/-! ### One reading -/

def IsAmount (text : List Char) : Prop := ∃ unit ∈ timeUnits, ∃ n, SpellsAmount unit n text

theorem toldApart_isAmount : Text.ToldApart ',' ' ' IsAmount := by
  intro part part' rest rest' amount amount' ends ends' same
  obtain ⟨unit, known, n, spells⟩ := amount
  obtain ⟨unit', known', n', spells'⟩ := amount'
  exact (spells.inj spells' known known' ends ends' same).2

theorem not_isAmount_nil : ¬IsAmount [] := by
  rintro ⟨unit, -, n, spells⟩
  obtain ⟨name, -, empty⟩ := spells.exists_name
  exact absurd empty.symm (by simp)

theorem isAmount_of_forall₂ {texts : List (List Char)}
    (said : List.Forall₂ (fun part said => SpellsAmount part.2 part.1 said) parts texts)
    (known : ∀ part ∈ parts, part.2 ∈ timeUnits) : ∀ text ∈ texts, IsAmount text := by
  induction said with
  | nil => exact List.forall_mem_nil _
  | @cons part text parts texts spells _ ih =>
    obtain ⟨first, others⟩ := List.forall_mem_cons.mp known
    exact List.forall_mem_cons.mpr ⟨⟨part.2, first, part.1, spells⟩, ih others⟩

theorem eq_of_forall₂ {parts' : List (Nat × TimeUnit)} {texts : List (List Char)}
    (said : List.Forall₂ (fun part said => SpellsAmount part.2 part.1 said) parts texts)
    (said' : List.Forall₂ (fun part said => SpellsAmount part.2 part.1 said) parts' texts)
    (known : ∀ part ∈ parts, part.2 ∈ timeUnits) (known' : ∀ part ∈ parts', part.2 ∈ timeUnits) :
    parts = parts' := by
  induction said generalizing parts' with
  | nil =>
    cases said'
    rfl
  | @cons part text parts texts spells _ ih =>
    obtain ⟨part', parts', spells', others', rfl⟩ := List.forall₂_cons_right_iff.mp said'
    obtain ⟨first, others⟩ := List.forall_mem_cons.mp known
    obtain ⟨first', rest'⟩ := List.forall_mem_cons.mp known'
    have end_ : ∀ c ∈ ([] : List Char).head?, c = ',' ∨ c = ' ' := by
      intro c none
      cases none
    have same := spells.inj spells' first first' end_ end_ rfl
    rw [ih others' others rest', Prod.ext same.1.1 same.1.2]

/-- **A text tells one row of amounts at most.** -/
theorem Tells.unique {parts' : List (Nat × TimeUnit)} (tells : Tells text parts)
    (tells' : Tells text parts') (known : ∀ part ∈ parts, part.2 ∈ timeUnits)
    (known' : ∀ part ∈ parts', part.2 ∈ timeUnits) : parts = parts' := by
  obtain ⟨texts, said, series⟩ := tells
  obtain ⟨texts', said', series'⟩ := tells'
  have sameTexts : texts = texts' :=
    Text.joinSeries_inj toldApart_isAmount (by decide) not_isAmount_nil
      (isAmount_of_forall₂ said known) (isAmount_of_forall₂ said' known')
      (series.eq_joinSeries.symm.trans series'.eq_joinSeries)
  subst sameTexts
  exact eq_of_forall₂ said said' known known'

/-! ### The breakdown -/

theorem map_snd_splitSeconds (units : List TimeUnit) (seconds : Nat) :
    (splitSeconds units seconds).map Prod.snd = units := by
  induction units generalizing seconds with
  | nil => rfl
  | cons unit units ih => rw [splitSeconds, List.map_cons, ih]

/-- Nothing is left over if the last unit is a second. -/
theorem totalSeconds_splitSeconds (last : units.getLast?.map TimeUnit.seconds = some 1) :
    totalSeconds (splitSeconds units seconds) = seconds := by
  induction units generalizing seconds with
  | nil => cases last
  | cons unit units ih =>
    have step : totalSeconds (splitSeconds (unit :: units) seconds) =
        seconds / unit.seconds * unit.seconds +
          totalSeconds (splitSeconds units (seconds % unit.seconds)) := rfl
    rw [step]
    cases units with
    | nil =>
      have second : unit.seconds = 1 := Option.some.inj last
      rw [second, Nat.div_one, Nat.mul_one]
      rfl
    | cons next units =>
      rw [ih last]
      exact Nat.div_add_mod' seconds unit.seconds

theorem totalSeconds_filter (parts : List (Nat × TimeUnit)) :
    totalSeconds (parts.filter fun part => part.1 != 0) = totalSeconds parts := by
  induction parts with
  | nil => rfl
  | cons part parts ih =>
    by_cases zero : part.1 = 0
    · rw [List.filter_cons_of_neg (by simpa using zero), ih]
      simp [totalSeconds, zero]
    · rw [List.filter_cons_of_pos (by simpa using zero)]
      simpa [totalSeconds] using ih

def saidParts (seconds : Nat) : List (Nat × TimeUnit) :=
  let parts := (splitSeconds timeUnits seconds).filter fun part => part.1 != 0
  if parts.isEmpty then [zeroSeconds] else parts

theorem formatDuration_eq (seconds : Nat) :
    formatDuration seconds =
      Text.joinSeries ", ".toList " and ".toList ((saidParts seconds).map unitText) := by
  rw [formatDuration, saidParts]
  split
  · rfl
  · rfl

theorem limited_splitSeconds (seconds : Nat) :
    ∀ part ∈ splitSeconds timeUnits seconds, ∀ most, (part.2.singular, most) ∈ limits →
      part.1 ≤ most := by
  simp [splitSeconds, timeUnits, limits]
  omega

theorem breakdown_saidParts (seconds : Nat) : Breakdown seconds (saidParts seconds) := by
  have split := map_snd_splitSeconds timeUnits seconds
  have whole : totalSeconds ((splitSeconds timeUnits seconds).filter fun part => part.1 != 0) =
      seconds := by
    rw [totalSeconds_filter]
    exact totalSeconds_splitSeconds rfl
  rw [saidParts]
  split
  -- no units at all: the number of seconds is zero, and that is said in words of its own
  · rename_i none
    rw [List.isEmpty_iff.mp none] at whole
    exact {
      units := by decide
      descending := List.pairwise_singleton _ _
      positive := Or.inr rfl
      limited := by simp [zeroSeconds]
      total := whole }
  · rename_i some
    have inner : ∀ part ∈ (splitSeconds timeUnits seconds).filter (fun part => part.1 != 0),
        part ∈ splitSeconds timeUnits seconds := fun part member => (List.mem_filter.mp member).1
    refine ⟨?_, ?_, Or.inl ⟨?_, ?_⟩, ?_, whole⟩
    · intro part member
      rw [← split]
      exact List.mem_map_of_mem (inner part member)
    · have falling : timeUnits.Pairwise fun unit later => later.seconds < unit.seconds := by decide
      rw [← split, List.pairwise_map] at falling
      exact falling.filter _
    · intro none
      exact some (List.isEmpty_iff.mpr none)
    · intro part member
      have nonzero := (List.mem_filter.mp member).2
      exact Nat.one_le_iff_ne_zero.mpr (bne_iff_ne.mp nonzero)
    · intro part member
      exact limited_splitSeconds seconds part (inner part member)

theorem tells_saidParts (seconds : Nat) : Tells (formatDuration seconds) (saidParts seconds) := by
  refine ⟨(saidParts seconds).map unitText, ?_, ?_⟩
  · rw [List.forall₂_map_right_iff, List.forall₂_same]
    intro part _
    exact spellsAmount_unitText part
  · rw [formatDuration_eq]
    exact Text.series_joinSeries _ _ _

/-- **Durations are read back.**  The words of a duration are a series of amounts that break it
    down into units, and there are no other amounts of these units that a text with these words
    could tell.  So no other duration has the same words. -/
theorem tells_formatDuration (seconds : Nat) :
    (∃ parts, Tells (formatDuration seconds) parts ∧ Breakdown seconds parts ∧
      ∀ others, (∀ part ∈ others, part.2 ∈ timeUnits) →
        Tells (formatDuration seconds) others → others = parts) ∧
      ∀ other, formatDuration other = formatDuration seconds → other = seconds := by
  have breakdown := breakdown_saidParts seconds
  constructor
  · refine ⟨saidParts seconds, tells_saidParts seconds, breakdown, ?_⟩
    intro others known tells
    exact tells.unique (tells_saidParts seconds) known breakdown.units
  · intro other same
    have breakdown' := breakdown_saidParts other
    have tells' := tells_saidParts other
    rw [same] at tells'
    have sameParts := tells'.unique (tells_saidParts seconds) breakdown'.units breakdown.units
    rw [← breakdown'.total, sameParts, breakdown.total]

end ChatMarkup.Locale
