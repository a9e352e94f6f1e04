/-
  ChatMarkup/Proofs/Value/Merge.lean
  ==================================
  **Which keys a concatenation keeps** — all of them, unless the keys of both arrays are read
  as their positions.  Then the entries are numbered anew, which changes every key that is not
  written as its position is (`merge_eq_append_iff`).

  Sequences are the arrays for which the new numbers are meant, and they stay sequences:
  concatenating them concatenates their values (`merge_ofValues`).
-/
import ChatMarkup.Proofs.Decimal.Numeral
import ChatMarkup.Value.Position

namespace ChatMarkup.Entries

variable {entries first second : Entries} {index : Nat} {key : String}

/-! ### Keys that are read as positions -/

theorem readNat?_key (sign zeros : List Char) (signed : sign = [] ∨ sign = ['+'])
    (all : ∀ c ∈ zeros, c = '0') :
    Decimal.readNat? (sign ++ (zeros ++ Decimal.ofNat index)) = some index := by
  refine Decimal.readNat?_eq_some_iff.mpr ⟨zeros ++ Decimal.ofNat index, ⟨?_, ?_⟩, ?_, ?_⟩
  · exact List.append_ne_nil_of_right_ne_nil _ (Decimal.isNumeral_ofNat index).1
  · refine List.forall_mem_append.mpr ⟨fun c member => ?_, (Decimal.isNumeral_ofNat index).2⟩
    rw [all c member]
    rfl
  · rw [Decimal.value_zeros_append all, Decimal.value_ofNat]
  · rcases signed with rfl | rfl
    · exact Or.inl rfl
    · exact Or.inr rfl

theorem isKeyOf_iff : isKeyOf index key = true ↔ TakenFor index key := by
  rw [isKeyOf, beq_iff_eq, Decimal.readBelow?, Option.filter_eq_some_iff, decide_eq_true_iff,
    and_comm]
  refine and_congr_right fun _ => ⟨fun read => ?_, ?_⟩
  · obtain ⟨digits, numeral, rfl, whole⟩ := Decimal.readNat?_eq_some_iff.mp read
    obtain ⟨zeros, all, split⟩ := numeral.exists_zeros
    rcases whole with whole | whole
    · exact ⟨[], zeros, Or.inl rfl, all, whole.trans split⟩
    · exact ⟨['+'], zeros, Or.inr rfl, all, whole.trans (congrArg _ split)⟩
  · rintro ⟨sign, zeros, signed, all, whole⟩
    rw [whole]
    exact readNat?_key sign zeros signed all

theorem isPositional_iff : isPositional entries = true ↔ Numbered entries := by
  simp only [isPositional, List.all_eq_true, Prod.forall, List.mem_zipIdx_iff_getElem?,
    isKeyOf_iff, Numbered]
  constructor
  · intro h index key value found
    exact h key value index found
  · intro h key value index found
    exact h index key value found

theorem numbered_nil : Numbered [] := by
  intro index entry found
  cases found

/-! ### Sequences -/

theorem keys_append (first second : Entries) : keys (first ++ second) = keys first ++ keys second :=
  List.map_append

theorem inSequence_ofValues (vs : List Value) : InSequence (ofValues vs) := by
  simp only [InSequence, keys, ofValues, List.map_map, List.length_map, List.length_zipIdx]
  rw [List.range_eq_range', ← List.zipIdx_map_snd, List.map_map]
  rfl

theorem eq_of_keys_of_values (sameKeys : keys first = keys second)
    (sameValues : values first = values second) : first = second :=
  (List.zip_of_prod sameKeys sameValues).trans (List.zip_of_prod rfl rfl).symm

/-- Sequences are determined by their values. -/
theorem inSequence_iff : InSequence entries ↔ ofValues (values entries) = entries := by
  constructor
  · intro sequence
    refine eq_of_keys_of_values ?_ (values_ofValues _)
    rw [sequence, inSequence_ofValues, length_ofValues, values, List.length_map]
  · intro same
    rw [← same]
    exact inSequence_ofValues _

theorem InSequence.key_eq {entry : String × Value} (sequence : InSequence entries)
    (found : entries[index]? = some entry) : entry.1 = positionKey index := by
  have here := congrArg (fun keys => keys[index]?) sequence
  obtain ⟨within, rfl⟩ := List.getElem?_eq_some_iff.mp found
  simpa [keys, within] using here

/-- The position of an entry is read as such. -/
theorem takenFor_positionKey (within : index < UInt64.size) :
    TakenFor index (positionKey index) :=
  ⟨within, [], [], Or.inl rfl, by simp, by simp [positionKey]⟩

theorem InSequence.numbered (sequence : InSequence entries) (short : entries.length ≤ UInt64.size) :
    Numbered entries := by
  intro index entry found
  have within := (List.getElem?_eq_some_iff.mp found).1
  rw [sequence.key_eq found]
  exact takenFor_positionKey (Nat.lt_of_lt_of_le within short)

theorem InSequence.of_append (sequence : InSequence (first ++ second)) :
    InSequence first := by
  rw [InSequence, keys_append, List.length_append, List.range_add, List.map_append] at sequence
  exact (List.append_inj sequence (by simp [keys])).1

/-- The first key of an array that is numbered and goes on behind another one. -/
theorem eq_nil_of_inSequence_append {entry : String × Value}
    (sequence : InSequence (first ++ entry :: second)) (numbered : Numbered (entry :: second)) :
    first = [] := by
  have found : (first ++ entry :: second)[first.length]? = some entry := by simp
  obtain ⟨-, sign, zeros, signed, all, whole⟩ := numbered 0 entry rfl
  rw [sequence.key_eq found, positionKey, String.toList_ofList] at whole
  have read : Decimal.readNat? (Decimal.ofNat first.length) = some first.length :=
    readNat?_key [] [] (Or.inl rfl) (by simp)
  rw [whole, readNat?_key sign zeros signed all] at read
  exact List.eq_nil_of_length_eq_zero (Option.some.inj read).symm

/-! ### Concatenation -/

theorem merge_of_numbered (numbered : Numbered first) (numbered' : Numbered second) :
    merge first second = ofValues (values (first ++ second)) := by
  rw [merge, isPositional_iff.mpr numbered, isPositional_iff.mpr numbered']
  rfl

theorem merge_of_not_numbered (other : ¬(Numbered first ∧ Numbered second)) :
    merge first second = first ++ second := by
  rw [merge, if_neg]
  simpa [isPositional_iff] using other

/-- **Concatenating sequences concatenates their values.** -/
theorem merge_ofValues (vs ws : List Value) (short : (vs ++ ws).length ≤ UInt64.size) :
    merge (ofValues vs) (ofValues ws) = ofValues (vs ++ ws) := by
  rw [List.length_append] at short
  have numbered : Numbered (ofValues vs) :=
    (inSequence_ofValues vs).numbered (by rw [length_ofValues]; omega)
  have numbered' : Numbered (ofValues ws) :=
    (inSequence_ofValues ws).numbered (by rw [length_ofValues]; omega)
  rw [merge_of_numbered numbered numbered', values, List.map_append, ← values, ← values,
    values_ofValues, values_ofValues]

/-- If the keys of both arrays are read as positions, they are kept where they are the positions
    of the whole. -/
theorem merge_eq_append_of_numbered_iff (numbered : Numbered first) (numbered' : Numbered second) :
    merge first second = first ++ second ↔ InSequence (first ++ second) := by
  rw [merge_of_numbered numbered numbered', inSequence_iff]

/-- **Which keys a concatenation keeps.**  Unless both arrays are sequences, every entry keeps the
    key it had exactly if the keys of one of them are not all read as positions.  The empty
    array changes an array exactly if the keys of that array are all read as positions without
    being written as such. -/
theorem merge_eq_append_iff (first second : Entries) :
    (¬(InSequence first ∧ InSequence second) →
      (merge first second = first ++ second ↔ ¬(Numbered first ∧ Numbered second))) ∧
      (merge first [] = first ↔ (Numbered first → InSequence first)) ∧
      (merge [] first = first ↔ (Numbered first → InSequence first)) := by
  refine ⟨fun mapLike => ⟨?_, merge_of_not_numbered⟩, ?_, ?_⟩
  · rintro kept ⟨numbered, numbered'⟩
    have sequence := (merge_eq_append_of_numbered_iff numbered numbered').mp kept
    -- keys in sequence begin anew in the second array only if the first one is empty
    cases second with
    | nil => exact mapLike ⟨sequence.of_append, rfl⟩
    | cons entry second =>
      obtain rfl := eq_nil_of_inSequence_append sequence numbered'
      exact mapLike ⟨rfl, sequence⟩
  · by_cases numbered : Numbered first
    · simpa [numbered] using merge_eq_append_of_numbered_iff numbered numbered_nil
    · have kept : merge first [] = first ++ [] :=
        merge_of_not_numbered fun both => numbered both.1
      simpa [numbered] using kept
  · by_cases numbered : Numbered first
    · simpa [numbered] using merge_eq_append_of_numbered_iff numbered_nil numbered
    · have kept : merge [] first = [] ++ first :=
        merge_of_not_numbered fun both => numbered both.2
      simpa [numbered] using kept

/-- A key like a position is kept in front of one that is not. -/
theorem merge_plus_zero_map :
    let first : Entries := [("+0", .int 1)]
    let second : Entries := [("k", .int 2)]
    ¬(InSequence first ∧ InSequence second) ∧ ¬(Numbered first ∧ Numbered second) ∧
      merge first second = first ++ second := by
  intro first second
  have mapLike : ¬(InSequence first ∧ InSequence second) := by decide
  have other : ¬(Numbered first ∧ Numbered second) := by
    rw [← isPositional_iff, ← isPositional_iff]
    decide
  exact ⟨mapLike, other, ((merge_eq_append_iff first second).1 mapLike).mpr other⟩

/-- A key that is no position in decimal is renamed by the empty array. -/
theorem merge_plus_zero_nil :
    let entries : Entries := [("+0", .int 1)]
    ¬(InSequence entries ∧ InSequence []) ∧ merge entries [] = [("0", .int 1)] ∧
      merge entries [] ≠ entries := by
  intro entries
  have renamed : merge entries [] = [("0", .int 1)] := rfl
  refine ⟨by decide, renamed, ?_⟩
  rw [renamed]
  simp [entries]

end ChatMarkup.Entries
