/-
  ChatMarkup/Proofs/Json/Import.lean
  ==================================
  **A document is read as the value that mirrors it**, unless a part of it is no value, and then
  the first such part is reported (`readValue_mirrors`).
-/
import ChatMarkup.Proofs.Json.Reader
import ChatMarkup.Proofs.Value.Merge

namespace ChatMarkup.Json

open Document

variable {document : Document} {value : Value} {token : Token} {misfit : Misfit}

/-! ### Values -/

theorem valueOfAtom_eq_ok_iff {leaf : Atom} :
    valueOfAtom leaf = .ok value ↔ Mirrors (.atom leaf) value := by
  cases leaf with
  | null =>
    constructor
    · intro h
      cases h
    · intro mirrors
      cases mirrors
  | bool b =>
    constructor
    · intro h
      cases h
    · intro mirrors
      cases mirrors
  | integer n =>
    rw [valueOfAtom]
    constructor
    · intro h
      split at h
      · rename_i word fits
        cases h
        exact .integer (Decimal.int64?_eq_some_iff.mp fits)
      · cases h
    · intro mirrors
      cases mirrors with
      | integer same => rw [Decimal.int64?_eq_some_iff.mpr same]
  | real x =>
    constructor
    · intro h
      cases h
      exact .real x
    · intro mirrors
      cases mirrors
      rfl
  | string s =>
    constructor
    · intro h
      cases h
      exact .string s
    · intro mirrors
      cases mirrors
      rfl

mutual

/-- **What a document is understood as mirrors it.** -/
theorem interpret_eq_ok_iff (document : Document) (value : Value) :
    document.interpret asValue = .ok value ↔ Mirrors document value := by
  match document with
  | .atom leaf => exact valueOfAtom_eq_ok_iff
  | .list items =>
    rw [interpret, map_eq_ok]
    constructor
    · rintro ⟨values, each, rfl⟩
      refine .list (Entries.inSequence_ofValues values) ?_
      rw [Entries.values_ofValues]
      exact (interpretItems_eq_ok_iff items values).mp each
    · intro mirrors
      cases mirrors with
      | list sequence each =>
        refine ⟨_, (interpretItems_eq_ok_iff items _).mpr each, ?_⟩
        exact congrArg Value.array (Entries.inSequence_iff.mp sequence)
  | .object members =>
    rw [interpret, map_eq_ok]
    constructor
    · rintro ⟨entries, each, rfl⟩
      exact .object ((interpretMembers_eq_ok_iff members entries).mp each)
    · intro mirrors
      cases mirrors with
      | object each => exact ⟨_, (interpretMembers_eq_ok_iff members _).mpr each, rfl⟩

theorem interpretItems_eq_ok_iff (items : List Document) (values : List Value) :
    interpretItems asValue items = .ok values ↔ MirrorsItems items values := by
  match items with
  | [] =>
    rw [interpretItems]
    constructor
    · intro h
      cases h
      exact .nil
    · intro mirrors
      cases mirrors
      rfl
  | item :: items =>
    rw [interpretItems, bind_eq_ok]
    constructor
    · rintro ⟨value, first, h⟩
      obtain ⟨values, others, same⟩ := bind_eq_ok.mp h
      cases same
      exact .cons ((interpret_eq_ok_iff item value).mp first)
        ((interpretItems_eq_ok_iff items values).mp others)
    · intro mirrors
      cases mirrors with
      | cons first others =>
        refine ⟨_, (interpret_eq_ok_iff item _).mpr first, ?_⟩
        exact bind_eq_ok.mpr ⟨_, (interpretItems_eq_ok_iff items _).mpr others, rfl⟩

theorem interpretMembers_eq_ok_iff (members : List (String × Document)) (entries : Entries) :
    interpretMembers asValue members = .ok entries ↔ MirrorsMembers members entries := by
  match members with
  | [] =>
    rw [interpretMembers]
    constructor
    · intro h
      cases h
      exact .nil
    · intro mirrors
      cases mirrors
      rfl
  | (name, member) :: members =>
    rw [interpretMembers, bind_eq_ok]
    constructor
    · rintro ⟨value, first, h⟩
      obtain ⟨entries, others, same⟩ := bind_eq_ok.mp h
      cases same
      exact .cons name ((interpret_eq_ok_iff member value).mp first)
        ((interpretMembers_eq_ok_iff members entries).mp others)
    · intro mirrors
      cases mirrors with
      | cons _ first others =>
        refine ⟨_, (interpret_eq_ok_iff member _).mpr first, ?_⟩
        exact bind_eq_ok.mpr ⟨_, (interpretMembers_eq_ok_iff members _).mpr others, rfl⟩

end

/-! ### The first misfit -/

def misfit? : Token → Option Misfit
  | .atom leaf => error? (valueOfAtom leaf)
  | _ => none

theorem error?_map {ε α β : Type} (x : Except ε α) (f : α → β) : error? (x.map f) = error? x := by
  cases x <;> rfl

/-- The error of two steps is that of the first, or else that of the second. -/
theorem error?_bind {ε α β : Type} (x : Except ε α) (f : α → Except ε β) {later : Option ε}
    (second : ∀ a, x = .ok a → error? (f a) = later) :
    error? (x >>= f) = (error? x).or later := by
  cases x with
  | error e => rfl
  | ok a => exact second a rfl

mutual

/-- A document is refused for the first of its tokens that is no part of a value. -/
theorem findSome?_misfit? (document : Document) :
    document.tokens.findSome? misfit? = error? (document.interpret asValue) := by
  match document with
  | .atom leaf =>
    rw [Document.tokens, List.findSome?_singleton]
    rfl
  | .list items =>
    rw [interpret, error?_map, Document.tokens, List.findSome?_cons]
    exact findSome?_misfit?_itemTokens [] items rfl
  | .object members =>
    rw [interpret, error?_map, Document.tokens, List.findSome?_cons]
    exact findSome?_misfit?_memberTokens [] members rfl

theorem findSome?_misfit?_itemTokens (lead : List Token) (items : List Document)
    (fits : lead.findSome? misfit? = none) :
    (itemTokens lead items).findSome? misfit? = error? (interpretItems asValue items) := by
  match items with
  | [] => rfl
  | item :: items =>
    rw [itemTokens, interpretItems, List.findSome?_append, List.findSome?_append, fits,
      Option.none_or, findSome?_misfit? item, findSome?_misfit?_itemTokens [.comma] items rfl]
    refine (error?_bind _ _ fun value _ => ?_).symm
    cases interpretItems asValue items <;> rfl

theorem findSome?_misfit?_memberTokens (lead : List Token) (members : List (String × Document))
    (fits : lead.findSome? misfit? = none) :
    (memberTokens lead members).findSome? misfit? = error? (interpretMembers asValue members) := by
  match members with
  | [] => rfl
  | (name, member) :: members =>
    have named : (Token.atom (.string name) :: .colon :: member.tokens).findSome? misfit? =
        member.tokens.findSome? misfit? := rfl
    rw [memberTokens, interpretMembers, List.findSome?_append, List.findSome?_append, fits,
      Option.none_or, named, findSome?_misfit? member,
      findSome?_misfit?_memberTokens [.comma] members rfl]
    refine (error?_bind _ _ fun value _ => ?_).symm
    cases interpretMembers asValue members <;> rfl

end

/-! ### Integers of 64 bits -/

theorem fitsWord_of_atom? {negative : Bool} {number : NumberText} {n : Int}
    (h : number.atom? negative = some (.integer n)) : fitsWord n = true := by
  unfold NumberText.atom? at h
  dsimp only at h
  generalize (if negative = true then -(Decimal.value number.whole : Int)
    else Decimal.value number.whole) = m at h
  split at h
  · rename_i whole
    cases h
    simp only [Bool.and_eq_true] at whole
    exact whole.1.2
  · unfold NumberText.real? at h
    dsimp only at h
    rw [Option.ite_none_right_eq_some] at h
    cases h.2

theorem fitsWord_of_scanNumeric {negative : Bool} {text rest : List Char} {n : Int}
    (h : scanNumeric negative text = some (.atom (.integer n), rest)) : fitsWord n = true := by
  unfold scanNumeric at h
  simp only [Option.bind_eq_bind, Option.bind_eq_some_iff] at h
  obtain ⟨⟨number, after⟩, -, leaf, found, h⟩ := h
  cases h
  exact fitsWord_of_atom? found

theorem fitsWord_of_scan {c : Char} {tail rest : List Char} {n : Int}
    (h : scan c tail = some (.atom (.integer n), rest)) : fitsWord n = true := by
  unfold scan at h
  split at h
  case h_11 => exact fitsWord_of_scanNumeric h
  case h_12 => exact fitsWord_of_scanNumeric h
  all_goals simp at h

theorem fitsWord_of_mem_tokens {text : List Char} {n : Int}
    (member : Token.atom (.integer n) ∈ tokens text) : fitsWord n = true := by
  fun_induction tokens text with
  | case1 => cases member
  | case2 => simp at member
  | case3 text c tail _ token rest scanned ih =>
    rcases List.mem_cons.mp member with rfl | behind
    · exact fitsWord_of_scan scanned
    · exact ih behind

theorem misfit?_integer_eq_some_iff {n : Int} (word : fitsWord n = true) :
    misfit? (.atom (.integer n)) = some misfit ↔
      2 ^ 63 ≤ n ∧ n < 2 ^ 64 ∧ misfit = .tooLarge n := by
  rw [fitsWord, Bool.and_eq_true, decide_eq_true_iff, decide_eq_true_iff, Int64.toInt_minValue]
    at word
  have size : ((UInt64.size : Nat) : Int) = 2 ^ 64 := rfl
  rw [size] at word
  rw [misfit?, valueOfAtom]
  -- between the signed and the unsigned bound an integer is a token but no value
  by_cases fits : n ≤ Int64.maxValue.toInt
  · rw [Decimal.int64?_eq_some ⟨by rw [Int64.toInt_minValue]; exact word.1, fits⟩]
    rw [Int64.toInt_maxValue] at fits
    constructor
    · intro h
      cases h
    · intro h
      omega
  · rw [Decimal.int64?_eq_none fun both => fits both.2]
    rw [Int64.toInt_maxValue] at fits
    constructor
    · intro h
      cases h
      exact ⟨by omega, word.2, rfl⟩
    · rintro ⟨-, -, rfl⟩
      rfl

/-- Of the tokens of a text, the misfits are the truth values, `null` and the integers that fit
    64 bits only without a sign. -/
theorem misfit?_eq_some_iff {text : List Char} (member : token ∈ tokens text) :
    misfit? token = some misfit ↔ MisfitOf token misfit := by
  constructor
  · intro h
    match token with
    | .atom .null =>
      cases h
      exact .null
    | .atom (.bool b) =>
      cases h
      exact .bool b
    | .atom (.integer n) =>
      obtain ⟨least, most, rfl⟩ :=
        (misfit?_integer_eq_some_iff (fitsWord_of_mem_tokens member)).mp h
      exact .tooLarge least most
  · intro h
    cases h with
    | null => rfl
    | bool b => rfl
    | tooLarge least most =>
      exact (misfit?_integer_eq_some_iff (fitsWord_of_mem_tokens member)).mpr ⟨least, most, rfl⟩

/-! ### Texts -/

/-- **The value of a text.**  Where the text is that of a document, it has a value exactly if no
    token is a misfit, and this value mirrors the document.  Else the misfit that comes first
    in the text is the error. -/
theorem readValue_mirrors (text : String) (document : Document)
    (accepted : read Document.itself text.toList = .ok document) :
    (tokens text.toList = document.tokens ∧ document.depth ≤ maxDepth) ∧
      (∀ value, readValue text = .ok value ↔ Mirrors document value) ∧
      ((∃ value, readValue text = .ok value) ↔
        ∀ token ∈ document.tokens, ∀ misfit, ¬MisfitOf token misfit) ∧
      ∀ error, readValue text = .error error ↔
        ∃ before token behind misfit, document.tokens = before ++ token :: behind ∧
          (∀ earlier ∈ before, ∀ other, ¬MisfitOf earlier other) ∧ MisfitOf token misfit ∧
          error = .refused misfit := by
  have whole := read_itself_eq_ok_iff.mp accepted
  -- the text is JSON, so reading it fails only where the document means nothing
  have interpreted : readValue text = (document.interpret asValue).mapError .refused :=
    read_of_accepted asValue accepted
  -- that integers fit 64 bits is known of scanned tokens only
  have same : ∀ token ∈ document.tokens, ∀ misfit,
      misfit? token = some misfit ↔ MisfitOf token misfit := by
    rw [← whole.1]
    exact fun token member misfit => misfit?_eq_some_iff member
  have fits : ∀ token ∈ document.tokens,
      misfit? token = none ↔ ∀ misfit, ¬MisfitOf token misfit := by
    intro token member
    simp only [Option.eq_none_iff_forall_ne_some, ne_eq, same token member]
  refine ⟨whole, ?_, ?_, ?_⟩
  · intro value
    rw [interpreted, mapError_eq_ok, interpret_eq_ok_iff]
  · simp only [interpreted, mapError_eq_ok]
    rw [← error?_eq_none_iff, ← findSome?_misfit?, List.findSome?_eq_none_iff]
    exact forall₂_congr fits
  · intro error
    have refused : readValue text = .error error ↔
        ∃ misfit, error? (document.interpret asValue) = some misfit ∧ error = .refused misfit := by
      rw [interpreted]
      cases document.interpret asValue with
      | error misfit => simp [Except.mapError, error?, eq_comm]
      | ok value => simp [Except.mapError, error?]
    rw [refused]
    constructor
    -- the first refusal of the interpretation is at the first misfit in the text
    · rintro ⟨misfit, first, rfl⟩
      rw [← findSome?_misfit?] at first
      obtain ⟨before, token, behind, split, found, earlier⟩ := List.findSome?_eq_some_iff.mp first
      have member : token ∈ document.tokens := by simp [split]
      refine ⟨before, token, behind, misfit, split, ?_, (same token member misfit).mp found, rfl⟩
      intro other inFront
      exact (fits other (by simp [split, inFront])).mp (earlier other inFront)
    · rintro ⟨before, token, behind, misfit, split, earlier, found, rfl⟩
      refine ⟨misfit, ?_, rfl⟩
      have member : token ∈ document.tokens := by simp [split]
      rw [← findSome?_misfit?]
      refine List.findSome?_eq_some_iff.mpr
        ⟨before, token, behind, split, (same token member misfit).mpr found, ?_⟩
      intro other inFront
      exact (fits other (by simp [split, inFront])).mpr (earlier other inFront)

/-- Of two misfits at different depths, the one that comes first is reported. -/
theorem readValue_nested_bool :
    let text := "[1, \x7b\"k\": true\x7d, null]"
    let document := Document.list
      [.atom (.integer 1), .object [("k", .atom (.bool true))], .atom .null]
    read Document.itself text.toList = .ok document ∧
      (∃ token ∈ document.tokens, MisfitOf token .null) ∧
      readValue text = .error (.refused (.bool true)) := by
  intro text document
  have accepted : read Document.itself text.toList = .ok document :=
    read_itself_eq_ok_iff.mpr ⟨by decide +kernel, by decide +kernel⟩
  obtain ⟨-, -, -, refused⟩ := readValue_mirrors text document accepted
  refine ⟨accepted, ⟨.atom .null, by decide +kernel, .null⟩, ?_⟩
  -- the truth value inside the object comes before the `null` behind it
  refine (refused _).mpr
    ⟨[.openList, .atom (.integer 1), .comma, .openObject, .atom (.string "k"), .colon],
      .atom (.bool true), [.closeObject, .comma, .atom .null, .closeList],
      .bool true, by decide +kernel, ?_, .bool true, rfl⟩
  intro earlier inFront other misfit
  cases misfit with
  | null => simp at inFront
  | bool b => simp at inFront
  | tooLarge least =>
    obtain rfl : _ = (1 : Int) := by simpa using inFront
    omega

end ChatMarkup.Json
