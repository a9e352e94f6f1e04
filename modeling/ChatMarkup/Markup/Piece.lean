/-
  ChatMarkup/Markup/Piece.lean
  ============================
  **The pieces of a template** — references, runs of text, names, attributes and the
  ends of tags, each read from the front of a text.

  Every reader gives back what is left, and a lemma beside it says that this is shorter
  than, or no longer than, what it was given. A run of text ends at a character of a
  given class; `&` never ends one, it begins a reference.
-/
import ChatMarkup.Markup.Error
import ChatMarkup.Markup.Reference

namespace ChatMarkup.Markup

def isSpace (c : Char) : Bool := c == ' ' || c == '\t' || c == '\r' || c == '\n'

def isNameStart (c : Char) : Bool := c.isAlpha || c == '_'

def isNameChar (c : Char) : Bool := c.isAlphanum || c == '_' || c == '-' || c == '.'

def skipSpace (text : List Char) : List Char := text.dropWhile isSpace

theorem length_dropWhile_le (p : Char → Bool) (text : List Char) :
    (text.dropWhile p).length ≤ text.length := (List.dropWhile_sublist p).length_le

theorem skipSpace_length (text : List Char) : (skipSpace text).length ≤ text.length :=
  length_dropWhile_le isSpace text

/-! ### References and runs of text -/

def readReference (text : List Char) : Except Failure (Char × List Char) :=
  let name := text.takeWhile fun c => !endsReference c
  if name = [] then .error ⟨.reference, text⟩
  else match text.dropWhile fun c => !endsReference c with
    | ';' :: rest =>
      match decode? name with
      | some c => .ok (c, rest)
      | none => .error ⟨.reference, text⟩
    | rest => .error ⟨.reference, rest⟩

theorem readReference_length {text rest : List Char} {c : Char}
    (h : readReference text = .ok (c, rest)) : rest.length < text.length := by
  have shorter := length_dropWhile_le (fun c => !endsReference c) text
  unfold readReference at h
  dsimp only at h
  split at h
  · cases h
  · split at h
    · rename_i tail e
      rw [e] at shorter
      split at h
      · cases h
        simp only [List.length_cons] at shorter
        omega
      · cases h
    · cases h

/-- Reads characters and references up to a character that satisfies `stop`, or to the
    end. -/
def readRun (stop : Char → Bool) (text : List Char) : Except Failure (List Char × List Char) :=
  match text with
  | [] => .ok ([], [])
  | c :: tail =>
    if stop c then .ok ([], text)
    else if c = '&' then
      match _h : readReference tail with
      | .error failure => .error failure
      | .ok (decoded, rest) =>
        match readRun stop rest with
        | .error failure => .error failure
        | .ok (run, rest) => .ok (decoded :: run, rest)
    else
      match readRun stop tail with
      | .error failure => .error failure
      | .ok (run, rest) => .ok (c :: run, rest)
termination_by text.length
decreasing_by
  · have := readReference_length _h
    simp only [List.length_cons]
    omega
  · simp

theorem readRun_length {stop : Char → Bool} {text run rest : List Char}
    (h : readRun stop text = .ok (run, rest)) : rest.length ≤ text.length := by
  fun_induction readRun stop text generalizing run rest with
  | case1 => cases h; simp
  | case2 => cases h; simp
  | case3 => cases h
  | case4 => cases h
  | case5 tail decoded rest' e run' rest'' e' _ ih =>
    cases h
    have := readReference_length e
    have := ih e'
    simp only [List.length_cons]
    omega
  | case6 => cases h
  | case7 c tail _ _ run' rest' e ih =>
    cases h
    have := ih e
    simp only [List.length_cons]
    omega

/-- A run that does not begin with a stop takes at least one character. -/
theorem readRun_cons_length {stop : Char → Bool} {c : Char} {tail run rest : List Char}
    (hc : stop c = false) (h : readRun stop (c :: tail) = .ok (run, rest)) :
    rest.length < (c :: tail).length := by
  rw [readRun] at h
  simp only [hc, Bool.false_eq_true, if_false] at h
  split at h
  · split at h
    · cases h
    · rename_i decoded rest' e
      have first := readReference_length e
      split at h
      · cases h
      · rename_i run' rest'' e'
        cases h
        have := readRun_length e'
        simp only [List.length_cons]
        omega
  · split at h
    · cases h
    · rename_i run' rest' e
      cases h
      have := readRun_length e
      simp only [List.length_cons]
      omega

/-! ### Names and attributes -/

def readName? : List Char → Option (String × List Char)
  | [] => none
  | c :: tail =>
    if isNameStart c then
      some (String.ofList (c :: tail.takeWhile isNameChar), tail.dropWhile isNameChar)
    else none

theorem readName?_length {text rest : List Char} {name : String}
    (h : readName? text = some (name, rest)) : rest.length < text.length := by
  cases text with
  | nil => cases h
  | cons c tail =>
    simp only [readName?] at h
    split at h
    · cases h
      have := length_dropWhile_le isNameChar tail
      simp only [List.length_cons]
      omega
    · cases h

def readValue (text : List Char) : Except Failure (String × List Char) :=
  match text with
  | [] => .error ⟨.attributeValue, text⟩
  | quote :: tail =>
    if quote = '"' ∨ quote = '\'' then
      match readRun (fun c => c == quote || c == '<') tail with
      | .error failure => .error failure
      | .ok (run, rest) =>
        match rest with
        | [] => .error ⟨.attributeValue, rest⟩
        | c :: after =>
          if c = quote then .ok (String.ofList run, after) else .error ⟨.attributeValue, rest⟩
    else .error ⟨.attributeValue, text⟩

theorem readValue_length {text rest : List Char} {value : String}
    (h : readValue text = .ok (value, rest)) : rest.length < text.length := by
  cases text with
  | nil => cases h
  | cons quote tail =>
    unfold readValue at h
    dsimp only at h
    split at h
    · split at h
      · cases h
      · rename_i run rest' e
        have := readRun_length e
        split at h
        · cases h
        · split at h
          · cases h
            simp only [List.length_cons] at this ⊢
            omega
          · cases h
    · cases h

/-- The name of an attribute and what follows its equals sign, behind white space. A name
    without an equals sign is no attribute. -/
def readAttributeName? (text : List Char) : Option (String × List Char) :=
  match text with
  | [] => none
  | c :: tail =>
    if isSpace c then
      match readName? (skipSpace tail) with
      | none => none
      | some (name, rest) =>
        match skipSpace rest with
        | '=' :: rest => some (name, skipSpace rest)
        | _ => none
    else none

theorem readAttributeName?_length {text rest : List Char} {name : String}
    (h : readAttributeName? text = some (name, rest)) : rest.length < text.length := by
  cases text with
  | nil => cases h
  | cons c tail =>
    unfold readAttributeName? at h
    dsimp only at h
    have first := skipSpace_length tail
    split at h
    · split at h
      · cases h
      · rename_i name' rest' e
        have second := readName?_length e
        have third := skipSpace_length rest'
        split at h
        · rename_i rest'' e'
          cases h
          have fourth := skipSpace_length rest''
          rw [e'] at third
          simp only [List.length_cons] at third ⊢
          omega
        · cases h
    · cases h

def readAttributes (text : List Char) : Except Failure (List (String × String) × List Char) :=
  match _h : readAttributeName? text with
  | none => .ok ([], text)
  | some (name, afterName) =>
    match _h' : readValue afterName with
    | .error failure => .error failure
    | .ok (value, afterValue) =>
      match readAttributes afterValue with
      | .error failure => .error failure
      | .ok (more, rest) => .ok ((name, value) :: more, rest)
termination_by text.length
decreasing_by
  have := readAttributeName?_length _h
  have := readValue_length _h'
  omega

theorem readAttributes_length {text rest : List Char} {attributes : List (String × String)}
    (h : readAttributes text = .ok (attributes, rest)) : rest.length ≤ text.length := by
  fun_induction readAttributes text generalizing attributes rest with
  | case1 => cases h; simp
  | case2 => cases h
  | case3 => cases h
  | case4 text name afterName e value afterValue e' more rest' e'' ih =>
    cases h
    have := readAttributeName?_length e
    have := readValue_length e'
    have := ih e''
    omega

def distinctNames (attributes : List (String × String)) : Bool :=
  decide (attributes.map Prod.fst).Nodup

/-! ### Tags -/

structure Opening where
  tag : Tag
  closed : Bool  -- whether the tag closes its element at once
  rest : List Char

/-- Reads an opening tag from behind its name. -/
def readOpening (name : String) (text : List Char) : Except Failure Opening :=
  match readAttributes text with
  | .error failure => .error failure
  | .ok (attributes, rest) =>
    if distinctNames attributes then
      match skipSpace rest with
      | '/' :: '>' :: after => .ok ⟨⟨name, attributes⟩, true, after⟩
      | '>' :: after => .ok ⟨⟨name, attributes⟩, false, after⟩
      | other => .error ⟨.tag, other⟩
    else .error ⟨.duplicateAttribute, rest⟩

theorem readOpening_length {name : String} {text : List Char} {opening : Opening}
    (h : readOpening name text = .ok opening) : opening.rest.length < text.length := by
  unfold readOpening at h
  split at h
  · cases h
  · rename_i attributes rest e
    have first := readAttributes_length e
    have second := skipSpace_length rest
    split at h
    · split at h
      · rename_i after e'
        cases h
        rw [e'] at second
        simp only [List.length_cons] at second ⊢
        omega
      · rename_i after e'
        cases h
        rw [e'] at second
        simp only [List.length_cons] at second ⊢
        omega
      · cases h
    · cases h

def after? : List Char → List Char → Option (List Char)
  | [], text => some text
  | _ :: _, [] => none
  | c :: front, d :: text => if c = d then after? front text else none

theorem after?_length {front text rest : List Char} (h : after? front text = some rest) :
    rest.length ≤ text.length := by
  induction front generalizing text with
  | nil => cases h; simp
  | cons c front ih =>
    cases text with
    | nil => cases h
    | cons d text =>
      unfold after? at h
      split at h
      · have := ih h
        simp only [List.length_cons]
        omega
      · cases h

def readClosing (name : String) (text : List Char) : Except Failure (List Char) :=
  match text with
  | '<' :: '/' :: afterSlash =>
    match after? name.toList afterSlash with
    | none => .error ⟨.closingTag, afterSlash⟩
    | some afterName =>
      match skipSpace afterName with
      | '>' :: rest => .ok rest
      | rest => .error ⟨.closingTag, rest⟩
  | _ => .error ⟨.closingTag, text⟩

theorem readClosing_length {name : String} {text rest : List Char}
    (h : readClosing name text = .ok rest) : rest.length < text.length := by
  unfold readClosing at h
  split at h
  · split at h
    · cases h
    · rename_i afterSlash _ afterName e
      have first := after?_length e
      have second := skipSpace_length afterName
      split at h
      · rename_i rest' e'
        cases h
        rw [e'] at second
        simp only [List.length_cons] at second ⊢
        omega
      · cases h
  · cases h

end ChatMarkup.Markup
