/-
  ChatMarkup/Locale/Tag.lean
  ==========================
  **Locale tags** — a language with an optional script, region, variants and
  extensions, read from its parts and written with canonical letter case and order.

  A tag may be spelt with underscores, and a suffix from the first `.` or `@` on is
  ignored, so that the names of system locales are accepted. No part is replaced by
  another: a deprecated language keeps its code.
-/
import ChatMarkup.Text.Bytes
import ChatMarkup.Text.Order
import ChatMarkup.Text.Segments

namespace ChatMarkup.Locale

inductive TagFault where
  | language
  | subtag
  | singleton
  | repeatedSingleton
  deriving DecidableEq, Repr

def TagFault.message : TagFault → String
  | .language => "The given language subtag is invalid"
  | .subtag => "Invalid subtag"
  | .singleton => "Invalid extension"
  | .repeatedSingleton => "Duplicated extension"

/-- A part of a tag between hyphens, in lower case. -/
abbrev Subtag := List Char

/-- The language, script, region and variants of a tag, in lower case. -/
structure LanguageId where
  language : Subtag
  script : Option Subtag
  region : Option Subtag
  variants : List Subtag
  deriving DecidableEq, Repr

/-- A tag: what identifies its language, and its extensions by their singleton, each as
    its subtags in canonical order. -/
structure Tag where
  id : LanguageId
  extensions : List (Char × List Subtag)
  deriving DecidableEq, Repr

/-! ### Classes of subtags -/

def isAlphanumeric (least most : Nat) (s : Subtag) : Bool :=
  s.all Char.isAlphanum && Nat.ble least s.length && Nat.ble s.length most

def isLanguage (s : Subtag) : Bool := s.all Char.isAlpha && (s.length == 2 || s.length == 3)

def isScript (s : Subtag) : Bool := s.all Char.isAlpha && s.length == 4

def isRegion (s : Subtag) : Bool :=
  (s.all Char.isAlpha && s.length == 2) || (s.all Char.isDigit && s.length == 3)

def isVariant (s : Subtag) : Bool :=
  isAlphanumeric 5 8 s || (isAlphanumeric 4 4 s && (s.head?.map Char.isDigit).getD false)

/-- Whether a subtag is a single byte long, as those that begin an extension are. -/
def isSingle (s : Subtag) : Bool := Text.byteLength s == 1

def isValue (s : Subtag) : Bool := isAlphanumeric 3 8 s

def isKey : Subtag → Bool
  | [a, b] => a.isAlphanum && b.isAlpha
  | _ => false

def isFieldKey : Subtag → Bool
  | [a, b] => a.isAlpha && b.isDigit
  | _ => false

/-! ### Languages, scripts, regions and variants -/

def insertSorted (s : Subtag) : List Subtag → List Subtag
  | [] => [s]
  | t :: rest => if Text.atMost s t then s :: t :: rest else t :: insertSorted s rest

/-- Which parts of a language identifier may still follow. -/
inductive Expected where
  | script
  | region
  | variant
  deriving DecidableEq

/-- Reads what follows the language. A single-byte subtag ends the identifier; any other
    that does not fit is an error, or ends it too where `embedded` says so. -/
def readIdParts (embedded : Bool) (expected : Expected) (id : LanguageId) :
    List Subtag → Except TagFault (LanguageId × List Subtag)
  | [] => .ok (id, [])
  | s :: rest =>
    if isSingle s then .ok (id, s :: rest)
    else if expected = .script ∧ isScript s then
      readIdParts embedded .region { id with script := some s } rest
    else if expected ≠ .variant ∧ isRegion s then
      readIdParts embedded .variant { id with region := some s } rest
    else if isVariant s then
      -- variants are ordered, but none may repeat
      if s ∈ id.variants then .error .subtag
      else readIdParts embedded .variant { id with variants := insertSorted s id.variants } rest
    else if embedded then .ok (id, s :: rest)
    else .error .subtag

def readId (embedded : Bool) : List Subtag → Except TagFault (LanguageId × List Subtag)
  | [] => .error .language
  | s :: rest =>
    if isLanguage s then readIdParts embedded .script ⟨s, none, none, []⟩ rest
    else .error .language

def LanguageId.subtags (id : LanguageId) : List Subtag :=
  id.language :: id.script.toList ++ id.region.toList ++ id.variants

/-! ### Extensions -/

abbrev Keyed := Subtag × List Subtag

/-- Inserts an entry by its key, unless the key is there already. -/
def insertKeyed (entry : Keyed) : List Keyed → List Keyed
  | [] => [entry]
  | other :: rest =>
    if entry.1 = other.1 then other :: rest
    else if Text.atMost entry.1 other.1 then entry :: other :: rest
    else other :: insertKeyed entry rest

/-- The value that stands for itself when it is left out. -/
def impliedValue : Subtag := "true".toList

def readKeywords (found : List Keyed) (subtags : List Subtag) :
    Except TagFault (List Keyed × List Subtag) :=
  match subtags with
  | [] => .ok (found, [])
  | key :: rest =>
    if Text.byteLength key == 2 then
      if isKey key then
        let values := (rest.takeWhile isValue).filter (· != impliedValue)
        readKeywords (insertKeyed (key, values) found) (rest.dropWhile isValue)
      else .error .singleton
    else .ok (found, key :: rest)
termination_by subtags.length
decreasing_by
  have := (List.dropWhile_sublist isValue (l := rest)).length_le
  simp only [List.length_cons]
  omega

/-- Reads the fields of transformed content, each a key with at least one value. -/
def readFields (found : List Keyed) (subtags : List Subtag) :
    Except TagFault (List Keyed × List Subtag) :=
  match subtags with
  | [] => .ok (found, [])
  | key :: rest =>
    if isFieldKey key then
      let values := rest.takeWhile isValue
      if values.isEmpty then .error .singleton
      else
        let kept := values.filter (· != impliedValue)
        -- a field cannot do without a value: an implied one is written out if it is the only one
        let written := if kept.isEmpty then [impliedValue] else kept
        readFields (insertKeyed (key, written) found) (rest.dropWhile isValue)
    else .ok (found, key :: rest)
termination_by subtags.length
decreasing_by
  have := (List.dropWhile_sublist isValue (l := rest)).length_le
  simp only [List.length_cons]
  omega

def keyedSubtags (entries : List Keyed) : List Subtag :=
  entries.flatMap fun entry => entry.1 :: entry.2

def complete (subtags rest : List Subtag) : Except TagFault (List Subtag) :=
  if rest.isEmpty && !subtags.isEmpty then .ok subtags else .error .singleton

/-- The extension of keywords: attributes in order, each once, and keywords by key. -/
def readKeywordExtension (body : List Subtag) : Except TagFault (List Subtag) := do
  let attributes := (body.takeWhile isValue).eraseDups.foldr insertSorted []
  let (keywords, rest) ← readKeywords [] (body.dropWhile isValue)
  complete (attributes ++ keyedSubtags keywords) rest

def readTransformExtension (body : List Subtag) : Except TagFault (List Subtag) := do
  let (source, rest) ←
    if (body.head?.map isLanguage).getD false then do
      let (id, rest) ← readId true body
      pure (id.subtags, rest)
    else pure ([], body)
  let (fields, rest) ← readFields [] rest
  complete (source ++ keyedSubtags fields) rest

/-- An extension without a structure of its own: subtags of two to eight bytes, of which
    those that are not letters and digits are left out. -/
def readOtherExtension (body : List Subtag) : Except TagFault (List Subtag) :=
  let fits (s : Subtag) := Nat.ble 2 (Text.byteLength s) && Nat.ble (Text.byteLength s) 8
  complete ((body.takeWhile fits).filter (isAlphanumeric 2 8)) (body.dropWhile fits)

/-- Subtags for private use: everything up to the end of the tag. -/
def readPrivateExtension (body : List Subtag) : Except TagFault (List Subtag) :=
  if body.all (isAlphanumeric 1 8) then complete body [] else .error .singleton

def readExtension (singleton : Char) (body : List Subtag) : Except TagFault (List Subtag) :=
  if singleton = 'u' then readKeywordExtension body
  else if singleton = 't' then readTransformExtension body
  else if singleton = 'x' then readPrivateExtension body
  else readOtherExtension body

/-- Subtags in groups, each begun by a single-byte subtag; private use takes all the
    rest. -/
def groups (subtags : List Subtag) : List (Subtag × List Subtag) :=
  match subtags with
  | [] => []
  | s :: rest =>
    -- subtags of any length belong to private use
    if s = ['x'] then [(s, rest)]
    else (s, rest.takeWhile fun t => !isSingle t) :: groups (rest.dropWhile fun t => !isSingle t)
termination_by subtags.length
decreasing_by
  have := (List.dropWhile_sublist (fun t => !isSingle t) (l := rest)).length_le
  simp only [List.length_cons]
  omega

/-- The place of an extension in a tag: by its singleton, private use last. -/
def extensionRank (singleton : Char) : Nat :=
  if singleton = 'x' then 128 else singleton.toNat

def insertExtension (extension : Char × List Subtag) :
    List (Char × List Subtag) → List (Char × List Subtag)
  | [] => [extension]
  | other :: rest =>
    if Nat.ble (extensionRank extension.1) (extensionRank other.1) then
      extension :: other :: rest
    else other :: insertExtension extension rest

/-- Reads the groups of subtags that follow the language identifier, each begun by a
    letter or a digit. -/
def readExtensions (found : List (Char × List Subtag)) :
    List (Subtag × List Subtag) → Except TagFault (List (Char × List Subtag))
  | [] => .ok found
  | ([singleton], body) :: rest =>
    if !singleton.isAlphanum then .error .singleton
    else if (found.map Prod.fst).contains singleton then .error .repeatedSingleton
    else do
      let subtags ← readExtension singleton body
      readExtensions (insertExtension (singleton, subtags) found) rest
  | _ :: _ => .error .singleton

/-! ### Whole tags -/

/-- The subtags of a text: up to the first `.` or `@`, between hyphens and underscores, in
    lower case. -/
def subtagsOf (text : String) : List Subtag :=
  let tag := text.toList.takeWhile fun c => !(c == '.' || c == '@')
  Text.splitOn '-' (tag.map fun c => if c = '_' then '-' else c.toLower)

def Tag.read (text : String) : Except TagFault Tag := do
  let (id, rest) ← readId false (subtagsOf text)
  let extensions ← readExtensions [] (groups rest)
  pure ⟨id, extensions⟩

namespace Tag

def language (tag : Tag) : String := String.ofList tag.id.language

def titleCase : List Char → List Char
  | [] => []
  | c :: rest => c.toUpper :: rest

def script? (tag : Tag) : Option String := tag.id.script.map fun s => String.ofList (titleCase s)

def region? (tag : Tag) : Option String :=
  tag.id.region.map fun s => String.ofList (s.map Char.toUpper)

/-- The tag with canonical letter case and order. -/
def text (tag : Tag) : String :=
  let id := tag.language.toList ::
    (tag.script?.map String.toList).toList ++ (tag.region?.map String.toList).toList ++
      tag.id.variants
  let extensions := tag.extensions.flatMap fun extension => [extension.1] :: extension.2
  String.ofList (Text.joinWith ['-'] (id ++ extensions))

end Tag

end ChatMarkup.Locale
