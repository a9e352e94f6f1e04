/-
  ChatMarkup/Locale/PluralCache.lean
  ==================================
  **Plural rules of the tags seen so far** — a tag is read the first time a count is
  classified under it, and the rules for it are remembered.

  Nothing but the time it takes tells an answer with the cache from one without it. That holds
  of any rules, so the cache does not know the systems of `ChatMarkup.Locale.Plural`: it is
  given a book of rules, and they are the standard one.
-/
import ChatMarkup.Locale.Error
import ChatMarkup.Locale.Plural

namespace ChatMarkup.Locale

def pluralSystem (tag : String) : Except Error PluralSystem := do
  let parsed ← readTag tag
  pure (PluralSystem.ofTag parsed)

/-- The category of a count, which has the category of its absolute value. -/
def pluralCategory (tag : String) (count : Int64) : Except Error Category := do
  let system ← pluralSystem tag
  pure (system.category count.toInt.natAbs)

/-- Plural rules for tags: where to find those of a tag, and the category that some rules give
    a count. -/
structure RuleBook (Rules : Type) where
  rulesOf : Tag → Except TagFault Rules  -- the rules for a tag, or what is wrong with it
  classify : Rules → Int64 → Category

namespace RuleBook

variable {Rules : Type}

def build (book : RuleBook Rules) (tag : String) : Except Error Rules :=
  (Tag.read tag >>= book.rulesOf).mapError (.invalidTag tag)

def category (book : RuleBook Rules) (tag : String) (count : Int64) : Except Error Category :=
  (book.build tag).map fun rules => book.classify rules count

def standard : RuleBook PluralSystem where
  rulesOf tag := .ok (PluralSystem.ofTag tag)
  classify system count := system.category count.toInt.natAbs

theorem standard_category (tag : String) (count : Int64) :
    standard.category tag count = pluralCategory tag count := by
  rw [category, build, pluralCategory, pluralSystem, readTag]
  cases Tag.read tag <;> rfl

end RuleBook

/-- The rules that have been built, by the tag as it was spelt. -/
abbrev RuleCache (Rules : Type) := List (String × Rules)

namespace RuleCache

variable {Rules : Type}

/-- The category of a count, and the cache afterwards. -/
def category (book : RuleBook Rules) (cache : RuleCache Rules) (tag : String) (count : Int64) :
    Except Error Category × RuleCache Rules :=
  match cache.lookup tag with
  | some rules => (.ok (book.classify rules count), cache)
  | none =>
    match book.build tag with
    | .ok rules => (.ok (book.classify rules count), cache ++ [(tag, rules)])
    -- what is wrong with a tag is not remembered
    | .error error => (.error error, cache)

/-- The categories of counts one after another, each with its own tag. -/
def categories (book : RuleBook Rules) (cache : RuleCache Rules) :
    List (String × Int64) → List (Except Error Category) × RuleCache Rules
  | [] => ([], cache)
  | (tag, count) :: rest =>
    let (first, cache) := category book cache tag count
    let (more, cache) := categories book cache rest
    (first :: more, cache)

end RuleCache

abbrev PluralCache := RuleCache PluralSystem

namespace PluralCache

def categories (cache : PluralCache) (calls : List (String × Int64)) :
    List (Except Error Category) × PluralCache :=
  RuleCache.categories .standard cache calls

end PluralCache

end ChatMarkup.Locale
