/-
  ChatMarkup/Value/Fault.lean
  ===========================
  **Values of the wrong kind** — the ways in which a value can be unfit for what a
  formula or a template does with it, and the words for each.
-/

namespace ChatMarkup

inductive Fault where
  | subtractedArrays
  | arrayWithNumber
  | overflow
  | notANumber (text : String)  -- a text that is not a number stands in a sum
  | notCountable (kind : String)  -- only arrays have entries to count
  | tooManyEntries  -- the number of entries of an array does not fit 64 signed bits
  | shownArray
  | notIterable (source kind : String)  -- a loop runs over a variable that is no array
  | notACount (text : String)  -- a text that is not a finite number selects a plural form
  deriving DecidableEq, Repr

def Fault.message : Fault → String
  | .subtractedArrays => "arrays cannot be subtracted"
  | .arrayWithNumber => "cannot combine an array with a number"
  | .overflow => "integer overflow"
  | .notANumber text => "'" ++ text ++ "' is not a number"
  | .notCountable kind => "cannot count the entries of a " ++ kind
  | .tooManyEntries => "array too large to count"
  | .shownArray => "cannot display an array, use <for> to iterate over it"
  | .notIterable source kind =>
    "<for> expects '" ++ source ++ "' to be an array, found a " ++ kind
  | .notACount text => "cannot pluralize on non-numeric string '" ++ text ++ "'"

end ChatMarkup
