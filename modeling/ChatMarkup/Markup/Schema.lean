/-
  ChatMarkup/Markup/Schema.lean
  =============================
  **The schema of templates** — which elements there are, which attributes they take
  and where they may stand, and the check of a tree against it.

  * The root is `msg`; below it stand `var`, `b`, `u`, `color`, `for`, `plural` and
    `case`.
  * Required attributes are present, and no others than the rule lists.
  * `var` is empty; `color` sets a foreground, a background or both.
  * `plural` holds at least one `case`, and besides only white space; a `case` stands
    nowhere else.
  * The attributes of `for` that name variables hold valid names.

  Every problem is reported, with the path of the element it was found at. An element
  that the schema does not know is not looked into.
-/
import ChatMarkup.Formula.Token
import ChatMarkup.Markup.Node
import ChatMarkup.Text.Blank

namespace ChatMarkup.Markup

structure Rule where
  required : List String := []
  optional : List String := []
  names : List String := []  -- attributes whose value is the name of a variable
  allowsChildren : Bool := true

def rules : List (String × Rule) :=
  [("var", { required := ["name"], allowsChildren := false }),
   ("b", {}),
   ("u", {}),
   ("color", { optional := ["fg", "bg"] }),
   ("for", { required := ["from", "item"],
             optional := ["key", "separator", "sep", "last_separator", "last"],
             names := ["from", "item", "key"] }),
   ("plural", { required := ["var"] }),
   ("case", { required := ["form"] })]

inductive Problem where
  | wrongRoot
  | nestedRoot
  | unknownElement (name : String)
  | missingAttribute (attr element : String)
  | foreignAttribute (attr element : String)
  | invalidName (value : String)
  | notEmpty (element : String)
  | noColor
  | strayCase
  | noCase
  | notACase (name : String)
  | textInPlural
  deriving DecidableEq, Repr

def Problem.message : Problem → String
  | .wrongRoot => "the root element must be <" ++ rootName ++ ">"
  | .nestedRoot => "<" ++ rootName ++ "> may only appear as the template root"
  | .unknownElement name => "unknown element <" ++ name ++ ">"
  | .missingAttribute attr element =>
    "the \"" ++ attr ++ "\" attribute is required on <" ++ element ++ ">"
  | .foreignAttribute attr element =>
    "attribute \"" ++ attr ++ "\" is not allowed on <" ++ element ++ ">"
  | .invalidName value => "\"" ++ value ++ "\" is not a valid variable name"
  | .notEmpty element => "<" ++ element ++ "> must be empty"
  | .noColor =>
    "the \"fg\" attribute or the \"bg\" attribute or both must be supplied when using the " ++
      "<color> tag"
  | .strayCase => "<case> may only appear directly inside <plural>"
  | .noCase => "<plural> requires at least one <case>"
  | .notACase name => "<" ++ name ++ "> is not allowed inside <plural>"
  | .textInPlural => "text is not allowed directly inside <plural>"

/-- A problem and the names of the elements from the root to the one that has it. -/
structure Diagnostic where
  path : List String
  problem : Problem
  deriving DecidableEq, Repr

namespace Diagnostic

def pathText (diagnostic : Diagnostic) : String :=
  String.join (diagnostic.path.map fun name => "/" ++ name)

def text (diagnostic : Diagnostic) : String :=
  diagnostic.pathText ++ ": " ++ diagnostic.problem.message

end Diagnostic

/-- Decides whether a tree may be rendered: it may if nothing is reported. -/
structure Validator where
  check : Element → List Diagnostic

/-! ### Checking one element -/

def missingProblems (rule : Rule) (tag : Tag) : List Problem :=
  (rule.required.filter fun name => (tag.attribute? name).isNone).map
    fun name => .missingAttribute name tag.name

def attributeProblem? (rule : Rule) (tag : Tag) (attr : String × String) : Option Problem :=
  if !rule.required.contains attr.1 && !rule.optional.contains attr.1 then
    some (.foreignAttribute attr.1 tag.name)
  else if rule.names.contains attr.1 && !Formula.isName attr.2 then
    some (.invalidName attr.2)
  else none

/-- Whether an attribute is absent or empty. -/
def isUnset (tag : Tag) (name : String) : Bool :=
  match tag.attribute? name with
  | none => true
  | some value => value.isEmpty

def pluralChildProblem? : Node → Option Problem
  | .element tag _ => if tag.name == "case" then none else some (.notACase tag.name)
  | .text text => if text.toList.all Text.isBlank then none else some .textInPlural

/-- The problems that only elements of some names can have. -/
def particularProblems (parent : String) (tag : Tag) (children : List Node) : List Problem :=
  if tag.name == "color" then
    if isUnset tag "fg" && isUnset tag "bg" then [.noColor] else []
  else if tag.name == "case" then
    if parent == "plural" then [] else [.strayCase]
  else if tag.name == "plural" then
    (if (elementsOf children).isEmpty then [.noCase] else []) ++
      children.filterMap pluralChildProblem?
  else []

/-- The problems of an element that has a rule, those of its children aside. -/
def ownProblems (rule : Rule) (parent : String) (tag : Tag) (children : List Node) :
    List Problem :=
  missingProblems rule tag ++ tag.attributes.filterMap (attributeProblem? rule tag) ++
    (if !rule.allowsChildren && !children.isEmpty then [.notEmpty tag.name] else []) ++
    particularProblems parent tag children

/-! ### Checking a tree -/

mutual

def checkNode (parent : String) (path : List String) : Node → List Diagnostic
  | .text _ => []
  | .element tag children =>
    let path := path ++ [tag.name]
    match rules.lookup tag.name with
    -- an unknown element has no rule, so there is nothing to check its children against
    | none =>
      [⟨path, if tag.name = rootName then .nestedRoot else .unknownElement tag.name⟩]
    | some rule =>
      (ownProblems rule parent tag children).map (⟨path, ·⟩) ++
        checkNodes tag.name path children

def checkNodes (parent : String) (path : List String) : List Node → List Diagnostic
  | [] => []
  | node :: rest => checkNode parent path node ++ checkNodes parent path rest

end

def checkRoot (root : Element) : List Diagnostic :=
  if root.tag.name = rootName then checkNodes rootName [rootName] root.children
  else [⟨[root.tag.name], .wrongRoot⟩]

def Validator.schema : Validator := ⟨checkRoot⟩

end ChatMarkup.Markup
