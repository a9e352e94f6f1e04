/-
  ChatMarkup/Formula/Operand.lean
  ===============================
  **Operands** — addition and subtraction of values, and the number of entries of an
  array.

  Integers are added exactly or refused; a real on either side makes the result a real.
  Typed values count as what they are worth, texts as the number they spell. Arrays can
  be added to one another and counted, nothing else.
-/
import ChatMarkup.Decimal.Reading
import ChatMarkup.Formula.Error
import ChatMarkup.Formula.Scope
import ChatMarkup.Text.Blank
import ChatMarkup.Value.Entries

namespace ChatMarkup.Formula

inductive Op where
  | add
  | sub
  deriving DecidableEq, Repr

def Op.onInt : Op → Int → Int → Int
  | .add, a, b => a + b
  | .sub, a, b => a - b

def Op.onReal : Op → Float → Float → Float
  | .add, a, b => a + b
  | .sub, a, b => a - b

def Number.toFloat : Number → Float
  | .int n => n.toFloat
  | .real x => x

def Number.toValue : Number → Value
  | .int n => .int n
  | .real x => .real x

/-- The number that a text spells, white space around it aside. -/
def numberOfText? (text : String) : Option Number :=
  let trimmed := Text.trim text.toList
  match Decimal.readInt64? trimmed with
  | some n => some (.int n)
  | none => (Decimal.readFloat? trimmed).map .real

def numberOfScalar : Scalar → Except Error Number
  | .int n => .ok (.int n)
  | .float x => .ok (.real x)
  | .str text =>
    match numberOfText? text with
    | some n => .ok n
    | none => .error (.unfit (.notANumber text))

def numberOf : Value → Except Error Number
  | .int n => .ok (.int n)
  | .real x => .ok (.real x)
  | .str text => numberOfScalar (.str text)
  | .typed t => numberOfScalar t.raw
  | .array _ => .error (.unfit .arrayWithNumber)

def combineNumbers (op : Op) : Number → Number → Except Error Value
  | .int a, .int b =>
    -- the exact result first, and then the question whether there is a word for it
    match Decimal.int64? (op.onInt a.toInt b.toInt) with
    | some n => .ok (.int n)
    | none => .error (.unfit .overflow)
  | a, b => .ok (.real (op.onReal a.toFloat b.toFloat))

def combine (op : Op) : Value → Value → Except Error Value
  | .array first, .array second =>
    match op with
    | .add => .ok (.array (Entries.merge first second))
    | .sub => .error (.unfit .subtractedArrays)
  -- one array is refused before the other operand is read as a number
  | .array _, _ => .error (.unfit .arrayWithNumber)
  | _, .array _ => .error (.unfit .arrayWithNumber)
  | left, right => do
    let a ← numberOf left
    let b ← numberOf right
    combineNumbers op a b

def count : Value → Except Error Value
  | .array entries =>
    match Decimal.int64? entries.length with
    | some n => .ok (.int n)
    | none => .error (.unfit .tooManyEntries)
  | other => .error (.unfit (.notCountable other.kind))

def resolve (scope : Scope) (name : String) : Except Error Value :=
  match scope.get? name with
  | some value => .ok value
  | none => .error (.undefinedVariable name)

end ChatMarkup.Formula
