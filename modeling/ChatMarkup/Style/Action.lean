/-
  ChatMarkup/Style/Action.lean
  ============================
  **Courses of actions on a guarded style** — writes to its fields and the opening and closing of
  guards, in which courses guards are closed in order, and which writes are made while none
  is open.
-/
import ChatMarkup.Style.Guard
import Mathlib.Data.List.Infix

namespace ChatMarkup

inductive FieldWrite where
  | bold (isOn : Bool)
  | underline (isOn : Bool)
  | foreground (color : Option Color)
  | background (color : Option Color)
  deriving DecidableEq, Repr

def FieldWrite.apply : FieldWrite → Style → Style
  | .bold isOn, style => { style with bold := isOn }
  | .underline isOn, style => { style with underline := isOn }
  | .foreground color, style => { style with foreground := color }
  | .background color, style => { style with background := color }

def Style.written (style : Style) (writes : List FieldWrite) : Style :=
  writes.foldl (fun style change => change.apply style) style

inductive Action where
  | write (change : FieldWrite)
  | enter
  | leave
  deriving DecidableEq, Repr

def Action.apply : Action → GuardedStyle → GuardedStyle
  | .write change, guarded => guarded.write change.apply
  | .enter, guarded => guarded.enter
  | .leave, guarded => guarded.leave

def GuardedStyle.run (guarded : GuardedStyle) (actions : List Action) : GuardedStyle :=
  actions.foldl (fun guarded action => action.apply guarded) guarded

namespace Action

/-- A guard is closed only while one is open. -/
def InOrder (actions : List Action) : Prop :=
  ∀ front, front <+: actions → front.count .leave ≤ front.count .enter

/-- All guards are closed that are opened, and no others. -/
def Balanced (actions : List Action) : Prop :=
  InOrder actions ∧ actions.count .leave = actions.count .enter

instance (actions : List Action) : Decidable (InOrder actions) :=
  decidable_of_iff (∀ front ∈ actions.inits, front.count .leave ≤ front.count .enter) (by
    simp only [InOrder, List.mem_inits])

/-- The writes that are made while no guard is open, where so many are open to begin with. -/
def writesOutside : Nat → List Action → List FieldWrite
  | _, [] => []
  | 0, .write change :: rest => change :: writesOutside 0 rest
  | opened + 1, .write _ :: rest => writesOutside (opened + 1) rest
  | opened, .enter :: rest => writesOutside (opened + 1) rest
  -- closing what is not open does nothing
  | opened, .leave :: rest => writesOutside (opened - 1) rest

end Action

end ChatMarkup
