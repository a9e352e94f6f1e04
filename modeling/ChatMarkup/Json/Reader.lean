/-
  ChatMarkup/Json/Reader.lean
  ===========================
  **Reading JSON** — one pass over the tokens that checks the grammar and interprets the
  parts as they come, so that of a refused part and a breach of the grammar the one that
  stands first in the text is reported.

  The state of the pass is what may follow, over the lists and objects that are open, the
  innermost first.
-/
import ChatMarkup.Json.Document

namespace ChatMarkup.Json

def maxDepth : Nat := 127

inductive Error (ε : Type) where
  | malformed  -- it is no JSON
  | refused (cause : ε)  -- a part of it is refused
  deriving DecidableEq

/-- A list or an object that is open, with what it holds so far, the latest first. -/
inductive Frame (α : Type) where
  | list (before : List α)
  /-- The value of the member with this name has to follow. -/
  | object (before : List (String × α)) (name : String)

inductive State (α : Type) where
  | value (frames : List (Frame α))
  | listStart (frames : List (Frame α))  -- a value, or the end of a list without any
  | objectStart (frames : List (Frame α))  -- a key, or the end of an object without any
  | key (before : List (String × α)) (frames : List (Frame α))
  | colon (before : List (String × α)) (name : String) (frames : List (Frame α))
  /-- Nothing more of this value, but more of what is open around it. -/
  | complete (value : α) (frames : List (Frame α))

namespace State

variable {ε α : Type}

/-- Another list or object is opened, unless there are too many already. -/
def opened (frames : List (Frame α)) (state : State α) : Except (Error ε) (State α) :=
  if frames.length < maxDepth then .ok state else .error .malformed

def stepValue (meaning : Interpretation ε α) (frames : List (Frame α)) :
    Token → Except (Error ε) (State α)
  | .atom atom => (meaning.atom atom).map (.complete · frames) |>.mapError .refused
  | .openList => opened frames (.listStart frames)
  | .openObject => opened frames (.objectStart frames)
  | _ => .error .malformed

def stepComplete (meaning : Interpretation ε α) (value : α) :
    List (Frame α) → Token → Except (Error ε) (State α)
  | .list before :: frames, .comma => .ok (.value (.list (value :: before) :: frames))
  | .list before :: frames, .closeList =>
    .ok (.complete (meaning.list (value :: before).reverse) frames)
  | .object before name :: frames, .comma => .ok (.key ((name, value) :: before) frames)
  | .object before name :: frames, .closeObject =>
    .ok (.complete (meaning.object ((name, value) :: before).reverse) frames)
  | _, _ => .error .malformed

def step (meaning : Interpretation ε α) : State α → Token → Except (Error ε) (State α)
  | .value frames, token => stepValue meaning frames token
  | .listStart frames, .closeList => .ok (.complete (meaning.list []) frames)
  -- not the end of the list, so the list is open and its first item follows
  | .listStart frames, token => stepValue meaning (.list [] :: frames) token
  | .objectStart frames, .closeObject => .ok (.complete (meaning.object []) frames)
  | .objectStart frames, .atom (.string name) => .ok (.colon [] name frames)
  | .key before frames, .atom (.string name) => .ok (.colon before name frames)
  | .colon before name frames, .colon => .ok (.value (.object before name :: frames))
  | .complete done frames, token => stepComplete meaning done frames token
  | _, _ => .error .malformed

end State

/-- Reads the tokens that follow a state; nothing may be open at their end. -/
def run {ε α : Type} (meaning : Interpretation ε α) :
    State α → List Token → Except (Error ε) α
  | .complete value [], [] => .ok value
  | _, [] => .error .malformed
  | state, token :: rest => do
    let next ← state.step meaning token
    run meaning next rest

def read {ε α : Type} (meaning : Interpretation ε α) (text : List Char) : Except (Error ε) α :=
  run meaning (.value []) (tokens text)

end ChatMarkup.Json
