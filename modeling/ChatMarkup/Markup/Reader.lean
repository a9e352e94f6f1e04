/-
  ChatMarkup/Markup/Reader.lean
  =============================
  **Reading a template as a tree** — from left to right, with the elements that are
  still open on a stack.

  A text runs up to the next `<`. There a name begins an element, which is opened or, if
  its tag closes it at once, complete; anything else has to be the closing tag of the
  innermost open element. The depth of an element is the number of elements open around
  it, so the stack is never higher than `maxDepth`.
-/
import ChatMarkup.Markup.Piece

namespace ChatMarkup.Markup

/-- An element that is still open: its tag, and the nodes before it in its parent, the
    last one first. -/
structure Frame where
  tag : Tag
  before : List Node

/-- What is wrong with a `<` that begins no element outside all elements. -/
def outsideCause : List Char → Cause
  | '<' :: '/' :: _ => .unopened
  | c :: _ => .unexpected c
  | [] => .closingTag

/-- Reads on with the given open elements, the innermost first, and the nodes read so far
    in the innermost one, the last one first. -/
def readNodes (frames : List Frame) (nodes : List Node) (text : List Char) :
    Except Failure (List Node) :=
  match text with
  | [] =>
    match frames with
    | [] => .ok nodes.reverse
    | _ :: _ => .error ⟨.closingTag, []⟩
  | c :: tail =>
    if _hc : c = '<' then
      match _hName : readName? tail with
      | some (name, afterName) =>
        if frames.length < maxDepth then
          match _hOpen : readOpening name afterName with
          | .error failure => .error failure
          | .ok opening =>
            if opening.closed then
              readNodes frames (.element opening.tag [] :: nodes) opening.rest
            else readNodes (⟨opening.tag, nodes⟩ :: frames) [] opening.rest
        else .error ⟨.nestingTooDeep, c :: tail⟩
      | none =>
        match frames with
        | [] => .error ⟨outsideCause (c :: tail), c :: tail⟩
        | frame :: outer =>
          match _hClose : readClosing frame.tag.name (c :: tail) with
          | .error failure => .error failure
          | .ok rest =>
            readNodes outer (.element frame.tag nodes.reverse :: frame.before) rest
    else
      match _hRun : readRun (· == '<') (c :: tail) with
      | .error failure => .error failure
      | .ok (run, rest) => readNodes frames (.text (String.ofList run) :: nodes) rest
termination_by text.length
decreasing_by
  · have := readName?_length _hName
    have := readOpening_length _hOpen
    simp only [List.length_cons]
    omega
  · have := readName?_length _hName
    have := readOpening_length _hOpen
    simp only [List.length_cons]
    omega
  · exact readClosing_length _hClose
  · exact readRun_cons_length (by simpa using _hc) _hRun

def read (template : String) : Except Error Element :=
  match readNodes [] [] template.toList with
  | .ok nodes => .ok (root nodes)
  | .error failure => .error (failure.toError template.toList)

end ChatMarkup.Markup
