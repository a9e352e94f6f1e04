/-
  ChatMarkup/Wire/Offset.lean
  ===========================
  **Cleaning up by offset** — the rules of `ChatMarkup.Wire.Cleanup`, carried out on the octets
  of a text.

  A pass looks for colour characters, asks the rules at their offsets, and copies what stands
  between the rewrites.  It looks and copies only where that can be done: from an offset
  that is not behind the end, and between offsets at which characters begin.  Where it
  cannot, there is no result at all (`none`); a pass that has nothing to rewrite is one with
  a result, but without a text (`some none`).
-/
import ChatMarkup.Text.Octets
import ChatMarkup.Wire.Cleanup

namespace ChatMarkup.Wire

open Text (hasAt isAscii part?)

/-- A rewrite at some offset: `length` octets are replaced by the first `kept` of them. -/
structure Rewrite where
  length : Nat
  kept : Nat
  deriving DecidableEq, Repr

def hasCodeAt (octets : List UInt8) (offset : Nat) : Bool :=
  hasAt Char.isDigit octets offset && hasAt Char.isDigit octets (offset + 1)

def hasPaddingAt (octets : List UInt8) (offset : Nat) : Bool :=
  hasAt (· == bold) octets offset && hasAt (· == bold) octets (offset + 1)

/-- The lengths that an optional pair of characters can take, the longer one first. -/
def optional (present : Bool) : List Nat := if present then [2, 0] else [0]

/-! ### The four rules, given the offset of the colour character -/

def emptyBackgroundAt? (octets : List UInt8) (start : Nat) : Option Rewrite :=
  if hasAt (· == ',') octets (start + 1) &&
      !hasAt (fun c => c == '0' || c == '1') octets (start + 2) then some ⟨2, 0⟩
  else none

/-- Behind the comma: the offset of the next colour character, if only an optional code and
    optional padding come before it. -/
def overriddenBackgroundAt? (octets : List UInt8) (start : Nat) : Option Nat :=
  (optional (hasCodeAt octets start)).findSome? fun trail =>
    ((optional (hasPaddingAt octets (start + trail))).map (start + trail + ·)).find?
      (hasAt (· == color) octets)

def overriddenAt? (octets : List UInt8) (start : Nat) : Option Rewrite :=
  (optional (hasCodeAt octets (start + 1))).findSome? fun lead =>
    let comma := start + 1 + lead
    if hasAt (· == ',') octets comma then
      (overriddenBackgroundAt? octets (comma + 1)).map fun stop => ⟨stop - start, 0⟩
    else none

def paddedCommaAt? (octets : List UInt8) (start : Nat) : Option Rewrite :=
  (optional (hasCodeAt octets (start + 1))).findSome? fun lead =>
    let comma := start + 1 + lead
    let stop := comma + 1 + padding.length
    if hasAt (· == ',') octets comma && hasPaddingAt octets (comma + 1) &&
        !hasAt Char.isDigit octets stop then some ⟨stop - start, comma + 1 - start⟩
    else none

def paddedForegroundAt? (octets : List UInt8) (start : Nat) : Option Rewrite :=
  if hasCodeAt octets (start + 1) && hasPaddingAt octets (start + 3) &&
      !hasAt (· == ',') octets (start + 5) then some ⟨5, 3⟩
  else none

def rewriteAt? (octets : List UInt8) (start : Nat) : Option Rewrite :=
  emptyBackgroundAt? octets start <|> overriddenAt? octets start <|>
    paddedCommaAt? octets start <|> paddedForegroundAt? octets start

theorem le_of_overriddenBackgroundAt? {octets : List UInt8} {start stop : Nat}
    (h : overriddenBackgroundAt? octets start = some stop) : start ≤ stop := by
  obtain ⟨trail, -, found⟩ := List.exists_of_findSome?_eq_some h
  obtain ⟨pad, -, rfl⟩ := List.mem_map.mp (List.mem_of_find?_eq_some found)
  omega

/-- A rewrite takes in more than the colour character. -/
theorem length_of_rewriteAt? {octets : List UInt8} {start : Nat} {rewrite : Rewrite}
    (h : rewriteAt? octets start = some rewrite) : 2 ≤ rewrite.length := by
  simp only [rewriteAt?, Option.orElse_eq_orElse, Option.orElse_eq_or, Option.or_eq_some_iff] at h
  rcases h with h | ⟨-, h | ⟨-, h | ⟨-, h⟩⟩⟩
  · unfold emptyBackgroundAt? at h
    split at h <;> cases h
    exact Nat.le_refl 2
  · obtain ⟨lead, -, found⟩ := List.exists_of_findSome?_eq_some h
    dsimp only at found
    split at found
    · obtain ⟨stop, behind, rfl⟩ := Option.map_eq_some_iff.mp found
      have := le_of_overriddenBackgroundAt? behind
      dsimp only
      omega
    · cases found
  · obtain ⟨lead, -, found⟩ := List.exists_of_findSome?_eq_some h
    dsimp only at found
    split at found <;> cases found
    dsimp only
    omega
  · unfold paddedForegroundAt? at h
    split at h <;> cases h
    exact Nat.le_add_left 2 3

/-! ### Passes -/

/-- The rest of a pass, from the offset `here` on. Up to the offset `copied` the text has been
    copied to `out`, with the rewrites carried out. -/
def passFrom (octets out : List UInt8) (copied here : Nat) : Option (Option (List UInt8)) :=
  if here ≤ octets.length then
    match _found : (octets.drop here).findIdx? (isAscii (· == color)) with
    | some distance =>
      match _rewritten : rewriteAt? octets (here + distance) with
      | some rewrite =>
        -- the octets behind those kept are left out, and both offsets move past them
        let next := here + distance + rewrite.length
        (part? octets copied (here + distance + rewrite.kept)).bind fun part =>
          passFrom octets (out ++ part) next next
      | none => passFrom octets out copied (here + distance + 1)
    | none =>
      -- a rewrite moves `copied` on, so nothing has been rewritten
      if copied = 0 then some none
      else (part? octets copied octets.length).map fun part => some (out ++ part)
  else none
termination_by octets.length + 1 - here
decreasing_by
  · have := length_of_rewriteAt? _rewritten
    omega
  · omega

/-- One pass over a text; without a text if no rule applies anywhere. -/
def pass (octets : List UInt8) : Option (Option (List UInt8)) := passFrom octets [] 0 0

/-- A number of passes lead from one text to another, at which a further pass finds nothing
    to do. -/
inductive Passes : Nat → List UInt8 → List UInt8 → Prop where
  | stop {octets} (done : pass octets = some none) : Passes 0 octets octets
  | more {n octets next last} (rewritten : pass octets = some (some next))
      (rest : Passes n next last) : Passes (n + 1) octets last

end ChatMarkup.Wire
