/-
  ChatMarkup/Text/Octets.lean
  ===========================
  **Texts as octets** — a text in UTF-8, and looking at it by offset.

  An ASCII character is written as the octet of its code, and of any other character every
  octet is 128 or more.  So an octet that stands for an ASCII character (`isAscii`) is never
  in the middle of another one, and what can be asked of the characters behind a place can
  be asked of the octets behind its offset (`Behind`).
-/
import ChatMarkup.Text.Bytes

namespace ChatMarkup.Text

def octets (text : List Char) : List UInt8 := text.flatMap String.utf8EncodeChar

def isAscii (p : Char → Bool) (octet : UInt8) : Bool :=
  decide (octet < 128) && p (Char.ofUInt8 octet)

def hasAt (p : Char → Bool) (octets : List UInt8) (offset : Nat) : Bool :=
  octets[offset]?.any (isAscii p)

/-- Whether an offset is the end of a text or the beginning of one of its characters. -/
def isBoundary (octets : List UInt8) (offset : Nat) : Bool :=
  match octets[offset]? with
  | some octet => decide octet.IsUTF8FirstByte
  | none => offset == octets.length

/-- The part of a text between two offsets. There is none if they are out of order, behind
    the end or inside a character. -/
def part? (octets : List UInt8) (start stop : Nat) : Option (List UInt8) :=
  -- an offset behind the end is no boundary
  if start ≤ stop ∧ isBoundary octets start = true ∧ isBoundary octets stop = true then
    some ((octets.take stop).drop start)
  else none

def IsAsciiClass (p : Char → Bool) : Prop := ∀ c, p c = true → c.toNat < 128

/-! ### Encoded texts -/

@[simp] theorem octets_append (a b : List Char) : octets (a ++ b) = octets a ++ octets b :=
  List.flatMap_append

theorem octets_cons (c : Char) (text : List Char) :
    octets (c :: text) = String.utf8EncodeChar c ++ octets text := rfl

@[simp] theorem length_octets (text : List Char) : (octets text).length = byteLength text := by
  induction text with
  | nil => rfl
  | cons c text ih => rw [octets_cons, List.length_append, String.length_utf8EncodeChar, ih]; rfl

theorem utf8Size_of_lt {c : Char} (h : c.toNat < 128) : c.utf8Size = 1 := by
  have small : c.val ≤ 127 := UInt32.le_iff_toNat_le.mpr (Nat.le_of_lt_succ h)
  simp [Char.utf8Size, small]

/-- Of ASCII characters there are as many as octets. -/
theorem byteLength_of_ascii {text : List Char} (h : ∀ c ∈ text, c.toNat < 128) :
    byteLength text = text.length := by
  induction text with
  | nil => rfl
  | cons c text ih =>
    obtain ⟨first, others⟩ := List.forall_mem_cons.mp h
    rw [byteLength, utf8Size_of_lt first, ih others, List.length_cons, Nat.add_comm]

theorem byteLength_le_of_sublist {a b : List Char} (h : a.Sublist b) :
    byteLength a ≤ byteLength b := by
  induction h with
  | slnil => exact Nat.le_refl 0
  | cons c _ ih => exact Nat.le_add_left_of_le ih
  | cons_cons c _ ih => exact Nat.add_le_add_left ih _

/-- An octet below 128 is a whole character. -/
theorem eq_of_mem_utf8EncodeChar {c : Char} {octet : UInt8} (h : octet ∈ String.utf8EncodeChar c)
    (small : octet < 128) : Char.ofUInt8 octet = c ∧ c.toNat < 128 := by
  have small : octet.toNat < 128 := UInt8.lt_iff_toNat_lt.mp small
  unfold String.utf8EncodeChar at h
  by_cases ascii : c.val.toNat ≤ 127
  · rw [if_pos ascii, List.mem_singleton] at h
    refine ⟨?_, Nat.lt_succ_of_le ascii⟩
    apply Char.ext
    apply UInt32.toNat_inj.mp
    rw [h]
    change c.val.toUInt8.toUInt32.toNat = c.val.toNat
    rw [UInt8.toNat_toUInt32, UInt32.toNat_toUInt8]
    exact Nat.mod_eq_of_lt (by omega)
  · rw [if_neg ascii] at h
    split at h
    · simp only [List.mem_cons, List.not_mem_nil, or_false] at h
      rcases h with rfl | rfl <;> simp at small <;> omega
    · split at h
      · simp only [List.mem_cons, List.not_mem_nil, or_false] at h
        rcases h with rfl | rfl | rfl <;> simp at small <;> omega
      · simp only [List.mem_cons, List.not_mem_nil, or_false] at h
        rcases h with rfl | rfl | rfl | rfl <;> simp at small <;> omega

/-- An ASCII character is one octet. -/
theorem utf8EncodeChar_of_lt {c : Char} (h : c.toNat < 128) :
    ∃ octet, String.utf8EncodeChar c = [octet] ∧ octet < 128 ∧ Char.ofUInt8 octet = c := by
  have small : c.val.toUInt8.toNat < 128 := by
    rw [UInt32.toNat_toUInt8]
    exact Nat.lt_of_le_of_lt (Nat.mod_le _ _) h
  have code := String.utf8EncodeChar_eq_singleton (utf8Size_of_lt h)
  have small : c.val.toUInt8 < 128 := UInt8.lt_iff_toNat_lt.mpr small
  exact ⟨_, code, small, (eq_of_mem_utf8EncodeChar (by rw [code]; simp) small).1⟩

/-- No octet of a text stands for a character that is not in it. -/
theorem isAscii_of_mem_octets {p : Char → Bool} {text : List Char} {octet : UInt8}
    (h : octet ∈ octets text) (ascii : isAscii p octet = true) : ∃ c ∈ text, p c = true := by
  rw [isAscii, Bool.and_eq_true, decide_eq_true_eq] at ascii
  obtain ⟨c, member, h⟩ := List.mem_flatMap.mp h
  refine ⟨c, member, ?_⟩
  rw [← (eq_of_mem_utf8EncodeChar h ascii.1).1]
  exact ascii.2

theorem findIdx?_octets_eq_none {p : Char → Bool} {text : List Char}
    (h : ∀ c ∈ text, p c = false) : (octets text).findIdx? (isAscii p) = none := by
  rw [List.findIdx?_eq_none_iff]
  intro octet member
  rw [Bool.eq_false_iff]
  intro ascii
  obtain ⟨c, inside, found⟩ := isAscii_of_mem_octets member ascii
  rw [h c inside] at found
  cases found

/-- The first ASCII character of some class is found at its offset. -/
theorem findIdx?_octets_append {p : Char → Bool} {front behind : List Char} {c : Char}
    (h : ∀ d ∈ front, p d = false) (found : p c = true) (small : c.toNat < 128) :
    (octets (front ++ c :: behind)).findIdx? (isAscii p) = some (byteLength front) := by
  obtain ⟨octet, code, low, same⟩ := utf8EncodeChar_of_lt small
  have first : isAscii p octet = true := by simp [isAscii, low, same, found]
  rw [octets_append, List.findIdx?_append, findIdx?_octets_eq_none h, octets_cons, code]
  simp [List.findIdx?_cons, first]

/-- Where there is an ASCII character, a text can be taken apart. -/
theorem exists_of_hasAt {p : Char → Bool} {text : List Char} {offset : Nat}
    (h : hasAt p (octets text) offset = true) :
    ∃ before c behind, text = before ++ c :: behind ∧ p c = true ∧ offset = byteLength before := by
  induction text generalizing offset with
  | nil => simp [hasAt] at h
  | cons d text ih =>
    obtain ⟨octet, found, ascii⟩ := (Option.any_eq_true _ _).mp h
    rw [octets_cons, List.getElem?_append] at found
    by_cases inside : offset < (String.utf8EncodeChar d).length
    · -- an octet of the first character is all of it
      rw [if_pos inside] at found
      rw [isAscii, Bool.and_eq_true, decide_eq_true_eq] at ascii
      obtain ⟨same, small⟩ := eq_of_mem_utf8EncodeChar (List.mem_of_getElem? found) ascii.1
      rw [String.length_utf8EncodeChar, utf8Size_of_lt small] at inside
      refine ⟨[], d, text, rfl, ?_, Nat.lt_one_iff.mp inside⟩
      rw [← same]
      exact ascii.2
    · rw [if_neg inside, String.length_utf8EncodeChar] at found
      rw [String.length_utf8EncodeChar] at inside
      have later : hasAt p (octets text) (offset - d.utf8Size) = true := by
        rw [hasAt, found]
        exact ascii
      obtain ⟨before, c, behind, rfl, member, e⟩ := ih later
      refine ⟨d :: before, c, behind, rfl, member, ?_⟩
      rw [byteLength]
      omega

/-! ### What stands behind an offset -/

structure Behind (all : List UInt8) (offset : Nat) (text : List Char) : Prop where
  le : offset ≤ all.length
  drop : all.drop offset = octets text

namespace Behind

variable {all : List UInt8} {offset : Nat} {text rest : List Char}

theorem start (text : List Char) : Behind (octets text) 0 text := ⟨Nat.zero_le _, rfl⟩

/-- The end of the text, counted from an offset. -/
theorem length_eq (h : Behind all offset text) : all.length = offset + byteLength text := by
  have dropped := congrArg List.length h.drop
  rw [List.length_drop, length_octets] at dropped
  have := h.le
  omega

theorem append (h : Behind all offset (text ++ rest)) :
    Behind all (offset + byteLength text) rest := by
  constructor
  · rw [h.length_eq, byteLength_append]
    omega
  · rw [← List.drop_drop, h.drop, octets_append, ← length_octets, List.drop_left]

theorem next {c : Char} (h : Behind all offset (c :: rest)) (ascii : c.toNat < 128) :
    Behind all (offset + 1) rest := by
  have h : Behind all offset ([c] ++ rest) := h
  have behind := h.append
  rwa [byteLength, utf8Size_of_lt ascii] at behind

/-- Asking for an ASCII character at an offset is asking for it at the front of what stands
    behind. -/
theorem hasAt_eq {p : Char → Bool} (h : Behind all offset text) (narrow : IsAsciiClass p) :
    hasAt p all offset = text.head?.any p := by
  have look : all[offset]? = (octets text)[0]? := by
    rw [← h.drop, List.getElem?_drop, Nat.add_zero]
  rw [hasAt, look]
  cases text with
  | nil => rfl
  | cons c text =>
    by_cases ascii : c.toNat < 128
    · obtain ⟨octet, code, small, same⟩ := utf8EncodeChar_of_lt ascii
      simp [octets_cons, code, isAscii, small, same]
    · -- the first octet of any other character is no ASCII character
      have notP : p c = false := by
        rw [Bool.eq_false_iff]
        intro member
        exact ascii (narrow c member)
      cases code : String.utf8EncodeChar c with
      | nil => exact absurd code String.utf8EncodeChar_ne_nil
      | cons octet more =>
        have large : ¬octet < 128 := by
          intro small
          exact ascii (eq_of_mem_utf8EncodeChar (by rw [code]; simp) small).2
        simp [octets_cons, code, isAscii, large, notP]

theorem isBoundary (h : Behind all offset text) : isBoundary all offset = true := by
  have look : all[offset]? = (octets text)[0]? := by
    rw [← h.drop, List.getElem?_drop, Nat.add_zero]
  rw [Text.isBoundary, look]
  cases text with
  | nil =>
    have := h.length_eq
    simp_all
  | cons c text =>
    have first := UInt8.isUTF8FirstByte_getElem_zero_utf8EncodeChar (c := c)
    have some : 0 < (String.utf8EncodeChar c).length := by simp [c.utf8Size_pos]
    rw [octets_cons, List.getElem?_append_left some, List.getElem?_eq_getElem some]
    simp [first]

/-- A part of a text can be taken out from place to place. -/
theorem part?_eq (h : Behind all offset (text ++ rest)) :
    part? all offset (offset + byteLength text) = some (octets text) := by
  have whole : all = all.take offset ++ (octets text ++ octets rest) := by
    rw [← octets_append, ← h.drop, List.take_append_drop]
  rw [part?, if_pos ⟨Nat.le_add_right _ _, h.isBoundary, h.append.isBoundary⟩]
  rw [List.drop_take, h.drop, octets_append, Nat.add_sub_cancel_left, ← length_octets,
    List.take_left]

end Behind

end ChatMarkup.Text
