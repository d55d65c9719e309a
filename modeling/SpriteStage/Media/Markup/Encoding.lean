import SpriteStage.Text.Utf8

/-!
The encodings of documents.

A mark at the head of a document tells UTF-8 and the two orders of UTF-16. Without a mark the
document is read as UTF-8 until its declaration names another encoding of single bytes.
-/

namespace SpriteStage.Media.Markup

/-- How characters are written in bytes. -/
inductive Encoding where
  /-- UTF-8, for want of another encoding. -/
  | assumed
  | utf8
  | latin
  | ascii
  | utf16 (highFirst : Bool)
  deriving DecidableEq, Repr

/-- Encodings as declarations name them; the order of bytes is left to the mark. -/
inductive EncodingName where
  | utf8
  | latin
  | utf16
  | ascii
  deriving DecidableEq, Repr

/-- Do two texts agree as far as the shorter one goes? The second may have capitals. -/
def agrees : List Char → List Char → Bool
  | a :: as, b :: bs => a == b.toLower && agrees as bs
  | _, _ => true

/-- The encoding that a label names. A label need not be complete, and more may follow it. -/
def EncodingName.ofLabel? (label : String) : Option EncodingName :=
  let agreesWith (names : List String) := names.any fun name => agrees name.toList label.toList
  if agreesWith ["utf-8", "utf8"] then some .utf8
  else if agreesWith ["iso-8859-1", "latin1"] then some .latin
  else if agreesWith ["utf-16", "utf16"] then some .utf16
  else if agreesWith ["ascii", "us-ascii"] then some .ascii
  else none

namespace Encoding

/-- The encoding of the rest of a document, once its declaration has named one. It must not go
against the mark. -/
def declared? (present : Encoding) (name : EncodingName) : Option Encoding :=
  match present, name with
  | .assumed, .utf8 => some .utf8
  | .assumed, .latin => some .latin
  | .assumed, .ascii => some .ascii
  | .utf8, .utf8 => some .utf8
  | .utf16 highFirst, .utf16 => some (.utf16 highFirst)
  | _, _ => none

/-- The encoding that the head of a document shows, and the bytes behind the mark. -/
def ofMark : List UInt8 → Encoding × List UInt8
  | 0xEF :: 0xBB :: 0xBF :: rest => (.utf8, rest)
  | 0xFE :: 0xFF :: rest => (.utf16 true, rest)
  | 0xFF :: 0xFE :: rest => (.utf16 false, rest)
  | bytes => (.assumed, bytes)

inductive Head where
  | nothing
  | noCharacter
  | char (c : Char) (rest : List UInt8)

def unit (highFirst : Bool) (a b : UInt8) : Nat :=
  if highFirst then 256 * a.toNat + b.toNat else a.toNat + 256 * b.toNat

/-- The character of two units, of which the first one is given. -/
def pairHead (highFirst : Bool) (first : Nat) : List UInt8 → Head
  | a :: b :: rest =>
    if first < 0xDC00 ∧ 0xDC00 ≤ unit highFirst a b ∧ unit highFirst a b < 0xE000 then
      .char (Char.ofNat (0x10000 + 1024 * (first - 0xD800) + (unit highFirst a b - 0xDC00))) rest
    else .noCharacter
  | _ => .noCharacter

def head (e : Encoding) : List UInt8 → Head
  | [] => .nothing
  | a :: rest =>
    match e, rest with
    | .latin, rest => .char (Char.ofNat a.toNat) rest
    | .ascii, rest =>
      if a.toNat < 0x80 then .char (Char.ofNat a.toNat) rest else .noCharacter
    | .utf16 highFirst, b :: rest =>
      if unit highFirst a b < 0xD800 ∨ 0xE000 ≤ unit highFirst a b then
        .char (Char.ofNat (unit highFirst a b)) rest
      else pairHead highFirst (unit highFirst a b) rest
    | .utf16 _, [] => .noCharacter
    | _, rest =>
      match Text.firstChar a rest with
      | (some c, taken) => .char c (rest.drop taken)
      | (none, _) => .noCharacter

theorem length_lt_of_pairHead {highFirst : Bool} {first : Nat} {bytes rest : List UInt8} {c : Char}
    (h : pairHead highFirst first bytes = .char c rest) : rest.length < bytes.length := by
  unfold pairHead at h
  split at h
  · split at h
    · obtain ⟨-, rfl⟩ := Head.char.inj h
      simp only [List.length_cons]
      omega
    · cases h
  · cases h

/-- Reading a character uses up bytes. -/
theorem length_lt_of_head {e : Encoding} {bytes rest : List UInt8} {c : Char}
    (h : e.head bytes = .char c rest) : rest.length < bytes.length := by
  unfold head at h
  split at h
  · cases h
  · split at h
    · cases h
      exact Nat.lt_succ_self _
    · split at h
      · cases h
        exact Nat.lt_succ_self _
      · cases h
    · split at h
      · cases h
        simp only [List.length_cons]
        omega
      · have := length_lt_of_pairHead h
        simp only [List.length_cons]
        omega
    · cases h
    · split at h
      · cases h
        simp only [List.length_cons, List.length_drop]
        omega
      · cases h

end Encoding

end SpriteStage.Media.Markup
