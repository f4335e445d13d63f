import GoModules.Text.Basic

/-!
# UTF-8

Reading bytes as text. The strict reading refuses what is not UTF-8. The lenient reading replaces
each longest beginning of a character that breaks off, and each byte that begins none, by U+FFFD.
-/

namespace GoModules

abbrev Bytes := List UInt8

namespace Utf8

/-- What a first byte asks for: how many bytes follow it, the bits that it carries itself, and the
bounds of the byte right after it. Later bytes are always within `0x80` and `0xbf`. -/
structure Lead where
  more : Nat
  bits : Nat
  low : UInt8
  high : UInt8
deriving DecidableEq, Repr

/-- The first bytes of characters. The narrower bounds exclude overlong forms, surrogates and
values above U+10FFFF. -/
def lead? (b : UInt8) : Option Lead :=
  if b < 0x80 then some ⟨0, b.toNat, 0x80, 0xbf⟩
  else if b < 0xc2 then none
  else if b < 0xe0 then some ⟨1, b.toNat - 0xc0, 0x80, 0xbf⟩
  else if b = 0xe0 then some ⟨2, 0, 0xa0, 0xbf⟩
  else if b = 0xed then some ⟨2, 0xd, 0x80, 0x9f⟩
  else if b < 0xf0 then some ⟨2, b.toNat - 0xe0, 0x80, 0xbf⟩
  else if b = 0xf0 then some ⟨3, 0, 0x90, 0xbf⟩
  else if b < 0xf4 then some ⟨3, b.toNat - 0xf0, 0x80, 0xbf⟩
  else if b = 0xf4 then some ⟨3, 4, 0x80, 0x8f⟩
  else none

/-- Takes `more` continuation bytes, the first within the bounds given: the value they add up to,
if all are there, and what follows the bytes taken. -/
def continue? : (more bits : Nat) → (low high : UInt8) → Bytes → Option Nat × Bytes
  | 0, bits, _, _, bytes => (some bits, bytes)
  | _ + 1, _, _, _, [] => (none, [])
  | more + 1, bits, low, high, b :: bytes =>
      if low ≤ b ∧ b ≤ high then
        continue? more (bits * 64 + (b.toNat - 0x80)) 0x80 0xbf bytes
      else
        (none, b :: bytes)

theorem length_continue?_le (more bits : Nat) (low high : UInt8) (bytes : Bytes) :
    (continue? more bits low high bytes).2.length ≤ bytes.length := by
  induction more generalizing bits low high bytes with
  | zero => simp [continue?]
  | succ more ih =>
      cases bytes with
      | nil => simp [continue?]
      | cons b bytes =>
          simp only [continue?]
          split
          · exact Nat.le_trans (ih ..) (Nat.le_succ _)
          · simp

/-- The character that starts with `b`, if it is complete, and what follows it; of a character that
is not complete, what follows the bytes that could have begun it. -/
def first (b : UInt8) (bytes : Bytes) : Option Char × Bytes :=
  match lead? b with
  | none => (none, bytes)
  | some lead =>
      let (value, rest) := continue? lead.more lead.bits lead.low lead.high bytes
      (value.map Char.ofNat, rest)

theorem length_first_le (b : UInt8) (bytes : Bytes) :
    (first b bytes).2.length ≤ bytes.length := by
  unfold first
  split
  · simp
  · exact length_continue?_le ..

/-- The text whose UTF-8 form the bytes are. -/
def decode? : Bytes → Option Text
  | [] => some []
  | b :: bytes =>
      match (first b bytes).1 with
      | none => none
      | some c => (decode? (first b bytes).2).map (c :: ·)
termination_by bytes => bytes.length
decreasing_by
  have := length_first_le b bytes
  simp only [List.length_cons]
  omega

/-- The bytes read as text, with U+FFFD for what is not UTF-8. -/
def decodeLossy : Bytes → Text
  | [] => []
  | b :: bytes => ((first b bytes).1.getD '\ufffd') :: decodeLossy (first b bytes).2
termination_by bytes => bytes.length
decreasing_by
  have := length_first_le b bytes
  simp only [List.length_cons]
  omega

def encode (s : Text) : Bytes :=
  s.flatMap String.utf8EncodeChar

example : decode? [0x61, 0xc3, 0xa9] = some "aé".toList := by cbv

example : decodeLossy [0x64, 0xff, 0xe2, 0x82, 0x65] = "d\ufffd\ufffde".toList := by cbv

end Utf8

end GoModules
