import GoModules.Proofs.Offset.Bounds
import GoModules.Proofs.Text.Utf8
import Mathlib.Data.List.Induction

/-!
# Looking at the bytes of a text

A byte below 128 is an ASCII character and never a part of another one. So where the bytes of a text
are looked at one by one for ASCII characters of a kind, the characters of that kind are found, and
the offset at which a scan of the bytes ends is between two characters.
-/

namespace GoModules.Offset

open Text (byteLength)
open Utf8 (encode)

/-- Whether a byte is an ASCII character of a kind. -/
def ascii (q : Char → Bool) (b : UInt8) : Bool :=
  b < 0x80 && q (Char.ofNat b.toNat)

/-- The byte that stands a number of bytes before an index. -/
def byteBefore? (bytes : Bytes) (i k : Nat) : Option UInt8 := do
  bytes[← minus? i k]?

/-- The index down to which bytes are of a kind, if they are scanned backwards from an index. -/
def scanBack? (p : UInt8 → Bool) (bytes : Bytes) : Nat → Option Nat
  | 0 => some 0
  | i + 1 => do
      if p (← bytes[i]?) then scanBack? p bytes i else return i + 1

variable {q : Char → Bool} {c : Char} {b : UInt8} {s front part : Text}

theorem encode_append (s t : Text) : encode (s ++ t) = encode s ++ encode t :=
  List.flatMap_append

theorem encode_singleton (c : Char) : encode [c] = String.utf8EncodeChar c :=
  List.flatMap_singleton _ c

theorem ascii_of_mem (hq : ∀ c, q c → c.toNat < 128) (hb : b ∈ String.utf8EncodeChar c) :
    ascii q b = q c := by
  by_cases hlow : b.toNat < 128
  · have hmem : b ∈ encode [c] := by rwa [encode_singleton]
    have hchar := Utf8.mem_of_mem_encode hlow hmem
    rw [List.mem_singleton] at hchar
    have hbyte : b < 0x80 := UInt8.lt_iff_toNat_lt.mpr hlow
    rw [ascii, hchar, decide_eq_true hbyte, Bool.true_and]
  · have hother : ¬ q c := by
      intro hc
      have hencode := Utf8.utf8EncodeChar_one (hq c hc)
      rw [Char.ofNat_toNat] at hencode
      rw [hencode, List.mem_singleton] at hb
      apply hlow
      rw [hb, UInt8.toNat_ofNat']
      have hcode := hq c hc
      omega
    have hbyte : ¬ b < 0x80 := fun h => hlow (UInt8.lt_iff_toNat_lt.mp h)
    rw [ascii, decide_eq_false hbyte, Bool.false_and, Bool.eq_false_iff.mpr hother]

/-- The last byte of a text belongs to its last character. -/
theorem exists_encode_concat (s : Text) (c : Char) :
    ∃ bytes b, encode (s ++ [c]) = bytes ++ [b] ∧ b ∈ String.utf8EncodeChar c := by
  obtain ⟨b, bytes, hbytes, -⟩ := Utf8.exists_first_utf8EncodeChar c
  have hne : String.utf8EncodeChar c ≠ [] := by
    rw [hbytes]
    exact List.cons_ne_nil b bytes
  refine ⟨encode s ++ (String.utf8EncodeChar c).dropLast, _, ?_, List.getLast_mem hne⟩
  rw [List.append_assoc, List.dropLast_append_getLast hne, encode_append, encode_singleton]

theorem encode_cons_of_ascii (hc : c.toNat < 128) (s : Text) :
    encode (c :: s) = UInt8.ofNat c.toNat :: encode s := by
  have hencode := Utf8.utf8EncodeChar_one hc
  rw [Char.ofNat_toNat] at hencode
  rw [Utf8.encode_cons, hencode, List.singleton_append]

theorem exists_encode_cons (c : Char) (s : Text) :
    ∃ b bytes, encode (c :: s) = b :: bytes ∧ b ∈ String.utf8EncodeChar c := by
  obtain ⟨b, bytes, hbytes, -⟩ := Utf8.exists_first_utf8EncodeChar c
  rw [Utf8.encode_cons, hbytes]
  exact ⟨b, _, rfl, List.mem_cons_self⟩

/-- The byte before the offset behind a character belongs to the character. -/
theorem exists_byteBefore?_concat (s : Text) (c : Char) (behind : Text) :
    ∃ b ∈ String.utf8EncodeChar c,
      byteBefore? (encode (s ++ [c] ++ behind)) (byteLength (s ++ [c])) 1 = some b := by
  obtain ⟨bytes, b, hencode, hb⟩ := exists_encode_concat s c
  refine ⟨b, hb, ?_⟩
  rw [← length_encode, encode_append, hencode, List.length_append, List.length_singleton,
    byteBefore?, minus?_of_le (Nat.le_add_left 1 _), Nat.add_sub_cancel]
  simp

theorem byteBefore?_succ (bytes : Bytes) (i k : Nat) :
    byteBefore? bytes (i + 1) (k + 1) = byteBefore? bytes i k := by
  rw [byteBefore?, byteBefore?, minus?, minus?]
  simp

theorem any_ascii_encode (hq : ∀ c, q c → c.toNat < 128) (s : Text) :
    (encode s).any (ascii q) = s.any q := by
  induction s with
  | nil => rfl
  | cons c s ih =>
      obtain ⟨b, bytes, hbytes, -⟩ := Utf8.exists_first_utf8EncodeChar c
      have hc : (String.utf8EncodeChar c).any (ascii q) = q c := by
        rw [Bool.eq_iff_iff, List.any_eq_true]
        constructor
        · rintro ⟨b, hb, hq'⟩
          rwa [ascii_of_mem hq hb] at hq'
        · intro hq'
          have hb : b ∈ String.utf8EncodeChar c := by
            rw [hbytes]
            exact List.mem_cons_self
          exact ⟨b, hb, by rwa [ascii_of_mem hq hb]⟩
      rw [Utf8.encode_cons, List.any_append, hc, ih, List.any_cons]

theorem scanBack?_succ {p : UInt8 → Bool} {bytes : Bytes} {i : Nat} (h : bytes[i]? = some b) :
    scanBack? p bytes (i + 1) = if p b then scanBack? p bytes i else some (i + 1) := by
  rw [scanBack?, h]
  rfl

theorem scanBack?_append {p : UInt8 → Bool} {before kept : Bytes} (hkept : ∀ b ∈ kept, p b)
    (hbefore : ∀ b ∈ before.getLast?, p b = false) (behind : Bytes) :
    scanBack? p (before ++ (kept ++ behind)) (before.length + kept.length) =
      some before.length := by
  induction kept using List.reverseRecOn generalizing behind with
  | nil =>
      rcases List.eq_nil_or_concat' before with rfl | ⟨before, b, rfl⟩
      · rfl
      · have hb : p b = false := hbefore b (by simp)
        have hbyte : (before ++ [b] ++ ([] ++ behind))[before.length]? = some b := by simp
        rw [List.length_append, List.length_singleton, List.length_nil, Nat.add_zero,
          scanBack?_succ hbyte, hb]
        rfl
  | append_singleton kept b ih =>
      rw [List.forall_mem_append, List.forall_mem_singleton] at hkept
      have hbyte : (before ++ (kept ++ [b] ++ behind))[before.length + kept.length]? = some b := by
        simp
      rw [List.length_append, List.length_singleton, ← Nat.add_assoc, scanBack?_succ hbyte,
        if_pos hkept.2, List.append_assoc kept]
      exact ih hkept.1 ([b] ++ behind)

/-- Characters of a kind that a text ends in are passed by a scan, and no others. -/
theorem scanBack?_encode (hq : ∀ c, q c → c.toNat < 128) (hpart : ∀ c ∈ part, q c)
    (hfront : ∀ c ∈ front.getLast?, q c = false) (behind : Text) :
    scanBack? (ascii q) (encode (front ++ (part ++ behind))) (byteLength (front ++ part)) =
      some (byteLength front) := by
  rw [encode_append, encode_append, Text.byteLength_append, ← length_encode, ← length_encode]
  apply scanBack?_append
  · intro b hb
    obtain ⟨c, hc, hmem⟩ := List.mem_flatMap.mp hb
    rw [ascii_of_mem hq hmem]
    exact hpart c hc
  · intro b hb
    rcases List.eq_nil_or_concat' front with rfl | ⟨front, c, rfl⟩
    · cases hb
    · obtain ⟨bytes, b', hencode, hmem⟩ := exists_encode_concat front c
      rw [hencode, List.getLast?_concat] at hb
      cases hb
      rw [ascii_of_mem hq hmem]
      exact hfront c (by simp)

end GoModules.Offset
