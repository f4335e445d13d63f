import GoModules.Text.Utf8
import Mathlib.Data.List.Basic

/-!
# Reading bytes as text

Reading a complete character does not look at the bytes that follow it. So bytes that are UTF-8 are
read the same in front of any others, and the bytes of a text, and no others, are read as that text.
-/

namespace GoModules.Utf8

theorem continue?_append {more bits n : Nat} {low high : UInt8} {bytes rest : Bytes}
    (h : continue? more bits low high bytes = (some n, rest)) (others : Bytes) :
    continue? more bits low high (bytes ++ others) = (some n, rest ++ others) := by
  induction more generalizing bits low high bytes with
  | zero =>
      rw [continue?, Prod.mk.injEq] at h
      obtain ⟨hbits, rfl⟩ := h
      rw [continue?, hbits]
  | succ more ih =>
      cases bytes with
      | nil => cases h
      | cons b bytes =>
          rw [continue?] at h
          rw [List.cons_append, continue?]
          split at h
          · next hb =>
              rw [if_pos hb]
              exact ih h
          · cases h

theorem first_append {b : UInt8} {bytes rest : Bytes} {c : Char}
    (h : first b bytes = (some c, rest)) (others : Bytes) :
    first b (bytes ++ others) = (some c, rest ++ others) := by
  unfold first at h ⊢
  cases hlead : lead? b with
  | none =>
      rw [hlead] at h
      cases h
  | some lead =>
      simp only [hlead, Prod.mk.injEq, Option.map_eq_some_iff] at h
      obtain ⟨⟨n, hn, rfl⟩, rfl⟩ := h
      simp only [continue?_append (Prod.ext hn rfl) others, Option.map_some]

theorem decode?_cons {b : UInt8} {bytes rest : Bytes} {c : Char}
    (h : first b bytes = (some c, rest)) :
    decode? (b :: bytes) = (decode? rest).map (c :: ·) := by
  rw [decode?, h]

theorem decode?_append {bytes : Bytes} {s : Text} (h : decode? bytes = some s) (others : Bytes) :
    decode? (bytes ++ others) = (decode? others).map (s ++ ·) := by
  induction bytes using decode?.induct generalizing s with
  | case1 =>
      rw [decode?, Option.some.injEq] at h
      subst h
      simp
  | case2 b bytes hfirst =>
      rw [decode?, hfirst] at h
      cases h
  | case3 b bytes c hfirst ih =>
      have hparts : first b bytes = (some c, (first b bytes).2) := Prod.ext hfirst rfl
      rw [decode?_cons hparts, Option.map_eq_some_iff] at h
      obtain ⟨t, ht, rfl⟩ := h
      rw [List.cons_append, decode?_cons (first_append hparts others), ih ht, Option.map_map]
      rfl

theorem lead?_one {k : Nat} (hk : k < 128) : lead? (UInt8.ofNat k) = some ⟨0, k, 0x80, 0xbf⟩ := by
  have h : ∀ k < 128, lead? (UInt8.ofNat k) = some ⟨0, k, 0x80, 0xbf⟩ := by decide +kernel
  exact h k hk

theorem lead?_two {k : Nat} (hlow : 2 ≤ k) (hk : k < 32) :
    lead? (UInt8.ofNat (k + 192)) = some ⟨1, k, 0x80, 0xbf⟩ := by
  have h : ∀ k < 32, 2 ≤ k → lead? (UInt8.ofNat (k + 192)) = some ⟨1, k, 0x80, 0xbf⟩ := by
    decide +kernel
  exact h k hk hlow

theorem lead?_three {k : Nat} (hk : k < 16) :
    lead? (UInt8.ofNat (k + 224)) =
      some ⟨2, k, if k = 0 then 0xa0 else 0x80, if k = 13 then 0x9f else 0xbf⟩ := by
  have h : ∀ k < 16, lead? (UInt8.ofNat (k + 224)) =
      some ⟨2, k, if k = 0 then 0xa0 else 0x80, if k = 13 then 0x9f else 0xbf⟩ := by
    decide +kernel
  exact h k hk

theorem lead?_four {k : Nat} (hk : k < 5) :
    lead? (UInt8.ofNat (k + 240)) =
      some ⟨3, k, if k = 0 then 0x90 else 0x80, if k = 4 then 0x8f else 0xbf⟩ := by
  have h : ∀ k < 5, lead? (UInt8.ofNat (k + 240)) =
      some ⟨3, k, if k = 0 then 0x90 else 0x80, if k = 4 then 0x8f else 0xbf⟩ := by
    decide +kernel
  exact h k hk

theorem toNat_continuation {k : Nat} (hk : k < 64) : (UInt8.ofNat (k + 128)).toNat = k + 128 := by
  rw [UInt8.toNat_ofNat']
  omega

theorem continue?_cons {more bits k : Nat} {low high : UInt8} (hk : k < 64)
    (hlow : low.toNat ≤ k + 128) (hhigh : k + 128 ≤ high.toNat) (bytes : Bytes) :
    continue? (more + 1) bits low high (UInt8.ofNat (k + 128) :: bytes) =
      continue? more (bits * 64 + k) 0x80 0xbf bytes := by
  have hbyte := toNat_continuation hk
  have hbounds : low ≤ UInt8.ofNat (k + 128) ∧ UInt8.ofNat (k + 128) ≤ high := by
    rw [UInt8.le_iff_toNat_le, UInt8.le_iff_toNat_le, hbyte]
    exact ⟨hlow, hhigh⟩
  rw [continue?, if_pos hbounds, hbyte, Nat.add_sub_cancel]

/-- The last continuation byte, which has no narrower bounds. -/
theorem continue?_last {bits k : Nat} (hk : k < 64) :
    continue? 1 bits 0x80 0xbf [UInt8.ofNat (k + 128)] = (some (bits * 64 + k), []) := by
  rw [continue?_cons hk (by simp) (by simp; omega), continue?]

theorem first_of_lead? {b : UInt8} {lead : Lead} {bytes : Bytes} {c : Char}
    (hlead : lead? b = some lead)
    (hcontinue : continue? lead.more lead.bits lead.low lead.high bytes = (some c.toNat, [])) :
    first b bytes = (some c, []) := by
  simp only [first, hlead, hcontinue, Option.map_some, Char.ofNat_toNat]

theorem exists_first_utf8EncodeChar (c : Char) :
    ∃ b bytes, String.utf8EncodeChar c = b :: bytes ∧ first b bytes = (some c, []) := by
  have hvalid : c.val.toNat < 0xd800 ∨ 0xdfff < c.val.toNat ∧ c.val.toNat < 0x110000 := c.valid
  rw [Char.toNat_val] at hvalid
  unfold String.utf8EncodeChar
  simp only [Char.toNat_val]
  generalize hn : c.toNat = n at hvalid ⊢
  split
  · refine ⟨_, _, rfl, first_of_lead? (lead?_one (by omega)) ?_⟩
    rw [continue?, hn]
  split
  · refine ⟨_, _, rfl, first_of_lead? (lead?_two (by omega) (by omega)) ?_⟩
    dsimp only
    rw [continue?_last (by omega), hn]
    congr 2
    omega
  split
  · refine ⟨_, _, rfl, first_of_lead? (lead?_three (by omega)) ?_⟩
    dsimp only
    rw [continue?_cons (by omega), continue?_last (by omega), hn]
    · congr 2
      omega
    · split
      · simp; omega
      · simp
    · split
      · simp; omega
      · simp; omega
  · refine ⟨_, _, rfl, first_of_lead? (lead?_four (by omega)) ?_⟩
    dsimp only
    rw [continue?_cons (by omega), continue?_cons (by omega), continue?_last (by omega), hn]
    · congr 2
      omega
    · simp
    · simp; omega
    · split
      · simp; omega
      · simp
    · split
      · simp; omega
      · simp; omega

@[simp] theorem encode_nil : encode [] = [] := rfl

theorem encode_cons (c : Char) (s : Text) :
    encode (c :: s) = String.utf8EncodeChar c ++ encode s := List.flatMap_cons

/-- Whatever is written is read back. -/
theorem decode?_encode (s : Text) : decode? (encode s) = some s := by
  induction s with
  | nil => rw [encode_nil, decode?]
  | cons c s ih =>
      obtain ⟨b, bytes, hbytes, hfirst⟩ := exists_first_utf8EncodeChar c
      rw [encode_cons, hbytes, List.cons_append, decode?_cons (first_append hfirst (encode s)),
        List.nil_append, ih, Option.map_some]

theorem toNat_ofNat {n : Nat} (h : n.isValidChar) : (Char.ofNat n).toNat = n := by
  rw [Char.ofNat, dif_pos h]
  rfl

/-- The four classes of first bytes. -/
theorem lead?_cases {b : UInt8} {lead : Lead} (h : lead? b = some lead) :
    (∃ k < 128, b = UInt8.ofNat k ∧ lead = ⟨0, k, 0x80, 0xbf⟩) ∨
    (∃ k < 32, 2 ≤ k ∧ b = UInt8.ofNat (k + 192) ∧ lead = ⟨1, k, 0x80, 0xbf⟩) ∨
    (∃ k < 16, b = UInt8.ofNat (k + 224) ∧
      lead = ⟨2, k, if k = 0 then 0xa0 else 0x80, if k = 13 then 0x9f else 0xbf⟩) ∨
    ∃ k < 5, b = UInt8.ofNat (k + 240) ∧
      lead = ⟨3, k, if k = 0 then 0x90 else 0x80, if k = 4 then 0x8f else 0xbf⟩ := by
  have hclass : ∀ n < 256, (lead? (UInt8.ofNat n)).isSome →
      n < 128 ∨ 194 ≤ n ∧ n < 224 ∨ 224 ≤ n ∧ n < 240 ∨ 240 ≤ n ∧ n < 245 := by
    decide +kernel
  obtain ⟨n, hn, rfl⟩ : ∃ n < 256, b = UInt8.ofNat n :=
    ⟨b.toNat, UInt8.toNat_lt b, UInt8.ofNat_toNat.symm⟩
  rcases hclass n hn (Option.isSome_of_eq_some h) with hk | hk | hk | hk
  · rw [lead?_one hk, Option.some.injEq] at h
    exact .inl ⟨n, hk, rfl, h.symm⟩
  · obtain ⟨k, rfl⟩ : ∃ k, n = k + 192 := ⟨n - 192, by omega⟩
    rw [lead?_two (by omega) (by omega), Option.some.injEq] at h
    exact .inr (.inl ⟨k, by omega, by omega, rfl, h.symm⟩)
  · obtain ⟨k, rfl⟩ : ∃ k, n = k + 224 := ⟨n - 224, by omega⟩
    rw [lead?_three (by omega), Option.some.injEq] at h
    exact .inr (.inr (.inl ⟨k, by omega, rfl, h.symm⟩))
  · obtain ⟨k, rfl⟩ : ∃ k, n = k + 240 := ⟨n - 240, by omega⟩
    rw [lead?_four (by omega), Option.some.injEq] at h
    exact .inr (.inr (.inr ⟨k, by omega, rfl, h.symm⟩))

theorem exists_of_continue?_succ {more bits n : Nat} {low high : UInt8} {bytes rest : Bytes}
    (hlow : 128 ≤ low.toNat) (hhigh : high.toNat < 192)
    (h : continue? (more + 1) bits low high bytes = (some n, rest)) :
    ∃ k < 64, ∃ others, bytes = UInt8.ofNat (k + 128) :: others ∧ low.toNat ≤ k + 128 ∧
      k + 128 ≤ high.toNat ∧
      continue? more (bits * 64 + k) 0x80 0xbf others = (some n, rest) := by
  cases bytes with
  | nil => cases h
  | cons b others =>
      rw [continue?] at h
      split at h
      · next hbounds =>
          rw [UInt8.le_iff_toNat_le, UInt8.le_iff_toNat_le] at hbounds
          have hk : b.toNat - 128 + 128 = b.toNat := Nat.sub_add_cancel (by omega)
          refine ⟨b.toNat - 128, by omega, others, ?_, by omega, by omega, h⟩
          rw [hk, UInt8.ofNat_toNat]
      · cases h

theorem exists_of_continue?_one {bits n : Nat} {bytes rest : Bytes}
    (h : continue? 1 bits 0x80 0xbf bytes = (some n, rest)) :
    ∃ k < 64, bytes = UInt8.ofNat (k + 128) :: rest ∧ n = bits * 64 + k := by
  obtain ⟨k, hk, others, rfl, -, -, h⟩ := exists_of_continue?_succ (by decide) (by decide) h
  rw [continue?, Prod.mk.injEq, Option.some.injEq] at h
  obtain ⟨rfl, rfl⟩ := h
  exact ⟨k, hk, rfl, rfl⟩

/-- How the characters of each class are written. -/
theorem utf8EncodeChar_one {k : Nat} (hk : k < 128) :
    String.utf8EncodeChar (Char.ofNat k) = [UInt8.ofNat k] := by
  rw [String.utf8EncodeChar, Char.toNat_val, toNat_ofNat (.inl (by omega)), if_pos (by omega)]

theorem utf8EncodeChar_two {k i : Nat} (hlow : 2 ≤ k) (hk : k < 32) (hi : i < 64) :
    String.utf8EncodeChar (Char.ofNat (k * 64 + i)) =
      [UInt8.ofNat (k + 192), UInt8.ofNat (i + 128)] := by
  have hfirst : (k * 64 + i) / 64 % 32 = k := by omega
  have hsecond : (k * 64 + i) % 64 = i := by omega
  rw [String.utf8EncodeChar, Char.toNat_val, toNat_ofNat (.inl (by omega)), if_neg (by omega),
    if_pos (by omega), hfirst, hsecond]

theorem utf8EncodeChar_three {k i j : Nat} (hk : k < 16) (hi : i < 64) (hj : j < 64)
    (hlow : k ≠ 0 ∨ 32 ≤ i) (hhigh : k ≠ 13 ∨ i < 32) :
    String.utf8EncodeChar (Char.ofNat ((k * 64 + i) * 64 + j)) =
      [UInt8.ofNat (k + 224), UInt8.ofNat (i + 128), UInt8.ofNat (j + 128)] := by
  have hvalid : Nat.isValidChar ((k * 64 + i) * 64 + j) := by
    unfold Nat.isValidChar
    omega
  have hfirst : ((k * 64 + i) * 64 + j) / 4096 % 16 = k := by omega
  have hsecond : ((k * 64 + i) * 64 + j) / 64 % 64 = i := by omega
  have hthird : ((k * 64 + i) * 64 + j) % 64 = j := by omega
  rw [String.utf8EncodeChar, Char.toNat_val, toNat_ofNat hvalid, if_neg (by omega),
    if_neg (by omega), if_pos (by omega), hfirst, hsecond, hthird]

theorem utf8EncodeChar_four {k i j l : Nat} (hk : k < 5) (hi : i < 64) (hj : j < 64) (hl : l < 64)
    (hlow : k ≠ 0 ∨ 16 ≤ i) (hhigh : k ≠ 4 ∨ i < 16) :
    String.utf8EncodeChar (Char.ofNat (((k * 64 + i) * 64 + j) * 64 + l)) =
      [UInt8.ofNat (k + 240), UInt8.ofNat (i + 128), UInt8.ofNat (j + 128),
        UInt8.ofNat (l + 128)] := by
  have hvalid : Nat.isValidChar (((k * 64 + i) * 64 + j) * 64 + l) := by
    unfold Nat.isValidChar
    omega
  have hfirst : (((k * 64 + i) * 64 + j) * 64 + l) / 262144 % 8 = k := by omega
  have hsecond : (((k * 64 + i) * 64 + j) * 64 + l) / 4096 % 64 = i := by omega
  have hthird : (((k * 64 + i) * 64 + j) * 64 + l) / 64 % 64 = j := by omega
  have hfourth : (((k * 64 + i) * 64 + j) * 64 + l) % 64 = l := by omega
  rw [String.utf8EncodeChar, Char.toNat_val, toNat_ofNat hvalid, if_neg (by omega),
    if_neg (by omega), if_neg (by omega), hfirst, hsecond, hthird, hfourth]

/-- A byte right after the first one, which may have narrower bounds. -/
theorem exists_of_continue?_ite {p q : Prop} [Decidable p] [Decidable q] {more bits n a z : Nat}
    {bytes rest : Bytes} (ha : a < 64) (hz : z < 64)
    (h : continue? (more + 1) bits (if p then UInt8.ofNat (a + 128) else 0x80)
      (if q then UInt8.ofNat (z + 128) else 0xbf) bytes = (some n, rest)) :
    ∃ k < 64, ∃ others, bytes = UInt8.ofNat (k + 128) :: others ∧ (¬ p ∨ a ≤ k) ∧ (¬ q ∨ k ≤ z) ∧
      continue? more (bits * 64 + k) 0x80 0xbf others = (some n, rest) := by
  have hlow : (if p then UInt8.ofNat (a + 128) else 0x80).toNat = if p then a + 128 else 128 := by
    split
    · exact toNat_continuation ha
    · rfl
  have hhigh : (if q then UInt8.ofNat (z + 128) else 0xbf).toNat = if q then z + 128 else 191 := by
    split
    · exact toNat_continuation hz
    · rfl
  obtain ⟨k, hk, others, rfl, hlow', hhigh', h⟩ := exists_of_continue?_succ
    (by rw [hlow]; split <;> omega) (by rw [hhigh]; split <;> omega) h
  rw [hlow] at hlow'
  rw [hhigh] at hhigh'
  refine ⟨k, hk, others, rfl, ?_, ?_, h⟩
  · by_cases hp : p
    · rw [if_pos hp] at hlow'
      exact .inr (Nat.le_of_add_le_add_right hlow')
    · exact .inl hp
  · by_cases hq : q
    · rw [if_pos hq] at hhigh'
      exact .inr (Nat.le_of_add_le_add_right hhigh')
    · exact .inl hq

/-- What is read as a character begins with the bytes of that character. -/
theorem cons_eq_of_first {b : UInt8} {bytes rest : Bytes} {c : Char}
    (h : first b bytes = (some c, rest)) : b :: bytes = String.utf8EncodeChar c ++ rest := by
  unfold first at h
  split at h
  · cases h
  next lead hlead =>
  simp only [Prod.mk.injEq, Option.map_eq_some_iff] at h
  obtain ⟨⟨n, hn, rfl⟩, hrest⟩ := h
  have hcontinue : continue? lead.more lead.bits lead.low lead.high bytes = (some n, rest) :=
    Prod.ext hn hrest
  rcases lead?_cases hlead with ⟨k, hk, rfl, rfl⟩ | ⟨k, hk, hk', rfl, rfl⟩ | ⟨k, hk, rfl, rfl⟩ |
    ⟨k, hk, rfl, rfl⟩
  · rw [continue?, Prod.mk.injEq, Option.some.injEq] at hcontinue
    obtain ⟨rfl, rfl⟩ := hcontinue
    rw [utf8EncodeChar_one hk]
    rfl
  · obtain ⟨i, hi, rfl, rfl⟩ := exists_of_continue?_one hcontinue
    rw [utf8EncodeChar_two hk' hk hi]
    rfl
  · obtain ⟨i, hi, others, rfl, hlow, hhigh, hcontinue⟩ :=
      exists_of_continue?_ite (a := 32) (z := 31) (by omega) (by omega) hcontinue
    obtain ⟨j, hj, rfl, rfl⟩ := exists_of_continue?_one hcontinue
    rw [utf8EncodeChar_three hk hi hj hlow (by omega)]
    rfl
  · obtain ⟨i, hi, others, rfl, hlow, hhigh, hcontinue⟩ :=
      exists_of_continue?_ite (a := 16) (z := 15) (by omega) (by omega) hcontinue
    obtain ⟨j, hj, others, rfl, -, -, hcontinue⟩ :=
      exists_of_continue?_succ (by decide) (by decide) hcontinue
    obtain ⟨l, hl, rfl, rfl⟩ := exists_of_continue?_one hcontinue
    rw [utf8EncodeChar_four hk hi hj hl hlow (by omega)]
    rfl

/-- Whatever is read would be written so. -/
theorem encode_of_decode? {bytes : Bytes} {s : Text} (h : decode? bytes = some s) :
    encode s = bytes := by
  induction bytes using decode?.induct generalizing s with
  | case1 =>
      rw [decode?, Option.some.injEq] at h
      subst h
      rfl
  | case2 b bytes hfirst =>
      rw [decode?, hfirst] at h
      cases h
  | case3 b bytes c hfirst ih =>
      have hparts : first b bytes = (some c, (first b bytes).2) := Prod.ext hfirst rfl
      rw [decode?_cons hparts, Option.map_eq_some_iff] at h
      obtain ⟨t, ht, rfl⟩ := h
      rw [encode_cons, ih ht, cons_eq_of_first hparts]

theorem decode?_eq_some_iff {bytes : Bytes} {s : Text} :
    decode? bytes = some s ↔ encode s = bytes := by
  constructor
  · exact encode_of_decode?
  · rintro rfl
    exact decode?_encode s

/-- The bytes of ASCII stand for themselves and never for a part of another character. -/
theorem mem_of_mem_encode {s : Text} {b : UInt8} (hb : b.toNat < 128) (h : b ∈ encode s) :
    Char.ofNat b.toNat ∈ s := by
  obtain ⟨c, hc, hmem⟩ := List.mem_flatMap.mp h
  have hcode : b.toNat = c.toNat := by
    unfold String.utf8EncodeChar at hmem
    simp only [Char.toNat_val] at hmem
    repeat' split at hmem
    all_goals
      simp only [List.mem_cons, List.not_mem_nil, or_false] at hmem
      rcases hmem with rfl | rfl | rfl | rfl
    all_goals
      rw [UInt8.toNat_ofNat'] at hb ⊢
      omega
  rwa [hcode, Char.ofNat_toNat]

theorem head?_encode {s : Text} (h : (encode s).head? = some 0x2f) : s.head? = some '/' := by
  cases s with
  | nil => cases h
  | cons c s =>
      obtain ⟨b, bytes, hbytes, -⟩ := exists_first_utf8EncodeChar c
      rw [encode_cons, hbytes, List.cons_append, List.head?_cons, Option.some.injEq] at h
      have hmem : b ∈ encode [c] := by
        rw [encode_cons, hbytes]
        exact List.mem_cons_self
      have hchar := mem_of_mem_encode (by rw [h]; decide) hmem
      rw [h, List.mem_singleton] at hchar
      rw [List.head?_cons, ← hchar]
      rfl

end GoModules.Utf8
