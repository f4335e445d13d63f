import GoModules.Proofs.Text.Utf8

/-!
# Line endings

A line may also end with a carriage return and a newline. Both are characters of one byte, which no
other character has in it, so texts and their bytes can be given such line endings alike.
-/

namespace GoModules

/-- A text with a carriage return in front of each newline. -/
def Text.crlf (s : Text) : Text :=
  s.flatMap fun c => if c = '\n' then ['\r', '\n'] else [c]

/-- Bytes with the byte of a carriage return in front of each byte of a newline. -/
def Utf8.crlf (bytes : Bytes) : Bytes :=
  bytes.flatMap fun b => if b = 0x0a then [0x0d, 0x0a] else [b]

namespace Text

theorem crlf_newline (s : Text) : crlf ('\n' :: s) = '\r' :: '\n' :: crlf s := rfl

theorem crlf_cons {c : Char} (hc : c ≠ '\n') (s : Text) : crlf (c :: s) = c :: crlf s := by
  rw [crlf, List.flatMap_cons, if_neg hc, List.singleton_append, crlf]

theorem crlf_of_notMem {s : Text} (hs : '\n' ∉ s) : crlf s = s := by
  induction s with
  | nil => rfl
  | cons c s ih =>
      rw [List.mem_cons, not_or] at hs
      rw [crlf_cons (Ne.symm hs.1), ih hs.2]

theorem crlf_append_newline {a : Text} (ha : '\n' ∉ a) (b : Text) :
    crlf (a ++ '\n' :: b) = a ++ ['\r'] ++ '\n' :: crlf b := by
  calc
    crlf (a ++ '\n' :: b) = crlf a ++ crlf ('\n' :: b) := List.flatMap_append
    _ = a ++ ['\r'] ++ '\n' :: crlf b := by
      rw [crlf_of_notMem ha, crlf_newline, List.append_assoc, List.singleton_append]

/-- An induction over the lines of a text, from its last line on. -/
theorem lines_induction {P : Text → Prop} (last : ∀ s, '\n' ∉ s → P s)
    (line : ∀ a b, '\n' ∉ a → P b → P (a ++ '\n' :: b)) (s : Text) : P s := by
  have hall : ∀ a, '\n' ∉ a → P (a ++ s) := by
    induction s with
    | nil =>
        intro a ha
        rw [List.append_nil]
        exact last a ha
    | cons c s ih =>
        intro a ha
        by_cases hc : c = '\n'
        · subst hc
          exact line a s ha (ih [] List.not_mem_nil)
        · have hconcat : '\n' ∉ a ++ [c] := by
            rw [List.mem_append, List.mem_singleton, not_or]
            exact ⟨ha, Ne.symm hc⟩
          rw [List.append_cons]
          exact ih (a ++ [c]) hconcat
  exact hall [] List.not_mem_nil

end Text

namespace Utf8

variable {b low high : UInt8} {bytes : Bytes}

theorem crlf_newline (bytes : Bytes) : crlf (0x0a :: bytes) = 0x0d :: 0x0a :: crlf bytes := rfl

theorem crlf_cons (hb : b ≠ 0x0a) (bytes : Bytes) : crlf (b :: bytes) = b :: crlf bytes := by
  rw [crlf, List.flatMap_cons, if_neg hb, List.singleton_append, crlf]

/-- Neither byte of a line ending is taken for a byte within a character. -/
theorem continue?_crlf (hlow : 0x80 ≤ low) (more bits : Nat) (bytes : Bytes) :
    continue? more bits low high (crlf bytes) =
      (continue? more bits low high bytes).map id crlf := by
  induction more generalizing bits low high bytes with
  | zero => rfl
  | succ more ih =>
      cases bytes with
      | nil => rfl
      | cons b bytes =>
          by_cases hb : b = 0x0a
          · have hnewline : ¬ (low ≤ 0x0a ∧ (0x0a : UInt8) ≤ high) :=
              fun h => absurd (UInt8.le_trans hlow h.1) (by decide)
            have hreturn : ¬ (low ≤ 0x0d ∧ (0x0d : UInt8) ≤ high) :=
              fun h => absurd (UInt8.le_trans hlow h.1) (by decide)
            subst hb
            rw [crlf_newline, continue?, continue?, if_neg hnewline, if_neg hreturn]
            rfl
          · rw [crlf_cons hb, continue?, continue?]
            split
            · exact ih (by decide) _ _
            · rw [Prod.map_apply, crlf_cons hb]
              rfl

theorem low_of_lead? {lead : Lead} (h : lead? b = some lead) : 0x80 ≤ lead.low := by
  rcases lead?_cases h with ⟨k, -, -, rfl⟩ | ⟨k, -, -, -, rfl⟩ | ⟨k, -, -, rfl⟩ | ⟨k, -, -, rfl⟩
  · exact UInt8.le_refl _
  · exact UInt8.le_refl _
  · dsimp only
    split
    · decide
    · decide
  · dsimp only
    split
    · decide
    · decide

theorem first_crlf (b : UInt8) (bytes : Bytes) :
    first b (crlf bytes) = (first b bytes).map id crlf := by
  unfold first
  cases hlead : lead? b with
  | none => rfl
  | some lead =>
      dsimp only
      rw [continue?_crlf (low_of_lead? hlead)]
      rfl

theorem ne_newline_of_first {c : Char} {rest : Bytes} (hb : b ≠ 0x0a)
    (h : first b bytes = (some c, rest)) : c ≠ '\n' := by
  rintro rfl
  have hbytes := cons_eq_of_first h
  rw [utf8EncodeChar_one (k := 10) (by decide), List.singleton_append, List.cons.injEq] at hbytes
  exact hb hbytes.1

/-- Bytes with other line endings are read as the text with those line endings, if at all. -/
theorem decode?_crlf (bytes : Bytes) : decode? (crlf bytes) = (decode? bytes).map Text.crlf := by
  have hreturn : ∀ bytes, first 0x0d bytes = (some '\r', bytes) := fun _ => rfl
  have hnewline : ∀ bytes, first 0x0a bytes = (some '\n', bytes) := fun _ => rfl
  induction bytes using decode?.induct with
  | case1 =>
      have hnil : crlf [] = [] := rfl
      rw [hnil, decode?, Option.map_some, Text.crlf_of_notMem List.not_mem_nil]
  | case2 b bytes hfirst =>
      have hb : b ≠ 0x0a := by
        rintro rfl
        cases hfirst
      have hnone : (first b (crlf bytes)).1 = none := by
        rw [first_crlf]
        exact hfirst
      rw [crlf_cons hb, decode?, decode?, hnone, hfirst]
      rfl
  | case3 b bytes c hfirst ih =>
      have hparts : first b bytes = (some c, (first b bytes).2) := Prod.ext hfirst rfl
      by_cases hb : b = 0x0a
      · subst hb
        rw [hnewline] at ih
        rw [crlf_newline, decode?_cons (hreturn _), decode?_cons (hnewline _),
          decode?_cons (hnewline _), ih, Option.map_map, Option.map_map, Option.map_map]
        rfl
      · have hparts' : first b (crlf bytes) = (some c, crlf (first b bytes).2) := by
          rw [first_crlf, hparts]
          rfl
        have hcons : Text.crlf ∘ (c :: ·) = (c :: ·) ∘ Text.crlf :=
          funext fun s => Text.crlf_cons (ne_newline_of_first hb hparts) s
        rw [crlf_cons hb, decode?_cons hparts', decode?_cons hparts, ih, Option.map_map,
          Option.map_map, hcons]

end Utf8

end GoModules
