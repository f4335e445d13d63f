import GoModules.Manifest.Token
import GoModules.Proofs.Outcome
import Mathlib.Data.List.TakeWhile

/-!
# Tokens line by line

No token but the newline itself reaches the end of its line. So the tokens of a text up to a newline
do not depend on what follows, and what follows is scanned as a text of its own with a later first
line.
-/

namespace GoModules.Token

open Outcome

/-- The rest of the line on which a text begins. -/
def restOfLine (s : Text) : Text :=
  s.takeWhile (· != '\n')

@[simp] theorem restOfLine_nil : restOfLine [] = [] := rfl

theorem restOfLine_cons {c : Char} (hc : c ≠ '\n') (s : Text) :
    restOfLine (c :: s) = c :: restOfLine s := by
  simp [restOfLine, hc]

theorem newline_notMem_restOfLine (s : Text) : '\n' ∉ restOfLine s := by
  intro hmem
  have h := List.all_eq_true.mp List.all_takeWhile '\n' hmem
  cases h

theorem restOfLine_of_notMem {s : Text} (hs : '\n' ∉ s) : restOfLine s = s := by
  rw [restOfLine, List.takeWhile_eq_self_iff]
  intro c hc
  rw [bne_iff_ne]
  rintro rfl
  exact hs hc

theorem restOfLine_isPrefix (s : Text) : restOfLine s <+: s :=
  List.takeWhile_prefix _

/-- A string does not end because of what follows that ends no string. -/
theorem quotedLength?_append_of_none {t : Text} (ht : quotedLength? t = none)
    (hescaped : quotedLength? ('\\' :: t) = none) (s : Text) :
    quotedLength? (s ++ t) = quotedLength? s := by
  induction s using quotedLength?.induct with
  | case1 s => rfl
  | case2 s => simp [quotedLength?]
  | case3 c s hc ih => simp [quotedLength?, hc, ih]
  | case4 c s hquote hescape hc =>
      rcases hc with rfl | rfl
      · simp [quotedLength?]
      · cases s with
        | nil =>
            rw [List.singleton_append, hescaped]
            rfl
        | cons d s => exact absurd rfl (hescape d s rfl)
  | case5 c s hquote hescape hc ih =>
      rw [not_or] at hc
      simp [quotedLength?, hc, ih]
  | case6 => exact ht

theorem quotedLength?_append_newline (s b : Text) :
    quotedLength? (s ++ '\n' :: b) = quotedLength? s :=
  quotedLength?_append_of_none (by simp [quotedLength?]) (by simp [quotedLength?]) s

theorem quotedLength?_le {s : Text} {n : Nat} (h : quotedLength? s = some n) :
    n ≤ (restOfLine s).length := by
  induction s using quotedLength?.induct generalizing n with
  | case1 s =>
      cases h
      simp [restOfLine]
  | case2 s => simp [quotedLength?] at h
  | case3 c s hc ih =>
      rw [quotedLength?, if_neg hc, Option.map_eq_some_iff] at h
      obtain ⟨k, hk, rfl⟩ := h
      have hle := ih hk
      rw [restOfLine_cons (by decide), restOfLine_cons hc]
      simp only [List.length_cons]
      omega
  | case4 c s hquote hescape hc => simp [quotedLength?, hc] at h
  | case5 c s hquote hescape hc ih =>
      rw [quotedLength?, if_neg hc, Option.map_eq_some_iff] at h
      · obtain ⟨k, hk, rfl⟩ := h
        have hle := ih hk
        rw [restOfLine_cons (not_or.mp hc).1]
        simp only [List.length_cons]
        omega
      · exact hquote
      · exact hescape
  | case6 => cases h

theorem rawLength?_append_of_none {t : Text} (ht : rawLength? t = none) (s : Text) :
    rawLength? (s ++ t) = rawLength? s := by
  induction s with
  | nil => exact ht
  | cons c s ih => simp [rawLength?, ih]

theorem rawLength?_append_newline (s b : Text) :
    rawLength? (s ++ '\n' :: b) = rawLength? s :=
  rawLength?_append_of_none (by simp [rawLength?]) s

theorem rawLength?_le {s : Text} {n : Nat} (h : rawLength? s = some n) :
    n ≤ (restOfLine s).length := by
  induction s generalizing n with
  | nil => cases h
  | cons c s ih =>
      rw [rawLength?] at h
      split at h
      · next hc =>
          cases h
          rw [restOfLine_cons (by rw [hc]; decide)]
          simp
      · split at h
        · cases h
        · next hc =>
            obtain ⟨k, hk, rfl⟩ := Option.map_eq_some_iff.mp h
            have hle := ih hk
            rw [restOfLine_cons hc]
            simp only [List.length_cons]
            omega

theorem takeWhile_append_cons {p : Char → Bool} {c : Char} (hp : p c = false) (s b : Text) :
    (s ++ c :: b).takeWhile p = s.takeWhile p := by
  induction s with
  | nil => simp [hp]
  | cons d s ih => simp [List.takeWhile_cons, ih]

theorem length_takeWhile_le {p : Char → Bool} (hp : p '\n' = false) (s : Text) :
    (s.takeWhile p).length ≤ (restOfLine s).length := by
  induction s with
  | nil => exact Nat.le_refl _
  | cons c s ih =>
      by_cases hc : p c
      · have hne : c ≠ '\n' := by
          rintro rfl
          exact Bool.false_ne_true (hp.symm.trans hc)
        rw [List.takeWhile_cons_of_pos hc, restOfLine_cons hne]
        exact Nat.succ_le_succ ih
      · simp [List.takeWhile_cons_of_neg hc]

theorem length_beforeComment_le (s : Text) : (beforeComment s).length ≤ s.length := by
  induction s using beforeComment.induct with
  | case1 => exact Nat.le_refl _
  | case2 s => simp [beforeComment]
  | case3 c s hne ih =>
      rw [beforeComment]
      · exact Nat.succ_le_succ ih
      · exact hne

theorem bare_append_newline (c : Char) (s b : Text) : bare c (s ++ '\n' :: b) = bare c s := by
  simp only [bare, takeWhile_append_cons (p := isBareChar) (c := '\n') (by decide),
    takeWhile_append_cons (p := (· != '\n')) (c := '\n') (by decide)]

/-- A word that starts with no comment is not cut down to nothing. -/
theorem exists_beforeComment_cons {c : Char} {s : Text} (h : ∀ rest, c :: s ≠ '/' :: '/' :: rest) :
    ∃ inside, beforeComment (c :: s) = c :: inside := by
  refine ⟨beforeComment s, ?_⟩
  rw [beforeComment]
  rintro rest rfl rfl
  exact h rest rfl

/-- All that a character of bare words can begin. -/
theorem bare_cases {c : Char} {s : Text} {kind : Kind} {n : Nat} (h : bare c s = .ok (kind, n)) :
    (kind = .arrow ∧ c :: s.takeWhile isBareChar = ['=', '>'] ∧ n = 1) ∨
    (kind = .comment ∧ c = '/' ∧ s.head? = some '/' ∧ n = (s.takeWhile (· != '\n')).length) ∨
    (kind = .bare ∧ c :: s.takeWhile isBareChar ≠ ['=', '>'] ∧
      ∃ inside, beforeComment (c :: s.takeWhile isBareChar) = c :: inside ∧
        opensBlock (c :: inside) = false ∧ n = inside.length) := by
  unfold bare at h
  split at h
  · next hrun =>
      cases h
      exact .inl ⟨rfl, hrun, rfl⟩
  · next rest hrun =>
      cases h
      rw [List.cons.injEq] at hrun
      have hhead : s.head? = some '/' := by
        obtain ⟨tail, htail⟩ := List.takeWhile_prefix (l := s) isBareChar
        rw [← htail, hrun.2]
        rfl
      exact .inr (.inl ⟨rfl, hrun.1, hhead, rfl⟩)
  · next harrow hstart =>
      obtain ⟨inside, hword⟩ := exists_beforeComment_cons hstart
      dsimp only at h
      split at h
      · cases h
      · next hblock =>
          cases h
          rw [hword] at hblock ⊢
          exact .inr (.inr ⟨rfl, harrow, inside, rfl, Bool.eq_false_iff.mpr hblock, rfl⟩)

theorem bare_of_arrow {c : Char} {s : Text} (hrun : c :: s.takeWhile isBareChar = ['=', '>']) :
    bare c s = .ok (.arrow, 1) := by
  rw [bare, hrun]
  rfl

theorem bare_of_word {c : Char} {s run inside : Text} (hrun : s.takeWhile isBareChar = run)
    (harrow : c :: run ≠ ['=', '>']) (hword : beforeComment (c :: run) = c :: inside)
    (hblock : opensBlock (c :: inside) = false) : bare c s = .ok (.bare, inside.length) := by
  subst hrun
  unfold bare
  split
  · next hrun => exact absurd hrun harrow
  · next rest hrun =>
      rw [hrun, beforeComment] at hword
      cases hword
  · dsimp only
    rw [hword, hblock]
    rfl

theorem bare_spec {c : Char} {s : Text} {kind : Kind} {n : Nat} (h : bare c s = .ok (kind, n)) :
    kind ≠ .newline ∧ n ≤ (restOfLine s).length := by
  have hrun := length_takeWhile_le (p := isBareChar) (by decide) s
  rcases bare_cases h with ⟨rfl, harrow, rfl⟩ | ⟨rfl, -, -, rfl⟩ | ⟨rfl, -, inside, hword, -, rfl⟩
  · rw [List.cons.injEq] at harrow
    rw [harrow.2] at hrun
    exact ⟨by decide, hrun⟩
  · exact ⟨by decide, Nat.le_refl _⟩
  · have hlength := length_beforeComment_le (c :: s.takeWhile isBareChar)
    rw [hword, List.length_cons, List.length_cons] at hlength
    exact ⟨by decide, by omega⟩

theorem first_newline (s : Text) : first '\n' s = .ok (.newline, 0) := rfl

theorem first_append_newline (c : Char) (s b : Text) :
    first c (s ++ '\n' :: b) = first c s := by
  simp only [first, quotedLength?_append_newline, rawLength?_append_newline, bare_append_newline]

theorem punctuation?_ne_newline {c : Char} (hc : c ≠ '\n') : punctuation? c ≠ some .newline := by
  unfold punctuation?
  split
  · decide
  · decide
  · decide
  · decide
  · decide
  · exact absurd rfl hc
  · decide

theorem kind_ne_of_punctuation? {c : Char} {kind : Kind} (h : punctuation? c = some kind) :
    kind ≠ .bare ∧ kind ≠ .comment ∧ kind ≠ .arrow := by
  unfold punctuation? at h
  split at h <;> cases h <;> decide

/-- All that a character can begin. -/
theorem first_cases {c : Char} {s : Text} {kind : Kind} {n : Nat} (h : first c s = .ok (kind, n)) :
    (punctuation? c = some kind ∧ n = 0) ∨
    (c = '"' ∧ kind = .quoted ∧ quotedLength? s = some n) ∨
    (c = '\x60' ∧ kind = .raw ∧ rawLength? s = some n) ∨
    (isBareChar c ∧ bare c s = .ok (kind, n)) := by
  unfold first at h
  split at h
  · next hkind =>
      cases h
      exact .inl ⟨hkind, rfl⟩
  · split at h
    · next hc =>
        split at h
        · next hlength =>
            cases h
            exact .inr (.inl ⟨hc, rfl, hlength⟩)
        · cases h
    · split at h
      · next hc =>
          split at h
          · next hlength =>
              cases h
              exact .inr (.inr (.inl ⟨hc, rfl, hlength⟩))
          · cases h
      · split at h
        · next hc => exact .inr (.inr (.inr ⟨hc, h⟩))
        · cases h

/-- The kinds of tokens that begin with a character of bare words. -/
theorem bare_of_first {c : Char} {s : Text} {kind : Kind} {n : Nat}
    (h : first c s = .ok (kind, n)) (hkind : kind = .arrow ∨ kind = .comment ∨ kind = .bare) :
    isBareChar c ∧ bare c s = .ok (kind, n) := by
  rcases first_cases h with ⟨hmark, -⟩ | ⟨-, rfl, -⟩ | ⟨-, rfl, -⟩ | hbare
  · obtain ⟨hword, hcomment, harrow⟩ := kind_ne_of_punctuation? hmark
    rcases hkind with hkind | hkind | hkind
    · exact absurd hkind harrow
    · exact absurd hkind hcomment
    · exact absurd hkind hword
  · simp at hkind
  · simp at hkind
  · exact hbare

theorem arrow_of_first {c : Char} {s : Text} {n : Nat} (h : first c s = .ok (.arrow, n)) :
    c :: s.takeWhile isBareChar = ['=', '>'] ∧ n = 1 := by
  rcases bare_cases (bare_of_first h (.inl rfl)).2 with ⟨-, hfound⟩ | ⟨hcomment, -⟩ | ⟨hword, -⟩
  · exact hfound
  · cases hcomment
  · cases hword

theorem comment_of_first {c : Char} {s : Text} {n : Nat} (h : first c s = .ok (.comment, n)) :
    c = '/' ∧ s.head? = some '/' ∧ n = (restOfLine s).length := by
  rcases bare_cases (bare_of_first h (.inr (.inl rfl))).2 with ⟨harrow, -⟩ | ⟨-, hfound⟩ |
    ⟨hword, -⟩
  · cases harrow
  · exact hfound
  · cases hword

/-- A token that does not start with a newline is no newline, and ends on its line. -/
theorem first_spec {c : Char} {s : Text} {kind : Kind} {n : Nat} (hc : c ≠ '\n')
    (h : first c s = .ok (kind, n)) : kind ≠ .newline ∧ n ≤ (restOfLine s).length := by
  rcases first_cases h with ⟨hkind, rfl⟩ | ⟨-, rfl, hlength⟩ | ⟨-, rfl, hlength⟩ | ⟨-, h⟩
  · refine ⟨?_, Nat.zero_le _⟩
    rintro rfl
    exact punctuation?_ne_newline hc hkind
  · exact ⟨by decide, quotedLength?_le hlength⟩
  · exact ⟨by decide, rawLength?_le hlength⟩
  · exact bare_spec h

theorem newline_notMem_take {s : Text} {n : Nat} (h : n ≤ (restOfLine s).length) :
    '\n' ∉ s.take n := by
  obtain ⟨t, ht⟩ := restOfLine_isPrefix s
  intro hmem
  rw [← ht, List.take_append_of_le_length h] at hmem
  exact newline_notMem_restOfLine s (List.mem_of_mem_take hmem)

theorem le_length_of_le_restOfLine {s : Text} {n : Nat} (h : n ≤ (restOfLine s).length) :
    n ≤ s.length :=
  Nat.le_trans h (restOfLine_isPrefix s).length_le

theorem scan_gap {c : Char} (hc : isGap c) (line : Nat) (s : Text) :
    scan line (c :: s) = scan line s := by
  rw [scan, if_pos hc]

theorem scan_newline (line : Nat) (s : Text) :
    scan line ('\n' :: s) = (⟨.newline, ['\n'], line⟩ :: ·) <$> scan (line + 1) s := by
  rw [scan, if_neg (by decide), first_newline]
  dsimp only
  rw [if_pos rfl, List.drop_zero, List.take_zero]
  cases scan (line + 1) s with
  | error e => rfl
  | ok tokens => rfl

/-- Scanning goes on behind a token on the same line. -/
theorem scan_cons {c : Char} {s : Text} {kind : Kind} {n : Nat} (hgap : ¬ isGap c)
    (hc : c ≠ '\n') (hfirst : first c s = .ok (kind, n)) (line : Nat) :
    scan line (c :: s) = (⟨kind, c :: s.take n, line⟩ :: ·) <$> scan line (s.drop n) := by
  rw [scan, if_neg hgap, hfirst]
  dsimp only
  rw [if_neg (first_spec hc hfirst).1]
  cases scan line (s.drop n) with
  | error e => rfl
  | ok tokens => rfl

theorem scan_fault {c : Char} {s : Text} {fault : Fault} (hgap : ¬ isGap c)
    (hfirst : first c s = .error fault) (line : Nat) :
    scan line (c :: s) = .error ⟨line, fault⟩ := by
  rw [scan, if_neg hgap, hfirst]

/-- The way a text is scanned, as an induction: gaps, newlines and other tokens, up to the end of
the text or to the first fault. -/
theorem scan_induction {P : Nat → Text → Prop} (nil : ∀ line, P line [])
    (gap : ∀ line c s, isGap c → P line s → P line (c :: s))
    (newline : ∀ line s, P (line + 1) s → P line ('\n' :: s))
    (fault : ∀ line c s fault, ¬ isGap c → first c s = .error fault → P line (c :: s))
    (token : ∀ line c s kind n, ¬ isGap c → c ≠ '\n' → first c s = .ok (kind, n) →
      P line (s.drop n) → P line (c :: s))
    (line : Nat) (s : Text) : P line s := by
  induction hn : s.length using Nat.strongRecOn generalizing line s with
  | ind n ih =>
      cases s with
      | nil => exact nil line
      | cons c s =>
          rw [List.length_cons] at hn
          by_cases hgap : isGap c
          · exact gap line c s hgap (ih s.length (by omega) line s rfl)
          by_cases hc : c = '\n'
          · subst hc
            exact newline line s (ih s.length (by omega) (line + 1) s rfl)
          cases hfirst : first c s with
          | error f => exact fault line c s f hgap hfirst
          | ok found =>
              obtain ⟨kind, k⟩ := found
              refine token line c s kind k hgap hc hfirst (ih (s.drop k).length ?_ line _ rfl)
              rw [List.length_drop]
              omega

/-- A token that is no newline takes no newline out of a text. -/
theorem count_of_first {c : Char} {s : Text} {kind : Kind} {n : Nat} (hc : c ≠ '\n')
    (h : first c s = .ok (kind, n)) : (c :: s).count '\n' = (s.drop n).count '\n' := by
  have htake := newline_notMem_take (first_spec hc h).2
  calc
    (c :: s).count '\n' = (s.take n ++ s.drop n).count '\n' := by
      rw [List.count_cons_of_ne hc, List.take_append_drop]
    _ = (s.drop n).count '\n' := by
      rw [List.count_append, List.count_eq_zero_of_not_mem htake, Nat.zero_add]

theorem ne_newline_of_isGap {c : Char} (hgap : isGap c) : c ≠ '\n' := by
  rintro rfl
  cases hgap

/-- A text and another one below it are scanned one after the other. -/
theorem scan_append_newline (line : Nat) (a b : Text) :
    scan line (a ++ '\n' :: b) = do
      let front ← scan line a
      let back ← scan (line + a.count '\n' + 1) b
      return front ++ ⟨.newline, ['\n'], line + a.count '\n'⟩ :: back := by
  induction line, a using scan_induction with
  | nil line =>
      rw [List.nil_append, scan_newline, scan, ok_bind, List.count_nil, Nat.add_zero]
      cases scan (line + 1) b with
      | error e => rfl
      | ok back => rfl
  | gap line c a hgap ih =>
      rw [List.cons_append, scan_gap hgap, scan_gap hgap, ih,
        List.count_cons_of_ne (ne_newline_of_isGap hgap)]
  | newline line a ih =>
      have hline : line + ('\n' :: a).count '\n' = line + 1 + a.count '\n' := by
        rw [List.count_cons_self]
        omega
      rw [List.cons_append, scan_newline, scan_newline, ih, hline]
      cases scan (line + 1) a with
      | error e => rfl
      | ok front =>
          cases scan (line + 1 + a.count '\n' + 1) b with
          | error e => rfl
          | ok back => rfl
  | fault line c a f hgap hfirst =>
      rw [List.cons_append, scan_fault hgap ((first_append_newline c a b).trans hfirst),
        scan_fault hgap hfirst, error_bind]
  | token line c a kind n hgap hc hfirst ih =>
      have hle := le_length_of_le_restOfLine (first_spec hc hfirst).2
      rw [List.cons_append, scan_cons hgap hc ((first_append_newline c a b).trans hfirst),
        scan_cons hgap hc hfirst, List.take_append_of_le_length hle,
        List.drop_append_of_le_length hle, ih, count_of_first hc hfirst]
      cases scan line (a.drop n) with
      | error e => rfl
      | ok front =>
          cases scan (line + (a.drop n).count '\n' + 1) b with
          | error e => rfl
          | ok back => rfl

/-- A fault is met on a line of the text. -/
theorem line_of_scan_eq_error {line : Nat} {s : Text} {e : Error} (h : scan line s = .error e) :
    line ≤ e.line ∧ e.line ≤ line + s.count '\n' := by
  induction line, s using scan_induction with
  | nil line =>
      rw [scan] at h
      cases h
  | gap line c s hgap ih =>
      rw [scan_gap hgap] at h
      rw [List.count_cons_of_ne (ne_newline_of_isGap hgap)]
      exact ih h
  | newline line s ih =>
      rw [scan_newline, map_eq_error_iff] at h
      obtain ⟨hlow, hhigh⟩ := ih h
      rw [List.count_cons_self]
      omega
  | fault line c s f hgap hfirst =>
      rw [scan_fault hgap hfirst] at h
      cases h
      exact ⟨Nat.le_refl _, Nat.le_add_right _ _⟩
  | token line c s kind n hgap hc hfirst ih =>
      rw [scan_cons hgap hc hfirst, map_eq_error_iff] at h
      rw [count_of_first hc hfirst]
      exact ih h

/-- How a text is cut into tokens, step by step. -/
inductive Scans : Nat → Text → List Token → Prop
  | nil {line : Nat} : Scans line [] []
  | gap {line : Nat} {c : Char} {s : Text} {tokens : List Token} (hgap : isGap c)
      (h : Scans line s tokens) : Scans line (c :: s) tokens
  | newline {line : Nat} {s : Text} {tokens : List Token} (h : Scans (line + 1) s tokens) :
      Scans line ('\n' :: s) (⟨.newline, ['\n'], line⟩ :: tokens)
  | token {line n : Nat} {c : Char} {s : Text} {kind : Kind} {tokens : List Token}
      (hgap : ¬ isGap c) (hc : c ≠ '\n') (hfirst : first c s = .ok (kind, n))
      (h : Scans line (s.drop n) tokens) :
      Scans line (c :: s) (⟨kind, c :: s.take n, line⟩ :: tokens)

theorem Scans.scan_eq {line : Nat} {s : Text} {tokens : List Token} (h : Scans line s tokens) :
    scan line s = .ok tokens := by
  induction h with
  | nil => rw [scan]
  | gap hgap h ih => rw [scan_gap hgap, ih]
  | newline h ih =>
      rw [scan_newline, ih]
      rfl
  | token hgap hc hfirst h ih =>
      rw [scan_cons hgap hc hfirst, ih]
      rfl

theorem scans_of_scan {line : Nat} {s : Text} {tokens : List Token}
    (h : scan line s = .ok tokens) : Scans line s tokens := by
  induction line, s using scan_induction generalizing tokens with
  | nil line =>
      rw [scan] at h
      cases h
      exact .nil
  | gap line c s hgap ih =>
      rw [scan_gap hgap] at h
      exact .gap hgap (ih h)
  | newline line s ih =>
      rw [scan_newline, map_eq_ok_iff] at h
      obtain ⟨rest, hrest, rfl⟩ := h
      exact .newline (ih hrest)
  | fault line c s f hgap hfirst =>
      rw [scan_fault hgap hfirst] at h
      cases h
  | token line c s kind n hgap hc hfirst ih =>
      rw [scan_cons hgap hc hfirst, map_eq_ok_iff] at h
      obtain ⟨rest, hrest, rfl⟩ := h
      exact .token hgap hc hfirst (ih hrest)

theorem scan_eq_ok_iff {line : Nat} {s : Text} {tokens : List Token} :
    scan line s = .ok tokens ↔ Scans line s tokens :=
  ⟨scans_of_scan, Scans.scan_eq⟩

theorem Scans.append_newline {line : Nat} {a b : Text} {front back : List Token}
    (ha : Scans line a front) (hb : Scans (line + a.count '\n' + 1) b back) :
    Scans line (a ++ '\n' :: b)
      (front ++ ⟨.newline, ['\n'], line + a.count '\n'⟩ :: back) := by
  apply scans_of_scan
  rw [scan_append_newline, ha.scan_eq, ok_bind, hb.scan_eq]
  rfl

/-- A token starts on a line of the text. -/
theorem Scans.line {line : Nat} {s : Text} {tokens : List Token} (h : Scans line s tokens) :
    ∀ t ∈ tokens, line ≤ t.line ∧ t.line ≤ line + s.count '\n' := by
  induction h with
  | nil => simp
  | gap hgap h ih =>
      rw [List.count_cons_of_ne (ne_newline_of_isGap hgap)]
      exact ih
  | @newline line s tokens h ih =>
      rw [List.count_cons_self, List.forall_mem_cons]
      refine ⟨⟨Nat.le_refl _, Nat.le_add_right _ _⟩, fun t ht => ?_⟩
      obtain ⟨hlow, hhigh⟩ := ih t ht
      omega
  | token hgap hc hfirst h ih =>
      rw [count_of_first hc hfirst, List.forall_mem_cons]
      exact ⟨⟨Nat.le_refl _, Nat.le_add_right _ _⟩, ih⟩

theorem Scans.kind_ne_newline {line : Nat} {s : Text} {tokens : List Token}
    (h : Scans line s tokens) (hs : '\n' ∉ s) : ∀ t ∈ tokens, t.kind ≠ .newline := by
  induction h with
  | nil => simp
  | gap hgap h ih => exact ih fun hmem => hs (List.mem_cons_of_mem _ hmem)
  | newline h ih => exact absurd List.mem_cons_self hs
  | token hgap hc hfirst h ih =>
      refine List.forall_mem_cons.mpr ⟨(first_spec hc hfirst).1, ih fun hmem => ?_⟩
      exact hs (List.mem_cons_of_mem _ (List.mem_of_mem_drop hmem))

/-- Nothing but a newline is the first token where nothing is left of a line. -/
theorem Scans.kind_of_head? {line : Nat} {s : Text} {t : Token} {tokens : List Token}
    (h : Scans line s (t :: tokens)) (hs : ∀ c ∈ s.head?, c = '\n') : t.kind = .newline := by
  cases h with
  | @gap line c s tokens hgap h =>
      obtain rfl := hs c rfl
      cases hgap
  | newline h => rfl
  | token hgap hc hfirst h => exact absurd (hs _ rfl) hc

end GoModules.Token
