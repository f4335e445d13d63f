import GoModules.Proofs.Manifest.Segmentation
import GoModules.Proofs.Manifest.Spelling

/-!
# What stands behind a token

Of what stands behind a token no more counts than where the token ends: strings and marks end by
themselves, a comment ends at a newline, and a bare word or an arrow ends at a delimiter or, if it
is a word, at a comment. So a token is the same in front of all texts that begin alike.
-/

namespace GoModules.Token

variable {c : Char} {s : Text} {kind : Kind} {n : Nat}

/-- A string is closed within its own characters. -/
theorem quotedLength?_take_append (h : quotedLength? s = some n) (t : Text) :
    quotedLength? (s.take n ++ t) = some n := by
  induction s using quotedLength?.induct generalizing n with
  | case1 s =>
      cases h
      rfl
  | case2 s => simp [quotedLength?] at h
  | case3 c s hc ih =>
      rw [quotedLength?, if_neg hc, Option.map_eq_some_iff] at h
      obtain ⟨k, hk, rfl⟩ := h
      rw [List.take_succ_cons, List.take_succ_cons, List.cons_append, List.cons_append,
        quotedLength?, if_neg hc, ih hk, Option.map_some]
  | case4 c s hquote hescape hc => simp [quotedLength?, hc] at h
  | case5 c s hquote hescape hc ih =>
      rw [quotedLength?, if_neg hc, Option.map_eq_some_iff] at h
      · obtain ⟨k, hk, rfl⟩ := h
        rw [List.take_succ_cons, List.cons_append, quotedLength?, if_neg hc, ih hk,
          Option.map_some]
        · exact hquote
        · rintro d rest rfl
          exact absurd (.inr rfl) hc
      · exact hquote
      · exact hescape
  | case6 => cases h

theorem rawLength?_take_append (h : rawLength? s = some n) (t : Text) :
    rawLength? (s.take n ++ t) = some n := by
  induction s generalizing n with
  | nil => cases h
  | cons c s ih =>
      rw [rawLength?] at h
      split at h
      · next hc =>
          cases h
          rw [List.take_succ_cons, List.cons_append, rawLength?, if_pos hc]
      · next hc =>
          split at h
          · cases h
          · next hnewline =>
              obtain ⟨k, hk, rfl⟩ := Option.map_eq_some_iff.mp h
              rw [List.take_succ_cons, List.cons_append, rawLength?, if_neg hc, if_neg hnewline,
                ih hk, Option.map_some]

theorem beforeComment_cons_eq_iff {t : Text} :
    beforeComment (c :: s) = c :: t ↔ ¬ (c = '/' ∧ s.head? = some '/') ∧ beforeComment s = t := by
  by_cases hstart : c = '/' ∧ s.head? = some '/'
  · obtain ⟨rfl, hhead⟩ := hstart
    obtain ⟨rest, rfl⟩ := List.head?_eq_some_iff.mp hhead
    simp [beforeComment]
  · rw [beforeComment]
    · simp [hstart]
    · rintro rest rfl rfl
      exact hstart ⟨rfl, rfl⟩

/-- Two texts that begin alike as far as a token in front of them can tell. -/
structure Alike (x y : Text) : Prop where
  head : y.head? = x.head?
  comment : ['/', '/'] <+: x → ['/', '/'] <+: y

section Alike

variable {u w x y : Text}

theorem Alike.takeWhile (h : Alike x y) :
    Alike (x.takeWhile isBareChar) (y.takeWhile isBareChar) where
  head := by rw [List.head?_takeWhile, List.head?_takeWhile, h.head]
  comment := by
    intro hx
    obtain ⟨rest, rfl⟩ := h.comment (hx.trans (List.takeWhile_prefix _))
    exact ⟨rest.takeWhile isBareChar, by simp [isBareChar]⟩

theorem Alike.refl (x : Text) : Alike x x :=
  ⟨rfl, id⟩

theorem Alike.cons (c : Char) (h : Alike x y) : Alike (c :: x) (c :: y) where
  head := rfl
  comment := by
    rw [List.cons_prefix_cons, List.cons_prefix_cons, List.singleton_prefix_iff_head?_eq_some,
      List.singleton_prefix_iff_head?_eq_some, h.head]
    exact id

theorem Alike.append (u : Text) (h : Alike x y) : Alike (u ++ x) (u ++ y) := by
  induction u with
  | nil => exact h
  | cons c u ih => exact ih.cons c

/-- What stands behind a word on its run begins with a comment, if anything stands there. -/
theorem eq_nil_or_of_beforeComment_append (h : beforeComment (w ++ x) = w) :
    x = [] ∨ ['/', '/'] <+: x := by
  induction w with
  | nil =>
      rw [List.nil_append] at h
      obtain ⟨rest, hx, hrest⟩ := exists_beforeComment_append x
      rw [h, List.nil_append] at hx
      rwa [← hx] at hrest
  | cons c w ih =>
      rw [List.cons_append, beforeComment_cons_eq_iff] at h
      exact ih h.2

theorem beforeComment_append_congr (h : beforeComment (w ++ x) = w) (hxy : Alike x y) :
    beforeComment (w ++ y) = w := by
  induction w with
  | nil =>
      rcases eq_nil_or_of_beforeComment_append h with rfl | hx
      · have hy : y = [] := List.head?_eq_none_iff.mp hxy.head
        rw [hy]
        rfl
      · obtain ⟨rest, rfl⟩ := hxy.comment hx
        rfl
  | cons c w ih =>
      have hhead : (w ++ y).head? = (w ++ x).head? := by
        rw [List.head?_append, List.head?_append, hxy.head]
      rw [List.cons_append, beforeComment_cons_eq_iff] at h ⊢
      rw [hhead]
      exact ⟨h.1, ih h.2⟩

theorem takeWhile_append_congr {p : Char → Bool} (hu : u.length = ((u ++ x).takeWhile p).length)
    (hxy : y.head? = x.head?) : (u ++ x).takeWhile p = u ∧ (u ++ y).takeWhile p = u := by
  have hrun : (u ++ x).takeWhile p = u := by
    obtain ⟨rest, hrest⟩ := List.takeWhile_prefix (l := u ++ x) p
    exact (List.append_inj hrest hu.symm).1
  refine ⟨hrun, ?_⟩
  clear hu
  induction u with
  | nil =>
      rw [List.nil_append, ← List.head?_eq_none_iff, List.head?_takeWhile] at hrun ⊢
      rw [hxy, hrun]
  | cons d u ih =>
      rw [List.cons_append, List.takeWhile_cons] at hrun ⊢
      split at hrun
      · next hd => rw [if_pos hd, ih (List.cons.inj hrun).2]
      · cases hrun

/-- One case for each kind: an arrow and a comment end where their characters end, and a bare word
does so too or is cut in front of a comment. -/
theorem bare_append_congr (hc : isBareChar c) (h : bare c (u ++ x) = .ok (kind, u.length))
    (hxy : Alike x y) : bare c (u ++ y) = .ok (kind, u.length) := by
  rcases bare_cases h with ⟨rfl, hrun, hu⟩ | ⟨rfl, rfl, hhead, hu⟩ |
    ⟨rfl, hrun, inside, hword, hblock, hu⟩
  · rw [List.cons.injEq] at hrun
    have hlength : u.length = ((u ++ x).takeWhile isBareChar).length := by rw [hu, hrun.2]; rfl
    obtain ⟨hrunx, hruny⟩ := takeWhile_append_congr hlength hxy.head
    rw [hu]
    exact bare_of_arrow (by rw [hruny, ← hrunx, hrun.1, hrun.2])
  · obtain ⟨hrunx, hruny⟩ := takeWhile_append_congr hu hxy.head
    have hline : restOfLine (u ++ y) = u := hruny
    have hhead' : (u ++ y).head? = some '/' := by
      rw [List.head?_append, hxy.head, ← List.head?_append, hhead]
    rw [bare_of_comment hhead', hline]
  · obtain ⟨htake, hchars, -⟩ := cut_bare hc hword hblock
    obtain rfl : u = inside := by rwa [← hu, List.take_left] at htake
    have hall : ∀ d ∈ u, isBareChar d := fun d hd =>
      isBareChar_iff.mpr (hchars d (List.mem_cons_of_mem c hd))
    rw [List.takeWhile_append_of_pos hall, ← List.cons_append] at hrun hword
    have hcut := beforeComment_append_congr hword hxy.takeWhile
    refine bare_of_word (List.takeWhile_append_of_pos hall) ?_ hcut hblock
    intro harrow
    rw [← List.cons_append] at harrow
    rcases eq_nil_or_of_beforeComment_append hcut with hnil | ⟨rest, hrest⟩
    · have hnil' : x.takeWhile isBareChar = [] := by
        rw [← List.head?_eq_none_iff, ← hxy.takeWhile.head, hnil]
        rfl
      rw [hnil] at harrow
      rw [hnil'] at hrun
      exact hrun harrow
    · have hslash : '/' ∈ ['=', '>'] := by
        rw [← harrow, ← hrest]
        simp
      exact absurd hslash (by decide)

/-- A token is the same in front of texts that begin alike. How they begin matters only behind a
token that is written in characters of bare words. -/
theorem first_append_congr (h : first c (u ++ x) = .ok (kind, u.length))
    (hxy : isBareChar c → Alike x y) : first c (u ++ y) = .ok (kind, u.length) := by
  rcases first_cases h with ⟨hmark, hu⟩ | ⟨rfl, rfl, hlength⟩ | ⟨rfl, rfl, hlength⟩ | ⟨hc, hbare⟩
  · rw [first, hmark, hu]
  · have hclosed := quotedLength?_take_append hlength y
    rw [List.take_left] at hclosed
    rw [first, hclosed]
    rfl
  · have hclosed := rawLength?_take_append hlength y
    rw [List.take_left] at hclosed
    rw [first, hclosed]
    rfl
  · rw [first_eq_bare hc]
    exact bare_append_congr hc hbare (hxy hc)

theorem le_length_of_first (h : first c s = .ok (kind, n)) : n ≤ s.length := by
  by_cases hc : c = '\n'
  · subst hc
    cases h
    exact Nat.zero_le _
  · exact le_length_of_le_restOfLine (first_spec hc h).2

/-- What stands behind a token may be replaced by what begins alike. -/
theorem first_take_append (h : first c s = .ok (kind, n))
    (hy : isBareChar c → Alike (s.drop n) y) : first c (s.take n ++ y) = .ok (kind, n) := by
  have hlength : (s.take n).length = n := List.length_take_of_le (le_length_of_first h)
  have hsplit : first c (s.take n ++ s.drop n) = .ok (kind, (s.take n).length) := by
    rw [List.take_append_drop, hlength, h]
  rw [first_append_congr hsplit hy, hlength]

/-- A token in characters of bare words reaches to where these end, or to a comment. -/
theorem end_of_first (hc : isBareChar c) (h : first c s = .ok (kind, n)) :
    (∀ d ∈ (s.drop n).head?, isBareChar d = false) ∨ ['/', '/'] <+: s.drop n := by
  rw [first_eq_bare hc] at h
  rcases bare_cases h with ⟨-, hrun, rfl⟩ | ⟨-, rfl, hhead, rfl⟩ |
    ⟨-, -, inside, hword, hblock, rfl⟩
  · have hdrop : s.drop 1 = s.dropWhile isBareChar := by
      rw [List.cons.injEq] at hrun
      conv => lhs; arg 2; rw [← List.takeWhile_append_dropWhile (p := isBareChar) (l := s), hrun.2]
      rfl
    rw [hdrop]
    refine .inl fun d hd => ?_
    have hhead := List.head?_dropWhile_not isBareChar s
    rw [Option.mem_def.mp hd] at hhead
    exact hhead
  · refine .inl fun d hd => ?_
    rw [(cut_comment hhead).2 d hd]
    decide
  · obtain ⟨-, -, -, -, hend⟩ := cut_bare hc hword hblock
    refine hend.imp_left fun hhead d hd => ?_
    rw [← Bool.not_eq_true, isBareChar_iff, not_not]
    exact hhead d hd

/-- No token in characters of bare words runs on into a bare word. So there is something between the
two, and what stands behind that does not count for the token in front. -/
theorem alike_of_end {a z : Text} (hz : ∃ d ∈ z.head?, isBareChar d)
    (hend : (∀ d ∈ (a ++ z).head?, isBareChar d = false) ∨ ['/', '/'] <+: a ++ z)
    (hcomment : ['/', '/'] <+: a ++ z → ['/', '/'] <+: a) (y : Text) :
    Alike (a ++ z) (a ++ y) := by
  rcases hend with hhead | hslashes
  · cases a with
    | nil =>
        obtain ⟨d, hd, hbare⟩ := hz
        exact absurd (hbare.symm.trans (hhead d hd)) (by decide)
    | cons d a => exact ⟨rfl, fun hslashes => (hcomment hslashes).trans (List.prefix_append _ y)⟩
  · obtain ⟨rest, rfl⟩ := hcomment hslashes
    exact ⟨rfl, fun _ => List.prefix_append ['/', '/'] _⟩

end Alike

end GoModules.Token
