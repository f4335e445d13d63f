import GoModules.Proofs.Manifest.Segmentation
import GoModules.Proofs.Manifest.Spelling
import GoModules.Proofs.Offset.Bounds

/-!
# Scanning by offsets

The tokens of a text can be found one after the other from an offset that moves on behind each. A
bare word is found together with the comment that is glued to it and is cut off from it then. All
the offsets are between characters, each token moves on, and the tokens are those of the text.
-/

namespace GoModules.Offset

open Text (byteLength)
open Token
open Outcome

/-- Where the next token is looked for, and on which line. -/
structure Cursor where
  position : Nat := 0
  line : Nat := 1

/-- What is found in a text: a gap up to its end, a token between two offsets, or a character at an
offset that begins no token. -/
inductive Found
  | nothing
  | token (kind : Token.Kind) (start stop : Nat)
  | refused (start : Nat)

/-- The kind of the longest token that starts with the character `c` of bare words, and how many
characters of the rest `s` belong to it. A comment behind a bare word is not cut off. -/
def run (c : Char) (s : Text) : Token.Kind × Nat :=
  match c :: s.takeWhile isBareChar with
  | ['=', '>'] => (.arrow, 1)
  | '/' :: '/' :: _ => (.comment, (s.takeWhile (· != '\n')).length)
  | _ => (.bare, (s.takeWhile isBareChar).length)

/-- The longest token that starts with `c`. -/
def longest? (c : Char) (s : Text) : Option (Token.Kind × Nat) :=
  match punctuation? c with
  | some kind => some (kind, 0)
  | none =>
      if c = '"' then (quotedLength? s).map (.quoted, ·)
      else if c = '\x60' then (rawLength? s).map (.raw, ·)
      else if isBareChar c then some (run c s)
      else none

/-- Finds the first token of a text. -/
def found (s : Text) : Found :=
  let start := byteLength (s.takeWhile isGap)
  match s.dropWhile isGap with
  | [] => .nothing
  | c :: rest =>
      match longest? c rest with
      | some (kind, n) => .token kind start (start + byteLength (c :: rest.take n))
      | none => .refused start

/-- What of a longest token is the token: a bare word ends where a comment begins in it. -/
def cut? (kind : Token.Kind) (s : Text) : Option Text :=
  if kind = .bare then
    match find? ("//".toList.isPrefixOf ·) s with
    | some n => upTo? n s
    | none => some s
  else some s

/-- Why no token begins with a character. -/
def refusal (c : Char) : Token.Fault :=
  if c = '"' ∨ c = '\x60' then .unterminatedString else .unexpectedChar c

/-- Takes the next token of a text, if there is one. -/
def next? (source : Text) (cursor : Cursor) : Checked Token.Error (Option (Token × Cursor)) := do
  let remaining ← from? cursor.position source
  match found remaining with
  | .nothing => return none
  | .refused start =>
      match ← from? start remaining with
      | [] => return none
      | c :: _ => throw ⟨cursor.line, refusal c⟩
  | .token kind start stop =>
      let text ← cut? kind (← between? start stop remaining)
      if kind = .bare ∧ opensBlock text then throw ⟨cursor.line, .blockComment⟩
      else
        return some (⟨kind, text, cursor.line⟩,
          ⟨cursor.position + (start + byteLength text),
            if kind = .newline then cursor.line + 1 else cursor.line⟩)

/-- Takes tokens up to the end of a text. It breaks off where it does not move on inside the text,
and so might never end. -/
def scan? (source : Text) (cursor : Cursor) : Checked Token.Error (List Token) := do
  match ← next? source cursor with
  | none => return []
  | some (t, next) =>
      if _ : cursor.position < next.position ∧ next.position ≤ byteLength source then
        return t :: (← scan? source next)
      else outOfBounds
termination_by byteLength source - cursor.position
decreasing_by omega

variable {c : Char} {s front source : Text} {line n : Nat} {kind : Token.Kind}
  {fault : Token.Fault}

theorem cut?_bare (s : Text) : cut? .bare s = some (beforeComment s) := by
  rw [cut?, if_pos rfl]
  induction s using beforeComment.induct with
  | case1 => rfl
  | case2 s =>
      rw [find?, if_pos (by simp), beforeComment]
      rfl
  | case3 c s hne ih =>
      have hcomment : "//".toList.isPrefixOf (c :: s) = false := by
        rw [Bool.eq_false_iff, Ne, List.isPrefixOf_iff_prefix]
        rintro ⟨rest, hrest⟩
        cases hrest
        exact hne rest rfl rfl
      rw [find?, hcomment, beforeComment]
      · cases hfind : find? ("//".toList.isPrefixOf ·) s with
        | none =>
            rw [hfind] at ih
            exact congrArg (Option.map (c :: ·)) ih
        | some n =>
            rw [hfind] at ih
            exact upTo?_cons ih c
      · exact hne

theorem cut?_of_ne (hkind : kind ≠ .bare) (s : Text) : cut? kind s = some s :=
  if_neg hkind

theorem run_of_arrow (h : c :: s.takeWhile isBareChar = ['=', '>']) : run c s = (.arrow, 1) := by
  rw [run, h]
  rfl

theorem run_of_comment (h : s.head? = some '/') :
    run '/' s = (.comment, (s.takeWhile (· != '\n')).length) := by
  obtain ⟨rest, rfl⟩ := List.head?_eq_some_iff.mp h
  rw [run, List.takeWhile_cons_of_pos (p := isBareChar) (by decide)]
  rfl

theorem run_of_word (harrow : c :: s.takeWhile isBareChar ≠ ['=', '>'])
    (hcomment : ∀ rest, c :: s.takeWhile isBareChar ≠ '/' :: '/' :: rest) :
    run c s = (.bare, (s.takeWhile isBareChar).length) := by
  unfold run
  split
  · next h => exact absurd h harrow
  · next rest h => exact absurd h (hcomment rest)
  · rfl

theorem longest?_of_isBareChar (hc : isBareChar c) (s : Text) :
    longest? c s = some (run c s) := by
  obtain ⟨hpunctuation, hquote, hraw⟩ := not_mark_of_isBareChar hc
  rw [longest?, hpunctuation]
  dsimp only
  rw [if_neg hquote, if_neg hraw, if_pos hc]

/-- The longest bare word is cut at the comment that begins in it. -/
theorem cut?_run (s : Text) :
    cut? .bare (c :: s.take (s.takeWhile isBareChar).length) =
      some (beforeComment (c :: s.takeWhile isBareChar)) := by
  have htake := List.prefix_iff_eq_take.mp (List.takeWhile_prefix (l := s) isBareChar)
  rw [← htake, cut?_bare]

/-- A token is the longest one, or what is cut off from the longest one in front of a comment. -/
theorem longest?_of_first_ok (h : first c s = .ok (kind, n)) :
    ∃ k, longest? c s = some (kind, k) ∧ cut? kind (c :: s.take k) = some (c :: s.take n) ∧
      ¬ (kind = .bare ∧ opensBlock (c :: s.take n)) := by
  rcases first_cases h with ⟨hmark, rfl⟩ | ⟨rfl, rfl, hlength⟩ | ⟨rfl, rfl, hlength⟩ | ⟨hc, h⟩
  · have hkind := (kind_ne_of_punctuation? hmark).1
    refine ⟨0, ?_, cut?_of_ne hkind _, fun hbare => hkind hbare.1⟩
    rw [longest?, hmark]
  · refine ⟨n, ?_, rfl, by simp⟩
    rw [longest?, hlength]
    rfl
  · refine ⟨n, ?_, rfl, by simp⟩
    rw [longest?, hlength]
    rfl
  · rw [longest?_of_isBareChar hc]
    rcases bare_cases h with ⟨rfl, hrun, rfl⟩ | ⟨rfl, rfl, hs, rfl⟩ | ⟨rfl, harrow, inside, hword,
      hblock, rfl⟩
    · exact ⟨1, by rw [run_of_arrow hrun], rfl, by simp⟩
    · exact ⟨_, by rw [run_of_comment hs], rfl, by simp⟩
    · have hcomment : ∀ rest, c :: s.takeWhile isBareChar ≠ '/' :: '/' :: rest := by
        intro rest hrest
        rw [hrest, beforeComment] at hword
        cases hword
      have htake := (cut_bare hc hword hblock).1
      refine ⟨_, by rw [run_of_word harrow hcomment], ?_, ?_⟩
      · rw [cut?_run, hword, htake]
      · rw [htake, hblock]
        simp

theorem longest?_of_bare_error (hc : isBareChar c) (h : bare c s = .error fault) :
    fault = .blockComment ∧ ∃ k word, longest? c s = some (.bare, k) ∧
      cut? .bare (c :: s.take k) = some word ∧ opensBlock word := by
  unfold bare at h
  split at h
  · cases h
  · cases h
  · next harrow hcomment =>
      dsimp only at h
      split at h
      · next hblock =>
          cases h
          refine ⟨rfl, _, _, ?_, cut?_run s, hblock⟩
          rw [longest?_of_isBareChar hc, run_of_word harrow hcomment]
      · cases h

theorem map_eq_none_of_string {length? : Option Nat} (kind : Token.Kind)
    (h : (match length? with
      | some n => Except.ok (kind, n)
      | none => .error Token.Fault.unterminatedString) = .error fault) :
    length?.map (kind, ·) = none ∧ fault = .unterminatedString := by
  cases length? with
  | some n => cases h
  | none =>
      cases h
      exact ⟨rfl, rfl⟩

/-- Where there is no token, none is found either, or a bare word that begins a block comment. -/
theorem longest?_of_first_error (h : first c s = .error fault) :
    longest? c s = none ∧ fault = refusal c ∨
      fault = .blockComment ∧ ∃ k word, longest? c s = some (.bare, k) ∧
        cut? .bare (c :: s.take k) = some word ∧ opensBlock word := by
  by_cases hc : isBareChar c
  · rw [first_eq_bare hc] at h
    exact .inr (longest?_of_bare_error hc h)
  · left
    rw [first] at h
    rw [longest?, refusal]
    cases hmark : punctuation? c with
    | some kind =>
        rw [hmark] at h
        cases h
    | none =>
        rw [hmark] at h
        dsimp only at h ⊢
        by_cases hquote : c = '"'
        · rw [if_pos hquote] at h
          rw [if_pos hquote, if_pos (.inl hquote)]
          exact map_eq_none_of_string .quoted h
        · rw [if_neg hquote] at h
          rw [if_neg hquote]
          by_cases hraw : c = '\x60'
          · rw [if_pos hraw] at h
            rw [if_pos hraw, if_pos (.inr hraw)]
            exact map_eq_none_of_string .raw h
          · rw [if_neg hraw, if_neg hc] at h
            rw [if_neg hraw, if_neg hc, if_neg (not_or.mpr ⟨hquote, hraw⟩)]
            cases h
            exact ⟨rfl, rfl⟩

theorem found_eq (hgap : ∀ d ∈ front, isGap d) (hc : ¬ isGap c) (s : Text) :
    found (front ++ c :: s) =
      match longest? c s with
      | some (kind, n) =>
          .token kind (byteLength front) (byteLength front + byteLength (c :: s.take n))
      | none => .refused (byteLength front) := by
  have hhead : ∀ d ∈ (c :: s).head?, isGap d = false := by
    rintro d ⟨⟩
    exact Bool.eq_false_iff.mpr hc
  rw [found, Text.takeWhile_append_of_head? hgap hhead, Text.dropWhile_append_of_head? hgap hhead]

section Step

variable {gap : Text}

/-- Behind what has been read, only the rest of a text counts. -/
theorem next?_eq (line : Nat) (front s : Text) :
    next? (front ++ s) ⟨byteLength front, line⟩ =
      match found s with
      | .nothing => inBounds (.ok none)
      | .refused start => do
          match ← from? start s with
          | [] => return none
          | c :: _ => throw ⟨line, refusal c⟩
      | .token kind start stop => do
          let text ← cut? kind (← between? start stop s)
          if kind = .bare ∧ opensBlock text then throw ⟨line, .blockComment⟩
          else
            return some (⟨kind, text, line⟩, ⟨byteLength front + (start + byteLength text),
              if kind = .newline then line + 1 else line⟩) := by
  rw [next?, from?_append, lift_some_bind]
  cases found s with
  | nothing => rfl
  | token kind start stop => rfl
  | refused start => rfl

theorem next?_gap (line : Nat) (front : Text) (hgap : ∀ d ∈ gap, isGap d) :
    next? (front ++ gap) ⟨byteLength front, line⟩ = inBounds (.ok none) := by
  have hfound : found gap = .nothing := by
    rw [found, List.dropWhile_eq_nil_iff.mpr hgap]
  rw [next?_eq, hfound]

theorem between?_gap_append (gap : Text) (c : Char) (s : Text) (k : Nat) :
    between? (byteLength gap) (byteLength gap + byteLength (c :: s.take k)) (gap ++ c :: s) =
      some (c :: s.take k) := by
  have hsplit : c :: s = c :: s.take k ++ s.drop k := by
    rw [List.cons_append, List.take_append_drop]
  rw [hsplit]
  exact between?_append gap (c :: s.take k) (s.drop k)

theorem next?_of_first_ok (line : Nat) (front : Text) (hgap : ∀ d ∈ gap, isGap d)
    (hc : ¬ isGap c) (h : first c s = .ok (kind, n)) :
    next? (front ++ (gap ++ c :: s)) ⟨byteLength front, line⟩ =
      inBounds (.ok (some (⟨kind, c :: s.take n, line⟩,
        ⟨byteLength (front ++ gap ++ c :: s.take n),
          if kind = .newline then line + 1 else line⟩))) := by
  obtain ⟨k, hlongest, hcut, hblock⟩ := longest?_of_first_ok h
  rw [next?_eq, found_eq hgap hc, hlongest]
  dsimp only
  rw [between?_gap_append, lift_some_bind, hcut, lift_some_bind,
    if_neg hblock, pure_eq_inBounds, Text.byteLength_append, Text.byteLength_append, Nat.add_assoc]

theorem next?_of_first_error (line : Nat) (front : Text) (hgap : ∀ d ∈ gap, isGap d)
    (hc : ¬ isGap c) (h : first c s = .error fault) :
    next? (front ++ (gap ++ c :: s)) ⟨byteLength front, line⟩ =
      inBounds (.error ⟨line, fault⟩) := by
  rw [next?_eq, found_eq hgap hc]
  rcases longest?_of_first_error h with ⟨hlongest, rfl⟩ | ⟨rfl, k, word, hlongest, hcut, hblock⟩
  · rw [hlongest]
    dsimp only
    rw [from?_append, lift_some_bind]
    rfl
  · rw [hlongest]
    dsimp only
    rw [between?_gap_append, lift_some_bind, hcut, lift_some_bind,
      if_pos ⟨rfl, hblock⟩, throw_eq_inBounds]

end Step

theorem scan_eq_scan_dropWhile (line : Nat) (s : Text) :
    scan line s = scan line (s.dropWhile isGap) := by
  induction s with
  | nil => rfl
  | cons c s ih =>
      by_cases hc : isGap c
      · rw [scan_gap hc, List.dropWhile_cons_of_pos hc, ih]
      · rw [List.dropWhile_cons_of_neg hc]

theorem scan?_of_none {cursor : Cursor} (h : next? source cursor = inBounds (.ok none)) :
    scan? source cursor = inBounds (.ok []) := by
  rw [scan?, h, inBounds_ok_bind]
  rfl

theorem scan?_of_error {cursor : Cursor} {e : Token.Error}
    (h : next? source cursor = inBounds (.error e)) :
    scan? source cursor = inBounds (.error e) := by
  rw [scan?, h, inBounds_error_bind]

theorem scan?_of_some {cursor next : Cursor} {t : Token}
    (h : next? source cursor = inBounds (.ok (some (t, next))))
    (hmoves : cursor.position < next.position ∧ next.position ≤ byteLength source) :
    scan? source cursor = (t :: ·) <$> scan? source next := by
  rw [scan?, h, inBounds_ok_bind]
  dsimp only
  rw [dif_pos hmoves]
  rfl

/-- Scanning by offsets gives the tokens of a text. -/
theorem scan?_append (line : Nat) (front s : Text) :
    scan? (front ++ s) ⟨byteLength front, line⟩ = inBounds (scan line s) := by
  induction hn : s.length using Nat.strongRecOn generalizing line front s with
  | ind n ih =>
      subst hn
      have hgap : ∀ d ∈ s.takeWhile isGap, isGap d :=
        fun d hd => List.all_eq_true.mp List.all_takeWhile d hd
      have hs : s.takeWhile isGap ++ s.dropWhile isGap = s := List.takeWhile_append_dropWhile
      rw [scan_eq_scan_dropWhile]
      cases hrest : s.dropWhile isGap with
      | nil =>
          rw [hrest, List.append_nil] at hs
          rw [scan, ← hs]
          exact scan?_of_none (next?_gap line front hgap)
      | cons c rest =>
          have hhead := List.head?_dropWhile_not isGap s
          rw [hrest] at hs hhead
          have hc : ¬ isGap c := Bool.eq_false_iff.mp hhead
          cases hfirst : first c rest with
          | error fault =>
              rw [scan_fault hc hfirst, ← hs]
              exact scan?_of_error (next?_of_first_error line front hgap hc hfirst)
          | ok taken =>
              obtain ⟨kind, k⟩ := taken
              have hnext := next?_of_first_ok line front hgap hc hfirst
              have hsource : front ++ (s.takeWhile isGap ++ c :: rest) =
                  front ++ s.takeWhile isGap ++ c :: rest.take k ++ rest.drop k := by
                simp
              have hmoves : byteLength front <
                    byteLength (front ++ s.takeWhile isGap ++ c :: rest.take k) ∧
                  byteLength (front ++ s.takeWhile isGap ++ c :: rest.take k) ≤
                    byteLength (front ++ (s.takeWhile isGap ++ c :: rest)) := by
                have hsize := c.utf8Size_pos
                rw [hsource]
                simp only [Text.byteLength_append, Text.byteLength_cons]
                omega
              have hlength : (rest.drop k).length < s.length := by
                rw [← hs, List.length_append, List.length_cons, List.length_drop]
                omega
              rw [← hs, scan?_of_some hnext hmoves, hsource, ih _ hlength _ _ _ rfl, scan,
                if_neg hc, hfirst]
              dsimp only
              cases scan (if kind = .newline then line + 1 else line) (rest.drop k) with
              | error e => rfl
              | ok tokens => rfl

theorem scan?_eq (s : Text) : scan? s {} = inBounds (scan 1 s) :=
  scan?_append 1 [] s

end GoModules.Offset
