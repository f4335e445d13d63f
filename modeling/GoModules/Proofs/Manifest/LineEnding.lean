import GoModules.Proofs.Manifest.Recomment
import GoModules.Proofs.Text.LineEnding

/-!
# Line endings of manifests

A carriage return at the end of a line separates tokens like a space, so it is part of a token only
where a comment ends the line. There it is a blank behind what the comment says. So a manifest is
read the same whether or not its lines end with carriage returns.
-/

namespace GoModules

open Outcome

namespace Token

variable {line n : Nat} {c : Char} {s : Text} {kind : Kind}

/-- The length of a token at the end of whose line a carriage return is put. -/
def withReturn (found : Kind × Nat) : Kind × Nat :=
  (found.1, if found.1 = .comment then found.2 + 1 else found.2)

theorem bare_append_return (hs : '\n' ∉ s) :
    bare c (s ++ ['\r']) = withReturn <$> bare c s := by
  have hrun : (s ++ ['\r']).takeWhile isBareChar = s.takeWhile isBareChar :=
    takeWhile_append_cons (by decide) s []
  have hreturn : '\n' ∉ s ++ ['\r'] := by
    simpa using hs
  have hline : (s ++ ['\r']).takeWhile (· != '\n') = s ++ ['\r'] := restOfLine_of_notMem hreturn
  have hline' : s.takeWhile (· != '\n') = s := restOfLine_of_notMem hs
  unfold bare
  rw [hrun, hline, hline', List.length_append]
  split
  · rfl
  · rfl
  · dsimp only
    split
    · rfl
    · rfl

theorem first_append_return (hs : '\n' ∉ s) :
    first c (s ++ ['\r']) = withReturn <$> first c s := by
  have hquoted : quotedLength? (s ++ ['\r']) = quotedLength? s :=
    quotedLength?_append_of_none (by decide) (by decide) s
  have hraw : rawLength? (s ++ ['\r']) = rawLength? s :=
    rawLength?_append_of_none (by decide) s
  unfold first
  rw [hquoted, hraw, bare_append_return hs]
  split
  · next kind hkind =>
      have hfound : withReturn (kind, 0) = (kind, 0) :=
        Prod.ext rfl (if_neg (kind_ne_of_punctuation? hkind).2.1)
      exact congrArg Except.ok hfound.symm
  · split
    · cases quotedLength? s with
      | none => rfl
      | some n => rfl
    · split
      · cases rawLength? s with
        | none => rfl
        | some n => rfl
      · split
        · rfl
        · rfl

theorem first_append_return_of_ne (hs : '\n' ∉ s) (h : first c s = .ok (kind, n))
    (hkind : kind ≠ .comment) : first c (s ++ ['\r']) = .ok (kind, n) := by
  rw [first_append_return hs, h]
  exact congrArg Except.ok (Prod.ext rfl (if_neg hkind))

/-- A comment reaches the end of its line with and without a carriage return there. -/
theorem first_append_return_comment (hs : '\n' ∉ s) (h : first c s = .ok (.comment, n)) :
    n = s.length ∧ first c (s ++ ['\r']) = .ok (.comment, (s ++ ['\r']).length) := by
  obtain ⟨-, -, hn⟩ := comment_of_first h
  rw [restOfLine_of_notMem hs] at hn
  subst hn
  rw [first_append_return hs, h, List.length_append]
  exact ⟨rfl, rfl⟩

/-- A carriage return at the end of a line belongs to the comment there, if there is one. -/
theorem scan_append_return (hs : '\n' ∉ s) :
    scan line (s ++ ['\r']) = List.map (recomment (· ++ ['\r'])) <$> scan line s := by
  induction line, s using scan_induction with
  | nil line =>
      rw [List.nil_append, scan_gap (by decide), scan]
      rfl
  | gap line c s hgap ih =>
      rw [List.mem_cons, not_or] at hs
      rw [List.cons_append, scan_gap hgap, scan_gap hgap, ih hs.2]
  | newline line s ih => exact absurd List.mem_cons_self hs
  | fault line c s f hgap hfirst =>
      rw [List.mem_cons, not_or] at hs
      have hreturn := first_append_return (c := c) hs.2
      rw [hfirst] at hreturn
      rw [List.cons_append, scan_fault hgap hreturn, scan_fault hgap hfirst]
      rfl
  | token line c s kind n hgap hc hfirst ih =>
      rw [List.mem_cons, not_or] at hs
      rw [List.cons_append]
      by_cases hkind : kind = .comment
      · subst hkind
        obtain ⟨rfl, hreturn⟩ := first_append_return_comment hs.2 hfirst
        rw [scan_cons hgap hc hreturn, scan_cons hgap hc hfirst, List.take_length,
          List.take_length, List.drop_length, List.drop_length, scan]
        rfl
      · have hreturn := first_append_return_of_ne hs.2 hfirst hkind
        have hle := le_length_of_le_restOfLine (first_spec hc hfirst).2
        have hsame : recomment (· ++ ['\r']) ⟨kind, c :: s.take n, line⟩ =
            ⟨kind, c :: s.take n, line⟩ :=
          recomment_of_ne _ hkind
        rw [scan_cons hgap hc hreturn, scan_cons hgap hc hfirst,
          List.take_append_of_le_length hle, List.drop_append_of_le_length hle,
          ih fun hmem => hs.2 (List.mem_of_mem_drop hmem), map_recomment_cons, hsame]

theorem trimEnd_recomment_return (t : Token) :
    (t.recomment (· ++ ['\r'])).recomment Text.trimEnd = t.recomment Text.trimEnd := by
  have htrim : Text.trimEnd ∘ (· ++ ['\r']) = Text.trimEnd := by
    funext s
    exact (Text.trimEnd_concat s '\r').trans (if_pos (by decide))
  rw [recomment_recomment, htrim]

/-- With other line endings a text has the same tokens or the same fault, but for blanks at the end
of comments. -/
theorem scan_crlf (line : Nat) (s : Text) :
    List.map (recomment Text.trimEnd) <$> scan line (Text.crlf s) =
      List.map (recomment Text.trimEnd) <$> scan line s := by
  have hback : ∀ (front : List Token) (t : Token) (back : Except Error (List Token)),
      List.map (recomment Text.trimEnd) <$> (back >>= fun back => pure (front ++ t :: back)) =
        (front.map (recomment Text.trimEnd) ++ t.recomment Text.trimEnd :: ·) <$>
          (List.map (recomment Text.trimEnd) <$> back) := by
    intro front t back
    cases back with
    | error e => rfl
    | ok back => exact congrArg Except.ok List.map_append
  induction s using Text.lines_induction generalizing line with
  | last s hs => rw [Text.crlf_of_notMem hs]
  | line a b ha ih =>
      have hcount : (a ++ ['\r']).count '\n' = a.count '\n' := List.count_append
      rw [Text.crlf_append_newline ha, scan_append_newline, scan_append_newline,
        scan_append_return ha, hcount]
      cases scan line a with
      | error e => rfl
      | ok front =>
          have hfront : (front.map (recomment (· ++ ['\r']))).map (recomment Text.trimEnd) =
              front.map (recomment Text.trimEnd) := by
            rw [List.map_map]
            exact List.map_congr_left fun t _ => trimEnd_recomment_return t
          have hboth := hback (front.map (recomment (· ++ ['\r'])))
            ⟨.newline, ['\n'], line + a.count '\n'⟩
            (scan (line + a.count '\n' + 1) (Text.crlf b))
          rw [hfront, ih, ← hback] at hboth
          exact hboth

end Token

namespace Manifest

theorem ofText_crlf (s : Text) : ofText (Text.crlf s) = ofText s := by
  have hscan := Token.scan_crlf 1 s
  have hread : ∀ tokens, ofTokens (tokens.map (Token.recomment Text.trimEnd)) = ofTokens tokens :=
    ofTokens_map_recomment Comment.body_trimEnd
  rw [ofText, ofText]
  cases hcrlf : Token.scan 1 (Text.crlf s) with
  | error e =>
      rw [hcrlf] at hscan
      rw [map_eq_error_iff.mp hscan.symm]
  | ok tokens =>
      rw [hcrlf] at hscan
      obtain ⟨tokens', htokens', heq⟩ := map_eq_ok_iff.mp hscan.symm
      rw [htokens', mapError_ok, mapError_ok, ok_bind, ok_bind, ← hread tokens, ← heq, hread]

/-- A manifest is read the same, or refused for the same fault on the same line, if its lines end
with carriage returns and newlines. -/
theorem read_crlf (bytes : Bytes) : read (Utf8.crlf bytes) = read bytes := by
  rw [read, read, Utf8.decode?_crlf]
  cases Utf8.decode? bytes with
  | none => rfl
  | some s => exact ofText_crlf s

end Manifest

end GoModules
