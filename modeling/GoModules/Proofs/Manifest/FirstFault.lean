import GoModules.Proofs.Manifest.LineFault
import GoModules.Proofs.Manifest.Reading
import GoModules.Proofs.Text.Lines

/-!
# The line of a fault

A fault is reported on the first line that has one: what follows the line does not matter, and the
lines above it have no fault, though a block may be left open there. For tokens this is so because
none reaches the next line, for the rest because the lines of the first part of a text begin the
lines of the whole.
-/

namespace GoModules

open Outcome

namespace Token

variable {line : Nat} {s : Text} {e : Error}

theorem scan_takeLines_of_error (h : scan line s = .error e) (n : Nat) :
    (e.line < line + n → scan line (Text.takeLines n s) = .error e) ∧
    (line + n ≤ e.line → ∃ tokens, scan line (Text.takeLines n s) = .ok tokens) := by
  obtain ⟨hlow, hhigh⟩ := line_of_scan_eq_error h
  cases n with
  | zero =>
      refine ⟨fun hlt => absurd hlow (Nat.not_le.mpr hlt), fun _ => ⟨[], ?_⟩⟩
      rw [Text.takeLines_zero, scan]
  | succ n =>
      rcases Text.takeLines_cases n s with ⟨hcount, htake⟩ | ⟨a, b, rfl, hcount, htake⟩
      · rw [htake]
        exact ⟨fun _ => h, fun hle => by omega⟩
      · rw [scan_append_newline, hcount] at h
        rw [htake, scan_append_newline]
        cases hfront : scan line a with
        | error e' =>
            rw [hfront] at h
            cases h
            have hline := (line_of_scan_eq_error hfront).2
            exact ⟨fun _ => rfl, fun hle => by omega⟩
        | ok front =>
            rw [hfront, ok_bind] at h
            cases hback : scan (line + n + 1) b with
            | error e' =>
                rw [hback] at h
                cases h
                have hline := (line_of_scan_eq_error hback).1
                refine ⟨fun hlt => by omega, fun _ => ?_⟩
                rw [ok_bind, scan, ok_bind]
                exact ⟨_, rfl⟩
            | ok back =>
                rw [hback] at h
                cases h

end Token

namespace Line

variable {s : Text} {tokens : List Token}

theorem number_of_mem_collect {line : Nat} (h : Token.Scans line s tokens) {pending : List Text}
    {l : Line} (hl : l ∈ collect pending (tokens.splitOnP (·.kind = .newline))) :
    line ≤ l.number ∧ l.number ≤ line + s.count '\n' :=
  h.line l.first (mem_of_mem_collect hl List.mem_cons_self)

/-- The first lines of a text make up the lines with the first numbers. -/
theorem exists_ofTokens_takeLines (h : Token.scan 1 s = .ok tokens) (n : Nat) :
    ∃ front back, Token.scan 1 (Text.takeLines n s) = .ok front ∧
      ofTokens tokens = ofTokens front ++ back ∧ (∀ l ∈ ofTokens front, l.number ≤ n) ∧
      ∀ l ∈ back, n < l.number := by
  cases n with
  | zero =>
      refine ⟨[], ofTokens tokens, ?_, rfl, ?_, ?_⟩
      · rw [Text.takeLines_zero, Token.scan]
      · intro l hl
        cases hl
      · intro l hl
        exact (number_of_mem_collect (Token.scans_of_scan h) hl).1
  | succ n =>
      rcases Text.takeLines_cases n s with ⟨hcount, htake⟩ | ⟨a, b, rfl, hcount, htake⟩
      · rw [htake]
        refine ⟨tokens, [], h, (List.append_nil _).symm, ?_, by simp⟩
        intro l hl
        have hnumber := (number_of_mem_collect (Token.scans_of_scan h) hl).2
        omega
      · rw [Token.scan_append_newline, hcount] at h
        simp only [bind_eq_ok_iff, pure_eq_ok, Except.ok.injEq] at h
        obtain ⟨front, hfront, rest, hrest, rfl⟩ := h
        have hend : ofTokens (front ++ [⟨.newline, ['\n'], 1 + n⟩]) = ofTokens front := by
          rw [ofTokens_append_newline rfl]
          exact List.append_nil _
        refine ⟨front ++ [⟨.newline, ['\n'], 1 + n⟩],
          collect (pendingAfter [] (front.splitOnP (·.kind = .newline)))
            (rest.splitOnP (·.kind = .newline)), ?_, ?_, ?_, ?_⟩
        · rw [htake, Token.scan_append_newline, hfront, hcount, ok_bind, Token.scan, ok_bind,
            pure_eq_ok]
        · rw [hend, ofTokens_append_newline rfl]
        · rw [hend]
          intro l hl
          have hnumber := (number_of_mem_collect (Token.scans_of_scan hfront) hl).2
          omega
        · intro l hl
          have hnumber := (number_of_mem_collect (Token.scans_of_scan hrest) hl).1
          omega

end Line

namespace Manifest

variable {s : Text} {e : Error}

/-- Where the lines have been read, nothing is wrong but perhaps a block that is left open. -/
theorem Reading.close_cases (r : Reading) :
    (∃ m, r.close = .ok m) ∨ ∃ line verb, r.close = .error ⟨line, .unterminatedBlock verb⟩ := by
  obtain ⟨m, block⟩ := r
  cases block with
  | none => exact .inl ⟨m, rfl⟩
  | some block => exact .inr ⟨block.line, block.verb, rfl⟩

theorem Reading.failsIn_next (r : Reading) (l : Line) : FailsIn Fault.OfLine (r.next l) := by
  unfold next
  split
  · next error hstep => exact failsIn_error.mpr (Item.failsIn_step r.block l error hstep)
  · exact failsIn_ok _
  · rw [failsIn_bind]
    exact ⟨Directive.failsIn_addTo _ _, fun _ _ => failsIn_ok _⟩

/-- Where the tokens of a text are in order, a fault is that of a line, all lines above which are
read, or that of a block which is left open. -/
theorem fault_cases_of_read {tokens : List Token} (hscan : Token.scan 1 s = .ok tokens)
    (h : read (Utf8.encode s) = .error e) :
    (∃ front l back r, Line.ofTokens tokens = front ++ l :: back ∧
      Reading.run {} front = .ok r ∧ r.next l = .error e.fault ∧ e.line = l.number) ∨
    ∃ verb, e.fault = .unterminatedBlock verb := by
  rw [read_encode_of_scan hscan] at h
  cases hrun : Reading.run {} (Line.ofTokens tokens) with
  | error e' =>
      rw [hrun] at h
      cases h
      exact .inl (Reading.exists_of_run_error hrun)
  | ok r =>
      rw [hrun, ok_bind] at h
      rcases r.close_cases with ⟨m, hclose⟩ | ⟨line, verb, hclose⟩
      · rw [hclose] at h
        cases h
      · rw [hclose] at h
        cases h
        exact .inr ⟨verb, rfl⟩

theorem exists_fault_of_read {tokens : List Token} (hscan : Token.scan 1 s = .ok tokens)
    (h : read (Utf8.encode s) = .error e) (hblock : ∀ verb, e.fault ≠ .unterminatedBlock verb) :
    ∃ front l back r, Line.ofTokens tokens = front ++ l :: back ∧
      Reading.run {} front = .ok r ∧ r.next l = .error e.fault ∧ e.line = l.number := by
  rcases fault_cases_of_read hscan h with hfault | ⟨verb, hverb⟩
  · exact hfault
  · exact absurd hverb (hblock verb)

theorem fault_ne_lexical_of_read {tokens : List Token} (hscan : Token.scan 1 s = .ok tokens)
    (h : read (Utf8.encode s) = .error e) (fault : Token.Fault) : e.fault ≠ .lexical fault := by
  intro hfault
  rcases fault_cases_of_read hscan h with ⟨-, l, -, r, -, -, hnext, -⟩ | ⟨verb, hverb⟩
  · have hline := r.failsIn_next l e.fault hnext
    rw [hfault] at hline
    exact hline
  · rw [hfault] at hverb
    cases hverb

/-- Where a list is parted, a member and all in front of it are in the first part, or the first part
ends in front of it. -/
theorem cases_of_append_cons {α : Type} {front back taken rest : List α} {a : α}
    (h : front ++ a :: back = taken ++ rest) :
    (∃ back', taken = front ++ a :: back') ∨ (∃ more, front = taken ++ more) ∧ a ∈ rest := by
  rcases List.append_eq_append_iff.mp h with ⟨more, htaken, hmore⟩ | ⟨more, hfront, hrest⟩
  · cases more with
    | nil =>
        rw [List.append_nil] at htaken
        rw [List.nil_append] at hmore
        refine .inr ⟨⟨[], by rw [htaken, List.append_nil]⟩, ?_⟩
        rw [← hmore]
        exact List.mem_cons_self
    | cons b more =>
        rw [List.cons_append, List.cons.injEq] at hmore
        exact .inl ⟨more, by rw [htaken, hmore.1]⟩
  · refine .inr ⟨⟨more, hfront⟩, ?_⟩
    rw [hrest]
    exact List.mem_append_right more List.mem_cons_self

/-- A text that reaches the line of a fault has that fault. -/
theorem read_takeLines_of_scan {tokens : List Token} (hscan : Token.scan 1 s = .ok tokens)
    (h : read (Utf8.encode s) = .error e) (hblock : ∀ verb, e.fault ≠ .unterminatedBlock verb) :
    read (Utf8.encode (Text.takeLines e.line s)) = .error e := by
  obtain ⟨front, l, back, r, hlines, hrun, hnext, hline⟩ := exists_fault_of_read hscan h hblock
  obtain ⟨taken, rest, htaken, hparts, -, hrest⟩ := Line.exists_ofTokens_takeLines hscan e.line
  rcases cases_of_append_cons (hlines.symm.trans hparts) with ⟨back', hback⟩ | ⟨-, hmem⟩
  · rw [read_encode_of_scan htaken, hback, Reading.run_of_next_error hrun hnext, error_bind,
      ← hline]
  · exact absurd hline (Nat.ne_of_lt (hrest l hmem))

/-- A text that ends above the line of a fault has none, unless it leaves a block open. -/
theorem read_takeLines_above_of_scan {tokens : List Token} (hscan : Token.scan 1 s = .ok tokens)
    (h : read (Utf8.encode s) = .error e) (hblock : ∀ verb, e.fault ≠ .unterminatedBlock verb)
    {n : Nat} (hn : n < e.line) :
    (∃ m, read (Utf8.encode (Text.takeLines n s)) = .ok m) ∨
      ∃ line verb, read (Utf8.encode (Text.takeLines n s)) =
        .error ⟨line, .unterminatedBlock verb⟩ := by
  obtain ⟨front, l, back, r, hlines, hrun, -, hline⟩ := exists_fault_of_read hscan h hblock
  obtain ⟨taken, rest, htaken, hparts, hnumber, -⟩ := Line.exists_ofTokens_takeLines hscan n
  rcases cases_of_append_cons (hlines.symm.trans hparts) with ⟨back', hback⟩ | ⟨⟨more, hmore⟩, -⟩
  · have hmem : l ∈ Line.ofTokens taken := by
      rw [hback]
      exact List.mem_append_right front List.mem_cons_self
    have hle := hnumber l hmem
    omega
  · rw [hmore] at hrun
    obtain ⟨r', hrun'⟩ := Reading.exists_run_of_append hrun
    rw [read_encode_of_scan htaken, hrun', ok_bind]
    exact r'.close_cases

theorem line_of_read_error {tokens : List Token} (hscan : Token.scan 1 s = .ok tokens)
    (h : read (Utf8.encode s) = .error e) (hblock : ∀ verb, e.fault ≠ .unterminatedBlock verb) :
    1 ≤ e.line ∧ e.line ≤ 1 + s.count '\n' := by
  obtain ⟨front, l, back, -, hlines, -, -, hline⟩ := exists_fault_of_read hscan h hblock
  have hmem : l ∈ Line.ofTokens tokens := by
    rw [hlines]
    exact List.mem_append_right front List.mem_cons_self
  rw [hline]
  exact Line.number_of_mem_collect (Token.scans_of_scan hscan) hmem

/-- A fault, other than that of a block which nothing closes, is reported on the first line that has
one. That line is a line of the text, the text up to it has the same fault, and the lines above it
have no such fault. -/
theorem read_takeLines_of_error (h : read (Utf8.encode s) = .error e)
    (hblock : ∀ verb, e.fault ≠ .unterminatedBlock verb) :
    (1 ≤ e.line ∧ e.line ≤ s.count '\n' + 1) ∧
    read (Utf8.encode (Text.takeLines e.line s)) = .error e ∧
    ((∃ fault, e.fault = .lexical fault) → ∀ line fault,
      read (Utf8.encode (Text.takeLines (e.line - 1) s)) ≠ .error ⟨line, .lexical fault⟩) ∧
    ((∀ fault, e.fault ≠ .lexical fault) →
      (∃ m, read (Utf8.encode (Text.takeLines (e.line - 1) s)) = .ok m) ∨
        ∃ line verb, read (Utf8.encode (Text.takeLines (e.line - 1) s)) =
          .error ⟨line, .unterminatedBlock verb⟩) := by
  cases hscan : Token.scan 1 s with
  | error found =>
      rw [read_encode_of_scan_error hscan] at h
      cases h
      dsimp only at hblock ⊢
      obtain ⟨hlow, hhigh⟩ := Token.line_of_scan_eq_error hscan
      have hreached := (Token.scan_takeLines_of_error hscan found.line).1 (by omega)
      obtain ⟨above, habove⟩ := (Token.scan_takeLines_of_error hscan (found.line - 1)).2 (by omega)
      refine ⟨⟨hlow, by omega⟩, read_encode_of_scan_error hreached, ?_, ?_⟩
      · intro _ line fault herror
        exact fault_ne_lexical_of_read habove herror fault rfl
      · intro hfault
        exact absurd rfl (hfault found.fault)
  | ok tokens =>
      obtain ⟨hlow, hhigh⟩ := line_of_read_error hscan h hblock
      have hopen := read_takeLines_above_of_scan hscan h hblock (n := e.line - 1) (by omega)
      obtain ⟨above, -, habove, -⟩ := Line.exists_ofTokens_takeLines hscan (e.line - 1)
      refine ⟨⟨hlow, by omega⟩, read_takeLines_of_scan hscan h hblock, ?_, fun _ => hopen⟩
      intro _ line fault herror
      exact fault_ne_lexical_of_read habove herror fault rfl

theorem read_takeLines_of_error_block :
    ∃ (s : Text) (e : Error), read (Utf8.encode s) = .error e ∧
      (∀ verb, e.fault ≠ .unterminatedBlock verb) ∧ (e.line = 4 ∧ e.line ≤ s.count '\n' + 1) ∧
      read (Utf8.encode (Text.takeLines e.line s)) = .error e ∧
      ((∃ m, read (Utf8.encode (Text.takeLines (e.line - 1) s)) = .ok m) ∨
        ∃ line verb, read (Utf8.encode (Text.takeLines (e.line - 1) s)) =
          .error ⟨line, .unterminatedBlock verb⟩) := by
  have hread : read (Utf8.encode
      "go 1.21\nrequire (\n\tx.org/a v1.0.0\n\tx.org/b v2.0.0\n)\n?\n".toList) =
      .error ⟨4, .invalidVersion "x.org/b".toList "v2.0.0".toList (.notFirstMajors 2)⟩ := by
    decide +kernel
  have hfault := read_takeLines_of_error hread (by simp)
  exact ⟨_, _, hread, by simp, ⟨rfl, hfault.1.2⟩, hfault.2.1, hfault.2.2.2 (by simp)⟩

end Manifest

end GoModules
