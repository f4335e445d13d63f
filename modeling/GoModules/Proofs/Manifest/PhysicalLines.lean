import GoModules.Proofs.Manifest.Reading
import GoModules.Proofs.Manifest.Shift

/-!
# What physical lines are read as

Where the lines of faults are left out, what a text is read as follows from the tokens of its
physical lines, each cut into tokens by itself and wherever it stands.
-/

namespace GoModules

open Outcome

namespace Token

/-- A token wherever it stands. -/
def unplaced (t : Token) : Token :=
  t.renumber fun _ => 0

/-- The tokens of a text wherever it stands. -/
def lex (s : Text) : Except Fault (List Token) :=
  (List.map unplaced <$> scan 0 s).mapError Error.fault

/-- The tokens of each physical line of a text. -/
def lexLines (s : Text) : Except Fault (List (List Token)) :=
  List.splitOnP (·.kind = .newline) <$> lex s

theorem lex_eq (line : Nat) (s : Text) :
    (List.map unplaced <$> scan line s).mapError Error.fault = lex s := by
  have hscan := scan_add 0 line s
  rw [Nat.zero_add] at hscan
  rw [lex, hscan]
  cases scan 0 s with
  | error e => rfl
  | ok tokens => exact congrArg Except.ok List.map_map

theorem lex_of_scans {s : Text} {tokens : List Token} (h : Scans 0 s tokens) :
    lex s = .ok (tokens.map unplaced) := by
  rw [lex, h.scan_eq]
  rfl

theorem lex_append_newline (a b : Text) :
    lex (a ++ '\n' :: b) = do
      let front ← lex a
      let back ← lex b
      return front ++ ⟨.newline, ['\n'], 0⟩ :: back := by
  rw [← lex_eq (0 + a.count '\n' + 1) b, lex, lex, scan_append_newline]
  cases scan 0 a with
  | error e => rfl
  | ok front =>
      cases scan (0 + a.count '\n' + 1) b with
      | error e => rfl
      | ok back => exact congrArg Except.ok List.map_append

variable {s : Text}

theorem splitOnP_of_lex {tokens : List Token} (hs : '\n' ∉ s) (h : lex s = .ok tokens) :
    tokens.splitOnP (·.kind = .newline) = [tokens] := by
  rw [lex, mapError_eq_ok_iff, map_eq_ok_iff] at h
  obtain ⟨placed, hplaced, rfl⟩ := h
  apply List.splitOnP_eq_singleton
  intro t ht
  obtain ⟨t', ht', rfl⟩ := List.mem_map.mp ht
  exact decide_eq_false ((scans_of_scan hplaced).kind_ne_newline hs t' ht')

theorem lexLines_of_notMem (hs : '\n' ∉ s) : lexLines s = ([·]) <$> lex s := by
  rw [lexLines]
  cases h : lex s with
  | error fault => rfl
  | ok tokens => exact congrArg Except.ok (splitOnP_of_lex hs h)

theorem lexLines_append_newline (hs : '\n' ∉ s) (rest : Text) :
    lexLines (s ++ '\n' :: rest) = do
      let first ← lex s
      let others ← lexLines rest
      return first :: others := by
  rw [lexLines, lexLines, lex_append_newline]
  cases h : lex s with
  | error fault => rfl
  | ok first =>
      cases lex rest with
      | error fault => rfl
      | ok others =>
          refine congrArg Except.ok ?_
          rw [List.splitOnP_append_cons first others (by simp), splitOnP_of_lex hs h]
          rfl

theorem lexLines_lines {ts : List Text} (hne : ts ≠ []) (h : ∀ t ∈ ts, '\n' ∉ t) :
    lexLines (Text.lines ts) = ts.mapM lex := by
  induction ts with
  | nil => exact absurd rfl hne
  | cons t ts ih =>
      rw [List.forall_mem_cons] at h
      by_cases hnil : ts = []
      · subst hnil
        rw [Text.lines, List.intercalate_singleton, lexLines_of_notMem h.1, List.mapM_cons]
        cases lex t with
        | error fault => rfl
        | ok tokens => rfl
      · have hlines : Text.lines (t :: ts) = t ++ '\n' :: Text.lines ts := by
          rw [Text.lines, List.intercalate_cons_of_ne_nil hnil, List.append_assoc]
          rfl
        rw [hlines, lexLines_append_newline h.1, ih hnil h.2, List.mapM_cons]

end Token

namespace Manifest

/-- What a text is read as, the line of a fault left out. -/
def outcome (s : Text) : Except Fault Manifest :=
  (read (Utf8.encode s)).mapError Error.fault

/-- What the tokens of physical lines are read as. -/
def ofPhysical (physical : List (List Token)) : Except Fault Manifest := do
  let r ← (Line.collect [] physical).foldlM Reading.next {}
  r.close.mapError Error.fault

theorem ofPhysical_map_unplaced (physical : List (List Token)) :
    ofPhysical (physical.map (List.map Token.unplaced)) = ofPhysical physical := by
  have hlines : Line.collect [] (physical.map (List.map Token.unplaced)) =
      (Line.collect [] physical).map (Line.renumber fun _ => 0) :=
    Line.collect_map_renumber (fun _ => 0) [] physical
  have hrun : ((Line.collect [] physical).map (Line.renumber fun _ => 0)).foldlM Reading.next {} =
      Reading.renumber (fun _ => 0) <$> (Line.collect [] physical).foldlM Reading.next {} :=
    Reading.foldlM_next_renumber (fun _ => 0) {} (Line.collect [] physical)
  rw [ofPhysical, ofPhysical, hlines, hrun]
  cases (Line.collect [] physical).foldlM Reading.next {} with
  | error fault => rfl
  | ok r =>
      change (r.renumber fun _ => 0).close.mapError Error.fault = r.close.mapError Error.fault
      rw [Reading.close_renumber]
      cases r.close with
      | error e => rfl
      | ok m => rfl

theorem outcome_eq (s : Text) :
    outcome s = (Token.lexLines s).mapError Fault.lexical >>= ofPhysical := by
  rw [outcome, Token.lexLines, ← Token.lex_eq 1]
  cases hscan : Token.scan 1 s with
  | error e =>
      rw [read_encode_of_scan_error hscan]
      rfl
  | ok tokens =>
      have hunplaced : (tokens.map Token.unplaced).splitOnP (·.kind = .newline) =
          (tokens.splitOnP (·.kind = .newline)).map (List.map Token.unplaced) :=
        Token.splitOnP_map (f := Token.unplaced) (fun _ => rfl) tokens
      change _ = ofPhysical ((tokens.map Token.unplaced).splitOnP (·.kind = .newline))
      rw [read_encode_of_scan hscan, hunplaced, ofPhysical_map_unplaced, ofPhysical,
        ← Line.ofTokens, ← Reading.mapError_run]
      cases Reading.run {} (Line.ofTokens tokens) with
      | error e => rfl
      | ok r => rfl

/-- Each line of a text counts by its own tokens. -/
theorem outcome_lines {ts : List Text} (h : ∀ t ∈ ts, '\n' ∉ t) :
    outcome (Text.lines ts) = (ts.mapM Token.lex).mapError Fault.lexical >>= ofPhysical := by
  rw [outcome_eq]
  by_cases hnil : ts = []
  · subst hnil
    have hlex : Token.lex [] = .ok [] := Token.lex_of_scans .nil
    rw [Text.lines, List.intercalate_nil, Token.lexLines, hlex]
    rfl
  · rw [Token.lexLines_lines hnil h]

end Manifest

end GoModules
