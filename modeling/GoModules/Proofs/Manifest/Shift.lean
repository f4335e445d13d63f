import GoModules.Proofs.Manifest.Declares
import GoModules.Proofs.Manifest.Renumber

/-!
# Statements further down

A text that begins on a later line has the same tokens, lines and items with larger line numbers.
What a directive declares and what it clashes with do not depend on line numbers.
-/

namespace GoModules

/-- A token a number of lines further down. -/
def Token.shift (k : Nat) (t : Token) : Token :=
  { t with line := t.line + k }

def Token.Error.shift (k : Nat) (e : Token.Error) : Token.Error :=
  { e with line := e.line + k }

def Line.shift (k : Nat) (l : Line) : Line :=
  { l with first := l.first.shift k, others := l.others.map (Token.shift k) }

def OpenBlock.shift (k : Nat) (block : OpenBlock) : OpenBlock :=
  { block with line := block.line + k }

def Directive.shift (k : Nat) (d : Directive) : Directive :=
  { d with args := d.args.map (Token.shift k), line := d.line.shift k }

def Manifest.Error.shift (k : Nat) (e : Manifest.Error) : Manifest.Error :=
  { e with line := e.line + k }

def Item.shift (k : Nat) : Item → Item
  | .directive d => .directive (d.shift k)
  | .broken e => .broken (e.shift k)

namespace Token

/-- The number of the first line is carried along and nothing else depends on it. -/
theorem scan_add (line k : Nat) (s : Text) :
    scan (line + k) s = (List.map (shift k) <$> scan line s).mapError (Error.shift k) := by
  have hcons : ∀ (x : Except Error (List Token)) (t : Token),
      (t.shift k :: ·) <$> (List.map (shift k) <$> x).mapError (Error.shift k) =
        (List.map (shift k) <$> ((t :: ·) <$> x)).mapError (Error.shift k) := by
    intro x t
    cases x with
    | error e => rfl
    | ok tokens => rfl
  induction line, s using scan_induction with
  | nil line =>
      rw [scan, scan]
      rfl
  | gap line c s hgap ih => rw [scan_gap hgap, scan_gap hgap, ih]
  | newline line s ih =>
      rw [scan_newline, scan_newline, Nat.add_right_comm, ih, ← hcons]
      rfl
  | fault line c s fault hgap hfirst =>
      rw [scan_fault hgap hfirst, scan_fault hgap hfirst]
      rfl
  | token line c s kind n hgap hc hfirst ih =>
      rw [scan_cons hgap hc hfirst, scan_cons hgap hc hfirst, ih, ← hcons]
      rfl

theorem Scans.shift {line : Nat} {s : Text} {tokens : List Token} (h : Scans line s tokens)
    (k : Nat) : Scans (line + k) s (tokens.map (Token.shift k)) := by
  apply scans_of_scan
  rw [scan_add, h.scan_eq]
  rfl

/-- A text and another one below it have the tokens that each has alone, with a newline between
them, and the fault that is met first. Only the lines of the second one are larger, by the number of
lines of the first. -/
theorem scan_append_newline_shift (a b : Text) :
    scan 1 (a ++ '\n' :: b) =
      match scan 1 a, scan 1 b with
      | .error e, _ => .error e
      | .ok _, .error e => .error (e.shift (1 + a.count '\n'))
      | .ok front, .ok back =>
          .ok (front ++ ⟨.newline, ['\n'], 1 + a.count '\n'⟩ ::
            back.map (shift (1 + a.count '\n'))) := by
  rw [scan_append_newline, Nat.add_comm (1 + a.count '\n') 1, scan_add]
  cases scan 1 a with
  | error e => rfl
  | ok front =>
      cases scan 1 b with
      | error e => rfl
      | ok back => rfl

end Token

theorem Line.ofTokens_map_shift (k : Nat) (tokens : List Token) :
    ofTokens (tokens.map (Token.shift k)) = (ofTokens tokens).map (shift k) :=
  ofTokens_map_renumber (· + k) tokens

theorem Item.step_shift (k : Nat) (block : Option OpenBlock) (l : Line) :
    step (block.map (OpenBlock.shift k)) (l.shift k) =
      match step block l with
      | .error e => .error (e.shift k)
      | .ok (d, next) => .ok (d.map (Directive.shift k), next.map (OpenBlock.shift k)) :=
  step_renumber (· + k) block l

theorem Item.ofLines_map_shift (k : Nat) (block : Option OpenBlock) (lines : List Line) :
    ofLines (block.map (OpenBlock.shift k)) (lines.map (Line.shift k)) =
      (ofLines block lines).map (shift k) := by
  induction lines generalizing block with
  | nil =>
      cases block with
      | none => rfl
      | some block => rfl
  | cons l lines ih =>
      rw [List.map_cons, ofLines_cons, ofLines_cons, step_shift]
      cases step block l with
      | error e => rfl
      | ok found =>
          obtain ⟨d, next⟩ := found
          dsimp only
          rw [ih, List.map_append]
          cases d with
          | none => rfl
          | some d => rfl

namespace Directive

variable {d : Directive} {m e : Manifest} {fault : Manifest.Fault}

theorem Declares.shift (h : d.Declares e) (k : Nat) : (d.shift k).Declares e := by
  have hargs : (d.shift k).args.map Word.ofToken = d.args.map Word.ofToken :=
    Word.map_ofToken_renumber (· + k) d.args
  have hwords := Word.ofTokens_congr hargs
  cases h with
  | module hverb h => exact .module hverb (hwords.trans h)
  | go hverb h hversion => exact .go hverb (hwords.trans h) hversion
  | toolchain hverb h hname => exact .toolchain hverb (hwords.trans h) hname
  | require hverb h hversion => exact .require hverb (hwords.trans h) hversion
  | exclude hverb h hversion => exact .exclude hverb (hwords.trans h) hversion
  | replace hverb hr => exact .replace hverb ((replacement_congr hargs).trans hr)
  | retract hverb hbounds => exact .retract hverb ((bounds_congr hargs).trans hbounds)
  | godebug hverb h hs => exact .godebug hverb (hwords.trans h) hs
  | tool hverb h => exact .tool hverb (hwords.trans h)
  | ignore hverb h => exact .ignore hverb (hwords.trans h)

theorem Clashes.shift (h : d.Clashes m fault) (k : Nat) : (d.shift k).Clashes m fault := by
  cases h with
  | repeated h => exact .repeated h
  | duplicate hverb hwords hr hpath =>
      have hargs := Word.map_ofToken_renumber (· + k) d.args
      exact .duplicate hverb ((Word.ofTokens_congr hargs).trans hwords) hr hpath

end Directive

end GoModules
