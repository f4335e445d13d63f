import GoModules.Proofs.Manifest.Renumber
import GoModules.Proofs.Manifest.Run
import GoModules.Proofs.Text.Utf8

/-!
# Reading line by line

A manifest is read by a run over its lines. All that is carried from one line to the next is the
manifest so far and the block that is open. A fault is reported on the line that has it; only that
of a block which nothing closes is found at the end.
-/

namespace GoModules.Manifest

open Outcome

/-- What is carried from line to line. -/
structure Reading where
  manifest : Manifest := {}
  block : Option OpenBlock := none
deriving DecidableEq, Repr

namespace Reading

/-- Reads one more line. -/
def next (r : Reading) (l : Line) : Except Fault Reading :=
  match Item.step r.block l with
  | .error e => .error e.fault
  | .ok (none, block) => .ok ⟨r.manifest, block⟩
  | .ok (some d, block) => do return ⟨← d.addTo r.manifest, block⟩

/-- Reads on, and tells the line of the first fault. -/
def run (r : Reading) (lines : List Line) : Except Error Reading :=
  lines.foldlM (fun r l => (r.next l).mapError (⟨l.number, ·⟩)) r

/-- What has been read when no lines are left. -/
def close (r : Reading) : Except Error Manifest :=
  match r.block with
  | none => .ok r.manifest
  | some block => .error ⟨block.line, .unterminatedBlock block.verb⟩

variable {r r' : Reading} {lines front back : List Line} {e : Error}

theorem run_cons (r : Reading) (l : Line) (lines : List Line) :
    r.run (l :: lines) = (r.next l).mapError (⟨l.number, ·⟩) >>= (run · lines) := by
  rw [run, List.foldlM_cons]
  rfl

theorem run_append (r : Reading) (front back : List Line) :
    r.run (front ++ back) = r.run front >>= (run · back) := by
  rw [run, List.foldlM_append]
  rfl

theorem run_ofLines (r : Reading) (lines : List Line) :
    (Item.ofLines r.block lines).foldlM addItem r.manifest = r.run lines >>= close := by
  induction lines generalizing r with
  | nil =>
      obtain ⟨m, block⟩ := r
      cases block with
      | none => rfl
      | some block => rfl
  | cons l lines ih =>
      rw [Item.ofLines_cons, run_cons, next]
      cases hstep : Item.step r.block l with
      | error error =>
          obtain ⟨line, fault⟩ := error
          obtain rfl : line = l.number := Item.line_of_step_error hstep
          rfl
      | ok found =>
          obtain ⟨d, block⟩ := found
          cases d with
          | none => exact ih ⟨r.manifest, block⟩
          | some d =>
              have hline := (Item.spec_of_step hstep).1
              change (Item.directive d :: Item.ofLines block lines).foldlM addItem r.manifest = _
              rw [List.foldlM_cons, addItem, hline]
              dsimp only
              cases d.addTo r.manifest with
              | error fault => rfl
              | ok m => exact ih ⟨m, block⟩

theorem mapError_run (r : Reading) (lines : List Line) :
    (r.run lines).mapError Error.fault = lines.foldlM next r := by
  induction lines generalizing r with
  | nil => rfl
  | cons l lines ih =>
      rw [run_cons, List.foldlM_cons]
      cases r.next l with
      | error fault => rfl
      | ok r' => exact ih r'

def renumber (f : Nat → Nat) (r : Reading) : Reading :=
  { r with block := r.block.map (OpenBlock.renumber f) }

theorem next_renumber (f : Nat → Nat) (r : Reading) (l : Line) :
    (r.renumber f).next (l.renumber f) = renumber f <$> r.next l := by
  rw [next, next, renumber, Item.step_renumber]
  cases Item.step r.block l with
  | error e => rfl
  | ok found =>
      obtain ⟨d, block⟩ := found
      cases d with
      | none => rfl
      | some d =>
          dsimp only [Option.map_some]
          rw [Directive.addTo_renumber]
          cases d.addTo r.manifest with
          | error fault => rfl
          | ok m => rfl

theorem foldlM_next_renumber (f : Nat → Nat) (r : Reading) (lines : List Line) :
    (lines.map (Line.renumber f)).foldlM next (r.renumber f) =
      renumber f <$> lines.foldlM next r :=
  foldlM_map_eq (fun l _ r => next_renumber f r l) r

theorem close_renumber (f : Nat → Nat) (r : Reading) :
    (r.renumber f).close = r.close.mapError (Error.renumber f) := by
  obtain ⟨m, block⟩ := r
  cases block with
  | none => rfl
  | some block => rfl

/-- The first line with a fault, and the lines in front of it, which are read. -/
theorem exists_of_run_error (h : r.run lines = .error e) :
    ∃ front l back r', lines = front ++ l :: back ∧ r.run front = .ok r' ∧
      r'.next l = .error e.fault ∧ e.line = l.number := by
  induction lines generalizing r with
  | nil => cases h
  | cons l lines ih =>
      rw [run_cons] at h
      cases hnext : r.next l with
      | error fault =>
          rw [hnext] at h
          cases h
          exact ⟨[], l, lines, r, rfl, rfl, hnext, rfl⟩
      | ok r₁ =>
          rw [hnext, mapError_ok, ok_bind] at h
          obtain ⟨front, l', back, r', rfl, hrun, hfault, hline⟩ := ih h
          refine ⟨l :: front, l', back, r', rfl, ?_, hfault, hline⟩
          rw [run_cons, hnext, mapError_ok, ok_bind]
          exact hrun

theorem run_of_next_error {l : Line} {fault : Fault} (hrun : r.run front = .ok r')
    (hnext : r'.next l = .error fault) (back : List Line) :
    r.run (front ++ l :: back) = .error ⟨l.number, fault⟩ := by
  rw [run_append, hrun, ok_bind, run_cons, hnext]
  rfl

theorem exists_run_of_append (h : r.run (front ++ back) = .ok r') :
    ∃ r₁, r.run front = .ok r₁ := by
  rw [run_append, bind_eq_ok_iff] at h
  obtain ⟨r₁, hrun, -⟩ := h
  exact ⟨r₁, hrun⟩

end Reading

variable {s : Text}

theorem read_encode_of_scan {tokens : List Token} (h : Token.scan 1 s = .ok tokens) :
    read (Utf8.encode s) = Reading.run {} (Line.ofTokens tokens) >>= Reading.close := by
  rw [read_eq_ofItems (Utf8.decode?_encode s), items, h]
  exact Reading.run_ofLines {} (Line.ofTokens tokens)

theorem read_encode_of_scan_error {e : Token.Error} (h : Token.scan 1 s = .error e) :
    read (Utf8.encode s) = .error ⟨e.line, .lexical e.fault⟩ := by
  rw [read_eq_ofItems (Utf8.decode?_encode s), items, h]
  rfl

end GoModules.Manifest
