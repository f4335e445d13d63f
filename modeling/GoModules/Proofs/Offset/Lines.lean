import GoModules.Proofs.Manifest.Rows

/-!
# Lines as they are put together

The lines of a text can be put together token by token and be given their comments afterwards. A
line is then a record that may hold no tokens at all. Those that are left over in the end are the
lines of the text, so each holds a token, and its number is the one on its tokens.
-/

namespace GoModules.Offset

/-- A line that is being put together. -/
structure LineRecord where
  number : Nat
  tokens : List Token := []
  suffix : Option Text := none
  before : List Text := []
deriving DecidableEq, Repr

namespace LineRecord

/-- The line that a record is complete for. -/
def ofLine (l : Line) : LineRecord :=
  ⟨l.number, l.tokens, l.suffix, l.before⟩

def comments (l : LineRecord) : List Text :=
  l.before ++ l.suffix.toList

/-- Puts physical lines together, of which `current` is the one that has been begun. -/
def gather (current : LineRecord) : List Token → List LineRecord
  | [] => [current]
  | t :: tokens =>
      match t.kind with
      | .newline => current :: gather { number := t.line + 1 } tokens
      | .comment => gather { current with suffix := some t.text } tokens
      | _ => gather { current with tokens := current.tokens ++ [t] } tokens

/-- Gives the comments that stand alone to the lines that follow them, and leaves out the lines
without tokens. The comments `pending` stand directly above the first line. -/
def attach (pending : List Text) : List LineRecord → List LineRecord
  | [] => []
  | l :: rest =>
      if l.tokens = [] then
        match l.suffix with
        | some comment => attach (pending ++ [comment]) rest
        | none => attach [] rest
      else { l with before := pending } :: attach [] rest

def ofTokens (tokens : List Token) : List LineRecord :=
  attach [] (gather { number := 1 } tokens)

/-- A physical line, put together. -/
def ofRow (n : Nat) (r : Row) : LineRecord :=
  { number := n, tokens := r.content, suffix := r.comment.map Token.text }

def ofRows (n : Nat) : List Row → List LineRecord
  | [] => []
  | r :: rows => ofRow n r :: ofRows (n + 1) rows

variable {n : Nat} {r : Row} {rows : List Row}

theorem gather_newline (current : LineRecord) (text : Text) (n : Nat) (tokens : List Token) :
    gather current (⟨.newline, text, n⟩ :: tokens) =
      current :: gather { number := n + 1 } tokens := rfl

theorem gather_content {t : Token} (h : t.IsContent) (current : LineRecord) (tokens : List Token) :
    gather current (t :: tokens) =
      gather { current with tokens := current.tokens ++ [t] } tokens := by
  rw [gather]
  split
  · next hkind => exact absurd hkind h.1
  · next hkind => exact absurd hkind h.2
  · rfl

theorem gather_append_content {content : List Token} (h : ∀ t ∈ content, t.IsContent)
    (current : LineRecord) (tokens : List Token) :
    gather current (content ++ tokens) =
      gather { current with tokens := current.tokens ++ content } tokens := by
  induction content generalizing current with
  | nil => rw [List.nil_append, List.append_nil]
  | cons t content ih =>
      rw [List.forall_mem_cons] at h
      rw [List.cons_append, gather_content h.1, ih h.2]
      simp

theorem gather_row (h : r.Valid n) (tokens : List Token) :
    gather { number := n } (r.tokens ++ tokens) = gather (ofRow n r) tokens := by
  rw [Row.tokens, List.append_assoc, gather_append_content h.content, ofRow]
  cases hcomment : r.comment with
  | none => rfl
  | some c =>
      have hkind : c.kind = .comment := h.comment c hcomment
      rw [Option.toList_some, List.singleton_append, gather, hkind]
      rfl

theorem gather_joined (h : Row.Numbered n (r :: rows)) :
    gather { number := n } (Row.joined n r rows) = ofRows n (r :: rows) := by
  induction rows generalizing n r with
  | nil =>
      cases h with
      | cons hr hrest =>
          have hrow := gather_row hr []
          rwa [List.append_nil] at hrow
  | cons r' rows ih =>
      cases h with
      | cons hr hrest =>
          rw [Row.joined, gather_row hr, gather_newline, ih hrest]
          rfl

theorem attach_ofRows (h : Row.Numbered n rows) (pending : List Text) :
    attach pending (ofRows n rows) = (Line.collect pending (rows.map Row.tokens)).map ofLine := by
  induction h generalizing pending with
  | nil => rfl
  | @cons n r rows hr hrest ih =>
      rw [ofRows, attach, ofRow, List.map_cons, hr.collect_cons]
      cases hcontent : r.content with
      | nil =>
          cases r.comment with
          | none => exact ih []
          | some c => exact ih (pending ++ [c.text])
      | cons first others =>
          have hnumber : first.line = n := hr.line first (by simp [Row.tokens, hcontent])
          rw [if_neg (List.cons_ne_nil _ _), ih, List.map_cons, ofLine, Line.number, hnumber]
          rfl

/-- The records that are left over are the lines of a text. -/
theorem ofTokens_eq {s : Text} {tokens : List Token} (h : Token.scan 1 s = .ok tokens) :
    ofTokens tokens = (Line.ofTokens tokens).map ofLine := by
  obtain ⟨r, rows, hrows, rfl⟩ := (Token.scans_of_scan h).exists_rows
  rw [ofTokens, gather_joined hrows, attach_ofRows hrows, Line.ofTokens, hrows.splitOnP_joined]

end LineRecord

end GoModules.Offset
