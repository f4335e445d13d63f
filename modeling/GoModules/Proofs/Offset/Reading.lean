import GoModules.Proofs.Manifest.Reading
import GoModules.Proofs.Offset.Arguments
import GoModules.Proofs.Offset.Lines
import GoModules.Proofs.Offset.Scan

/-!
# Reading manifests by offsets

A manifest is read with all its texts taken apart by offsets, its lines put together token by token,
and the tokens of lines taken by their index. Every bound holds on the way, whatever the bytes are,
and what is read is the manifest or the first fault.
-/

namespace GoModules.Offset

open Manifest (Fault Reading)
open Outcome

def versioned? (verb : Verb) (words : List Text) : Checked Fault (Text × Version) := do
  match words with
  | [path, version] => return (path, ← moduleVersion? path version)
  | _ => throw (.usage verb)

/-- Adds what a directive declares to a manifest. -/
def declare? (m : Manifest) (verb : Verb) (args : List Token) (l : LineRecord) :
    Checked Fault Manifest := do
  match verb with
  | .module =>
      let words ← words? args
      if m.module.isSome then throw (.repeated .module)
      else
        let path ← inBounds (Directive.word .module words)
        return { m with module := some ⟨path, Comment.deprecation l.comments⟩ }
  | .go =>
      let words ← words? args
      if m.go.isSome then throw (.repeated .go)
      else
        let version ← inBounds (Directive.word .go words)
        if ! Release.isLanguage version then throw (.invalidGoVersion version)
        else return { m with go := some version }
  | .toolchain =>
      let words ← words? args
      if m.toolchain.isSome then throw (.repeated .toolchain)
      else
        let name ← inBounds (Directive.word .toolchain words)
        if ! Release.isToolchain name then throw (.invalidToolchain name)
        else return { m with toolchain := some name }
  | .require =>
      let (path, version) ← versioned? .require (← words? args)
      if m.require.any (·.path = path) then throw (.duplicateRequire path)
      else
        let indirect := l.suffix.any Comment.isIndirect
        return { m with require := m.require ++ [⟨path, version, indirect⟩] }
  | .exclude =>
      let (path, version) ← versioned? .exclude (← words? args)
      return { m with exclude := m.exclude ++ [⟨path, version⟩] }
  | .replace =>
      return { m with replace := m.replace ++ [← replacement? args] }
  | .retract =>
      let (low, high) ← bounds? args
      return { m with retract := m.retract ++ [⟨low, high, Comment.rationale l.comments⟩] }
  | .godebug =>
      let s ← inBounds (Directive.word .godebug (← words? args))
      match Directive.setting? s with
      | some setting => return { m with godebug := m.godebug ++ [setting] }
      | none => throw (.invalidGodebug s)
  | .tool =>
      return { m with tool := m.tool ++ [← inBounds (Directive.word .tool (← words? args))] }
  | .ignore =>
      return { m with ignore := m.ignore ++ [← inBounds (Directive.word .ignore (← words? args))] }

def knownVerb (text : Text) : Except Fault Verb :=
  match Verb.ofText? text with
  | some verb => .ok verb
  | none => .error (.unknownDirective text)

def blockVerb (text : Text) : Except Fault Verb := do
  let verb ← knownVerb text
  if verb.isBlock then return verb
  else throw (.notABlock verb)

/-- Whether a line ends a block. -/
def isClosing? (l : LineRecord) : Option Bool := do
  if l.tokens.length = 1 then
    let token ← l.tokens[0]?
    return token.kind = .closeParen
  else return false

/-- Reads one more line. -/
def readLine? (r : Reading) (l : LineRecord) : Checked Fault Reading := do
  match r.block with
  | some block =>
      if ← isClosing? l then return ⟨r.manifest, none⟩
      else return ⟨← declare? r.manifest block.verb l.tokens l, some block⟩
  | none =>
      let first ← (l.tokens[0]? : Option Token)
      if first.kind ≠ .bare then throw (.unexpectedToken first.kind)
      else
        match l.tokens.map Token.kind with
        | [.bare, .openParen, .closeParen] =>
            let _ ← inBounds (blockVerb first.text)
            return ⟨r.manifest, none⟩
        | [.bare, .openParen] =>
            return ⟨r.manifest, some ⟨← inBounds (blockVerb first.text), l.number⟩⟩
        | _ =>
            let args ← behind? 1 l.tokens
            return ⟨← declare? r.manifest (← inBounds (knownVerb first.text)) args l, none⟩

def readLines? (r : Reading) (lines : List LineRecord) : Checked Manifest.Error Reading :=
  lines.foldlM (fun r l => mapFault (⟨l.number, ·⟩) (readLine? r l)) r

/-- Reads a manifest. Faults are given with the label that its bytes have. -/
def read? (label : Text) (bytes : Bytes) : Checked (Text × Manifest.Error) Manifest :=
  mapFault (label, ·) do
    match Utf8.decode? bytes with
    | none => throw ⟨1, .invalidUtf8⟩
    | some s =>
        let tokens ← mapFault (fun e => ⟨e.line, .lexical e.fault⟩) (scan? s {})
        let r ← readLines? {} (LineRecord.ofTokens tokens)
        inBounds r.close

variable {l : Line} {args : List Token}

theorem versioned?_eq (verb : Verb) (words : List Text) :
    versioned? verb words = inBounds (Directive.versioned verb words) := by
  rcases words with _ | ⟨path, _ | ⟨version, _ | ⟨word, words⟩⟩⟩
  case cons.cons.nil =>
    rw [versioned?, moduleVersion?_eq]
    exact inBounds_bind _ _
  all_goals rfl

theorem declare?_eq (h : ∀ token ∈ args, token.Spelled) (m : Manifest) (verb : Verb) (l : Line) :
    declare? m verb args (.ofLine l) = inBounds (Directive.addTo m ⟨verb, args, l⟩) := by
  have hcomments : (LineRecord.ofLine l).comments = l.comments := rfl
  have hsuffix : (LineRecord.ofLine l).suffix = l.suffix := rfl
  unfold declare? Directive.addTo
  cases verb with
  | godebug =>
      dsimp only
      rw [words?_eq h]
      apply bind_inBounds
      intro words
      apply bind_inBounds
      intro s
      cases Directive.setting? s with
      | none => rfl
      | some setting => rfl
  | _ =>
      dsimp only
      simp only [words?_eq h, versioned?_eq, replacement?_eq h, bounds?_eq h, hcomments, hsuffix,
        pure_eq_inBounds, throw_eq_inBounds, inBounds_bind, ite_inBounds, pure_eq_ok,
        throw_eq_error, error_bind]

theorem isClosing?_eq (l : Line) : isClosing? (.ofLine l) = some l.isClosing := by
  obtain ⟨first, others, suffix, before⟩ := l
  cases others with
  | nil =>
      have hkind : (first.kind == .closeParen) = decide (first.kind = .closeParen) :=
        beq_eq_decide _ _
      simp [isClosing?, Line.isClosing, LineRecord.ofLine, Line.tokens, hkind]
  | cons t others => simp [isClosing?, Line.isClosing, LineRecord.ofLine, Line.tokens]

/-- A line inside a block. -/
theorem readLine?_some (h : ∀ token ∈ l.tokens, token.Spelled) (m : Manifest) (block : OpenBlock) :
    readLine? ⟨m, some block⟩ (.ofLine l) = inBounds (Reading.next ⟨m, some block⟩ l) := by
  rw [readLine?, Reading.next, Item.step]
  dsimp only
  rw [isClosing?_eq, lift_some_bind]
  by_cases hclosing : l.isClosing
  · rw [if_pos hclosing, if_pos hclosing]
    rfl
  · have htokens : (LineRecord.ofLine l).tokens = l.tokens := rfl
    rw [if_neg hclosing, if_neg hclosing, htokens, declare?_eq h]
    exact inBounds_bind _ _

theorem shape_eq_plain
    (hempty : .bare :: l.others.map Token.kind ≠ [.bare, .openParen, .closeParen])
    (hopening : .bare :: l.others.map Token.kind ≠ [.bare, .openParen]) : l.shape = .plain := by
  rw [Line.shape]
  split
  · next heq => exact absurd (congrArg _ heq) hempty
  · next heq => exact absurd (congrArg _ heq) hopening
  · rfl

/-- A line at the top level, of which the tokens behind the verb are taken unless it is a block. -/
theorem readLine?_none (h : ∀ token ∈ l.tokens, token.Spelled) (m : Manifest) :
    readLine? ⟨m, none⟩ (.ofLine l) = inBounds (Reading.next ⟨m, none⟩ l) := by
  have hfirst : (LineRecord.ofLine l).tokens[0]? = some l.first := rfl
  have hkinds : (LineRecord.ofLine l).tokens.map Token.kind =
      l.first.kind :: l.others.map Token.kind := rfl
  have hothers : behind? 1 (LineRecord.ofLine l).tokens = some l.others :=
    behind?_append [l.first] l.others
  rw [readLine?, Reading.next, Item.step]
  dsimp only
  rw [hfirst, lift_some_bind, hothers, lift_some, hkinds]
  by_cases hbare : l.first.kind = .bare
  · have hverb : l.verb = knownVerb l.first.text := if_neg (not_not.mpr hbare)
    rw [if_neg (not_not.mpr hbare), hbare, blockVerb, hverb]
    cases knownVerb l.first.text with
    | error fault =>
        split
        · rfl
        · rfl
        · rfl
    | ok verb =>
        dsimp only [ok_bind]
        split
        · next heq =>
            have hshape : l.shape = .emptyBlock := by
              rw [Line.shape, (List.cons.inj heq).2]
            rw [hshape]
            cases hblock : verb.isBlock with
            | false => rfl
            | true => rfl
        · next heq =>
            have hshape : l.shape = .opening := by
              rw [Line.shape, (List.cons.inj heq).2]
            rw [hshape]
            cases hblock : verb.isBlock with
            | false => rfl
            | true => rfl
        · next hempty hopening =>
            have hdeclare := declare?_eq (fun t ht => h t (List.mem_cons_of_mem _ ht)) m verb l
            rw [shape_eq_plain hempty hopening, inBounds_ok_bind, inBounds_ok_bind, hdeclare]
            exact inBounds_bind _ _
  · have hverb : l.verb = .error (.unexpectedToken l.first.kind) := if_pos hbare
    rw [if_pos hbare, hverb]
    rfl

theorem readLine?_eq (h : ∀ token ∈ l.tokens, token.Spelled) (r : Reading) :
    readLine? r (.ofLine l) = inBounds (r.next l) := by
  obtain ⟨m, block⟩ := r
  cases block with
  | some block => exact readLine?_some h m block
  | none => exact readLine?_none h m

theorem readLines?_eq {lines : List Line} (h : ∀ l ∈ lines, ∀ token ∈ l.tokens, token.Spelled)
    (r : Reading) : readLines? r (lines.map .ofLine) = inBounds (r.run lines) := by
  induction lines generalizing r with
  | nil => rfl
  | cons l lines ih =>
      rw [List.forall_mem_cons] at h
      rw [List.map_cons, readLines?, List.foldlM_cons, readLine?_eq h.1, mapFault_inBounds,
        Reading.run_cons]
      exact bind_inBounds (ih h.2) _

/-- The tokens of a line are tokens of its text, which have the shapes that their kinds have. -/
theorem readLines?_ofTokens {s : Text} {tokens : List Token} (h : Token.scan 1 s = .ok tokens) :
    readLines? {} (LineRecord.ofTokens tokens) =
      inBounds (Reading.run {} (Line.ofTokens tokens)) := by
  rw [LineRecord.ofTokens_eq h]
  apply readLines?_eq
  intro l hl token htoken
  exact (Token.scans_of_scan h).spelled token (Line.mem_of_mem_collect hl htoken)

/-- Whatever the bytes are, all bounds hold until the manifest is read or has a fault. -/
theorem read?_eq_inBounds (label : Text) (bytes : Bytes) :
    read? label bytes = inBounds ((Manifest.read bytes).mapError (label, ·)) := by
  rw [read?, ← mapFault_inBounds]
  apply congrArg
  cases hs : Utf8.decode? bytes with
  | none =>
      rw [Manifest.read, hs]
      rfl
  | some s =>
      obtain rfl := Utf8.encode_of_decode? hs
      dsimp only
      rw [scan?_eq, mapFault_inBounds]
      cases hscan : Token.scan 1 s with
      | error e =>
          rw [Manifest.read_encode_of_scan_error hscan]
          rfl
      | ok tokens =>
          rw [Manifest.read_encode_of_scan hscan, mapError_ok, inBounds_ok_bind,
            readLines?_ofTokens hscan]
          exact inBounds_bind _ _

end GoModules.Offset
