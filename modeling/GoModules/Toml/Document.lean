import GoModules.Toml.Strings

/-!
# Flat TOML documents

A document that gives strings to keys at its top level. Other documents have tables, or values that
are not strings; none of them is flat, whatever it holds.
-/

namespace GoModules.Toml

def isKeyChar (c : Char) : Bool :=
  c.isAlphanum || c == '_' || c == '-'

/-- Reads a key: a bare one, or a string on one line. -/
def key? : Text → Option (Text × Text)
  | '"' :: s => basic? s
  | '\'' :: s => literal? s
  | s =>
      let (key, rest) := Text.cutAt (! isKeyChar ·) s
      if key = [] then none else some (key, rest)

/-- What follows a line that holds nothing more, or at most a comment. -/
def endLine? (s : Text) : Option Text :=
  let s := s.dropWhile isSpace
  let s := if s.head? = some '#' then s.tail.dropWhile isTextChar else s
  if s = [] then some [] else newline? s

/-- Reads a key, its string, and the end of the line. -/
def member? (s : Text) : Option ((Text × Text) × Text) := do
  let (key, s) ← key? s
  match s.dropWhile isSpace with
  | '=' :: s =>
      let (value, s) ← string? (s.dropWhile isSpace)
      return ((key, value), ← endLine? s)
  | _ => none

/-- Reads at most `fuel` lines. -/
def members? : (fuel : Nat) → Text → Option (List (Text × Text))
  | 0, s => if s = [] then some [] else none
  | fuel + 1, s =>
      let s := s.dropWhile isSpace
      if s = [] then some []
      else
        match endLine? s with
        | some rest => members? fuel rest
        | none => do
            let (member, rest) ← member? s
            return member :: (← members? fuel rest)

/-- The keys of a flat document with their strings, in order. Every line but the last ends in a
newline, so there are no more lines than characters. -/
def flat? (s : Text) : Option (List (Text × Text)) :=
  let s := if s.head? = some '\ufeff' then s.tail else s
  members? (s.length + 1) s

end GoModules.Toml
