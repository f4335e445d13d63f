import GoModules.Text.Basic

/-!
# TOML strings

The four ways to write a string: between double quotes with escapes or between single quotes
without, and each of these over several lines between three quotes. A newline right after three
quotes is not part of the string, and every other newline counts as a line feed.
-/

namespace GoModules.Toml

def isSpace (c : Char) : Bool :=
  c == ' ' || c == '\t'

/-- The characters of comments and strings: no control characters but tabs. -/
def isTextChar (c : Char) : Bool :=
  c == '\t' || (0x20 ≤ c.toNat && c.toNat ≠ 0x7f)

/-- What follows a newline, if a text starts with one. -/
def newline? : Text → Option Text
  | '\n' :: s => some s
  | '\r' :: '\n' :: s => some s
  | _ => none

def dropNewline (s : Text) : Text :=
  (newline? s).getD s

def hexDigit? (c : Char) : Option Nat :=
  if c.isDigit then some (c.toNat - '0'.toNat)
  else if 'a' ≤ c ∧ c ≤ 'f' then some (c.toNat - 'a'.toNat + 10)
  else if 'A' ≤ c ∧ c ≤ 'F' then some (c.toNat - 'A'.toNat + 10)
  else none

/-- The character with a code point written in hexadecimal. -/
def codePoint? (digits : Text) : Option Char := do
  let n ← digits.foldlM (fun n c => return n * 16 + (← hexDigit? c)) 0
  if n.isValidChar then some (Char.ofNat n) else none

/-- Reads an escape after its backslash: the character, and how long the escape is. -/
def escape? : Text → Option (Char × Nat)
  | '"' :: _ => some ('"', 1)
  | '\\' :: _ => some ('\\', 1)
  | 'b' :: _ => some ('\x08', 1)
  | 't' :: _ => some ('\t', 1)
  | 'n' :: _ => some ('\n', 1)
  | 'f' :: _ => some ('\x0c', 1)
  | 'r' :: _ => some ('\r', 1)
  | 'u' :: s => if 4 ≤ s.length then (codePoint? (s.take 4)).map (·, 5) else none
  | 'U' :: s => if 8 ≤ s.length then (codePoint? (s.take 8)).map (·, 9) else none
  | _ => none

/-- Reads a string between double quotes after the first one: the string, and what follows the
second one. -/
def basic? : Text → Option (Text × Text)
  | [] => none
  | '"' :: s => some ([], s)
  | '\\' :: s => do
      let (c, n) ← escape? s
      let (string, rest) ← basic? (s.drop n)
      return (c :: string, rest)
  | c :: s =>
      if isTextChar c then (basic? s).map fun (string, rest) => (c :: string, rest) else none
termination_by s => s.length
decreasing_by
  · simp only [List.length_drop, List.length_cons]
    omega
  · simp

/-- Reads a string between single quotes after the first one. -/
def literal? : Text → Option (Text × Text)
  | [] => none
  | '\'' :: s => some ([], s)
  | c :: s =>
      if isTextChar c then (literal? s).map fun (string, rest) => (c :: string, rest) else none

/-- Reads the end of a string over several lines, where at least one quote stands. Up to two quotes
may belong to the string; the three that end it follow them. -/
def closing? (quote : Char) (s : Text) : Option (Text × Text) :=
  let quotes := s.takeWhile (· == quote)
  if 3 ≤ quotes.length ∧ quotes.length ≤ 5 then
    some (quotes.drop 3, s.drop quotes.length)
  else none

/-- What follows a backslash that joins lines: spaces, a newline, and any blanks after it. -/
def joinLines? (s : Text) : Option Text := do
  let s ← newline? (s.dropWhile isSpace)
  let rest := skip s
  return rest
where
  /-- Skips blanks. -/
  skip : Text → Text
    | ' ' :: s => skip s
    | '\t' :: s => skip s
    | '\n' :: s => skip s
    | '\r' :: '\n' :: s => skip s
    | s => s

theorem length_newline?_lt {s rest : Text} (h : newline? s = some rest) :
    rest.length < s.length := by
  unfold newline? at h
  split at h
  · simp_all
  · simp only [Option.some.injEq] at h
    simp only [← h, List.length_cons]
    omega
  · simp at h

theorem length_skip_le (s : Text) : (joinLines?.skip s).length ≤ s.length := by
  fun_induction joinLines?.skip s <;> simp_all <;> omega

theorem length_joinLines?_lt {s rest : Text} (h : joinLines? s = some rest) :
    rest.length < s.length := by
  unfold joinLines? at h
  cases hn : newline? (s.dropWhile isSpace) with
  | none => simp [hn] at h
  | some t =>
      simp only [hn, Option.bind_eq_bind, Option.bind_some, Option.pure_def,
        Option.some.injEq] at h
      subst h
      have hle := length_skip_le t
      have hlt := length_newline?_lt hn
      have hdrop := (List.dropWhile_sublist (l := s) isSpace).length_le
      omega

/-- Reads a string over several lines after its opening quotes. Escapes count only between double
quotes. -/
def multiLine? (quote : Char) (s : Text) : Option (Text × Text) :=
  match s with
  | [] => none
  | c :: s =>
      if [quote, quote, quote].isPrefixOf (c :: s) then closing? quote (c :: s)
      else if c = '\\' ∧ quote = '"' then
        match _h : joinLines? s with
        | some s => multiLine? quote s
        | none => do
            let (c, n) ← escape? s
            let (string, rest) ← multiLine? quote (s.drop n)
            return (c :: string, rest)
      else
        match _h : newline? (c :: s) with
        | some s => (multiLine? quote s).map fun (string, rest) => ('\n' :: string, rest)
        | none =>
            if isTextChar c then
              (multiLine? quote s).map fun (string, rest) => (c :: string, rest)
            else none
termination_by s.length
decreasing_by
  · have := length_joinLines?_lt _h
    simp only [List.length_cons]
    omega
  · simp only [List.length_drop, List.length_cons]
    omega
  · exact length_newline?_lt _h
  · simp

/-- Reads a string: the string, and what follows it. -/
def string? : Text → Option (Text × Text)
  | '"' :: '"' :: '"' :: s => multiLine? '"' (dropNewline s)
  | '"' :: s => basic? s
  | '\'' :: '\'' :: '\'' :: s => multiLine? '\'' (dropNewline s)
  | '\'' :: s => literal? s
  | _ => none

end GoModules.Toml
