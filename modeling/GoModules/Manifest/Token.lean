import GoModules.Text.Quoted

/-!
# Tokens

A manifest is read as tokens with nothing but spaces, tabs and carriage returns between them. A
token is the longest text of its kind: punctuation, a string in double quotes with escapes, a raw
string in back quotes, a comment up to the end of its line, or a bare word. A bare word also ends
where a comment begins inside it, so a comment may be glued to the word before it. Newlines are
tokens, since statements end with their lines.
-/

namespace GoModules

namespace Token

inductive Kind
  | openParen
  | closeParen
  | openBracket
  | closeBracket
  | comma
  | arrow
  | quoted
  | raw
  | comment
  | bare
  | newline
deriving DecidableEq, Repr

/-- How a message names a kind. -/
def Kind.name : Kind → Text
  | .openParen => "'('".toList
  | .closeParen => "')'".toList
  | .openBracket => "'['".toList
  | .closeBracket => "']'".toList
  | .comma => "','".toList
  | .arrow => "'=>'".toList
  | .quoted => "quoted string".toList
  | .raw => "raw string".toList
  | .comment => "comment".toList
  | .bare => "identifier".toList
  | .newline => "newline".toList

/-- The kinds that can spell an argument. -/
def Kind.isWord : Kind → Bool
  | .bare | .quoted | .raw => true
  | _ => false

/-- Why a text has no further token. -/
inductive Fault
  | unexpectedChar (c : Char)
  | unterminatedString
  | blockComment
deriving DecidableEq, Repr

def Fault.message : Fault → Text
  | .unexpectedChar c => "unexpected input character ".toList ++ Text.quotedChar c
  | .unterminatedString => "unterminated quoted string".toList
  | .blockComment => "mod files must use // comments, not /* */ comments".toList

/-- The characters that separate tokens and belong to none. -/
def isGap (c : Char) : Bool :=
  c == ' ' || c == '\t' || c == '\r'

def isBareChar (c : Char) : Bool :=
  ! [' ', '\t', '\r', '\n', '(', ')', '[', ']', '\x7b', '\x7d', ',', '"', '\x60'].contains c

/-- The kinds that one character spells. -/
def punctuation? : Char → Option Kind
  | '(' => some .openParen
  | ')' => some .closeParen
  | '[' => some .openBracket
  | ']' => some .closeBracket
  | ',' => some .comma
  | '\n' => some .newline
  | _ => none

/-- How many characters of `s` belong to a string that `s` is the inside of, the closing quote
included. A backslash takes the next character with it, and no newline can stand inside. -/
def quotedLength? : (s : Text) → Option Nat
  | '"' :: _ => some 1
  | '\\' :: c :: s => if c = '\n' then none else (quotedLength? s).map (· + 2)
  | c :: s => if c = '\n' ∨ c = '\\' then none else (quotedLength? s).map (· + 1)
  | [] => none

/-- How many characters of `s` belong to a raw string that `s` is the inside of, the closing quote
included. -/
def rawLength? : (s : Text) → Option Nat
  | [] => none
  | c :: s => if c = '\x60' then some 1 else if c = '\n' then none else (rawLength? s).map (· + 1)

/-- The part of a text before its first `//`. -/
def beforeComment : Text → Text
  | [] => []
  | '/' :: '/' :: _ => []
  | c :: s => c :: beforeComment s

/-- Whether a text holds the beginning of a block comment. -/
def opensBlock : Text → Bool
  | [] => false
  | '/' :: '*' :: _ => true
  | _ :: s => opensBlock s

/-- The token that starts with a character of bare words: an arrow, a comment or a bare word. -/
def bare (c : Char) (s : Text) : Except Fault (Kind × Nat) :=
  match c :: s.takeWhile isBareChar with
  | ['=', '>'] => .ok (.arrow, 1)
  | '/' :: '/' :: _ => .ok (.comment, (s.takeWhile (· != '\n')).length)
  | run =>
      let word := beforeComment run
      if opensBlock word then .error .blockComment else .ok (.bare, word.length - 1)

/-- The kind of the token that starts with `c`, and how many characters of the rest `s` belong to
it. -/
def first (c : Char) (s : Text) : Except Fault (Kind × Nat) :=
  match punctuation? c with
  | some kind => .ok (kind, 0)
  | none =>
      if c = '"' then
        match quotedLength? s with
        | some n => .ok (.quoted, n)
        | none => .error .unterminatedString
      else if c = '\x60' then
        match rawLength? s with
        | some n => .ok (.raw, n)
        | none => .error .unterminatedString
      else if isBareChar c then bare c s
      else .error (.unexpectedChar c)

end Token

/-- A token with the line on which it starts. -/
structure Token where
  kind : Token.Kind
  text : Text
  line : Nat
deriving DecidableEq, Repr

namespace Token

/-- A fault with the line on which it was met. -/
structure Error where
  line : Nat
  fault : Fault
deriving DecidableEq, Repr

/-- The tokens of a text whose first line has the given number. -/
def scan (line : Nat) : Text → Except Error (List Token)
  | [] => .ok []
  | c :: s =>
      if isGap c then scan line s
      else
        match first c s with
        | .error fault => .error ⟨line, fault⟩
        | .ok (kind, n) =>
            match scan (if kind = .newline then line + 1 else line) (s.drop n) with
            | .error e => .error e
            | .ok tokens => .ok (⟨kind, c :: s.take n, line⟩ :: tokens)
termination_by s => s.length
decreasing_by
  · simp
  · simp only [List.length_drop, List.length_cons]
    omega

end Token

end GoModules
