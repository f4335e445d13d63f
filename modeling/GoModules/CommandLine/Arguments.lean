import GoModules.Text.Basic

/-!
# Arguments

How the arguments of a command are told apart. An option with a value takes the next argument, or
what follows an equals sign; a flag takes none. No option or flag is given twice, and the value of
an option is never empty. All other arguments are words, and after `--` everything is a word.
-/

namespace GoModules.CommandLine

/-- Why the arguments are not read to their end. -/
inductive Stop
  | help
  | version
  | usage
deriving DecidableEq, Repr

/-- The options and flags of a command, how many words it takes, and whether they may be empty. -/
structure Grammar where
  options : List Text
  flags : List Text := []
  words : Nat := 0
  emptyWords : Bool := false
  hasVersion : Bool := false

/-- The arguments of a command, told apart. -/
structure Arguments where
  options : List (Text × Text) := []
  flags : List Text := []
  words : List Text := []
deriving DecidableEq, Repr

/-- One argument by its form. -/
inductive Argument
  | rest
  | long (name : Text) (value : Option Text)
  | short (name : Char)
  | word (s : Text)
deriving DecidableEq, Repr

/-- The form of an argument. A single hyphen is a word. -/
def Argument.ofText : Text → Argument
  | ['-', '-'] => .rest
  | '-' :: '-' :: s =>
      match Text.cutAt (· == '=') s with
      | (name, '=' :: value) => .long name (some value)
      | (name, _) => .long name none
  | '-' :: c :: _ => .short c
  | s => .word s

/-- Whether an argument can be the value of the option before it. -/
def Argument.isValue (s : Text) : Bool :=
  match ofText s with
  | .word _ => true
  | _ => false

namespace Arguments

def addOption (a : Arguments) (name value : Text) : Except Stop Arguments :=
  if value = [] ∨ (a.options.lookup name).isSome then .error .usage
  else .ok { a with options := a.options ++ [(name, value)] }

def addFlag (a : Arguments) (name : Text) : Except Stop Arguments :=
  if name ∈ a.flags then .error .usage else .ok { a with flags := a.flags ++ [name] }

def addWords (g : Grammar) (a : Arguments) (words : List Text) : Except Stop Arguments :=
  if g.words < a.words.length + words.length ∨ (! g.emptyWords ∧ [] ∈ words) then .error .usage
  else .ok { a with words := a.words ++ words }

/-- Reads a flag, or one of those that end the reading. -/
def readFlag (g : Grammar) (a : Arguments) (name : Text) : Except Stop Arguments :=
  if name = "help".toList then .error .help
  else if name = "version".toList ∧ g.hasVersion then .error .version
  else if name ∈ g.flags then a.addFlag name
  else .error .usage

/-- Reads arguments on. The reading ends before the first word that `stopsAt` picks; the value is
what was read and what is left. -/
def read (g : Grammar) (stopsAt : Text → Bool) (a : Arguments) :
    (args : List Text) → Except Stop (Arguments × List Text)
  | [] => .ok (a, [])
  | arg :: args =>
      match Argument.ofText arg with
      | .rest => do return (← a.addWords g args, [])
      | .short 'h' => .error .help
      | .short 'V' => .error (if g.hasVersion then .version else .usage)
      | .short _ => .error .usage
      | .long name (some value) =>
          if name ∈ g.options then do read g stopsAt (← a.addOption name value) args
          else .error .usage
      | .long name none =>
          if name ∈ g.options then
            match args with
            | value :: args =>
                if Argument.isValue value then do
                  read g stopsAt (← a.addOption name value) args
                else .error .usage
            | [] => .error .usage
          else do read g stopsAt (← a.readFlag g name) args
      | .word word =>
          if stopsAt word then .ok (a, arg :: args)
          else do read g stopsAt (← a.addWords g [word]) args

end Arguments

end GoModules.CommandLine
