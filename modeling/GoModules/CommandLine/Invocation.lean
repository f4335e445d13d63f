import GoModules.CommandLine.Arguments
import GoModules.FilePath.Basic

/-!
# Invocations

The commands of the program, and what its arguments ask for.
-/

namespace GoModules.CommandLine

/-- What the program can be asked to print. -/
inductive Command
  | source (target : Text) (dir : FilePath) (follow : Bool)
  | importPath (path : FilePath)
  | manifest (path : FilePath) (json : Bool)
  | moduleRoot (path : FilePath)
deriving DecidableEq, Repr

/-- The path from which a command looks around. -/
def Command.start : Command → FilePath
  | .source _ dir _ => dir
  | .importPath path | .manifest path _ | .moduleRoot path => path

/-- A command, and the file with the configuration if one is named. -/
structure Invocation where
  config : Option FilePath
  command : Command
deriving DecidableEq, Repr

inductive CommandName
  | source
  | importPath
  | manifest
  | moduleRoot
deriving DecidableEq, Repr

namespace CommandName

def all : List CommandName :=
  [.source, .importPath, .manifest, .moduleRoot]

/-- How a command is called. -/
def text : CommandName → Text
  | .source => "source".toList
  | .importPath => "import-path".toList
  | .manifest => "mod-file".toList
  | .moduleRoot => "mod-dir".toList

/-- The command that a word calls. -/
def ofText? (s : Text) : Option CommandName :=
  all.find? (·.text = s)

end CommandName

/-- The option for the file with the configuration; it may also stand before the command. -/
def configOption : Text := "config".toList

/-- The option for the directory from which a package is sought. -/
def dirOption : Text := "dir".toList

def replaceFlag : Text := "replace".toList

def jsonFlag : Text := "json".toList

def helpWord : Text := "help".toList

/-- What may stand before the command. -/
def Grammar.main : Grammar where
  options := [configOption]
  hasVersion := true

/-- What may follow a command. -/
def CommandName.grammar : CommandName → Grammar
  | .source =>
    { options := [configOption, dirOption], flags := [replaceFlag], words := 1,
      emptyWords := true }
  | .manifest => { options := [configOption], flags := [jsonFlag], words := 1 }
  | _ => { options := [configOption], words := 1 }

/-- The path that an argument spells; without one, the current directory. -/
def pathOf (arg : Option Text) : FilePath :=
  .ofText (arg.getD ['.'])

/-- The command that arguments ask for. -/
def CommandName.command (name : CommandName) (a : Arguments) : Except Stop Command :=
  match name, a.words with
  | .source, target :: _ =>
      .ok (.source target (pathOf (a.options.lookup dirOption)) (a.flags.contains replaceFlag))
  | .source, [] => .error .usage
  | .importPath, words => .ok (.importPath (pathOf words.head?))
  | .manifest, words => .ok (.manifest (pathOf words.head?) (a.flags.contains jsonFlag))
  | .moduleRoot, words => .ok (.moduleRoot (pathOf words.head?))

/-- The file with the configuration that arguments name. -/
def Arguments.config? (a : Arguments) : Option FilePath :=
  (a.options.lookup configOption).map FilePath.ofText

/-- What the words after the one that asks for help ask for: help on the program, on a command, or
on help itself. Commands have no parts to be named further. -/
def helpOn : (words : List Text) → Stop
  | [] => .help
  | [word] => if word = helpWord ∨ (CommandName.ofText? word).isSome then .help else .usage
  | _ => .usage

/-- What the arguments of the program ask for. A configuration named after the command counts before
one named in front of it. -/
def Invocation.ofArguments (args : List Text) : Except Stop Invocation := do
  let (main, rest) ← Arguments.read .main (fun _ => true) {} args
  match rest with
  | [] => throw .usage
  | word :: rest =>
      if word = helpWord then
        throw (helpOn rest)
      match CommandName.ofText? word with
      | none => throw .usage
      | some name =>
          let (a, _) ← Arguments.read name.grammar (fun _ => false) {} rest
          return ⟨a.config?.or main.config?, ← name.command a⟩

end GoModules.CommandLine
