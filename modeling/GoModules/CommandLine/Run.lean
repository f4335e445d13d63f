import GoModules.CommandLine.Invocation
import GoModules.CommandLine.Report
import GoModules.Config.Reader
import GoModules.Disk.ImportPath
import GoModules.Disk.Source
import GoModules.Json.Manifest

/-!
# Running the program

What the program prints and the status with which it ends, given the disk, the environment and its
arguments.
-/

namespace GoModules.CommandLine

/-- What a run leaves behind. -/
structure Outcome where
  status : Nat
  stdout : Text := []
  stderr : Text := []
deriving DecidableEq, Repr

/-- What went wrong: what the program failed to do, and why, the outermost cause first. -/
structure Failure where
  what : Text
  why : List Text
deriving DecidableEq, Repr

def release : Text :=
  "modsource 0.3.0".toList

def helpLines : List Text :=
  ["Locate Go package sources using go.mod",
   "",
   "Usage: modsource [OPTIONS] <COMMAND>",
   "",
   "Commands:",
   "  source       Print the source directory of a package",
   "  import-path  Print the import path of a directory or file",
   "  mod-file     Print the go.mod governing a directory",
   "  mod-dir      Print the module root directory governing a path",
   "  help         Print this message",
   "",
   "Options:",
   "      --config <FILE>  Read the package roots from a TOML file",
   "  -h, --help           Print help",
   "  -V, --version        Print version"].map String.toList

/-- What the program says when its arguments make no sense. -/
def usageLine : Text :=
  "error: unexpected arguments; for more information, try '--help'".toList

/-- The configuration of an invocation. -/
def loadConfig (d : Disk) (env : Environment) : Option FilePath → Except Failure Config
  | some path => (Config.ofFile d path).mapError fun e =>
      ⟨"Failed to load config ".toList ++ path.display, e.message :: e.cause?.toList⟩
  | none => (Config.ofEnvironment env).mapError fun e =>
      ⟨"Failed to configure from environment".toList, e.message :: e.cause?.toList⟩

def loadFailure (what : Text) (e : LoadError) : Failure :=
  ⟨what, e.message :: e.cause?.toList⟩

/-- The manifest that governs a path as JSON. -/
def manifestJson (path : FilePath) (m : Manifest) : Json :=
  .ofMembers [("file", m.toJson), ("path", .str path.display)]

/-- The lines that an invocation prints. -/
def Invocation.output (d : Disk) (env : Environment) (i : Invocation) :
    Except Failure (List Text) := do
  match i.command with
  | .source target dir follow =>
      let config ← loadConfig d env i.config
      let path ← (d.source config target dir follow).mapError fun e =>
        ⟨"Failed to resolve ".toList ++ target, e.message :: e.cause?.toList⟩
      return [path.display]
  | .importPath path =>
      let s ← (d.importPath path).mapError
        (loadFailure ("Failed to compute import path of ".toList ++ path.display))
      return [s]
  | .manifest path json =>
      let (root, m) ← (d.governing path).mapError (loadFailure "Failed to load go.mod".toList)
      if json then return [(manifestJson root.manifestPath m).text]
      else return root.manifestPath.display :: summary m
  | .moduleRoot path =>
      let root ← (d.moduleRoot path).mapError (loadFailure "Failed to locate go.mod".toList)
      return [root.path.display]

/-- Lines as they are printed. -/
def printed (lines : List Text) : Text :=
  lines.flatMap (· ++ ['\n'])

def run (d : Disk) (env : Environment) (args : List Text) : Outcome :=
  match Invocation.ofArguments args with
  | .error .help => { status := 0, stdout := printed helpLines }
  | .error .version => { status := 0, stdout := printed [release] }
  | .error .usage => { status := 2, stderr := printed [usageLine] }
  | .ok i =>
      match i.output d env with
      | .ok lines => { status := 0, stdout := printed lines }
      | .error e => { status := 1, stderr := errorReport e.what e.why }

end GoModules.CommandLine
