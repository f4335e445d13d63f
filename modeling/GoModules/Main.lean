import GoModules.CommandLine.Run
import GoModules.Disk.Snapshot

/-!
# The program

Observes what an invocation may ask for, runs it on that, and prints what it says.
-/

namespace GoModules

/-- The error that the system knows by a number, which may come with its sign changed. -/
def IoError.ofCode (code : UInt32) (description : String) : IoError :=
  match min code.toNat (UInt32.size - code.toNat) with
  | 2 => .noEntry
  | 20 => .notDirectory
  | 21 => .isDirectory
  | 22 => .nulByte
  | 36 => .nameTooLong
  | 40 => .linkLoop
  | n => .other n description.toList

/-- The error that stopped an observation. -/
def IoError.ofFailure : IO.Error → IoError
  | .noFileOrDirectory _ code description => .ofCode code description
  | .inappropriateType _ code description => .ofCode code description
  | .invalidArgument _ code description => .ofCode code description
  | .permissionDenied _ code description => .ofCode code description
  | .resourceExhausted _ code description => .ofCode code description
  | .noSuchThing _ code description => .ofCode code description
  | .otherError code description => .ofCode code description
  | e => .other 5 e.toString.toList

/-- A path as the system takes it. -/
def FilePath.spelled (p : FilePath) : String :=
  String.ofList p.display

/-- Observes something, or sees why it cannot be observed. -/
def observe {α : Type} (act : IO α) : IO (Except IoError α) := do
  return (← act.toBaseIO).mapError IoError.ofFailure

/-- Reads a file. -/
def readFile (p : FilePath) : IO (Except IoError Bytes) :=
  observe do return (← IO.FS.readBinFile p.spelled).toList

/-- Looks at what a path leads to. -/
def look (p : FilePath) : IO (Except IoError Kind) :=
  observe do
    match (← (System.mkFilePath [p.spelled]).metadata).type with
    | .dir => return .directory
    | .file => return .file
    | _ => return .special

/-- Observes all of some paths. -/
def observeAll {α : Type} (act : FilePath → IO α) (ps : List FilePath) :
    IO (List (FilePath × α)) :=
  ps.mapM fun p => return (p, ← act p)

/-- The directory where the program runs. -/
def lookAround : IO (Except IoError Location) :=
  observe do return Location.root.resolve (.ofText (← IO.currentDir).toString.toList)

/-- Observes what an invocation may ask for. -/
def observeFor (i : CommandLine.Invocation) : IO Snapshot := do
  let here : Snapshot := ⟨← lookAround, [], []⟩
  let start := i.command.start
  let seen := { here with kinds := ← observeAll look (here.disk.searchPaths start) }
  let contents ← observeAll readFile (i.config.toList ++ seen.disk.manifestPaths start)
  return { seen with contents }

/-- The value of a variable. -/
def readVariable (name : String) : IO (Option Text) :=
  return (← IO.getEnv name).map String.toList

/-- The environment of the program. -/
def readEnvironment : IO Environment :=
  return {
    goroot := ← readVariable "GOROOT"
    gomodcache := ← readVariable "GOMODCACHE"
    gopath := ← readVariable "GOPATH"
    home := ← readVariable "HOME" }

end GoModules

open GoModules

/-- Runs the program with the arguments that it was given. -/
def main (args : List String) : IO UInt32 := do
  let args := args.map String.toList
  let snapshot ← match CommandLine.Invocation.ofArguments args with
    | .ok i => observeFor i
    | .error _ => pure ⟨.ok .root, [], []⟩
  let outcome := CommandLine.run snapshot.disk (← readEnvironment) args
  (← IO.getStdout).putStr (String.ofList outcome.stdout)
  (← IO.getStderr).putStr (String.ofList outcome.stderr)
  return outcome.status.toUInt32
