import GoModules.FilePath.Basic

/-!
# Disks

What a program can observe of files and directories: where it is, what a path leads to, and what a
file holds.
-/

namespace GoModules

/-- Why the system refuses an observation. -/
inductive IoError
  | noEntry
  | notDirectory
  | isDirectory
  | nameTooLong
  | linkLoop
  | nulByte
  | notUtf8
  | other (code : Nat) (description : Text)
deriving DecidableEq, Repr

namespace IoError

/-- A description with the number by which the system knows an error. -/
def numbered (description : Text) (code : Nat) : Text :=
  description ++ " (os error ".toList ++ Text.decimal code ++ [')']

def message : IoError → Text
  | .noEntry => numbered "No such file or directory".toList 2
  | .notDirectory => numbered "Not a directory".toList 20
  | .isDirectory => numbered "Is a directory".toList 21
  | .nameTooLong => numbered "File name too long".toList 36
  | .linkLoop => numbered "Too many levels of symbolic links".toList 40
  | .nulByte => "file name contained an unexpected NUL byte".toList
  | .notUtf8 => "stream did not contain valid UTF-8".toList
  | .other code description => numbered description code

end IoError

/-- What a path leads to. A device, a pipe or a socket is special. -/
inductive Kind
  | directory
  | file
  | special
deriving DecidableEq, Repr

/-- What can be observed at one time. -/
structure Disk where
  workingDirectory : Except IoError Location
  stat : FilePath → Except IoError Kind
  read : FilePath → Except IoError Bytes

namespace Disk

/-- The location that a path spells, without looking at anything but the working directory, and at
that one only for a relative path. -/
def locate (d : Disk) (p : FilePath) : Except IoError Location :=
  if p.isAbsolute then .ok (Location.root.resolve p)
  else return (← d.workingDirectory).resolve p

def isFile (d : Disk) (p : FilePath) : Bool :=
  match d.stat p with
  | .ok .file => true
  | _ => false

def readText (d : Disk) (p : FilePath) : Except IoError Text := do
  match Utf8.decode? (← d.read p) with
  | some s => return s
  | none => throw .notUtf8

end Disk

end GoModules
