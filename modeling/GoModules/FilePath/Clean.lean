import GoModules.FilePath.Basic

/-!
# Clean paths

The shortest path that is the same as a given one if no directory is a link: without the names of a
directory for itself, without empty names, and with the name of the directory above only at the
start of a relative path.
-/

namespace GoModules

/-- A path reduced as far as its text allows. -/
inductive Reduced
  | absolute (l : Location)
  | relative (ups : Nat) (names : List Name)
deriving DecidableEq, Repr

namespace Reduced

/-- Goes one name further. -/
def step : Reduced → Name → Reduced
  | .absolute l, name => .absolute (l.step name)
  | .relative ups names, name =>
      if name = Name.here then .relative ups names
      else if name = Name.above then
        match names with
        | [] => .relative (ups + 1) []
        | _ :: outer => .relative ups outer
      else .relative ups (name :: names)

/-- The path of a reduced path; the empty one is the name of the current directory. -/
def path : Reduced → FilePath
  | .absolute l => l.path
  | .relative ups names =>
      match List.replicate ups Name.above ++ names.reverse with
      | [] => ⟨Name.here⟩
      | segments => .ofSegments false segments

end Reduced

namespace FilePath

/-- A path reduced as far as its text allows. -/
def reduce (p : FilePath) : Reduced :=
  p.segments.foldl Reduced.step (if p.isAbsolute then .absolute .root else .relative 0 [])

def clean (p : FilePath) : FilePath :=
  p.reduce.path

example : clean (.ofText "a/../../b".toList) = .ofText "../b".toList := by decide

example : clean (.ofText "/..".toList) = .ofText "/".toList := by decide

end FilePath

end GoModules
