import GoModules.Text.Basic

/-!
# Verbs

The words that directives start with.
-/

namespace GoModules

inductive Verb
  | module
  | go
  | toolchain
  | require
  | exclude
  | replace
  | retract
  | godebug
  | tool
  | ignore
deriving DecidableEq, Repr

namespace Verb

def all : List Verb :=
  [.module, .go, .toolchain, .require, .exclude, .replace, .retract, .godebug, .tool, .ignore]

/-- How a verb is written. -/
def text : Verb → Text
  | .module => "module".toList
  | .go => "go".toList
  | .toolchain => "toolchain".toList
  | .require => "require".toList
  | .exclude => "exclude".toList
  | .replace => "replace".toList
  | .retract => "retract".toList
  | .godebug => "godebug".toList
  | .tool => "tool".toList
  | .ignore => "ignore".toList

def ofText? (s : Text) : Option Verb :=
  all.find? (·.text = s)

theorem ofText?_text (verb : Verb) : ofText? verb.text = some verb := by
  cases verb <;> decide

/-- Whether directives of a verb may stand in a block. The others occur at most once. -/
def isBlock : Verb → Bool
  | .module | .go | .toolchain => false
  | _ => true

/-- How the arguments of a verb are written. -/
def usage : Verb → Text
  | .module => "module module/path".toList
  | .go => "go 1.23".toList
  | .toolchain => "toolchain go1.23.0".toList
  | .require | .exclude => "require module/path v1.2.3".toList
  | .replace =>
      ("replace module/path [v1.2.3] => other/module v1.4\n" ++
        "\t or replace module/path [v1.2.3] => ../local/directory").toList
  | .retract => "retract v1.0.0 | retract [v1.0.0, v1.9.9]".toList
  | .godebug => "godebug key=value".toList
  | .tool | .ignore => "tool|ignore path".toList

end Verb

end GoModules
