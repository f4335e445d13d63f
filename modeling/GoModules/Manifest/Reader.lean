import GoModules.Manifest.Directive
import GoModules.Text.Utf8

/-!
# Reading manifests

A manifest is read directive by directive; the first fault in the order of the file ends the
reading.
-/

namespace GoModules.Manifest

/-- Adds what an item declares to a manifest. -/
def addItem (m : Manifest) : Item → Except Error Manifest
  | .directive d => (d.addTo m).mapError (⟨d.line.number, ·⟩)
  | .broken e => .error e

def ofItems (items : List Item) : Except Error Manifest :=
  items.foldlM addItem {}

def ofTokens (tokens : List Token) : Except Error Manifest :=
  ofItems (Item.ofLines none (Line.ofTokens tokens))

def ofText (s : Text) : Except Error Manifest := do
  ofTokens (← (Token.scan 1 s).mapError fun e => ⟨e.line, .lexical e.fault⟩)

def read (bytes : Bytes) : Except Error Manifest :=
  match Utf8.decode? bytes with
  | some s => ofText s
  | none => .error ⟨1, .invalidUtf8⟩

end GoModules.Manifest
