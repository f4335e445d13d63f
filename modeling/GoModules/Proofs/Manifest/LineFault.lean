import GoModules.Manifest.Directive
import GoModules.Proofs.Manifest.Structure
import GoModules.Proofs.Outcome

/-!
# Faults of one line

Which faults a line can have once it has been cut into tokens. Those of the bytes and of the tokens
were found before, and that a block is left open shows only at the end.
-/

namespace GoModules

open Manifest (Fault)
open Outcome

/-- A fault that a line has by itself, or together with the lines above it. -/
def Manifest.Fault.OfLine : Fault → Prop
  | .invalidUtf8 | .lexical _ | .unterminatedBlock _ => False
  | _ => True

theorem Word.failsIn_ofToken (token : Token) : FailsIn Fault.OfLine (ofToken token) := by
  unfold ofToken
  split
  · exact failsIn_ok _
  · exact failsIn_ok _
  · split
    · exact failsIn_ok _
    · exact failsIn_error.mpr trivial
  · exact failsIn_error.mpr trivial

theorem Word.failsIn_ofTokens (tokens : List Token) : FailsIn Fault.OfLine (ofTokens tokens) :=
  failsIn_mapM fun token _ => failsIn_ofToken token

namespace Directive

theorem failsIn_moduleVersion (path version : Text) :
    FailsIn Fault.OfLine (moduleVersion path version) := by
  unfold moduleVersion
  split
  · exact failsIn_error.mpr trivial
  · exact failsIn_error.mpr trivial
  · rw [failsIn_bind, failsIn_mapError]
    exact ⟨failsIn_of_forall (fun _ => trivial) _, fun _ _ => failsIn_ok _⟩

theorem failsIn_mapM_moduleVersion (path : Text) (version : Option Text) :
    FailsIn Fault.OfLine (version.mapM (moduleVersion path)) := by
  cases version with
  | none => exact failsIn_ok none
  | some version =>
      rw [Option.mapM_some, map_eq_pure_bind, failsIn_bind]
      exact ⟨failsIn_moduleVersion path version, fun _ _ => failsIn_ok _⟩

theorem failsIn_substitute (path : Text) (version : Option Text) :
    FailsIn Fault.OfLine (substitute path version) := by
  unfold substitute
  split
  · exact failsIn_ok _
  · exact failsIn_error.mpr trivial
  · exact failsIn_error.mpr trivial
  · rw [failsIn_bind]
    exact ⟨failsIn_moduleVersion path _, fun _ _ => failsIn_ok _⟩

theorem failsIn_replacement (args : List Token) : FailsIn Fault.OfLine (replacement args) := by
  unfold replacement
  simp only [throw_eq_error, error_bind, failsIn_ite, failsIn_error, failsIn_bind]
  refine ⟨fun _ => trivial, fun _ => ⟨Word.failsIn_ofTokens _, fun old _ =>
    ⟨Word.failsIn_ofTokens _, fun new _ => ?_⟩⟩⟩
  split
  · simp only [failsIn_ite, failsIn_error, failsIn_bind, pure_eq_ok, failsIn_ok, implies_true,
      and_true]
    exact ⟨fun _ => trivial, fun _ => ⟨failsIn_mapM_moduleVersion _ _, fun _ _ =>
      failsIn_substitute _ _⟩⟩
  · exact failsIn_error.mpr trivial

theorem failsIn_bound (token : Token) : FailsIn Fault.OfLine (bound token) := by
  unfold bound
  rw [failsIn_bind]
  refine ⟨Word.failsIn_ofToken token, fun word _ => ?_⟩
  split
  · exact failsIn_ok _
  · exact failsIn_error.mpr trivial

theorem failsIn_bounds (args : List Token) : FailsIn Fault.OfLine (bounds args) := by
  have husage : Fault.OfLine (.usage .retract) := trivial
  unfold bounds
  split
  · simp [failsIn_bound, husage]
  · simp [failsIn_bound, husage]
  · exact failsIn_error.mpr husage

theorem failsIn_word (verb : Verb) (words : List Text) :
    FailsIn Fault.OfLine (word verb words) := by
  unfold word
  split
  · exact failsIn_ok _
  · exact failsIn_error.mpr trivial

theorem failsIn_versioned (verb : Verb) (words : List Text) :
    FailsIn Fault.OfLine (versioned verb words) := by
  unfold versioned
  split
  · rw [failsIn_bind]
    exact ⟨failsIn_moduleVersion _ _, fun _ _ => failsIn_ok _⟩
  · exact failsIn_error.mpr trivial

theorem failsIn_addTo (d : Directive) (m : Manifest) : FailsIn Fault.OfLine (d.addTo m) := by
  unfold addTo
  split
  all_goals
    simp only [throw_eq_error, error_bind, pure_eq_ok, failsIn_bind, failsIn_ite, failsIn_error,
      failsIn_ok, Word.failsIn_ofTokens, failsIn_word, failsIn_versioned, failsIn_replacement,
      failsIn_bounds, Fault.OfLine, implies_true, and_true, true_and]
  -- Only a setting is looked into after its word has been read.
  intro words _ text _
  split
  · exact failsIn_ok _
  · exact failsIn_error.mpr trivial

end Directive

theorem Line.failsIn_verb (l : Line) : FailsIn Fault.OfLine l.verb := by
  unfold verb
  split
  · exact failsIn_error.mpr trivial
  · split
    · exact failsIn_ok _
    · exact failsIn_error.mpr trivial

theorem Item.failsIn_step (block : Option OpenBlock) (l : Line) :
    FailsIn (fun e => e.fault.OfLine) (step block l) := by
  unfold step
  split
  · simp
  · split
    · next fault hverb => exact failsIn_error.mpr (l.failsIn_verb fault hverb)
    · split
      · exact failsIn_ok _
      · rw [failsIn_ite]
        exact ⟨fun _ => failsIn_error.mpr trivial, fun _ => failsIn_ok _⟩

end GoModules
