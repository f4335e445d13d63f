import GoModules.Manifest.Directive
import GoModules.Proofs.Manifest.Combine
import GoModules.Proofs.Outcome

/-!
# What a directive declares

A directive declares the same single entry whatever manifest it is added to. Adding it combines the
manifest with that entry, and fails for a manifest that is in conflict with the entry. So a run over
directives is known from what each of them declares alone.
-/

namespace GoModules

open Manifest (Fault)
open Outcome

namespace Manifest

/-- Whether a manifest already holds the declaration of a verb that occurs at most once. -/
def holds (m : Manifest) : Verb → Bool
  | .module => m.module.isSome
  | .go => m.go.isSome
  | .toolchain => m.toolchain.isSome
  | _ => false

theorem holds_combine (a m : Manifest) (verb : Verb) :
    (a.combine m).holds verb = (a.holds verb || m.holds verb) := by
  cases verb with
  | module | go | toolchain => simp [holds, combine]
  | _ => rfl

theorem compatible_module_iff {m : Manifest} {x : ModuleDecl} :
    m.Compatible { module := some x } ↔ m.module = none := by
  simp [compatible_iff]

theorem compatible_go_iff {m : Manifest} {x : Text} :
    m.Compatible { go := some x } ↔ m.go = none := by
  simp [compatible_iff]

theorem compatible_toolchain_iff {m : Manifest} {x : Text} :
    m.Compatible { toolchain := some x } ↔ m.toolchain = none := by
  simp [compatible_iff]

theorem compatible_require_iff {m : Manifest} {r : Requirement} :
    m.Compatible { require := [r] } ↔ ∀ s ∈ m.require, s.path ≠ r.path := by
  simp [compatible_iff]

/-- Manifests without what occurs at most once are compatible with every manifest. -/
theorem compatible_of_lists {m : Manifest} {exclude : List Exclusion} {replace : List Replacement}
    {retract : List Retraction} {godebug : List Setting} {tool ignore : List Text} :
    m.Compatible { exclude, replace, retract, godebug, tool, ignore } := by
  simp [compatible_iff]

end Manifest

namespace Directive

/-- The manifest with the one entry that a directive stands for. -/
inductive Declares (d : Directive) : Manifest → Prop
  | module {path : Text} (hverb : d.verb = .module)
      (hwords : Word.ofTokens d.args = .ok [path]) :
      d.Declares { module := some ⟨path, Comment.deprecation d.line.comments⟩ }
  | go {version : Text} (hverb : d.verb = .go) (hwords : Word.ofTokens d.args = .ok [version])
      (hversion : Release.isLanguage version) : d.Declares { go := some version }
  | toolchain {name : Text} (hverb : d.verb = .toolchain)
      (hwords : Word.ofTokens d.args = .ok [name]) (hname : Release.isToolchain name) :
      d.Declares { toolchain := some name }
  | require {path text : Text} {version : Version} (hverb : d.verb = .require)
      (hwords : Word.ofTokens d.args = .ok [path, text])
      (hversion : moduleVersion path text = .ok version) :
      d.Declares { require := [⟨path, version, d.line.suffix.any Comment.isIndirect⟩] }
  | exclude {path text : Text} {version : Version} (hverb : d.verb = .exclude)
      (hwords : Word.ofTokens d.args = .ok [path, text])
      (hversion : moduleVersion path text = .ok version) :
      d.Declares { exclude := [⟨path, version⟩] }
  | replace {r : Replacement} (hverb : d.verb = .replace) (hr : replacement d.args = .ok r) :
      d.Declares { replace := [r] }
  | retract {low high : Version} (hverb : d.verb = .retract)
      (hbounds : bounds d.args = .ok (low, high)) :
      d.Declares { retract := [⟨low, high, Comment.rationale d.line.comments⟩] }
  | godebug {text : Text} {s : Setting} (hverb : d.verb = .godebug)
      (hwords : Word.ofTokens d.args = .ok [text]) (hs : setting? text = some s) :
      d.Declares { godebug := [s] }
  | tool {path : Text} (hverb : d.verb = .tool) (hwords : Word.ofTokens d.args = .ok [path]) :
      d.Declares { tool := [path] }
  | ignore {path : Text} (hverb : d.verb = .ignore) (hwords : Word.ofTokens d.args = .ok [path]) :
      d.Declares { ignore := [path] }

/-- A directive whose entry a manifest has no room for, and the fault that is reported. -/
inductive Clashes (d : Directive) (m : Manifest) : Fault → Prop
  | repeated (h : m.holds d.verb) : d.Clashes m (.repeated d.verb)
  | duplicate {path version : Text} {r : Requirement} (hverb : d.verb = .require)
      (hwords : Word.ofTokens d.args = .ok [path, version]) (hr : r ∈ m.require)
      (hpath : r.path = path) : d.Clashes m (.duplicateRequire path)

theorem word_eq_ok_iff {verb : Verb} {words : List Text} {w : Text} :
    word verb words = .ok w ↔ words = [w] := by
  unfold word
  split
  · simp
  · next hne =>
      constructor
      · intro h
        cases h
      · intro h
        exact absurd h (hne w)

theorem versioned_eq_ok_iff {verb : Verb} {words : List Text} {path : Text} {version : Version} :
    versioned verb words = .ok (path, version) ↔
      ∃ text, words = [path, text] ∧ moduleVersion path text = .ok version := by
  unfold versioned
  split
  · next p text =>
      simp only [bind_eq_ok_iff, pure_eq_ok, Except.ok.injEq, Prod.mk.injEq, List.cons.injEq,
        and_true]
      constructor
      · rintro ⟨v, hv, rfl, rfl⟩
        exact ⟨text, ⟨rfl, rfl⟩, hv⟩
      · rintro ⟨_, ⟨rfl, rfl⟩, hv⟩
        exact ⟨version, hv, rfl, rfl⟩
  · next hne =>
      constructor
      · intro h
        cases h
      · rintro ⟨text, h, -⟩
        exact absurd h (hne path text)

variable {d : Directive} {m m' e : Manifest} {fault : Fault}

theorem addTo_of_declares (hd : d.Declares e) (hc : m.Compatible e) :
    d.addTo m = .ok (m.combine e) := by
  cases hd with
  | module hverb hwords =>
      have hnone := Manifest.compatible_module_iff.mp hc
      simp [addTo, hverb, hwords, hnone, word, Manifest.combine]
  | go hverb hwords hversion =>
      have hnone := Manifest.compatible_go_iff.mp hc
      simp [addTo, hverb, hwords, hnone, word, hversion, Manifest.combine]
  | toolchain hverb hwords hname =>
      have hnone := Manifest.compatible_toolchain_iff.mp hc
      simp [addTo, hverb, hwords, hnone, word, hname, Manifest.combine]
  | require hverb hwords hversion =>
      have hne := Manifest.compatible_require_iff.mp hc
      simpa [addTo, hverb, hwords, versioned, hversion, Manifest.combine] using hne
  | exclude hverb hwords hversion =>
      simp [addTo, hverb, hwords, versioned, hversion, Manifest.combine]
  | replace hverb hr => simp [addTo, hverb, hr, Manifest.combine]
  | retract hverb hbounds => simp [addTo, hverb, hbounds, Manifest.combine]
  | godebug hverb hwords hs => simp [addTo, hverb, hwords, word, hs, Manifest.combine]
  | tool hverb hwords => simp [addTo, hverb, hwords, word, Manifest.combine]
  | ignore hverb hwords => simp [addTo, hverb, hwords, word, Manifest.combine]

/-- A directive that is added declares something, and the manifest had room for it. -/
theorem declares_of_addTo (h : d.addTo m = .ok m') :
    ∃ e, d.Declares e ∧ m.Compatible e ∧ m' = m.combine e := by
  unfold addTo at h
  split at h
  case h_1 hverb =>
    simp only [bind_eq_ok_iff, throw_eq_error, error_bind, ite_error_eq_ok_iff, pure_eq_ok,
      word_eq_ok_iff, Except.ok.injEq] at h
    obtain ⟨words, hwords, hnone, path, rfl, rfl⟩ := h
    have hnone : m.module = none := by simpa using hnone
    refine ⟨_, .module hverb hwords, Manifest.compatible_module_iff.mpr hnone, ?_⟩
    simp [Manifest.combine, hnone]
  case h_2 hverb =>
    simp only [bind_eq_ok_iff, throw_eq_error, error_bind, ite_error_eq_ok_iff, pure_eq_ok,
      word_eq_ok_iff, Except.ok.injEq] at h
    obtain ⟨words, hwords, hnone, version, rfl, hversion, rfl⟩ := h
    have hnone : m.go = none := by simpa using hnone
    refine ⟨_, .go hverb hwords (by simpa using hversion),
      Manifest.compatible_go_iff.mpr hnone, ?_⟩
    simp [Manifest.combine, hnone]
  case h_3 hverb =>
    simp only [bind_eq_ok_iff, throw_eq_error, error_bind, ite_error_eq_ok_iff, pure_eq_ok,
      word_eq_ok_iff, Except.ok.injEq] at h
    obtain ⟨words, hwords, hnone, name, rfl, hname, rfl⟩ := h
    have hnone : m.toolchain = none := by simpa using hnone
    refine ⟨_, .toolchain hverb hwords (by simpa using hname),
      Manifest.compatible_toolchain_iff.mpr hnone, ?_⟩
    simp [Manifest.combine, hnone]
  case h_4 hverb =>
    simp only [bind_eq_ok_iff, throw_eq_error, error_bind, ite_error_eq_ok_iff, pure_eq_ok,
      Except.ok.injEq] at h
    obtain ⟨words, hwords, ⟨path, version⟩, hversioned, hnew, rfl⟩ := h
    obtain ⟨text, rfl, hversion⟩ := versioned_eq_ok_iff.mp hversioned
    refine ⟨_, .require hverb hwords hversion, Manifest.compatible_require_iff.mpr ?_, ?_⟩
    · simpa using hnew
    · simp [Manifest.combine]
  case h_5 hverb =>
    simp only [bind_eq_ok_iff, pure_eq_ok, Except.ok.injEq] at h
    obtain ⟨words, hwords, ⟨path, version⟩, hversioned, rfl⟩ := h
    obtain ⟨text, rfl, hversion⟩ := versioned_eq_ok_iff.mp hversioned
    exact ⟨_, .exclude hverb hwords hversion, Manifest.compatible_of_lists,
      by simp [Manifest.combine]⟩
  case h_6 hverb =>
    simp only [bind_eq_ok_iff, pure_eq_ok, Except.ok.injEq] at h
    obtain ⟨r, hr, rfl⟩ := h
    exact ⟨_, .replace hverb hr, Manifest.compatible_of_lists, by simp [Manifest.combine]⟩
  case h_7 hverb =>
    simp only [bind_eq_ok_iff, pure_eq_ok, Except.ok.injEq] at h
    obtain ⟨⟨low, high⟩, hbounds, rfl⟩ := h
    exact ⟨_, .retract hverb hbounds, Manifest.compatible_of_lists, by simp [Manifest.combine]⟩
  case h_8 hverb =>
    simp only [bind_eq_ok_iff, word_eq_ok_iff] at h
    obtain ⟨words, hwords, text, rfl, h⟩ := h
    split at h
    · next s hs =>
        cases h
        exact ⟨_, .godebug hverb hwords hs, Manifest.compatible_of_lists,
          by simp [Manifest.combine]⟩
    · cases h
  case h_9 hverb =>
    simp only [bind_eq_ok_iff, pure_eq_ok, word_eq_ok_iff, Except.ok.injEq] at h
    obtain ⟨words, hwords, path, rfl, rfl⟩ := h
    exact ⟨_, .tool hverb hwords, Manifest.compatible_of_lists, by simp [Manifest.combine]⟩
  case h_10 hverb =>
    simp only [bind_eq_ok_iff, pure_eq_ok, word_eq_ok_iff, Except.ok.injEq] at h
    obtain ⟨words, hwords, path, rfl, rfl⟩ := h
    exact ⟨_, .ignore hverb hwords, Manifest.compatible_of_lists, by simp [Manifest.combine]⟩

theorem Clashes.combine (h : d.Clashes m fault) (m' : Manifest) :
    d.Clashes (m.combine m') fault := by
  cases h with
  | repeated h =>
      refine .repeated ?_
      rw [Manifest.holds_combine, h, Bool.true_or]
  | duplicate hverb hwords hr hpath =>
      exact .duplicate hverb hwords (List.mem_append_left m'.require hr) hpath

/-- The conflict is what is reported: no other fault of a directive that declares something. -/
theorem addTo_of_clashes (hd : d.Declares e) (hclash : d.Clashes m fault) :
    d.addTo m = .error fault := by
  cases hclash with
  | repeated h =>
      cases hd with
      | module hverb hwords =>
          have hheld : m.module.isSome := by simpa [hverb, Manifest.holds] using h
          simp [addTo, hverb, hwords, hheld]
      | go hverb hwords hversion =>
          have hheld : m.go.isSome := by simpa [hverb, Manifest.holds] using h
          simp [addTo, hverb, hwords, hheld]
      | toolchain hverb hwords hname =>
          have hheld : m.toolchain.isSome := by simpa [hverb, Manifest.holds] using h
          simp [addTo, hverb, hwords, hheld]
      | _ hverb => simp [hverb, Manifest.holds] at h
  | duplicate hverb hwords hr hpath =>
      cases hd with
      | require hverb' hwords' hversion =>
          obtain ⟨rfl, rfl⟩ : _ ∧ _ := by simpa [hwords] using hwords'
          have hlisted : ∃ r ∈ m.require, r.path = _ := ⟨_, hr, hpath⟩
          simp [addTo, hverb, hwords, versioned, hversion, hlisted]
      | _ hverb' => simp [hverb] at hverb'

/-- A manifest has room for an entry just when the directive clashes in no way. -/
theorem compatible_iff_forall_not_clashes (hd : d.Declares e) :
    m.Compatible e ↔ ∀ fault, ¬ d.Clashes m fault := by
  constructor
  · intro hc fault hclash
    have herror := addTo_of_clashes hd hclash
    rw [addTo_of_declares hd hc] at herror
    cases herror
  · intro h
    cases hd with
    | module hverb hwords =>
        refine Manifest.compatible_module_iff.mpr ?_
        simpa [hverb, Manifest.holds] using fun hheld => h _ (.repeated hheld)
    | go hverb hwords hversion =>
        refine Manifest.compatible_go_iff.mpr ?_
        simpa [hverb, Manifest.holds] using fun hheld => h _ (.repeated hheld)
    | toolchain hverb hwords hname =>
        refine Manifest.compatible_toolchain_iff.mpr ?_
        simpa [hverb, Manifest.holds] using fun hheld => h _ (.repeated hheld)
    | require hverb hwords hversion =>
        refine Manifest.compatible_require_iff.mpr fun r hr hpath => ?_
        exact h _ (.duplicate hverb hwords hr hpath)
    | _ => exact Manifest.compatible_of_lists

end Directive

end GoModules
