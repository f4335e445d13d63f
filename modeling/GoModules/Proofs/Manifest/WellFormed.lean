import GoModules.Proofs.Manifest.Run
import GoModules.Proofs.ModulePath.Agreement
import GoModules.Proofs.Version.Canonical
import GoModules.Proofs.Version.Release

/-!
# Well-formed manifests

What holds of every manifest that is read, whatever the text. Each directive declares an entry that
is well formed by itself, and combining compatible manifests keeps the requirements distinct.
-/

namespace GoModules

open ModulePath (splitMajor? isDirectory)
open Outcome

/-- The written form of a version is canonical, and it stands for that version. -/
structure Version.Canonical (v : Version) : Prop where
  canonical : Version.canonical? v.text = some v.text
  read : Version.read? v.text = some v

/-- A version that may stand beside a path: it is canonical, and the path splits into a front and a
major-version suffix that admits it. -/
structure Version.Fits (v : Version) (path : Text) : Prop where
  canonical : v.Canonical
  agrees : ∃ front suffix, splitMajor? path = some (front, suffix) ∧ v.Agrees suffix

/-- A replacement of a path that splits. Versions fit to their paths, and what stands in is without
version just when it is a directory. -/
structure Replacement.WellFormed (r : Replacement) : Prop where
  splits : (splitMajor? r.path).isSome
  version : ∀ v ∈ r.version, v.Fits r.path
  substitute : ∀ v ∈ r.substitute.version?, v.Fits r.substitute.path
  directory : r.substitute.version? = none ↔ isDirectory r.substitute.path

/-- A setting with a key that is not empty and without the characters that settings may not have. -/
structure Setting.WellFormed (s : Setting) : Prop where
  key_ne_nil : s.key ≠ []
  key_plain : '=' ∉ s.key
  plain : ∀ c ∈ s.key ++ s.value, c ∉ ['"', '\'', '\x60', ',']

/-- A manifest without repeated requirements whose entries are all well formed. -/
structure Manifest.WellFormed (m : Manifest) : Prop where
  require_nodup : (m.require.map (·.path)).Nodup
  require : ∀ r ∈ m.require, r.version.Fits r.path
  exclude : ∀ x ∈ m.exclude, x.version.Fits x.path
  replace : ∀ r ∈ m.replace, r.WellFormed
  retract : ∀ r ∈ m.retract, r.low.Canonical ∧ r.high.Canonical
  go : ∀ s ∈ m.go, Release.LanguagePattern s
  toolchain : ∀ s ∈ m.toolchain, Release.ToolchainPattern s
  godebug : ∀ s ∈ m.godebug, s.WellFormed

namespace Version

theorem canonical_of_read? {s : Text} {v : Version} (h : read? s = some v) : v.Canonical :=
  ⟨canonical?_text (valid_of_read? h), read?_text (valid_of_read? h)⟩

end Version

namespace Directive

theorem fits_of_moduleVersion {path text : Text} {v : Version}
    (h : moduleVersion path text = .ok v) : v.Fits path := by
  unfold moduleVersion at h
  split at h
  · cases h
  · cases h
  · next w front suffix hread hsplit =>
      simp only [bind_eq_ok_iff, mapError_eq_ok_iff, pure_eq_ok, Except.ok.injEq] at h
      obtain ⟨_, hmajor, rfl⟩ := h
      exact ⟨Version.canonical_of_read? hread, front, suffix, hsplit,
        Version.agrees_of_checkMajor hsplit hmajor⟩

theorem fits_of_mapM_moduleVersion {path : Text} {text : Option Text} {version : Option Version}
    (h : text.mapM (moduleVersion path) = .ok version) : ∀ v ∈ version, v.Fits path := by
  cases text with
  | none =>
      cases h
      simp
  | some text =>
      rw [Option.mapM_some, map_eq_ok_iff] at h
      obtain ⟨v, hv, rfl⟩ := h
      intro w hw
      obtain rfl : v = w := by simpa using hw
      exact fits_of_moduleVersion hv

theorem substitute_spec {path : Text} {version : Option Text} {s : Substitute}
    (h : substitute path version = .ok s) :
    (∀ v ∈ s.version?, v.Fits s.path) ∧ (s.version? = none ↔ isDirectory s.path) := by
  unfold substitute at h
  split at h
  · next hdirectory =>
      cases h
      exact ⟨by simp [Substitute.version?], by simpa [Substitute.version?, Substitute.path]⟩
  · cases h
  · cases h
  · next text hmodule =>
      simp only [bind_eq_ok_iff, pure_eq_ok, Except.ok.injEq] at h
      obtain ⟨v, hv, rfl⟩ := h
      refine ⟨?_, by simpa [Substitute.version?, Substitute.path]⟩
      intro w hw
      obtain rfl : v = w := by simpa [Substitute.version?] using hw
      exact fits_of_moduleVersion hv

theorem wellFormed_of_replacement {args : List Token} {r : Replacement}
    (h : replacement args = .ok r) : r.WellFormed := by
  unfold replacement at h
  simp only [throw_eq_error, error_bind, ite_error_eq_ok_iff, bind_eq_ok_iff] at h
  obtain ⟨-, old, -, new, -, h⟩ := h
  split at h
  · next path version newPath newVersion _ _ =>
      simp only [bind_eq_ok_iff, ite_error_eq_ok_iff, pure_eq_ok, Except.ok.injEq] at h
      obtain ⟨hsplit, v, hv, s, hs, rfl⟩ := h
      obtain ⟨hversion, hdirectory⟩ := substitute_spec hs
      have hsome : (splitMajor? path).isSome := by
        simpa [Option.isSome_iff_ne_none] using hsplit
      exact ⟨hsome, fits_of_mapM_moduleVersion hv, hversion, hdirectory⟩
  · cases h

theorem canonical_of_bound {token : Token} {v : Version} (h : bound token = .ok v) :
    v.Canonical := by
  unfold bound at h
  rw [bind_eq_ok_iff] at h
  obtain ⟨word, -, h⟩ := h
  split at h
  · next w hread =>
      cases h
      exact Version.canonical_of_read? hread
  · cases h

theorem canonical_of_bounds {args : List Token} {low high : Version}
    (h : bounds args = .ok (low, high)) : low.Canonical ∧ high.Canonical := by
  unfold bounds at h
  split at h
  · split at h
    · simp only [bind_eq_ok_iff, pure_eq_ok, Except.ok.injEq, Prod.mk.injEq] at h
      obtain ⟨v, hv, rfl, rfl⟩ := h
      exact ⟨canonical_of_bound hv, canonical_of_bound hv⟩
    · cases h
  · split at h
    · simp only [bind_eq_ok_iff, pure_eq_ok, Except.ok.injEq, Prod.mk.injEq] at h
      obtain ⟨v, hv, w, hw, rfl, rfl⟩ := h
      exact ⟨canonical_of_bound hv, canonical_of_bound hw⟩
    · cases h
  · cases h

theorem wellFormed_of_setting? {text : Text} {s : Setting} (h : setting? text = some s) :
    s.WellFormed := by
  unfold setting? at h
  split at h
  · next key value hcut =>
      split at h
      · cases h
      · next hok =>
          cases h
          rw [not_or] at hok
          have htext : text = key ++ '=' :: value := by
            rw [← Text.cutAt_append (· == '=') text, hcut]
          refine ⟨hok.1, ?_, ?_⟩
          · intro heq
            have := Text.eq_false_of_mem_cutAt (p := (· == '=')) (s := text) (c := '=')
              (by rw [hcut]; exact heq)
            cases this
          · intro c hc hmem
            apply hok.2
            rw [htext, List.any_eq_true]
            refine ⟨c, ?_, ?_⟩
            · simp only [List.mem_append, List.mem_cons] at hc ⊢
              tauto
            · simp only [List.contains_iff_mem, List.mem_cons] at hmem ⊢
              tauto
  · cases h

end Directive

namespace Manifest

theorem wellFormed_empty : WellFormed {} where
  require_nodup := List.nodup_nil
  require := by simp
  exclude := by simp
  replace := by simp
  retract := by simp
  go := by simp
  toolchain := by simp
  godebug := by simp

/-- One case for each directive: what it declares is well formed by itself. -/
theorem wellFormed_of_declares {d : Directive} {e : Manifest} (hd : d.Declares e) :
    e.WellFormed := by
  cases hd with
  | module | tool | ignore => exact { wellFormed_empty with }
  | go hverb hwords hversion =>
      exact { wellFormed_empty with go := by simpa using Release.isLanguage_iff.mp hversion }
  | toolchain hverb hwords hname =>
      exact { wellFormed_empty with toolchain := by simpa using Release.isToolchain_iff.mp hname }
  | require hverb hwords hversion =>
      exact { wellFormed_empty with
        require_nodup := by simp
        require := by simpa using Directive.fits_of_moduleVersion hversion }
  | exclude hverb hwords hversion =>
      exact { wellFormed_empty with
        exclude := by simpa using Directive.fits_of_moduleVersion hversion }
  | replace hverb hr =>
      exact { wellFormed_empty with
        replace := by simpa using Directive.wellFormed_of_replacement hr }
  | retract hverb hbounds =>
      exact { wellFormed_empty with
        retract := by simpa using Directive.canonical_of_bounds hbounds }
  | godebug hverb hwords hs =>
      exact { wellFormed_empty with
        godebug := by simpa using Directive.wellFormed_of_setting? hs }

/-- Compatibility is needed for the requirements only, which must stay distinct. -/
theorem WellFormed.combine {a b : Manifest} (ha : a.WellFormed) (hb : b.WellFormed)
    (hc : a.Compatible b) : (a.combine b).WellFormed where
  require_nodup := by
    rw [Manifest.combine, List.map_append, List.nodup_append]
    refine ⟨ha.require_nodup, hb.require_nodup, ?_⟩
    intro p hp q hq
    obtain ⟨r, hr, rfl⟩ := List.mem_map.mp hp
    obtain ⟨s, hs, rfl⟩ := List.mem_map.mp hq
    exact hc.require r hr s hs
  require := List.forall_mem_append.mpr ⟨ha.require, hb.require⟩
  exclude := List.forall_mem_append.mpr ⟨ha.exclude, hb.exclude⟩
  replace := List.forall_mem_append.mpr ⟨ha.replace, hb.replace⟩
  retract := List.forall_mem_append.mpr ⟨ha.retract, hb.retract⟩
  go := by
    intro s hs
    rcases Option.or_eq_some_iff.mp hs with hs | ⟨-, hs⟩
    · exact ha.go s hs
    · exact hb.go s hs
  toolchain := by
    intro s hs
    rcases Option.or_eq_some_iff.mp hs with hs | ⟨-, hs⟩
    · exact ha.toolchain s hs
    · exact hb.toolchain s hs
  godebug := List.forall_mem_append.mpr ⟨ha.godebug, hb.godebug⟩

theorem wellFormed_of_run {items : List Item} {m : Manifest}
    (h : items.foldlM addItem {} = .ok m) : m.WellFormed :=
  run_induction (fun hm hd hc => hm.combine (wellFormed_of_declares hd) hc) wellFormed_empty h

/-- Every manifest that is read is well formed. -/
theorem wellFormed_of_read {bytes : Bytes} {m : Manifest} (h : read bytes = .ok m) :
    m.WellFormed := by
  obtain ⟨s, -, hrun⟩ := exists_run_of_read h
  exact wellFormed_of_run hrun

/-- A manifest with a block and a single line, with words of every form, with a version made up for
a commit, and with a replacement by a directory. -/
theorem wellFormed_of_read_block :
    ∃ m : Manifest,
      read (Utf8.encode
        ("require (\n" ++
          "gopkg.in/y.v1-unstable v0.0.0-1-a // indirect\n" ++
          "\"x.org/b\" `v7.0.0+incompatible`\n" ++
          ")\n" ++
          "replace x.org/b => ../b").toList) = .ok m ∧
      m.require.length = 2 ∧ m.replace.length = 1 ∧ m.WellFormed := by
  refine ⟨{
    require := [
      ⟨"gopkg.in/y.v1-unstable".toList, ⟨0, 0, 0, "1-a".toList, false⟩, true⟩,
      ⟨"x.org/b".toList, ⟨7, 0, 0, [], true⟩, false⟩]
    replace := [⟨"x.org/b".toList, none, .directory "../b".toList⟩] },
    ?read, rfl, rfl, wellFormed_of_read ?read⟩
  decide +kernel

end Manifest

end GoModules
