import GoModules.Proofs.Manifest.Entry
import GoModules.Proofs.Text.Utf8

/-!
# Writing manifests

A manifest is written as one statement for each entry, verb by verb in the order of its fields. What
is written is read back as the same manifest: no two entries are in conflict, and together they are
all of it.
-/

namespace GoModules.Manifest

/-- The entries of a verb, in order. -/
def entriesOf (m : Manifest) : Verb → List Entry
  | .module => m.module.toList.map .module
  | .go => m.go.toList.map .go
  | .toolchain => m.toolchain.toList.map .toolchain
  | .require => m.require.map .require
  | .exclude => m.exclude.map .exclude
  | .replace => m.replace.map .replace
  | .retract => m.retract.map .retract
  | .godebug => m.godebug.map .godebug
  | .tool => m.tool.map .tool
  | .ignore => m.ignore.map .ignore

def entries (m : Manifest) : List Entry :=
  Verb.all.flatMap m.entriesOf

/-- How a manifest is written: one statement for each entry. -/
def written (m : Manifest) : Text :=
  (m.entries.map Entry.statement).flatMap Statement.text

variable {m : Manifest} {verb : Verb} {e : Entry}

/-- What a manifest holds under one verb. -/
def part (m : Manifest) : Verb → Manifest
  | .module => { module := m.module }
  | .go => { go := m.go }
  | .toolchain => { toolchain := m.toolchain }
  | .require => { require := m.require }
  | .exclude => { exclude := m.exclude }
  | .replace => { replace := m.replace }
  | .retract => { retract := m.retract }
  | .godebug => { godebug := m.godebug }
  | .tool => { tool := m.tool }
  | .ignore => { ignore := m.ignore }

theorem combineAll_entriesOf (m : Manifest) (verb : Verb) :
    combineAll ((m.entriesOf verb).map Entry.manifest) = m.part verb := by
  cases verb with
  | module =>
      rw [entriesOf, part]
      cases m.module with
      | none => rfl
      | some x => rfl
  | go =>
      rw [entriesOf, part]
      cases m.go with
      | none => rfl
      | some version => rfl
  | toolchain =>
      rw [entriesOf, part]
      cases m.toolchain with
      | none => rfl
      | some name => rfl
  | require =>
      rw [entriesOf, List.map_map]
      exact combineAll_map (g := fun require => { require }) rfl (fun _ _ => rfl) m.require
  | exclude =>
      rw [entriesOf, List.map_map]
      exact combineAll_map (g := fun exclude => { exclude }) rfl (fun _ _ => rfl) m.exclude
  | replace =>
      rw [entriesOf, List.map_map]
      exact combineAll_map (g := fun replace => { replace }) rfl (fun _ _ => rfl) m.replace
  | retract =>
      rw [entriesOf, List.map_map]
      exact combineAll_map (g := fun retract => { retract }) rfl (fun _ _ => rfl) m.retract
  | godebug =>
      rw [entriesOf, List.map_map]
      exact combineAll_map (g := fun godebug => { godebug }) rfl (fun _ _ => rfl) m.godebug
  | tool =>
      rw [entriesOf, List.map_map]
      exact combineAll_map (g := fun tool => { tool }) rfl (fun _ _ => rfl) m.tool
  | ignore =>
      rw [entriesOf, List.map_map]
      exact combineAll_map (g := fun ignore => { ignore }) rfl (fun _ _ => rfl) m.ignore

theorem combineAll_entries (m : Manifest) : combineAll (m.entries.map Entry.manifest) = m := by
  have hparts : combineAll (m.entries.map Entry.manifest) = combineAll (Verb.all.map m.part) := by
    rw [entries, List.map_flatMap, combineAll_flatMap]
    exact congrArg combineAll (List.map_congr_left fun verb _ => combineAll_entriesOf m verb)
  rw [hparts]
  simp [Verb.all, combineAll, part, combine]

theorem verb_of_mem_entriesOf (h : e ∈ m.entriesOf verb) : e.statement.verb = verb := by
  cases verb with
  | _ =>
      obtain ⟨_, -, rfl⟩ := List.mem_map.mp h
      rfl

theorem verb_of_holds (h : e.manifest.holds verb) : e.statement.verb = verb := by
  cases verb with
  | module =>
      cases e with
      | module x => rfl
      | _ => cases h
  | go =>
      cases e with
      | go version => rfl
      | _ => cases h
  | toolchain =>
      cases e with
      | toolchain name => rfl
      | _ => cases h
  | _ => cases h

theorem verb_of_mem_require {r : Requirement} (h : r ∈ e.manifest.require) :
    e.statement.verb = .require := by
  cases e with
  | require r => rfl
  | _ => cases h

/-- Only entries of one verb can be in conflict. -/
theorem compatible_of_verb_ne {a b : Entry} (h : a.statement.verb ≠ b.statement.verb) :
    a.manifest.Compatible b.manifest := by
  have hholds : ∀ verb, ¬ (a.manifest.holds verb ∧ b.manifest.holds verb) := by
    rintro verb ⟨ha, hb⟩
    exact h ((verb_of_holds ha).trans (verb_of_holds hb).symm)
  refine ⟨hholds .module, hholds .go, hholds .toolchain, ?_⟩
  intro r hr s hs
  exact absurd ((verb_of_mem_require hr).trans (verb_of_mem_require hs).symm) h

theorem pairwise_entriesOf (h : (m.require.map (·.path)).Nodup) (verb : Verb) :
    (m.entriesOf verb).Pairwise fun a b => a.manifest.Compatible b.manifest := by
  have hlists : ∀ {α : Type} {f : α → Entry} (as : List α),
      (∀ a b, (f a).manifest.Compatible (f b).manifest) →
        (as.map f).Pairwise fun a b => a.manifest.Compatible b.manifest := by
    intro α f as hf
    exact List.pairwise_map.mpr (List.pairwise_of_forall hf)
  cases verb with
  | module =>
      rw [entriesOf]
      cases m.module with
      | none => exact .nil
      | some x => exact List.pairwise_singleton _ _
  | go =>
      rw [entriesOf]
      cases m.go with
      | none => exact .nil
      | some version => exact List.pairwise_singleton _ _
  | toolchain =>
      rw [entriesOf]
      cases m.toolchain with
      | none => exact .nil
      | some name => exact List.pairwise_singleton _ _
  | require =>
      rw [entriesOf, List.pairwise_map]
      refine (List.pairwise_map.mp h).imp ?_
      intro a b hne
      exact compatible_require_iff.mpr (by simpa [Entry.manifest] using hne)
  | exclude => exact hlists _ fun _ _ => compatible_of_lists
  | replace => exact hlists _ fun _ _ => compatible_of_lists
  | retract => exact hlists _ fun _ _ => compatible_of_lists
  | godebug => exact hlists _ fun _ _ => compatible_of_lists
  | tool => exact hlists _ fun _ _ => compatible_of_lists
  | ignore => exact hlists _ fun _ _ => compatible_of_lists

theorem pairwise_entries (h : (m.require.map (·.path)).Nodup) :
    (m.entries.map Entry.manifest).Pairwise Compatible := by
  rw [List.pairwise_map, entries, List.pairwise_flatMap]
  refine ⟨fun verb _ => pairwise_entriesOf h verb, ?_⟩
  have hverbs : Verb.all.Pairwise (· ≠ ·) := by decide
  refine hverbs.imp ?_
  intro verb verb' hne a ha b hb
  apply compatible_of_verb_ne
  rwa [verb_of_mem_entriesOf ha, verb_of_mem_entriesOf hb]

theorem writable_empty : Writable {} where
  toWellFormed := wellFormed_empty
  deprecated := by simp
  rationale := by simp

/-- One case for each verb: an entry of a manifest is as good as the manifest. -/
theorem writable_of_mem_entries (h : m.Writable) (he : e ∈ m.entries) : e.manifest.Writable := by
  obtain ⟨verb, -, he⟩ := List.mem_flatMap.mp he
  cases verb with
  | module =>
      obtain ⟨x, hx, rfl⟩ := List.mem_map.mp he
      have hdeprecated := h.deprecated x (Option.mem_toList.mp hx)
      exact { writable_empty with deprecated := by simpa [Entry.manifest] using hdeprecated }
  | go =>
      obtain ⟨version, hversion, rfl⟩ := List.mem_map.mp he
      have hgo := h.go version (Option.mem_toList.mp hversion)
      exact { writable_empty with go := by simpa [Entry.manifest] using hgo }
  | toolchain =>
      obtain ⟨name, hname, rfl⟩ := List.mem_map.mp he
      have htoolchain := h.toolchain name (Option.mem_toList.mp hname)
      exact { writable_empty with toolchain := by simpa [Entry.manifest] using htoolchain }
  | require =>
      obtain ⟨r, hr, rfl⟩ := List.mem_map.mp he
      exact { writable_empty with
        require_nodup := by simp [Entry.manifest]
        require := by simpa [Entry.manifest] using h.require r hr }
  | exclude =>
      obtain ⟨x, hx, rfl⟩ := List.mem_map.mp he
      exact { writable_empty with
        exclude := by simpa [Entry.manifest] using h.exclude x hx }
  | replace =>
      obtain ⟨r, hr, rfl⟩ := List.mem_map.mp he
      exact { writable_empty with
        replace := by simpa [Entry.manifest] using h.replace r hr }
  | retract =>
      obtain ⟨r, hr, rfl⟩ := List.mem_map.mp he
      exact { writable_empty with
        retract := by simpa [Entry.manifest] using h.retract r hr
        rationale := by simpa [Entry.manifest] using h.rationale r hr }
  | godebug =>
      obtain ⟨s, hs, rfl⟩ := List.mem_map.mp he
      exact { writable_empty with
        godebug := by simpa [Entry.manifest] using h.godebug s hs }
  | tool | ignore =>
      obtain ⟨path, -, rfl⟩ := List.mem_map.mp he
      exact { writable_empty with }

theorem declares_of_readAs {es : List Entry} {ds : List Directive}
    (h : ∀ e ∈ es, e.manifest.Writable) (hread : Statement.ReadAs (es.map Entry.statement) ds) :
    List.Forall₂ (fun e d => Directive.Declares d e) (es.map Entry.manifest) ds := by
  induction es generalizing ds with
  | nil =>
      cases hread
      exact .nil
  | cons e es ih =>
      cases hread with
      | cons hd hrest =>
          obtain ⟨number, rfl⟩ := hd
          have he := h e List.mem_cons_self
          exact .cons (Entry.declares_statement he number)
            (ih (fun e' he' => h e' (List.mem_cons_of_mem e he')) hrest)

/-- A manifest that is written is read back unchanged. -/
theorem read_written (h : m.Writable) : read (Utf8.encode m.written) = .ok m := by
  have hentries : ∀ e ∈ m.entries, e.manifest.Writable := fun e he => writable_of_mem_entries h he
  have hplain : ∀ st ∈ m.entries.map Entry.statement, st.Plain := by
    intro st hst
    obtain ⟨e, he, rfl⟩ := List.mem_map.mp hst
    exact Entry.plain_statement (hentries e he)
  obtain ⟨ds, hitems, hread⟩ := Statement.items_texts hplain
  have hdeclares := declares_of_readAs hentries hread
  have hempty : ∀ e ∈ m.entries.map Entry.manifest, Compatible {} e :=
    fun e _ => ⟨by simp, by simp, by simp, by simp⟩
  have hrun := run_of_declares hdeclares (pairwise_entries h.require_nodup) hempty
  rw [read_eq_ofItems (Utf8.decode?_encode m.written), written, hitems, ofItems, hrun,
    combineAll_entries, empty_combine]

/-- A manifest with an entry for each verb, with words that need quotes and comments over several
lines. -/
def sample : Manifest where
  module := some ⟨"x.org/\"m\"".toList, some "use //y instead".toList⟩
  go := some "1.23rc1".toList
  toolchain := some "go1.23.0 (own)".toList
  require := [
    ⟨"gopkg.in/y.v1-unstable".toList, ⟨0, 0, 0, "1-a".toList, false⟩, true⟩,
    ⟨"x.org/b".toList, ⟨7, 0, 0, [], true⟩, false⟩]
  exclude := [⟨"x.org/b/v2".toList, ⟨2, 1, 0, "rc.1".toList, false⟩⟩]
  replace := [
    ⟨"x.org/b".toList, some ⟨1, 0, 0, [], false⟩, .module "y.org/b".toList ⟨1, 2, 0, [], false⟩⟩,
    ⟨"x.org/c".toList, none, .directory "../c \\ d".toList⟩]
  retract := [
    ⟨⟨1, 0, 0, [], false⟩, ⟨1, 9, 0, [], false⟩, "// wrong\n\nthrough and through".toList⟩]
  godebug := [⟨"key".toList, "a=b".toList⟩]
  tool := ["x.org/\n".toList]
  ignore := [[], "π".toList]

theorem writable_sample : sample.Writable := by
  have hrequire : ∀ r ∈ sample.require,
      Directive.moduleVersion r.path r.version.text = .ok r.version := by
    decide +kernel
  have hexclude : ∀ x ∈ sample.exclude,
      Directive.moduleVersion x.path x.version.text = .ok x.version := by
    decide +kernel
  have hreplace : ∀ r ∈ sample.replace, (ModulePath.splitMajor? r.path).isSome ∧
      (∀ v ∈ r.version, Directive.moduleVersion r.path v.text = .ok v) ∧
      (∀ v ∈ r.substitute.version?,
        Directive.moduleVersion r.substitute.path v.text = .ok v) ∧
      (r.substitute.version? = none ↔ ModulePath.isDirectory r.substitute.path) := by
    decide +kernel
  have hretract : ∀ r ∈ sample.retract,
      Version.read? r.low.text = some r.low ∧ Version.read? r.high.text = some r.high := by
    decide +kernel
  exact {
    require_nodup := by decide +kernel
    require := fun r hr => Directive.fits_of_moduleVersion (hrequire r hr)
    exclude := fun x hx => Directive.fits_of_moduleVersion (hexclude x hx)
    replace := by
      intro r hr
      obtain ⟨hsplit, hversion, hsubstitute, hdirectory⟩ := hreplace r hr
      exact ⟨hsplit, fun v hv => Directive.fits_of_moduleVersion (hversion v hv),
        fun v hv => Directive.fits_of_moduleVersion (hsubstitute v hv), hdirectory⟩
    retract := by
      intro r hr
      obtain ⟨hlow, hhigh⟩ := hretract r hr
      exact ⟨Version.canonical_of_read? hlow, Version.canonical_of_read? hhigh⟩
    go := by
      rintro s ⟨⟩
      exact Release.isLanguage_iff.mp (by decide)
    toolchain := by
      rintro s ⟨⟩
      exact Release.isToolchain_iff.mp (by decide)
    godebug := by
      intro s hs
      obtain rfl := List.mem_singleton.mp hs
      exact ⟨by decide, by decide, by simp⟩
    deprecated := by decide +kernel
    rationale := by decide +kernel }

theorem read_written_sample :
    sample.Writable ∧
      sample.written = [
        "module \"x.org/\\\"m\\\"\" // Deprecated: use //y instead",
        "go 1.23rc1",
        "toolchain \"go1.23.0 (own)\"",
        "require \"gopkg.in/y.v1-unstable\" v0.0.0-1-a // indirect",
        "require \"x.org/b\" v7.0.0+incompatible",
        "exclude \"x.org/b/v2\" v2.1.0-rc.1",
        "replace \"x.org/b\" v1.0.0 => \"y.org/b\" v1.2.0",
        "replace \"x.org/c\" => \"../c \\\\ d\"",
        "// // wrong",
        "// ",
        "// through and through",
        "retract [v1.0.0, v1.9.0]",
        "godebug \"key=a=b\"",
        "tool \"x.org/\\n\"",
        "ignore \"\"",
        "ignore \"π\""].flatMap (String.toList · ++ ['\n']) ∧
      read (Utf8.encode sample.written) = .ok sample :=
  ⟨writable_sample, by decide +kernel, read_written writable_sample⟩

end GoModules.Manifest
