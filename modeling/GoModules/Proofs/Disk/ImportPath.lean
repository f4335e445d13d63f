import GoModules.Disk.ImportPath
import GoModules.Proofs.Disk.Nearest
import GoModules.Proofs.FileTree.Stat
import GoModules.Proofs.Text.Utf8

/-!
# Import paths and manifests

The climb that makes an import path stops where the search for a manifest stops, when both begin in
the same directory. They may not: the climb begins in the directory of what the path leads to, and
the search in the one of what the path spells. These are the same unless the path goes to a
directory above or what it spells has too long a path, or else the path leads to a special file,
which only the climb takes for something in a directory.
-/

namespace GoModules

open Outcome

namespace Disk

variable {d : Disk} {names outer : List Name} {name : Name} {root here : Location}
  {start path : FilePath} {below : List Text} {s : Text} {kind : Kind} {m : Manifest}

theorem importPathIn_eq_ok_iff :
    d.importPathIn root below = .ok s ↔
      ∃ m declared, d.readManifest root.manifestPath = .ok m ∧ m.modulePath? = some declared ∧
        s = ['/'].intercalate (declared :: below) := by
  rw [importPathIn, bind_eq_ok_iff]
  constructor
  · rintro ⟨m, hm, h⟩
    cases hdeclared : m.modulePath? with
    | none =>
        rw [hdeclared] at h
        cases h
    | some declared =>
        rw [hdeclared] at h
        cases h
        exact ⟨m, declared, hm, hdeclared, rfl⟩
  · rintro ⟨m, declared, hm, hdeclared, rfl⟩
    refine ⟨m, hm, ?_⟩
    rw [hdeclared]
    rfl

theorem importPathAbove_nil_of_skippable (h : d.Skippable .root) :
    d.importPathAbove start below [] = .error (.notFound start) :=
  probe_bind_of_skippable h _ _

theorem importPathAbove_cons_of_skippable (h : d.Skippable ⟨name :: outer⟩) :
    d.importPathAbove start below (name :: outer) =
      match Utf8.decode? name with
      | some text => d.importPathAbove start (text :: below) outer
      | none => .error (.notUtf8 (Location.mk (name :: outer)).path) :=
  probe_bind_of_skippable h _ _

theorem importPathAbove_of_not_skippable (h : ¬ d.Skippable ⟨names⟩) :
    d.importPathAbove start below names =
      match d.stat (Location.manifestPath ⟨names⟩) with
      | .ok _ => d.importPathIn ⟨names⟩ below
      | .error e => .error (.io (Location.manifestPath ⟨names⟩) e) := by
  cases names with
  | nil => exact probe_bind_of_not_skippable h _ _
  | cons name outer => exact probe_bind_of_not_skippable h _ _

/-- A climb succeeds where a search finds a manifest, if the names of the directories passed are
texts; these come before the ones passed earlier. -/
theorem importPathAbove_eq_ok_iff :
    d.importPathAbove start below names = .ok s ↔
      ∃ root texts, d.StopsAt names root ∧ d.HasManifest root ∧
        names = (texts.map Utf8.encode).reverse ++ root.names ∧
        d.importPathIn root (texts ++ below) = .ok s := by
  induction names using d.climb generalizing below with
  | stop names hstop =>
      rw [importPathAbove_of_not_skippable hstop]
      constructor
      · intro h
        cases hstat : d.stat (Location.manifestPath ⟨names⟩) with
        | error e =>
            rw [hstat] at h
            cases h
        | ok kind =>
            rw [hstat] at h
            have hmanifest := hasManifest_of_not_skippable hstop hstat
            exact ⟨⟨names⟩, [], stopsAt_self hstop, hmanifest, rfl, h⟩
      · rintro ⟨root, texts, hroot, ⟨kind, hstat, -⟩, hnames, hs⟩
        obtain rfl := hroot.unique (stopsAt_self hstop)
        obtain rfl : texts = [] := by simpa using hnames
        rw [hstat]
        exact hs
  | top hskip =>
      rw [importPathAbove_nil_of_skippable hskip]
      constructor
      · intro h
        cases h
      · rintro ⟨root, texts, hroot, -⟩
        exact absurd hroot (not_stopsAt_nil hskip)
  | up name outer hskip ih =>
      rw [importPathAbove_cons_of_skippable hskip]
      simp only [stopsAt_cons_iff hskip]
      constructor
      · intro h
        split at h
        · next text htext =>
            obtain ⟨root, texts, hroot, hmanifest, hnames, hs⟩ := ih.mp h
            refine ⟨root, texts ++ [text], hroot, hmanifest, ?_, ?_⟩
            · rw [List.map_append, List.reverse_append, hnames, ← Utf8.decode?_eq_some_iff.mp htext]
              rfl
            · rwa [List.append_assoc]
        · cases h
      · rintro ⟨root, texts, hroot, hmanifest, hnames, hs⟩
        rcases List.eq_nil_or_concat texts with rfl | ⟨texts, text, rfl⟩
        · -- The root would have the names of a directory below it.
          have hlength := hroot.above.length_le
          rw [← show name :: outer = root.names from hnames] at hlength
          exact absurd hlength (Nat.not_succ_le_self _)
        · rw [List.concat_eq_append, List.map_append, List.reverse_append] at hnames
          obtain ⟨rfl, rfl⟩ := List.cons.inj hnames
          rw [Utf8.decode?_encode]
          rw [List.concat_eq_append, List.append_assoc] at hs
          exact ih.mpr ⟨root, texts, hroot, hmanifest, rfl, hs⟩

theorem importPathAbove_of_forall_skippable
    (h : ∀ l : Location, l.names <:+ names → d.Skippable l)
    (htexts : ∀ n ∈ names, ∃ text, n = Utf8.encode text) :
    d.importPathAbove start below names = .error (.notFound start) := by
  induction names generalizing below with
  | nil => exact importPathAbove_nil_of_skippable (h .root (List.suffix_refl []))
  | cons name outer ih =>
      obtain ⟨⟨text, rfl⟩, houter⟩ := List.forall_mem_cons.mp htexts
      rw [importPathAbove_cons_of_skippable (h _ (List.suffix_refl _)), Utf8.decode?_encode]
      exact ih (fun l hl => h l (hl.trans (List.suffix_cons _ outer))) houter

theorem isFile_iff : d.isFile path ↔ d.stat path = .ok .file := by
  unfold isFile
  split
  · next h => simp [h]
  · next h => simpa using h

/-- The directory of the package that a path is for, given what the path leads to. -/
def packageDirectory (kind : Kind) (l : Location) : Location :=
  if kind = .directory then l else l.parent

theorem importPath_of_stat (hstat : d.stat path = .ok kind) (hlocate : d.locate path = .ok here) :
    d.importPath path = d.importPathAbove path [] (packageDirectory kind here).names := by
  rw [importPath, hstat, hlocate]
  rfl

theorem exists_of_importPath_eq_ok (h : d.importPath path = .ok s) :
    ∃ kind here, d.stat path = .ok kind ∧ d.locate path = .ok here := by
  simp only [importPath, bind_eq_ok_iff, mapError_eq_ok_iff] at h
  obtain ⟨kind, hstat, here, hlocate, -⟩ := h
  exact ⟨kind, here, hstat, hlocate⟩

theorem importPath_eq_ok_iff (hstat : d.stat path = .ok kind) (hlocate : d.locate path = .ok here) :
    d.importPath path = .ok s ↔
      ∃ root m declared texts, d.StopsAt (packageDirectory kind here).names root ∧
        d.HasManifest root ∧
        (packageDirectory kind here).names = (texts.map Utf8.encode).reverse ++ root.names ∧
        d.readManifest root.manifestPath = .ok m ∧ m.modulePath? = some declared ∧
        s = ['/'].intercalate (declared :: texts) := by
  rw [importPath_of_stat hstat hlocate, importPathAbove_eq_ok_iff]
  simp only [importPathIn_eq_ok_iff, List.append_nil]
  constructor
  · rintro ⟨root, texts, hroot, hmanifest, hnames, m, declared, hm, hdeclared, hs⟩
    exact ⟨root, m, declared, texts, hroot, hmanifest, hnames, hm, hdeclared, hs⟩
  · rintro ⟨root, m, declared, texts, hroot, hmanifest, hnames, hm, hdeclared, hs⟩
    exact ⟨root, texts, hroot, hmanifest, hnames, m, declared, hm, hdeclared, hs⟩

/-- Whether a text is made of the path of the module that a search comes to and the names of the
directories from there down to one of them. -/
def ImportedAs (d : Disk) (path : FilePath) (dir : Location) (s : Text) : Prop :=
  ∃ (root : Location) (m : Manifest) (declared : Text) (texts : List Text),
    d.findManifest path = .ok root.manifestPath ∧
    dir.names = (texts.map Utf8.encode).reverse ++ root.names ∧
    d.readManifest root.manifestPath = .ok m ∧ m.modulePath? = some declared ∧
    s = ['/'].intercalate (declared :: texts)

/-- If a climb and a search begin in the same directory, they come to the same manifest. -/
theorem importPath_eq_ok_iff_importedAs (hd : d.Placed) (hstat : d.stat path = .ok kind)
    (hlocate : d.locate path = .ok here)
    (hdirectory : d.enclosing here = packageDirectory kind here) :
    d.importPath path = .ok s ↔ d.ImportedAs path (packageDirectory kind here) s := by
  have hordinary := ordinary_enclosing (d := d) (ordinary_of_locate hd hlocate)
  have hstart := searchStart_of_locate hlocate
  rw [hdirectory] at hordinary hstart
  rw [importPath_eq_ok_iff hstat hlocate]
  constructor
  · rintro ⟨root, m, declared, texts, hstop, hmanifest, hnames, hm, hdeclared, hs⟩
    have hfound := (findManifest_eq_ok_iff hordinary hstart hstop.above).mpr ⟨hstop, hmanifest⟩
    exact ⟨root, m, declared, texts, hfound, hnames, hm, hdeclared, hs⟩
  · rintro ⟨root, m, declared, texts, hfound, hnames, hm, hdeclared, hs⟩
    have habove : root.names <:+ (packageDirectory kind here).names :=
      ⟨(texts.map Utf8.encode).reverse, hnames.symm⟩
    obtain ⟨hstop, hmanifest⟩ := (findManifest_eq_ok_iff hordinary hstart habove).mp hfound
    exact ⟨root, m, declared, texts, hstop, hmanifest, hnames, hm, hdeclared, hs⟩

end Disk

/-- Whether an import path is that of the module which a manifest declares, or below it. -/
def Manifest.Contains (m : Manifest) (s : Text) : Prop :=
  ∃ declared, m.modulePath? = some declared ∧ (s = declared ∨ ∃ rest, s = declared ++ '/' :: rest)

theorem Text.intercalate_cons_cases (s : Text) (texts : List Text) :
    ['/'].intercalate (s :: texts) = s ∨
      ∃ rest, ['/'].intercalate (s :: texts) = s ++ '/' :: rest := by
  cases texts with
  | nil => exact .inl List.intercalate_singleton
  | cons text texts =>
      right
      refine ⟨['/'].intercalate (text :: texts), ?_⟩
      rw [List.intercalate_cons_of_ne_nil (List.cons_ne_nil text texts)]
      simp

namespace FileSystem

variable {fs : FileSystem} {path : FilePath} {here root root' : Location} {kind : Kind} {s : Text}
  {m : Manifest}

theorem disk_stat (fs : FileSystem) : fs.disk.stat = fs.stat := rfl

theorem exists_stat_manifestPath_error (h : fs.stat here.path = .ok kind)
    (hkind : kind ≠ .directory) :
    ∃ e, e ≠ .noEntry ∧ fs.stat here.manifestPath = .error e := by
  obtain ⟨found, hfound, hleaf⟩ := exists_isLeaf_of_stat h hkind
  rcases find_join_of_isLeaf hfound hleaf Manifest.ordinary_fileName (by decide) with he | he
  · exact ⟨.notDirectory, by decide, stat_of_find_error he⟩
  · exact ⟨.nameTooLong, by decide, stat_of_find_error he⟩

theorem not_skippable_of_stat (h : fs.stat here.path = .ok kind) (hkind : kind ≠ .directory) :
    ¬ fs.disk.Skippable here := by
  obtain ⟨e, he, hmanifest⟩ := exists_stat_manifestPath_error h hkind
  rw [Disk.Skippable, disk_stat, hmanifest]
  simpa using he

theorem not_hasManifest_of_stat (h : fs.stat here.path = .ok kind) (hkind : kind ≠ .directory) :
    ¬ fs.disk.HasManifest here := by
  obtain ⟨e, -, hmanifest⟩ := exists_stat_manifestPath_error h hkind
  rintro ⟨kind', hstat, -⟩
  rw [disk_stat, hmanifest] at hstat
  cases hstat

theorem length_path_lt_of_hasManifest (h : fs.disk.HasManifest here) :
    here.path.bytes.length < FileTree.maxPath := by
  obtain ⟨kind, hstat, -⟩ := h
  obtain ⟨found, hfound⟩ := exists_find_of_stat hstat
  exact Nat.lt_of_le_of_lt
    (FilePath.length_le_length_join (FilePath.isAbsolute_mk Manifest.ordinary_fileName))
    (accepted_of_find hfound).length_lt

theorem isFile_disk_iff : fs.disk.isFile path ↔ fs.stat path = .ok .file :=
  Disk.isFile_iff

/-- A climb and a search that begin at the same path come to the same root, unless the path leads to
what is no directory and the root is at the place that it spells. -/
theorem root_eq_of_stopsAt (h : fs.disk.StopsAt (fs.disk.enclosing here).names root)
    (h' : fs.disk.StopsAt (Disk.packageDirectory kind here).names root')
    (hmanifest' : fs.disk.HasManifest root') (hkind : kind ≠ .directory → root ≠ here) :
    root = root' := by
  rw [Disk.enclosing] at h
  rw [Disk.packageDirectory] at h'
  -- What the path leads to and what is at the place that it spells may be of different kinds.
  by_cases hdirectory : kind = .directory
  · rw [if_pos hdirectory] at h'
    by_cases hfile : fs.disk.isFile here.path
    · have hstat := isFile_disk_iff.mp hfile
      obtain rfl := h'.unique (Disk.stopsAt_self (not_skippable_of_stat hstat (by decide)))
      exact absurd hmanifest' (not_hasManifest_of_stat hstat (by decide))
    · rw [if_neg hfile] at h
      exact h.unique h'
  · rw [if_neg hdirectory] at h'
    by_cases hfile : fs.disk.isFile here.path
    · rw [if_pos hfile] at h
      exact h.unique h'
    · rw [if_neg hfile] at h
      by_cases hskip : fs.disk.Skippable here
      · obtain ⟨names⟩ := here
        cases names with
        | nil => exact h.unique h'
        | cons name outer => exact ((Disk.stopsAt_cons_iff hskip).mp h).unique h'
      · exact absurd (h.unique (Disk.stopsAt_self hskip)) (hkind hdirectory)

theorem WellFormed.placed (hfs : fs.WellFormed) : fs.disk.Placed := by
  intro l hl
  simp only [disk] at hl
  split at hl
  · cases hl
    exact hfs.tree.ordinary_of_entry? hfs.place
  · cases hl

theorem length_path_lt_of_isAbsolute (hpath : path.isAbsolute)
    (hlocate : fs.disk.locate path = .ok here) (hstat : fs.stat path = .ok kind) :
    here.path.bytes.length < FileTree.maxPath := by
  obtain ⟨found, hfound⟩ := exists_find_of_stat hstat
  have hlength := (accepted_of_find hfound).length_lt
  rw [Disk.locate, if_pos hpath] at hlocate
  cases hlocate
  exact Nat.lt_of_le_of_lt (FilePath.length_path_location_le hpath) hlength

theorem not_isFile_of_stat_directory (hfs : fs.WellFormed) (habove : Name.above ∉ path.segments)
    (hstat : fs.stat path = .ok .directory) (hlocate : fs.disk.locate path = .ok here) :
    ¬ fs.disk.isFile here.path := by
  rw [isFile_disk_iff]
  intro hfile
  obtain ⟨found, hfound⟩ := exists_find_of_stat hfile
  have hdirectory := stat_path_of_stat hfs hlocate habove (accepted_of_find hfound).length_lt hstat
  exact absurd (hdirectory.symm.trans hfile) (by decide)

/-- The directory of the package is the one in which a search begins, or the one around that. -/
theorem packageDirectory_suffix_enclosing (hfs : fs.WellFormed)
    (habove : Name.above ∉ path.segments) (hstat : fs.stat path = .ok kind)
    (hlocate : fs.disk.locate path = .ok here) :
    (Disk.packageDirectory kind here).names <:+ (fs.disk.enclosing here).names := by
  by_cases hdirectory : kind = .directory
  · subst hdirectory
    rw [Disk.enclosing, if_neg (not_isFile_of_stat_directory hfs habove hstat hlocate)]
    exact List.suffix_refl here.names
  · rw [Disk.packageDirectory, if_neg hdirectory, Disk.enclosing]
    split
    · exact List.suffix_refl here.parent.names
    · exact List.tail_suffix here.names

theorem enclosing_eq_packageDirectory (hfs : fs.WellFormed) (habove : Name.above ∉ path.segments)
    (hstat : fs.stat path = .ok kind) (hlocate : fs.disk.locate path = .ok here)
    (hkind : kind ≠ .special)
    (hlength : path.isAbsolute = false → kind = .file →
      here.path.bytes.length < FileTree.maxPath) :
    fs.disk.enclosing here = Disk.packageDirectory kind here := by
  cases kind with
  | directory =>
      rw [Disk.enclosing, if_neg (not_isFile_of_stat_directory hfs habove hstat hlocate)]
      rfl
  | file =>
      have hlength : here.path.bytes.length < FileTree.maxPath := by
        cases hpath : path.isAbsolute with
        | false => exact hlength hpath rfl
        | true => exact length_path_lt_of_isAbsolute hpath hlocate hstat
      have hfile := isFile_disk_iff.mpr (stat_path_of_stat hfs hlocate habove hlength hstat)
      rw [Disk.enclosing, if_pos hfile]
      rfl
  | special => exact absurd rfl hkind

/-- An import path is in the module that governs the path, unless the path leads to what is no
directory and the module is rooted at the place that it spells. Only a path to a directory above can
do that. -/
theorem contains_of_importPath (h : fs.disk.importPath path = .ok s)
    (hgoverning : fs.disk.governing path = .ok (root, m)) :
    ((fs.stat path ≠ .ok .directory → fs.disk.locate path ≠ .ok root) → m.Contains s) ∧
      (fs.WellFormed → Name.above ∉ path.segments → m.Contains s) := by
  obtain ⟨kind, here, hstat, hlocate⟩ := Disk.exists_of_importPath_eq_ok h
  obtain ⟨root', m', declared, texts, hstop', hmanifest', -, hm', hdeclared, rfl⟩ :=
    (Disk.importPath_eq_ok_iff hstat hlocate).mp h
  obtain ⟨hroot, hm⟩ := Disk.governing_eq_ok_iff.mp hgoverning
  obtain ⟨hstop, hmanifest⟩ :=
    (Disk.moduleRoot_eq_ok_iff (Disk.searchStart_of_locate hlocate)).mp hroot
  have hcontains : (kind ≠ .directory → root ≠ here) →
      m.Contains (['/'].intercalate (declared :: texts)) := by
    intro hkind
    obtain rfl := root_eq_of_stopsAt hstop hstop' hmanifest' hkind
    rw [hm, Except.ok.injEq] at hm'
    subst hm'
    exact ⟨declared, hdeclared, Text.intercalate_cons_cases declared texts⟩
  constructor
  · intro hlocated
    apply hcontains
    rintro hkind rfl
    have hne : fs.stat path ≠ .ok .directory := by
      rw [← disk_stat, hstat]
      simpa using hkind
    exact hlocated hne hlocate
  · intro hfs habove
    apply hcontains
    rintro hkind rfl
    have hlength := length_path_lt_of_hasManifest hmanifest
    have hhere := stat_path_of_stat hfs hlocate habove hlength hstat
    exact not_hasManifest_of_stat hhere hkind hmanifest

/-- A directory of a module that is a link to one outside, which is beside a file with the name of
another directory of the module. -/
def linked : FileSystem where
  tree.entries := [
    (FilePath.location (.ofText "/w".toList), .directory),
    (FilePath.location (.ofText "/w/go.mod".toList),
      .file (Utf8.encode "module x.org/outer\n".toList)),
    (FilePath.location (.ofText "/w/x".toList), .directory),
    (FilePath.location (.ofText "/w/x/go.mod".toList),
      .file (Utf8.encode "module x.org/inner\n".toList)),
    (FilePath.location (.ofText "/o".toList), .directory),
    (FilePath.location (.ofText "/o/s".toList), .directory),
    (FilePath.location (.ofText "/o/x".toList), .file []),
    (FilePath.location (.ofText "/w/l".toList), .link (.ofText "../o/s".toList))]

/-- A manifest that declares a module and nothing else. -/
def declaring (declared : Text) : Manifest :=
  { module := some ⟨declared, none⟩ }

theorem contains_of_importPath_linked :
    linked.disk.importPath (.ofText "/w/l".toList) = .ok "x.org/outer/l".toList ∧
      linked.disk.governing (.ofText "/w/l".toList) =
        .ok (FilePath.location (.ofText "/w".toList), declaring "x.org/outer".toList) ∧
      linked.WellFormed ∧ Name.above ∉ (FilePath.ofText "/w/l".toList).segments ∧
      (declaring "x.org/outer".toList).Contains "x.org/outer/l".toList := by
  have h : linked.disk.importPath (.ofText "/w/l".toList) = .ok "x.org/outer/l".toList := by
    decide +kernel
  have hgoverning : linked.disk.governing (.ofText "/w/l".toList) =
      .ok (FilePath.location (.ofText "/w".toList), declaring "x.org/outer".toList) := by
    decide +kernel
  have hfs : linked.WellFormed := by decide +kernel
  have habove : Name.above ∉ (FilePath.ofText "/w/l".toList).segments := by decide +kernel
  exact ⟨h, hgoverning, hfs, habove, (contains_of_importPath h hgoverning).2 hfs habove⟩

/-- Beyond the link is a file, and what the path spells is a directory with a module of its own. -/
theorem not_contains_of_linked :
    linked.disk.importPath (.ofText "/w/l/../x".toList) = .ok "x.org/outer".toList ∧
      linked.disk.governing (.ofText "/w/l/../x".toList) =
        .ok (FilePath.location (.ofText "/w/x".toList), declaring "x.org/inner".toList) ∧
      ¬ (declaring "x.org/inner".toList).Contains "x.org/outer".toList := by
  refine ⟨by decide +kernel, by decide +kernel, ?_⟩
  rintro ⟨declared, hdeclared, h⟩
  cases hdeclared
  rcases h with h | ⟨rest, h⟩
  · exact absurd h (by decide)
  · exact absurd (congrArg (List.take 7) h) (by simp)

theorem findManifest_of_maxPath_le (hlocate : fs.disk.locate path = .ok here)
    (hnul : 0 ∉ here.path.bytes) (hlength : FileTree.maxPath ≤ here.path.bytes.length) :
    fs.disk.findManifest path = .error (.io here.manifestPath .nameTooLong) := by
  have hrelative := FilePath.isAbsolute_mk Manifest.ordinary_fileName
  have hmanifest : fs.stat here.manifestPath = .error .nameTooLong :=
    stat_of_find_error (find_of_maxPath_le
      (FilePath.nul_notMem_join hrelative hnul (by decide))
      (hlength.trans (FilePath.length_le_length_join hrelative)))
  have hfile : ¬ fs.disk.isFile here.path := by
    rw [isFile_disk_iff, stat_of_find_error (find_of_maxPath_le hnul hlength)]
    simp
  exact Disk.findManifest_of_stat_error hlocate hfile hmanifest (by decide)

/-- A search from a special file does not begin in the directory around it, and so comes to no
manifest. -/
theorem findManifest_of_special (hfs : fs.WellFormed) (habove : Name.above ∉ path.segments)
    (hstat : fs.stat path = .ok .special) (hlocate : fs.disk.locate path = .ok here) :
    ∃ e, fs.disk.findManifest path = .error (.io here.manifestPath e) := by
  obtain ⟨found, hfound⟩ := exists_find_of_stat hstat
  by_cases hlength : FileTree.maxPath ≤ here.path.bytes.length
  · have hnul := (accepted_of_find hfound).nul_notMem
    exact ⟨_, findManifest_of_maxPath_le hlocate
      (nul_notMem_path_of_locate hfs hlocate habove hnul) hlength⟩
  · have hhere := stat_path_of_stat hfs hlocate habove (Nat.not_le.mp hlength) hstat
    obtain ⟨e, he, hmanifest⟩ := exists_stat_manifestPath_error hhere (by decide)
    have hfile : ¬ fs.disk.isFile here.path := by
      rw [isFile_disk_iff, hhere]
      decide
    exact ⟨e, Disk.findManifest_of_stat_error hlocate hfile hmanifest he⟩

/-- Where a search finds a manifest, it begins in the directory of the package. -/
theorem enclosing_eq_of_findManifest (hfs : fs.WellFormed) (habove : Name.above ∉ path.segments)
    (hstat : fs.stat path = .ok kind) (hlocate : fs.disk.locate path = .ok here) {found : FilePath}
    (hfound : fs.disk.findManifest path = .ok found) :
    fs.disk.enclosing here = Disk.packageDirectory kind here := by
  have hkind : kind ≠ .special := by
    rintro rfl
    obtain ⟨e, herror⟩ := findManifest_of_special hfs habove hstat hlocate
    rw [hfound] at herror
    cases herror
  have hlength : ¬ FileTree.maxPath ≤ here.path.bytes.length := by
    intro hle
    obtain ⟨_, hpath⟩ := exists_find_of_stat hstat
    have hnul := nul_notMem_path_of_locate hfs hlocate habove (accepted_of_find hpath).nul_notMem
    have herror := findManifest_of_maxPath_le hlocate hnul hle
    rw [hfound] at herror
    cases herror
  exact enclosing_eq_packageDirectory hfs habove hstat hlocate hkind
    fun _ _ => Nat.not_le.mp hlength

/-- The path of the module that governs a path without the directory above, followed by the names of
the directories below the manifest, is its import path. A path to a directory or a file has no other
one, if what it leads to is seen at the place that it spells too. Where no manifest is found, there
is no import path either. -/
theorem importPath_iff_findManifest (hfs : fs.WellFormed) (habove : Name.above ∉ path.segments)
    (hstat : fs.stat path = .ok kind) (hlocate : fs.disk.locate path = .ok here) :
    (∀ s, fs.disk.ImportedAs path (Disk.packageDirectory kind here) s →
      fs.disk.importPath path = .ok s) ∧
    (kind ≠ .special →
      (path.isAbsolute = false → kind = .file → here.path.bytes.length < FileTree.maxPath) →
      ∀ s, fs.disk.importPath path = .ok s →
        fs.disk.ImportedAs path (Disk.packageDirectory kind here) s) ∧
    (fs.disk.findManifest path = .error (.notFound path) →
      (∀ n ∈ (Disk.packageDirectory kind here).names, ∃ text, n = Utf8.encode text) →
      fs.disk.importPath path = .error (.notFound path)) := by
  refine ⟨?_, ?_, ?_⟩
  · intro s himported
    have ⟨_, _, _, _, hfound, _⟩ := himported
    have hdirectory := enclosing_eq_of_findManifest hfs habove hstat hlocate hfound
    exact (Disk.importPath_eq_ok_iff_importedAs hfs.placed hstat hlocate hdirectory).mpr himported
  · intro hkind hlength s hs
    have hdirectory := enclosing_eq_packageDirectory hfs habove hstat hlocate hkind hlength
    exact (Disk.importPath_eq_ok_iff_importedAs hfs.placed hstat hlocate hdirectory).mp hs
  · intro hmissing htexts
    rw [Disk.importPath_of_stat hstat hlocate]
    have hskip :=
      (Disk.findManifest_eq_notFound_iff (Disk.searchStart_of_locate hlocate)).mp hmissing
    have hsuffix := packageDirectory_suffix_enclosing hfs habove hstat hlocate
    exact Disk.importPathAbove_of_forall_skippable (fun l hl => hskip l (hl.trans hsuffix)) htexts

/-- The names of the directories, one of which has the name of a manifest, are all in the path. -/
theorem importPath_iff_findManifest_shadowed :
    Disk.shadowed.WellFormed ∧
      Name.above ∉ (FilePath.ofText "go.mod/s/f".toList).segments ∧
      Disk.shadowed.stat (.ofText "go.mod/s/f".toList) = .ok .file ∧
      Disk.shadowed.disk.locate (.ofText "go.mod/s/f".toList) =
        .ok (FilePath.location (.ofText "/w/go.mod/s/f".toList)) ∧
      Disk.shadowed.disk.importPath (.ofText "go.mod/s/f".toList) =
        .ok "x.org/m/w/go.mod/s".toList ∧
      Disk.shadowed.disk.ImportedAs (.ofText "go.mod/s/f".toList)
        (FilePath.location (.ofText "/w/go.mod/s".toList)) "x.org/m/w/go.mod/s".toList := by
  have hfs : Disk.shadowed.WellFormed := by decide +kernel
  have habove : Name.above ∉ (FilePath.ofText "go.mod/s/f".toList).segments := by decide +kernel
  have hstat : Disk.shadowed.stat (.ofText "go.mod/s/f".toList) = .ok .file := by decide +kernel
  have hlocate : Disk.shadowed.disk.locate (.ofText "go.mod/s/f".toList) =
      .ok (FilePath.location (.ofText "/w/go.mod/s/f".toList)) := by
    decide +kernel
  have hlength : (FilePath.location (.ofText "/w/go.mod/s/f".toList)).path.bytes.length <
      FileTree.maxPath := by
    decide +kernel
  have hspec := importPath_iff_findManifest hfs habove hstat hlocate
  have himport : Disk.shadowed.disk.importPath (.ofText "go.mod/s/f".toList) =
      .ok "x.org/m/w/go.mod/s".toList := by
    refine hspec.1 _ ⟨.root, declaring "x.org/m".toList, "x.org/m".toList,
      ["w".toList, "go.mod".toList, "s".toList], ?_, ?_, ?_, rfl, ?_⟩
    · decide +kernel
    · decide +kernel
    · decide +kernel
    · decide +kernel
  have himported := hspec.2.1 (by decide) (fun _ _ => hlength) _ himport
  exact ⟨hfs, habove, hstat, hlocate, himport, himported⟩

def shortName : Name := List.replicate 100 0x77

def linkName : Name := List.replicate 250 0x6c

def longName : Name := List.replicate 250 0x66

/-- A module with a file, as seen from its root, and with a link from the root to itself. -/
def coiled : FileSystem where
  tree.entries := [
    (⟨[shortName]⟩, .directory),
    (⟨[Manifest.fileName, shortName]⟩, .file (Utf8.encode "module x.org/m\n".toList)),
    (⟨[linkName, shortName]⟩, .link ⟨Name.here⟩),
    (⟨[longName, shortName]⟩, .file [])]
  place := ⟨⟨[shortName]⟩, 0⟩

/-- A path that goes along the link again and again, and then to the file. -/
def coil : FilePath :=
  .ofSegments false (List.replicate 15 linkName ++ [longName])

/-- What the path spells. -/
def coilEnd : Location :=
  ⟨longName :: (List.replicate 15 linkName ++ [shortName])⟩

/-- A module with a pipe that nothing is written to. -/
def piped : FileSystem where
  tree.entries := [
    (FilePath.location (.ofText "/w".toList), .directory),
    (FilePath.location (.ofText "/w/go.mod".toList), .file (Utf8.encode "module x.org/m\n".toList)),
    (FilePath.location (.ofText "/w/p".toList), .special (.inr []))]
  place := ⟨FilePath.location (.ofText "/w".toList), 0⟩

/-- The first path is not too long, but the path of what it spells is. The second one leads to a
special file. -/
theorem findManifest_error_of_importPath_ok :
    (coiled.WellFormed ∧ Name.above ∉ coil.segments ∧ coiled.stat coil = .ok .file ∧
      coiled.disk.locate coil = .ok coilEnd ∧
      coiled.disk.importPath coil = .ok "x.org/m".toList ∧
      coiled.disk.findManifest coil = .error (.io coilEnd.manifestPath .nameTooLong)) ∧
    piped.WellFormed ∧ Name.above ∉ (FilePath.ofText "p".toList).segments ∧
      piped.stat (.ofText "p".toList) = .ok .special ∧
      piped.disk.locate (.ofText "p".toList) =
        .ok (FilePath.location (.ofText "/w/p".toList)) ∧
      piped.disk.importPath (.ofText "p".toList) = .ok "x.org/m".toList ∧
      piped.disk.findManifest (.ofText "p".toList) =
        .error (.io (.ofText "/w/p/go.mod".toList) .notDirectory) := by
  constructor
  · have hlocate : coiled.disk.locate coil = .ok coilEnd := by decide +kernel
    refine ⟨by decide +kernel, by decide +kernel, by decide +kernel, hlocate, by decide +kernel, ?_⟩
    exact findManifest_of_maxPath_le hlocate (by decide +kernel) (by decide +kernel)
  · exact ⟨by decide +kernel, by decide +kernel, by decide +kernel, by decide +kernel,
      by decide +kernel, by decide +kernel⟩

end FileSystem

end GoModules
