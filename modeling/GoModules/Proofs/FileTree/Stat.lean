import GoModules.Proofs.FileTree.Walk

/-!
# What paths lead to

A path that is as the system takes it leads to what its names lead to. There is nothing below what
is no directory, however its path is spelled. In a file system whose entries all lie in directories,
a path without the directory above leads where the location that it spells does: the links along it
are met either way.
-/

namespace GoModules

open FilePath (slash)

namespace Name

/-- Whether a name can be that of an entry. -/
structure Holdable (n : Name) : Prop extends n.Ordinary where
  nul_notMem : 0 ∉ n
  length_le : n.length ≤ FileTree.maxName

instance (n : Name) : Decidable n.Holdable :=
  decidable_of_iff (n.Ordinary ∧ 0 ∉ n ∧ n.length ≤ FileTree.maxName)
    ⟨fun ⟨hordinary, hnul, hlength⟩ => ⟨hordinary, hnul, hlength⟩,
      fun ⟨hordinary, hnul, hlength⟩ => ⟨hordinary, hnul, hlength⟩⟩

end Name

namespace FilePath

variable {p q : FilePath} {name : Name} {l : Location}

/-- Whether the system follows a path at all. -/
structure Accepted (p : FilePath) : Prop where
  nul_notMem : 0 ∉ p.bytes
  ne_nil : p.bytes ≠ []
  length_lt : p.bytes.length < FileTree.maxPath

theorem thinned_steps (p : FilePath) : FileTree.Thinned p.steps p.segments := by
  unfold steps
  split
  · have hlast : FileTree.Thinned [Name.here] [] := .drop .nil
    simpa using hlast.prepend p.segments
  · exact .refl p.segments

theorem exists_bytes_join (hq : q.isAbsolute = false) :
    ∃ separator, (separator = [] ∨ separator = [slash]) ∧
      (p.join q).bytes = p.bytes ++ separator ++ q.bytes := by
  unfold join
  rw [if_neg (by simp [hq])]
  split
  · exact ⟨[], .inl rfl, by simp⟩
  · exact ⟨[slash], .inr rfl, by simp⟩

theorem length_le_length_join (hq : q.isAbsolute = false) :
    p.bytes.length ≤ (p.join q).bytes.length := by
  obtain ⟨separator, -, hbytes⟩ := exists_bytes_join (p := p) hq
  rw [hbytes, List.append_assoc, List.length_append]
  exact Nat.le_add_right _ _

theorem nul_notMem_join (hq : q.isAbsolute = false) (hpnul : 0 ∉ p.bytes) (hqnul : 0 ∉ q.bytes) :
    0 ∉ (p.join q).bytes := by
  obtain ⟨separator, hseparator, hbytes⟩ := exists_bytes_join (p := p) hq
  rw [hbytes, List.mem_append, List.mem_append]
  rintro ((hmem | hmem) | hmem)
  · exact hpnul hmem
  · rcases hseparator with rfl | rfl
    · cases hmem
    · exact absurd hmem (by decide)
  · exact hqnul hmem

theorem steps_join (h : name.Ordinary) : (p.join ⟨name⟩).steps = p.segments ++ [name] := by
  have hrelative := isAbsolute_mk h
  obtain ⟨separator, -, hbytes⟩ := exists_bytes_join (p := p) hrelative
  rw [steps, hbytes, if_neg (h.getLast?_append_ne _), segments_join hrelative, segments_mk h]

theorem walk_steps_path {t : FileTree} {links : Nat} {place : Place} (h : l.Ordinary) :
    t.walk links place l.path.steps = t.walk links place l.names.reverse := by
  obtain ⟨names⟩ := l
  cases names with
  | nil =>
      have hroot : (Location.path ⟨[]⟩).steps = [Name.here] := rfl
      rw [hroot, FileTree.walk_here]
      rfl
  | cons name outer =>
      have hname : name.Ordinary := h name List.mem_cons_self
      have hlast : (Location.path ⟨name :: outer⟩).bytes.getLast? ≠ some slash := by
        rw [Location.bytes_path (List.cons_ne_nil name outer), List.reverse_cons,
          List.flatMap_append, List.flatMap_singleton, List.append_cons]
        exact hname.getLast?_append_ne _
      rw [steps, if_neg hlast, Location.segments_path h]

end FilePath

/-- Whether an entry is no link with a NUL in its target. -/
def Entry.NulFree : Entry → Prop
  | .link target => 0 ∉ target.bytes
  | _ => True

instance (e : Entry) : Decidable e.NulFree :=
  match e with
  | .link target => inferInstanceAs (Decidable (0 ∉ target.bytes))
  | .directory => inferInstanceAs (Decidable True)
  | .file _ => inferInstanceAs (Decidable True)
  | .special _ => inferInstanceAs (Decidable True)

/-- Whether every entry of a tree lies in a directory and can be named and followed. -/
structure FileTree.WellFormed (t : FileTree) : Prop where
  parent : ∀ e ∈ t.entries, t.entry? e.1.parent = some .directory
  holdable : ∀ e ∈ t.entries, ∀ n ∈ e.1.names, n.Holdable
  nulFree : ∀ e ∈ t.entries, e.2.NulFree

instance (t : FileTree) : Decidable t.WellFormed :=
  decidable_of_iff
    ((∀ e ∈ t.entries, t.entry? e.1.parent = some .directory) ∧
      (∀ e ∈ t.entries, ∀ n ∈ e.1.names, n.Holdable) ∧ ∀ e ∈ t.entries, e.2.NulFree)
    ⟨fun ⟨hparent, hholdable, hnul⟩ => ⟨hparent, hholdable, hnul⟩,
      fun ⟨hparent, hholdable, hnul⟩ => ⟨hparent, hholdable, hnul⟩⟩

namespace FileTree

variable {t : FileTree} {links : Nat} {l : Location} {e : Entry}

theorem mem_entries_of_entry? (h : t.entry? l = some e) : l = .root ∨ (l, e) ∈ t.entries := by
  unfold entry? at h
  split at h
  · next hroot => exact .inl hroot
  · obtain ⟨front, back, hentries, -⟩ := List.lookup_eq_some_iff.mp h
    exact .inr (hentries ▸ List.mem_append_right front List.mem_cons_self)

namespace WellFormed

theorem holdable_of_entry? (ht : t.WellFormed) (h : t.entry? l = some e) :
    ∀ n ∈ l.names, n.Holdable := by
  rcases mem_entries_of_entry? h with rfl | hmem
  · simp [Location.root]
  · exact ht.holdable _ hmem

theorem ordinary_of_entry? (ht : t.WellFormed) (h : t.entry? l = some e) : l.Ordinary :=
  fun n hn => (ht.holdable_of_entry? h n hn).toOrdinary

theorem parent_of_entry? (ht : t.WellFormed) (h : t.entry? l = some e) :
    t.entry? l.parent = some .directory := by
  rcases mem_entries_of_entry? h with rfl | hmem
  · rfl
  · exact ht.parent _ hmem

theorem walk_names (ht : t.WellFormed) (h : t.entry? l = some .directory) (rest : List Name) :
    t.walk links ⟨.root, 0⟩ (l.names.reverse ++ rest) = t.walk links ⟨l, 0⟩ rest := by
  obtain ⟨names⟩ := l
  induction names generalizing rest with
  | nil => rfl
  | cons name outer ih =>
      have hname := ht.holdable_of_entry? h name List.mem_cons_self
      have hadmits : Place.Admits ⟨⟨outer⟩, 0⟩ name :=
        ⟨hname.ne_here, hname.ne_above, rfl, hname.length_le⟩
      have hentry : t.entry? (Location.child ⟨outer⟩ name) = some .directory := h
      rw [List.reverse_cons, List.append_assoc, ih _ (ht.parent_of_entry? h), List.singleton_append,
        walk_admitted hadmits, hentry]
      rfl

end WellFormed

end FileTree

/-- Whether the tree of a file system is well formed, and the current directory, or the innermost
one around it that is left, is in it. -/
structure FileSystem.WellFormed (fs : FileSystem) : Prop where
  tree : fs.tree.WellFormed
  place : fs.tree.entry? fs.place.location = some .directory

instance (fs : FileSystem) : Decidable fs.WellFormed :=
  decidable_of_iff
    (fs.tree.WellFormed ∧ fs.tree.entry? fs.place.location = some .directory)
    ⟨fun ⟨htree, hplace⟩ => ⟨htree, hplace⟩, fun ⟨htree, hplace⟩ => ⟨htree, hplace⟩⟩

namespace FileSystem

variable {fs : FileSystem} {p : FilePath} {l : Location} {found : Found} {kind : Kind} {name : Name}
  {e : IoError}

theorem find_of_accepted (hp : p.Accepted) :
    fs.find p = fs.tree.walk FileTree.maxLinks (FileTree.base fs.place p) p.steps := by
  rw [find, if_neg hp.nul_notMem, if_neg hp.ne_nil, if_neg (Nat.not_le.mpr hp.length_lt)]
  rfl

theorem accepted_of_find (h : fs.find p = .ok found) : p.Accepted := by
  unfold find at h
  simp only [Outcome.ite_error_eq_ok_iff] at h
  exact ⟨h.1, h.2.1, Nat.not_le.mp h.2.2.1⟩

theorem leads_of_find (h : fs.find p = .ok found) :
    fs.tree.Leads FileTree.maxLinks (FileTree.base fs.place p) p.segments found := by
  rw [find_of_accepted (accepted_of_find h), FileTree.walk_eq_ok_iff] at h
  exact h.of_thinned p.thinned_steps

theorem exists_find_of_stat (h : fs.stat p = .ok kind) : ∃ found, fs.find p = .ok found := by
  simp only [stat, Outcome.bind_eq_ok_iff] at h
  obtain ⟨found, hfound, -⟩ := h
  exact ⟨found, hfound⟩

theorem exists_isLeaf_of_stat (h : fs.stat p = .ok kind) (hkind : kind ≠ .directory) :
    ∃ found, fs.find p = .ok found ∧ found.IsLeaf := by
  simp only [stat, Outcome.bind_eq_ok_iff] at h
  obtain ⟨found, hfound, h⟩ := h
  refine ⟨found, hfound, ?_⟩
  cases found with
  | directory place =>
      cases h
      exact absurd rfl hkind
  | file l data => exact trivial
  | special l contents => exact trivial
  | vacant l => cases h

theorem stat_of_find_error (h : fs.find p = .error e) : fs.stat p = .error e := by
  rw [stat, h]
  rfl

theorem find_of_maxPath_le (hnul : 0 ∉ p.bytes) (h : FileTree.maxPath ≤ p.bytes.length) :
    fs.find p = .error .nameTooLong := by
  have hne : p.bytes ≠ [] := by
    intro hnil
    rw [hnil] at h
    exact absurd h (by decide)
  rw [find, if_neg hnul, if_neg hne, if_pos h]

theorem find_join_of_isLeaf (h : fs.find p = .ok found) (hleaf : found.IsLeaf)
    (hname : name.Ordinary) (hnul : 0 ∉ name) :
    fs.find (p.join ⟨name⟩) = .error .notDirectory ∨
      fs.find (p.join ⟨name⟩) = .error .nameTooLong := by
  have hp := accepted_of_find h
  have hrelative := FilePath.isAbsolute_mk hname
  have hnul' := FilePath.nul_notMem_join hrelative hp.nul_notMem hnul
  by_cases hlength : FileTree.maxPath ≤ (p.join ⟨name⟩).bytes.length
  · exact .inr (find_of_maxPath_le hnul' hlength)
  left
  have hne : (p.join ⟨name⟩).bytes ≠ [] := by
    intro hnil
    have hle := FilePath.length_le_length_join (p := p) hrelative
    rw [hnil] at hle
    exact hp.ne_nil (List.eq_nil_of_length_eq_zero (Nat.le_zero.mp hle))
  have hbase : FileTree.base fs.place (p.join ⟨name⟩) = FileTree.base fs.place p := by
    rw [FileTree.base, FilePath.isAbsolute_join hrelative]
    rfl
  rw [find_of_accepted ⟨hnul', hne, Nat.not_le.mp hlength⟩, hbase, FilePath.steps_join hname]
  exact (leads_of_find h).walk_append_of_isLeaf hleaf (List.cons_ne_nil name [])

theorem stat_congr {q : FilePath} (h : fs.find p = fs.find q) : fs.stat p = fs.stat q := by
  rw [stat, stat, h]

/-- A location that a path without the directory above spells is below the directory from which the
path is followed. -/
theorem exists_base_of_locate (hfs : fs.WellFormed) (h : fs.disk.locate p = .ok l)
    (habove : Name.above ∉ p.segments) :
    ∃ start : Location, fs.tree.entry? start = some .directory ∧
      FileTree.base fs.place p = ⟨start, 0⟩ ∧
      l.names = (p.segments.filter (· ≠ Name.here)).reverse ++ start.names := by
  rw [Disk.locate] at h
  split at h
  · next hp =>
      cases h
      refine ⟨.root, rfl, if_pos hp, ?_⟩
      rw [Location.resolve, if_pos hp, Location.foldl_step_of_notMem habove]
  · next hp =>
      simp only [disk, Outcome.bind_eq_ok_iff, Outcome.pure_eq_ok, Except.ok.injEq] at h
      obtain ⟨working, hworking, rfl⟩ := h
      split at hworking
      · next hlost =>
          cases hworking
          refine ⟨fs.place.location, hfs.place, ?_, ?_⟩
          · rw [FileTree.base, if_neg hp, ← hlost]
          · rw [Location.resolve, if_neg hp, Location.foldl_step_of_notMem habove]
      · cases hworking

/-- Each name of the location that a path spells is one of the path or one of the directory from
which the path is followed. -/
theorem ordinary_of_mem_locate (hfs : fs.WellFormed) (hlocate : fs.disk.locate p = .ok l)
    (habove : Name.above ∉ p.segments) (hnul : 0 ∉ p.bytes) :
    ∀ n ∈ l.names, n.Ordinary ∧ 0 ∉ n := by
  obtain ⟨start, hdirectory, -, hnames⟩ := exists_base_of_locate hfs hlocate habove
  intro n hn
  rw [hnames, List.mem_append, List.mem_reverse, List.mem_filter] at hn
  rcases hn with ⟨hn, hhere⟩ | hn
  · obtain ⟨hnil, hslash⟩ := FilePath.proper_of_mem_segments hn
    refine ⟨⟨hnil, hslash, by simpa using hhere, ?_⟩, ?_⟩
    · rintro rfl
      exact habove hn
    · intro hmem
      exact hnul (FilePath.mem_bytes_of_mem_segments hn hmem)
  · have hn := hfs.tree.holdable_of_entry? hdirectory n hn
    exact ⟨hn.toOrdinary, hn.nul_notMem⟩

theorem nul_notMem_path_of_locate (hfs : fs.WellFormed) (hlocate : fs.disk.locate p = .ok l)
    (habove : Name.above ∉ p.segments) (hnul : 0 ∉ p.bytes) : 0 ∉ l.path.bytes := by
  intro hmem
  rcases Location.mem_bytes_path hmem with hslash | ⟨n, hn, hmem⟩
  · exact absurd hslash (by decide)
  · exact (ordinary_of_mem_locate hfs hlocate habove hnul n hn).2 hmem

/-- The path of the location that a path spells, if it is not too long, leads where the path does
unless that one goes to a directory above. -/
theorem find_path_of_find (hfs : fs.WellFormed) (hlocate : fs.disk.locate p = .ok l)
    (habove : Name.above ∉ p.segments) (hlength : l.path.bytes.length < FileTree.maxPath)
    (hfind : fs.find p = .ok found) : fs.find l.path = .ok found := by
  obtain ⟨start, hdirectory, hbase, hnames⟩ := exists_base_of_locate hfs hlocate habove
  have hnul := (accepted_of_find hfind).nul_notMem
  have hordinary : l.Ordinary := fun n hn =>
    (ordinary_of_mem_locate hfs hlocate habove hnul n hn).1
  have haccepted : l.path.Accepted :=
    ⟨nul_notMem_path_of_locate hfs hlocate habove hnul, List.cons_ne_nil _ _, hlength⟩
  have hrest := ((leads_of_find hfind).of_thinned (FileTree.thinned_filter _)).walk_eq
  rw [hbase] at hrest
  rw [find_of_accepted haccepted, FileTree.base, if_pos (Location.isAbsolute_path l),
    FilePath.walk_steps_path hordinary, hnames, List.reverse_append, List.reverse_reverse,
    hfs.tree.walk_names hdirectory, hrest]

theorem stat_path_of_stat (hfs : fs.WellFormed) (hlocate : fs.disk.locate p = .ok l)
    (habove : Name.above ∉ p.segments) (hlength : l.path.bytes.length < FileTree.maxPath)
    (hstat : fs.stat p = .ok kind) : fs.stat l.path = .ok kind := by
  obtain ⟨found, hfound⟩ := exists_find_of_stat hstat
  rw [stat_congr ((find_path_of_find hfs hlocate habove hlength hfound).trans hfound.symm), hstat]

end FileSystem

end GoModules
