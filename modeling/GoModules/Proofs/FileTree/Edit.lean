import GoModules.FileTree.Edit
import GoModules.Proofs.FileTree.Stat

/-!
# Changing well-formed file systems

What a path leads to in a well-formed file system is an entry of it, or a place in one of its
directories where an entry can be put. So each change keeps a file system well formed, and whatever
is made of an empty one by changes is well formed.
-/

namespace GoModules

open FilePath (slash)

namespace Found

/-- Whether what was found is in a tree, or can be put there. -/
def In (t : FileTree) : Found → Prop
  | .directory p => t.entry? p.location = some .directory
  | .file l data => t.entry? l = some (.file data)
  | .special l contents => t.entry? l = some (.special contents)
  | .vacant l =>
      t.entry? l = none ∧ t.entry? l.parent = some .directory ∧ ∀ n ∈ l.names, n.Holdable

end Found

theorem FilePath.spec_of_mem_steps {p : FilePath} (hp : 0 ∉ p.bytes) {n : Name} (hn : n ∈ p.steps) :
    n ≠ [] ∧ slash ∉ n ∧ 0 ∉ n := by
  have hsegment : n ∈ p.segments → n ≠ [] ∧ slash ∉ n ∧ 0 ∉ n := by
    intro hn
    obtain ⟨hnil, hslash⟩ := proper_of_mem_segments hn
    exact ⟨hnil, hslash, fun hnul => hp (mem_bytes_of_mem_segments hn hnul)⟩
  unfold steps at hn
  split at hn
  · rcases List.mem_append.mp hn with hn | hn
    · exact hsegment hn
    · rw [List.mem_singleton.mp hn]
      decide
  · exact hsegment hn

namespace FileTree

variable {t : FileTree} {links : Nat} {p : Place} {names : List Name} {found : Found}
  {l m : Location} {e : Entry}

/-- Following names from a directory stays in the tree. -/
theorem WellFormed.in_of_leads (ht : t.WellFormed) (h : t.Leads links p names found)
    (hp : t.entry? p.location = some .directory)
    (hnames : ∀ n ∈ names, n ≠ [] ∧ slash ∉ n ∧ 0 ∉ n) : found.In t := by
  induction h with
  | done => exact hp
  | here _ ih => exact ih hp (List.forall_mem_cons.mp hnames).2
  | @above _ p _ _ _ ih =>
      refine ih ?_ (List.forall_mem_cons.mp hnames).2
      obtain ⟨l, lost⟩ := p
      cases lost with
      | zero => exact ht.parent_of_entry? hp
      | succ lost => exact hp
  | @vacant _ p name hname hentry =>
      obtain ⟨hnil, hslash, hnul⟩ := hnames name List.mem_cons_self
      refine ⟨hentry, hp, List.forall_mem_cons.mpr ⟨?_, ht.holdable_of_entry? hp⟩⟩
      exact ⟨⟨hnil, hslash, hname.ne_here, hname.ne_above⟩, hnul, hname.length_le⟩
  | file _ hentry => exact hentry
  | special _ hentry => exact hentry
  | directory _ hentry _ ih => exact ih hentry (List.forall_mem_cons.mp hnames).2
  | @link _ p _ rest _ target _ hentry _ ih =>
      have hnul : 0 ∉ target.bytes := by
        rcases mem_entries_of_entry? hentry with hroot | hmem
        · cases hroot
        · exact ht.nulFree _ hmem
      apply ih
      · unfold base
        split
        · rfl
        · exact hp
      · intro n hn
        rcases List.mem_append.mp hn with hn | hn
        · exact FilePath.spec_of_mem_steps hnul hn
        · exact hnames n (List.mem_cons_of_mem _ hn)

theorem lookup_filter {entries : List (Location × Entry)} {q : Location → Bool} (h : q l) :
    (entries.filter (q ·.1)).lookup l = entries.lookup l := by
  induction entries with
  | nil => rfl
  | cons entry entries ih =>
      obtain ⟨m, e⟩ := entry
      by_cases hm : q m
      · rw [List.filter_cons_of_pos (by simpa using hm), List.lookup_cons, List.lookup_cons, ih]
      · have hne : (l == m) = false := by
          rw [beq_eq_false_iff_ne]
          rintro rfl
          exact hm h
        rw [List.filter_cons_of_neg (by simpa using hm), List.lookup_cons, hne, ih]

theorem entry?_filter {entries : List (Location × Entry)} {q : Location → Bool} (h : q l) :
    entry? ⟨entries.filter (q ·.1)⟩ l = entry? ⟨entries⟩ l := by
  unfold entry?
  rw [lookup_filter h]

end FileTree

namespace FileSystem

variable {fs fs' : FileSystem} {p : FilePath} {l m : Location} {e : Entry} {found : Found}
  {data : Bytes} {target : FilePath} {names : List Name} {absolute : Bool}

theorem WellFormed.in_of_find (hfs : fs.WellFormed) (h : fs.find p = .ok found) :
    found.In fs.tree := by
  have hp := accepted_of_find h
  rw [find_of_accepted hp, FileTree.walk_eq_ok_iff] at h
  refine hfs.tree.in_of_leads h ?_ (fun n hn => FilePath.spec_of_mem_steps hp.nul_notMem hn)
  unfold FileTree.base
  split
  · rfl
  · exact hfs.place

theorem entry?_put_of_ne (h : m ≠ l) : FileTree.entry? (fs.put l e).tree m = fs.tree.entry? m := by
  have hfilter : FileTree.entry? ⟨fs.tree.entries.filter (·.1 ≠ l)⟩ m = fs.tree.entry? m :=
    FileTree.entry?_filter (q := fun k => decide (k ≠ l)) (by simpa using h)
  have hne : (m == l) = false := beq_eq_false_iff_ne.mpr h
  rw [← hfilter, put, FileTree.entry?, FileTree.entry?, List.lookup_cons, hne]

/-- An entry can be put where there is none, or in place of one that is not a directory. -/
theorem WellFormed.put (hfs : fs.WellFormed) (hl : fs.tree.entry? l ≠ some .directory)
    (hparent : fs.tree.entry? l.parent = some .directory) (hholdable : ∀ n ∈ l.names, n.Holdable)
    (he : e.NulFree) : (fs.put l e).WellFormed := by
  -- No directory is replaced, so all entries still lie in directories.
  have hkept : ∀ {m}, fs.tree.entry? m = some .directory →
      FileTree.entry? (fs.put l e).tree m = some .directory := by
    intro m hm
    rw [entry?_put_of_ne, hm]
    rintro rfl
    exact hl hm
  refine ⟨⟨?_, ?_, ?_⟩, hkept hfs.place⟩
  · intro entry hentry
    rcases List.mem_cons.mp hentry with rfl | hentry
    · exact hkept hparent
    · exact hkept (hfs.tree.parent entry (List.mem_of_mem_filter hentry))
  · intro entry hentry
    rcases List.mem_cons.mp hentry with rfl | hentry
    · exact hholdable
    · exact hfs.tree.holdable entry (List.mem_of_mem_filter hentry)
  · intro entry hentry
    rcases List.mem_cons.mp hentry with rfl | hentry
    · exact he
    · exact hfs.tree.nulFree entry (List.mem_of_mem_filter hentry)

theorem WellFormed.put_of_find (hfs : fs.WellFormed)
    (h : fs.find p = .ok (.vacant l) ∨ ∃ data, fs.find p = .ok (.file l data)) (he : e.NulFree) :
    (fs.put l e).WellFormed := by
  rcases h with h | ⟨data, h⟩
  · obtain ⟨hnone, hparent, hholdable⟩ := hfs.in_of_find h
    exact hfs.put (by simp [hnone]) hparent hholdable he
  · have hfile : fs.tree.entry? l = some (.file data) := hfs.in_of_find h
    exact hfs.put (by simp [hfile]) (hfs.tree.parent_of_entry? hfile)
      (hfs.tree.holdable_of_entry? hfile) he

theorem WellFormed.makeDirectory? (hfs : fs.WellFormed) (h : fs.makeDirectory? p = some fs') :
    fs'.WellFormed := by
  unfold FileSystem.makeDirectory? at h
  split at h
  · next hfound =>
      cases h
      exact hfs.put_of_find (.inl hfound) trivial
  · cases h
    exact hfs
  · cases h

theorem WellFormed.makeDirectories? (hfs : fs.WellFormed)
    (h : fs.makeDirectories? absolute names = some fs') : fs'.WellFormed := by
  unfold FileSystem.makeDirectories? at h
  generalize List.range names.length = indices at h
  induction indices generalizing fs with
  | nil =>
      cases h
      exact hfs
  | cons i indices ih =>
      rw [List.foldlM_cons, Option.bind_eq_bind, Option.bind_eq_some_iff] at h
      obtain ⟨next, hnext, h⟩ := h
      exact ih (hfs.makeDirectory? hnext) h

theorem WellFormed.write (hfs : fs.WellFormed) (h : fs.write p data = some fs') :
    fs'.WellFormed := by
  rw [FileSystem.write, Option.bind_eq_bind, Option.bind_eq_some_iff] at h
  obtain ⟨next, hnext, h⟩ := h
  have hnext := hfs.makeDirectories? hnext
  split at h
  · next hfound =>
      cases h
      exact hnext.put_of_find (.inl hfound) trivial
  · next hfound =>
      cases h
      exact hnext.put_of_find (.inr ⟨_, hfound⟩) trivial
  · cases h
    exact hnext
  · cases h

theorem WellFormed.spec_of_place? (hfs : fs.WellFormed) (h : fs.place? p = some l) :
    fs.tree.entry? l.parent = some .directory ∧ (∀ n ∈ l.names, n.Holdable) ∧ l ≠ .root := by
  simp only [place?] at h
  split at h
  · next outer name hfound hlast =>
      split at h
      · cases h
      · next hname =>
          cases h
          rw [not_or, not_or, not_or, Nat.not_lt] at hname
          obtain ⟨hhere, habove, hnul, hlength⟩ := hname
          have houter : fs.tree.entry? outer = some .directory := hfs.in_of_find hfound
          obtain ⟨hnil, hslash⟩ :=
            FilePath.proper_of_mem_segments (List.mem_of_mem_getLast? hlast)
          refine ⟨houter, List.forall_mem_cons.mpr ⟨?_, hfs.tree.holdable_of_entry? houter⟩, ?_⟩
          · exact ⟨⟨hnil, hslash, hhere, habove⟩, hnul, hlength⟩
          · intro hroot
            cases hroot
  · cases h

theorem WellFormed.link (hfs : fs.WellFormed) (h : fs.link target p = some fs') :
    fs'.WellFormed := by
  rw [FileSystem.link, Option.bind_eq_bind, Option.bind_eq_some_iff] at h
  obtain ⟨l, hl, h⟩ := h
  obtain ⟨hparent, hholdable, -⟩ := hfs.spec_of_place? hl
  split at h
  · cases h
  · next hvacant =>
      split at h
      · cases h
      · next htarget =>
          cases h
          rw [not_or] at htarget
          refine hfs.put ?_ hparent hholdable htarget.1
          rw [Option.not_isSome_iff_eq_none.mp hvacant]
          simp

theorem isWithin_iff : m.isWithin l ↔ l.names <:+ m.names :=
  List.isSuffixOf_iff_suffix

theorem WellFormed.remove (hfs : fs.WellFormed) (h : fs.remove p = some fs') :
    fs'.WellFormed := by
  simp only [FileSystem.remove, Option.bind_eq_bind, Option.bind_eq_some_iff] at h
  obtain ⟨l, hl, e, he, h⟩ := h
  cases h
  obtain ⟨hparent, -, hroot⟩ := hfs.spec_of_place? hl
  have hkept : ∀ {m}, ¬ m.isWithin l → fs.tree.entry? m = some .directory →
      FileTree.entry? ⟨fs.tree.entries.filter (! ·.1.isWithin l)⟩ m = some .directory := by
    intro m hm hentry
    rw [← hentry]
    exact FileTree.entry?_filter (q := (! ·.isWithin l)) (by simpa using hm)
  have houter : ¬ l.parent.isWithin l := by
    rw [isWithin_iff]
    intro hsuffix
    obtain ⟨names⟩ := l
    cases names with
    | nil => exact hroot rfl
    | cons name outer => exact absurd hsuffix.length_le (Nat.not_succ_le_self outer.length)
  refine ⟨⟨?_, ?_, ?_⟩, ?_⟩
  · intro entry hentry
    obtain ⟨hmem, hwithin⟩ := List.mem_filter.mp hentry
    refine hkept ?_ (hfs.tree.parent entry hmem)
    rw [isWithin_iff]
    intro hsuffix
    have hwithin' : entry.1.isWithin l :=
      isWithin_iff.mpr (hsuffix.trans (List.tail_suffix entry.1.names))
    simp [hwithin'] at hwithin
  · intro entry hentry
    exact hfs.tree.holdable entry (List.mem_of_mem_filter hentry)
  · intro entry hentry
    exact hfs.tree.nulFree entry (List.mem_of_mem_filter hentry)
  · dsimp only
    split
    · exact hkept houter hparent
    · next hplace => exact hkept hplace hfs.place

theorem WellFormed.enter (hfs : fs.WellFormed) (h : fs.enter p = some fs') : fs'.WellFormed := by
  unfold FileSystem.enter at h
  split at h
  · next place hfound =>
      cases h
      exact ⟨hfs.tree, hfs.in_of_find hfound⟩
  · cases h

/-- What can be made of an empty file system. -/
inductive Built : FileSystem → Prop
  | empty : Built {}
  | makeDirectory {fs fs' : FileSystem} {p : FilePath} (h : Built fs)
      (hstep : fs.makeDirectory p = some fs') : Built fs'
  | write {fs fs' : FileSystem} {p : FilePath} {data : Bytes} (h : Built fs)
      (hstep : fs.write p data = some fs') : Built fs'
  | link {fs fs' : FileSystem} {target p : FilePath} (h : Built fs)
      (hstep : fs.link target p = some fs') : Built fs'
  | remove {fs fs' : FileSystem} {p : FilePath} (h : Built fs)
      (hstep : fs.remove p = some fs') : Built fs'
  | enter {fs fs' : FileSystem} {p : FilePath} (h : Built fs)
      (hstep : fs.enter p = some fs') : Built fs'

theorem Built.wellFormed (h : Built fs) : fs.WellFormed := by
  induction h with
  | empty => exact ⟨⟨by simp, by simp, by simp⟩, rfl⟩
  | makeDirectory _ hstep ih => exact ih.makeDirectories? hstep
  | write _ hstep ih => exact ih.write hstep
  | link _ hstep ih => exact ih.link hstep
  | remove _ hstep ih => exact ih.remove hstep
  | enter _ hstep ih => exact ih.enter hstep

end FileSystem

end GoModules
