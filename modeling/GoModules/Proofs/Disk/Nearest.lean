import GoModules.Disk.Manifest
import GoModules.FileTree.Basic
import GoModules.Proofs.FilePath.Location
import GoModules.Proofs.Outcome

/-!
# The nearest manifest

A search goes past the directories in which nothing, or a directory, has the name of the manifest,
and stops at the first one where that is not so. What is there decides: what is no directory is the
manifest, and what keeps one from seeing whether it is one is an error. The search looks once into
each directory that it comes to.
-/

namespace GoModules

open Outcome

theorem Manifest.ordinary_fileName : Manifest.fileName.Ordinary := by
  decide

namespace Location

variable {l l' : Location}

theorem parent_manifestPath (h : l.Ordinary) : l.manifestPath.parent = l.path :=
  FilePath.parent_join h Manifest.ordinary_fileName

theorem manifestPath_injective (h : l.Ordinary) (h' : l'.Ordinary)
    (heq : l.manifestPath = l'.manifestPath) : l = l' := by
  have hparents := congrArg FilePath.parent heq
  rw [parent_manifestPath h, parent_manifestPath h'] at hparents
  exact path_injective h h' hparents

end Location

namespace Disk

variable {d : Disk} {names outer : List Name} {name : Name} {l l' dir here : Location}
  {start : FilePath}

/-- Whether the current directory, if it can be looked up, is spelled by ordinary names. -/
def Placed (d : Disk) : Prop :=
  ∀ l, d.workingDirectory = .ok l → l.Ordinary

theorem ordinary_of_locate (hd : d.Placed) {p : FilePath} (h : d.locate p = .ok l) :
    l.Ordinary := by
  unfold locate at h
  split at h
  · cases h
    exact Location.ordinary_resolve Location.ordinary_root p
  · simp only [bind_eq_ok_iff, pure_eq_ok, Except.ok.injEq] at h
    obtain ⟨working, hworking, rfl⟩ := h
    exact Location.ordinary_resolve (hd working hworking) p

/-- Whether there is no manifest in a directory, though a directory may have its name. -/
def Skippable (d : Disk) (l : Location) : Prop :=
  d.stat l.manifestPath = .ok .directory ∨ d.stat l.manifestPath = .error .noEntry

instance (d : Disk) (l : Location) : Decidable (d.Skippable l) :=
  inferInstanceAs (Decidable (_ ∨ _))

/-- Whether there is a manifest in a directory: whatever has its name and is no directory. -/
def HasManifest (d : Disk) (l : Location) : Prop :=
  ∃ kind, d.stat l.manifestPath = .ok kind ∧ kind ≠ .directory

theorem HasManifest.not_skippable (h : d.HasManifest l) : ¬ d.Skippable l := by
  obtain ⟨kind, hstat, hkind⟩ := h
  rw [Skippable, hstat]
  simpa using hkind

theorem hasManifest_of_not_skippable {kind : Kind} (h : ¬ d.Skippable l)
    (hstat : d.stat l.manifestPath = .ok kind) : d.HasManifest l := by
  refine ⟨kind, hstat, ?_⟩
  rintro rfl
  exact h (.inl hstat)

/-- The nearest directory, at or above the one with the given names, that a search does not go
past. -/
structure StopsAt (d : Disk) (names : List Name) (l : Location) : Prop where
  above : l.names <:+ names
  not_skippable : ¬ d.Skippable l
  nearest : ∀ m : Location, m.names <:+ names → l.names.length < m.names.length → d.Skippable m

theorem StopsAt.unique (h : d.StopsAt names l) (h' : d.StopsAt names l') : l = l' := by
  have hlength : l.names.length = l'.names.length := by
    rcases Nat.lt_trichotomy l.names.length l'.names.length with hlt | heq | hgt
    · exact absurd (h.nearest l' h'.above hlt) h'.not_skippable
    · exact heq
    · exact absurd (h'.nearest l h.above hgt) h.not_skippable
  obtain ⟨lnames⟩ := l
  obtain ⟨lnames'⟩ := l'
  have hsuffix : lnames <:+ lnames' :=
    List.suffix_of_suffix_length_le h.above h'.above (Nat.le_of_eq hlength)
  exact congrArg Location.mk (hsuffix.eq_of_length hlength)

theorem stopsAt_self (h : ¬ d.Skippable ⟨names⟩) : d.StopsAt names ⟨names⟩ := by
  refine ⟨List.suffix_refl names, h, ?_⟩
  intro m hm hlt
  exact absurd hm.length_le (Nat.not_le.mpr hlt)

theorem stopsAt_cons_iff (h : d.Skippable ⟨name :: outer⟩) :
    d.StopsAt (name :: outer) l ↔ d.StopsAt outer l := by
  constructor
  · rintro ⟨habove, hstop, hnearest⟩
    refine ⟨?_, hstop, fun m hm => hnearest m (hm.trans (List.suffix_cons name outer))⟩
    rcases List.suffix_cons_iff.mp habove with heq | habove
    · obtain rfl : l = ⟨name :: outer⟩ := congrArg Location.mk heq
      exact absurd h hstop
    · exact habove
  · rintro ⟨habove, hstop, hnearest⟩
    refine ⟨habove.trans (List.suffix_cons name outer), hstop, ?_⟩
    intro m hm hlt
    rcases List.suffix_cons_iff.mp hm with heq | hm
    · obtain rfl : m = ⟨name :: outer⟩ := congrArg Location.mk heq
      exact h
    · exact hnearest m hm hlt

/-- From directory to directory, up to one that is not gone past, or to the root. -/
theorem climb (d : Disk) {motive : List Name → Prop}
    (stop : ∀ names, ¬ d.Skippable ⟨names⟩ → motive names)
    (top : d.Skippable .root → motive [])
    (up : ∀ name outer, d.Skippable ⟨name :: outer⟩ → motive outer → motive (name :: outer))
    (names : List Name) : motive names := by
  induction names with
  | nil =>
      by_cases h : d.Skippable .root
      · exact top h
      · exact stop [] h
  | cons name outer ih =>
      by_cases h : d.Skippable ⟨name :: outer⟩
      · exact up name outer h ih
      · exact stop (name :: outer) h

theorem not_stopsAt_nil (h : d.Skippable .root) : ¬ d.StopsAt [] l := by
  intro hl
  obtain rfl : l = .root := congrArg Location.mk (List.suffix_nil.mp hl.above)
  exact hl.not_skippable h

/-- A search stops somewhere unless it goes past the root too. -/
theorem exists_stopsAt_or_forall_skippable (d : Disk) (names : List Name) :
    (∃ l, d.StopsAt names l) ∨ ∀ m : Location, m.names <:+ names → d.Skippable m := by
  induction names using d.climb with
  | stop names h => exact .inl ⟨⟨names⟩, stopsAt_self h⟩
  | top h =>
      right
      intro m hm
      obtain rfl : m = .root := congrArg Location.mk (List.suffix_nil.mp hm)
      exact h
  | up name outer h ih =>
      rcases ih with ⟨l, hl⟩ | hall
      · exact .inl ⟨l, (stopsAt_cons_iff h).mpr hl⟩
      · right
        intro m hm
        rcases List.suffix_cons_iff.mp hm with heq | hm
        · obtain rfl : m = ⟨name :: outer⟩ := congrArg Location.mk heq
          exact h
        · exact hall m hm

theorem probe_bind_of_skippable {α : Type} (h : d.Skippable l) (found past : Except LoadError α) :
    (do
      match ← d.probe l with
      | .manifest => found
      | _ => past) = past := by
  unfold probe
  rcases h with h | h
  · rw [h]
    rfl
  · rw [h]
    rfl

theorem probe_bind_of_not_skippable {α : Type} (h : ¬ d.Skippable l)
    (found past : Except LoadError α) :
    (do
      match ← d.probe l with
      | .manifest => found
      | _ => past) =
      match d.stat l.manifestPath with
      | .ok _ => found
      | .error e => .error (.io l.manifestPath e) := by
  rw [Skippable, not_or] at h
  unfold probe
  split
  · next hstat => exact absurd hstat h.1
  · next hstat =>
      rw [hstat]
      rfl
  · next hstat => exact absurd hstat h.2
  · next hstat =>
      rw [hstat]
      rfl

theorem nearest?_nil_of_skippable (h : d.Skippable .root) : d.nearest? [] = .ok none :=
  probe_bind_of_skippable h _ _

theorem nearest?_cons_of_skippable (h : d.Skippable ⟨name :: outer⟩) :
    d.nearest? (name :: outer) = d.nearest? outer :=
  probe_bind_of_skippable h _ _

theorem nearest?_of_not_skippable (h : ¬ d.Skippable ⟨names⟩) :
    d.nearest? names =
      match d.stat (Location.manifestPath ⟨names⟩) with
      | .ok _ => .ok (some ⟨names⟩)
      | .error e => .error (.io (Location.manifestPath ⟨names⟩) e) := by
  cases names with
  | nil => exact probe_bind_of_not_skippable h _ _
  | cons name outer => exact probe_bind_of_not_skippable h _ _

/-- What is at the place of the manifest where a search stops decides what comes of it. -/
theorem nearest?_of_stopsAt (h : d.StopsAt names l) :
    d.nearest? names =
      match d.stat l.manifestPath with
      | .ok _ => .ok (some l)
      | .error e => .error (.io l.manifestPath e) := by
  induction names using d.climb with
  | stop names hstop =>
      obtain rfl := h.unique (stopsAt_self hstop)
      exact nearest?_of_not_skippable hstop
  | top hskip => exact absurd h (not_stopsAt_nil hskip)
  | up name outer hskip ih =>
      rw [nearest?_cons_of_skippable hskip]
      exact ih ((stopsAt_cons_iff hskip).mp h)

theorem nearest?_of_forall_skippable
    (h : ∀ m : Location, m.names <:+ names → d.Skippable m) : d.nearest? names = .ok none := by
  induction names with
  | nil => exact nearest?_nil_of_skippable (h .root (List.suffix_refl []))
  | cons name outer ih =>
      rw [nearest?_cons_of_skippable (h ⟨name :: outer⟩ (List.suffix_refl _))]
      exact ih fun m hm => h m (hm.trans (List.suffix_cons name outer))

/-- The directory in which a search from a location begins: the one around it if it is a file. -/
def enclosing (d : Disk) (l : Location) : Location :=
  if d.isFile l.path then l.parent else l

theorem searchStart_of_locate (h : d.locate start = .ok here) :
    d.searchStart start = .ok (d.enclosing here) := by
  rw [searchStart, h]
  rfl

theorem ordinary_enclosing (h : here.Ordinary) : (d.enclosing here).Ordinary := by
  unfold enclosing
  split
  · exact h.of_suffix (List.tail_suffix here.names)
  · exact h

theorem moduleRoot_of_stopsAt (hstart : d.searchStart start = .ok dir)
    (h : d.StopsAt dir.names l) :
    d.moduleRoot start =
      match d.stat l.manifestPath with
      | .ok _ => .ok l
      | .error e => .error (.io l.manifestPath e) := by
  rw [moduleRoot, hstart, ok_bind, nearest?_of_stopsAt h]
  cases d.stat l.manifestPath with
  | ok kind => rfl
  | error e => rfl

theorem moduleRoot_of_forall_skippable (hstart : d.searchStart start = .ok dir)
    (h : ∀ m : Location, m.names <:+ dir.names → d.Skippable m) :
    d.moduleRoot start = .error (.notFound start) := by
  rw [moduleRoot, hstart, ok_bind, nearest?_of_forall_skippable h]
  rfl

/-- A search ends with a manifest or an error where it stops, or else without either. -/
theorem moduleRoot_cases (hstart : d.searchStart start = .ok dir) :
    (∃ l, d.StopsAt dir.names l ∧ d.HasManifest l ∧ d.moduleRoot start = .ok l) ∨
    (∃ l e, d.StopsAt dir.names l ∧ d.stat l.manifestPath = .error e ∧
      d.moduleRoot start = .error (.io l.manifestPath e)) ∨
    (∀ m : Location, m.names <:+ dir.names → d.Skippable m) ∧
      d.moduleRoot start = .error (.notFound start) := by
  rcases exists_stopsAt_or_forall_skippable d dir.names with ⟨l, hl⟩ | hall
  · have hroot := moduleRoot_of_stopsAt hstart hl
    cases hstat : d.stat l.manifestPath with
    | ok kind =>
        rw [hstat] at hroot
        exact .inl ⟨l, hl, hasManifest_of_not_skippable hl.not_skippable hstat, hroot⟩
    | error e =>
        rw [hstat] at hroot
        exact .inr (.inl ⟨l, e, hl, hstat, hroot⟩)
  · exact .inr (.inr ⟨hall, moduleRoot_of_forall_skippable hstart hall⟩)

theorem findManifest_of_moduleRoot (h : d.moduleRoot start = .ok l) :
    d.findManifest start = .ok l.manifestPath := by
  rw [findManifest, h]
  rfl

theorem findManifest_of_moduleRoot_error {e : LoadError} (h : d.moduleRoot start = .error e) :
    d.findManifest start = .error e := by
  rw [findManifest, h]
  rfl

/-- A search ends at once with an error that keeps it from looking for a manifest at its start. -/
theorem findManifest_of_stat_error {e : IoError} (hlocate : d.locate start = .ok here)
    (hfile : ¬ d.isFile here.path) (hstat : d.stat here.manifestPath = .error e)
    (he : e ≠ .noEntry) : d.findManifest start = .error (.io here.manifestPath e) := by
  have hskip : ¬ d.Skippable here := by
    rw [Skippable, hstat]
    simpa using he
  have hstart := searchStart_of_locate hlocate
  rw [enclosing, if_neg hfile] at hstart
  have hroot := moduleRoot_of_stopsAt hstart (stopsAt_self hskip)
  rw [hstat] at hroot
  exact findManifest_of_moduleRoot_error hroot

theorem moduleRoot_eq_ok_iff (hstart : d.searchStart start = .ok dir) :
    d.moduleRoot start = .ok l ↔ d.StopsAt dir.names l ∧ d.HasManifest l := by
  constructor
  · intro h
    rcases moduleRoot_cases hstart with ⟨m, hm, hthere, hroot⟩ | ⟨m, e, -, -, hroot⟩ | ⟨-, hroot⟩
    · rw [hroot, Except.ok.injEq] at h
      exact h ▸ ⟨hm, hthere⟩
    · rw [hroot] at h
      cases h
    · rw [hroot] at h
      cases h
  · rintro ⟨hstop, kind, hstat, -⟩
    rw [moduleRoot_of_stopsAt hstart hstop, hstat]

theorem governing_eq_ok_iff {m : Manifest} :
    d.governing start = .ok (l, m) ↔
      d.moduleRoot start = .ok l ∧ d.readManifest l.manifestPath = .ok m := by
  simp only [governing, bind_eq_ok_iff, pure_eq_ok, Except.ok.injEq, Prod.mk.injEq]
  constructor
  · rintro ⟨root, hroot, _, hm, rfl, rfl⟩
    exact ⟨hroot, hm⟩
  · rintro ⟨hroot, hm⟩
    exact ⟨l, hroot, m, hm, rfl, rfl⟩

theorem findManifest_eq_ok_iff (hdir : dir.Ordinary) (hstart : d.searchStart start = .ok dir)
    (hl : l.names <:+ dir.names) :
    d.findManifest start = .ok l.manifestPath ↔ d.StopsAt dir.names l ∧ d.HasManifest l := by
  rw [← moduleRoot_eq_ok_iff hstart]
  constructor
  · intro h
    simp only [findManifest, bind_eq_ok_iff, pure_eq_ok, Except.ok.injEq] at h
    obtain ⟨m, hroot, hpath⟩ := h
    have hm := ((moduleRoot_eq_ok_iff hstart).mp hroot).1
    obtain rfl :=
      Location.manifestPath_injective (hdir.of_suffix hm.above) (hdir.of_suffix hl) hpath
    exact hroot
  · exact findManifest_of_moduleRoot

theorem findManifest_eq_io_iff (hdir : dir.Ordinary) (hstart : d.searchStart start = .ok dir)
    (hl : l.names <:+ dir.names) (e : IoError) :
    d.findManifest start = .error (.io l.manifestPath e) ↔
      d.StopsAt dir.names l ∧ d.stat l.manifestPath = .error e := by
  constructor
  · intro h
    rcases moduleRoot_cases hstart with ⟨m, -, -, hroot⟩ | ⟨m, e', hm, hstat, hroot⟩ | ⟨-, hroot⟩
    · rw [findManifest_of_moduleRoot hroot] at h
      cases h
    · rw [findManifest_of_moduleRoot_error hroot, Except.error.injEq, LoadError.io.injEq] at h
      obtain ⟨hpath, rfl⟩ := h
      obtain rfl :=
        Location.manifestPath_injective (hdir.of_suffix hm.above) (hdir.of_suffix hl) hpath
      exact ⟨hm, hstat⟩
    · rw [findManifest_of_moduleRoot_error hroot] at h
      cases h
  · rintro ⟨hstop, hstat⟩
    have hroot := moduleRoot_of_stopsAt hstart hstop
    rw [hstat] at hroot
    exact findManifest_of_moduleRoot_error hroot

theorem findManifest_eq_notFound_iff (hstart : d.searchStart start = .ok dir) :
    d.findManifest start = .error (.notFound start) ↔
      ∀ m : Location, m.names <:+ dir.names → d.Skippable m := by
  constructor
  · intro h
    rcases moduleRoot_cases hstart with ⟨m, -, -, hroot⟩ | ⟨m, e, -, -, hroot⟩ | ⟨hall, -⟩
    · rw [findManifest_of_moduleRoot hroot] at h
      cases h
    · rw [findManifest_of_moduleRoot_error hroot] at h
      cases h
    · exact hall
  · intro hall
    exact findManifest_of_moduleRoot_error (moduleRoot_of_forall_skippable hstart hall)

theorem exists_moduleRoot_of_findManifest (hdir : dir.Ordinary)
    (hstart : d.searchStart start = .ok dir) {path : FilePath}
    (h : d.findManifest start = .ok path) :
    ∃ root, d.StopsAt dir.names root ∧ path = root.manifestPath ∧
      d.moduleRoot start = .ok root ∧ root.path = path.parent := by
  rcases moduleRoot_cases hstart with ⟨m, hm, -, hroot⟩ | ⟨m, e, -, -, hroot⟩ | ⟨-, hroot⟩
  · rw [findManifest_of_moduleRoot hroot, Except.ok.injEq] at h
    subst h
    exact ⟨m, hm, rfl, hroot, (Location.parent_manifestPath (hdir.of_suffix hm.above)).symm⟩
  · rw [findManifest_of_moduleRoot_error hroot] at h
    cases h
  · rw [findManifest_of_moduleRoot_error hroot] at h
    cases h

/-- The search for a manifest, with any way of looking for the one of a directory. -/
def nearestBy {m : Type → Type} [Monad m] (look : Location → m Probe) :
    (names : List Name) → m (Option Location)
  | [] => do
      match ← look .root with
      | .manifest => return some .root
      | _ => return none
  | name :: outer => do
      match ← look ⟨name :: outer⟩ with
      | .manifest => return some ⟨name :: outer⟩
      | _ => nearestBy look outer

theorem nearestBy_probe (d : Disk) (names : List Name) :
    nearestBy d.probe names = d.nearest? names := by
  induction names with
  | nil => rfl
  | cons name outer ih =>
      rw [nearestBy, ih]
      rfl

/-- Looks for the manifest of a directory and counts that. -/
def probeCounted (d : Disk) (l : Location) : ExceptT LoadError (StateM Nat) Probe := do
  modify (· + 1)
  ExceptT.mk (pure (d.probe l))

theorem run_probeCounted_bind {α : Type} (d : Disk) (l : Location)
    (f : Probe → ExceptT LoadError (StateM Nat) α) (n : Nat) :
    (d.probeCounted l >>= f).run.run n =
      match d.probe l with
      | .ok probe => (f probe).run.run (n + 1)
      | .error e => (.error e, n + 1) := by
  rw [probeCounted]
  cases d.probe l with
  | ok probe => rfl
  | error e => rfl

/-- A search looks at most once into each directory from its start up to the root. -/
theorem exists_run_nearestBy_probeCounted (d : Disk) (names : List Name) (n : Nat) :
    ∃ k ≤ names.length + 1,
      (nearestBy d.probeCounted names).run.run n = (d.nearest? names, n + k) := by
  induction names generalizing n with
  | nil =>
      refine ⟨1, Nat.le_refl 1, ?_⟩
      rw [nearestBy, nearest?, run_probeCounted_bind]
      cases d.probe .root with
      | error e => rfl
      | ok probe => cases probe <;> rfl
  | cons name outer ih =>
      have hfurther : ∃ k ≤ outer.length + 2,
          (nearestBy d.probeCounted outer).run.run (n + 1) = (d.nearest? outer, n + k) := by
        obtain ⟨k, hk, hrun⟩ := ih (n + 1)
        refine ⟨1 + k, by omega, ?_⟩
        rw [hrun, Nat.add_assoc]
      rw [nearestBy, nearest?, run_probeCounted_bind]
      cases d.probe ⟨name :: outer⟩ with
      | error e => exact ⟨1, by simp, rfl⟩
      | ok probe =>
          cases probe with
          | manifest => exact ⟨1, by simp, rfl⟩
          | directory => exact hfurther
          | nothing => exact hfurther

/-- A search finds the manifest at the nearest place where it stops, or the error that keeps it from
seeing what is there. It finds nothing just when it goes past every directory up to the root. The
root of the module is the directory of the manifest that was found. -/
theorem findManifest_iff_nearest (hd : d.Placed) (h : d.locate start = .ok here) :
    (∀ l : Location, l.names <:+ (d.enclosing here).names →
      (d.findManifest start = .ok l.manifestPath ↔
        d.StopsAt (d.enclosing here).names l ∧ d.HasManifest l) ∧
      ∀ e, d.findManifest start = .error (.io l.manifestPath e) ↔
        d.StopsAt (d.enclosing here).names l ∧ d.stat l.manifestPath = .error e) ∧
    (d.findManifest start = .error (.notFound start) ↔
      ∀ l : Location, l.names <:+ (d.enclosing here).names → d.Skippable l) ∧
    (∀ path, d.findManifest start = .ok path →
      ∃ root, d.StopsAt (d.enclosing here).names root ∧ path = root.manifestPath ∧
        d.moduleRoot start = .ok root ∧ root.path = path.parent) ∧
    nearestBy d.probe (d.enclosing here).names = d.nearest? (d.enclosing here).names ∧
    ∃ k ≤ (d.enclosing here).names.length + 1,
      (nearestBy d.probeCounted (d.enclosing here).names).run.run 0 =
        (d.nearest? (d.enclosing here).names, k) := by
  have hstart := searchStart_of_locate h
  have hdir : (d.enclosing here).Ordinary := ordinary_enclosing (ordinary_of_locate hd h)
  refine ⟨?_, findManifest_eq_notFound_iff hstart, ?_, nearestBy_probe d _, ?_⟩
  · intro l hl
    exact ⟨findManifest_eq_ok_iff hdir hstart hl, findManifest_eq_io_iff hdir hstart hl⟩
  · intro path hpath
    exact exists_moduleRoot_of_findManifest hdir hstart hpath
  · obtain ⟨k, hk, hrun⟩ := exists_run_nearestBy_probeCounted d (d.enclosing here).names 0
    exact ⟨k, hk, by rwa [Nat.zero_add] at hrun⟩

/-- A tree in which a directory has the name of a manifest, seen from around that directory. -/
def shadowed : FileSystem where
  tree.entries := [
    (FilePath.location (.ofText "/go.mod".toList), .file (Utf8.encode "module x.org/m\n".toList)),
    (FilePath.location (.ofText "/w".toList), .directory),
    (FilePath.location (.ofText "/w/go.mod".toList), .directory),
    (FilePath.location (.ofText "/w/go.mod/s".toList), .directory),
    (FilePath.location (.ofText "/w/go.mod/s/f".toList), .file [])]
  place := ⟨FilePath.location (.ofText "/w".toList), 0⟩

theorem findManifest_iff_nearest_shadowed :
    shadowed.disk.Placed ∧
      shadowed.disk.locate (.ofText "go.mod/s/f".toList) =
        .ok (FilePath.location (.ofText "/w/go.mod/s/f".toList)) ∧
      shadowed.disk.findManifest (.ofText "go.mod/s/f".toList) =
        .ok (.ofText "/go.mod".toList) := by
  have hd : shadowed.disk.Placed := by
    rintro l ⟨⟩
    exact FilePath.ordinary_location _
  have h : shadowed.disk.locate (.ofText "go.mod/s/f".toList) =
      .ok (FilePath.location (.ofText "/w/go.mod/s/f".toList)) := by
    decide +kernel
  have hstop : shadowed.disk.StopsAt
      (shadowed.disk.enclosing (FilePath.location (.ofText "/w/go.mod/s/f".toList))).names
      .root := by
    have hnames :
        (shadowed.disk.enclosing (FilePath.location (.ofText "/w/go.mod/s/f".toList))).names =
          [Utf8.encode "s".toList, Manifest.fileName, Utf8.encode "w".toList] := by
      decide +kernel
    rw [hnames, stopsAt_cons_iff (by decide +kernel), stopsAt_cons_iff (by decide +kernel),
      stopsAt_cons_iff (by decide +kernel)]
    exact stopsAt_self (by decide +kernel)
  have hmanifest : shadowed.disk.HasManifest .root := ⟨.file, by decide +kernel, by decide⟩
  have hfound := ((findManifest_iff_nearest hd h).1 .root hstop.above).1.mpr ⟨hstop, hmanifest⟩
  exact ⟨hd, h, hfound⟩

end Disk

end GoModules
