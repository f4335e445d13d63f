import GoModules.FileTree.Basic
import GoModules.Proofs.FilePath.Location
import GoModules.Proofs.Outcome

/-!
# Following names in a tree

What following names comes to is a relation with one rule for each kind of step. From it follow two
facts about names that are put together otherwise: the name of a directory for itself can be left
out, and nothing is found below what is no directory. In a tree whose entries all lie in
directories, the names of a directory lead from the root to it.
-/

namespace GoModules

/-- Whether what was found is there and is no directory. -/
def Found.IsLeaf : Found → Prop
  | .file .. | .special .. => True
  | _ => False

/-- Whether a name can be looked up in a place: it is the name of an entry, the tree can hold it,
and the place is still there. -/
structure Place.Admits (p : Place) (name : Name) : Prop where
  ne_here : name ≠ Name.here
  ne_above : name ≠ Name.above
  not_lost : p.lost = 0
  length_le : name.length ≤ FileTree.maxName

namespace FileTree

/-- Where the target of a link is followed from. -/
def base (p : Place) (target : FilePath) : Place :=
  if target.isAbsolute then ⟨.root, 0⟩ else p

/-- What names lead to from a place when at most `links` links are met. -/
inductive Leads (t : FileTree) : (links : Nat) → Place → List Name → Found → Prop
  | done {links : Nat} {p : Place} : Leads t links p [] (.directory p)
  | here {links : Nat} {p : Place} {rest : List Name} {found : Found}
      (h : Leads t links p rest found) : Leads t links p (Name.here :: rest) found
  | above {links : Nat} {p : Place} {rest : List Name} {found : Found}
      (h : Leads t links p.parent rest found) : Leads t links p (Name.above :: rest) found
  | vacant {links : Nat} {p : Place} {name : Name} (hname : p.Admits name)
      (hentry : t.entry? (p.location.child name) = none) :
      Leads t links p [name] (.vacant (p.location.child name))
  | file {links : Nat} {p : Place} {name : Name} {data : Bytes} (hname : p.Admits name)
      (hentry : t.entry? (p.location.child name) = some (.file data)) :
      Leads t links p [name] (.file (p.location.child name) data)
  | special {links : Nat} {p : Place} {name : Name} {contents : IoError ⊕ Bytes}
      (hname : p.Admits name)
      (hentry : t.entry? (p.location.child name) = some (.special contents)) :
      Leads t links p [name] (.special (p.location.child name) contents)
  | directory {links : Nat} {p : Place} {name : Name} {rest : List Name} {found : Found}
      (hname : p.Admits name) (hentry : t.entry? (p.location.child name) = some .directory)
      (h : Leads t links ⟨p.location.child name, 0⟩ rest found) :
      Leads t links p (name :: rest) found
  | link {links : Nat} {p : Place} {name : Name} {rest : List Name} {found : Found}
      {target : FilePath} (hname : p.Admits name)
      (hentry : t.entry? (p.location.child name) = some (.link target))
      (h : Leads t links (base p target) (target.steps ++ rest) found) :
      Leads t (links + 1) p (name :: rest) found

variable {t : FileTree} {links : Nat} {p : Place} {name : Name}
  {names names' rest rest' : List Name} {found : Found} {target : FilePath}

@[simp] theorem walk_nil : t.walk links p [] = .ok (.directory p) := by
  cases links <;> rfl

@[simp] theorem walk_here : t.walk links p (Name.here :: rest) = t.walk links p rest := by
  cases links <;> simp [walk, walkWith]

@[simp] theorem walk_above :
    t.walk links p (Name.above :: rest) = t.walk links p.parent rest := by
  have hne : Name.above ≠ Name.here := by decide
  cases links <;> simp [walk, walkWith, hne]

theorem walk_admitted (h : p.Admits name) :
    t.walk links p (name :: rest) =
      match t.entry? (p.location.child name) with
      | none => if rest = [] then .ok (.vacant (p.location.child name)) else .error .noEntry
      | some .directory => t.walk links ⟨p.location.child name, 0⟩ rest
      | some (.file data) =>
          if rest = [] then .ok (.file (p.location.child name) data) else .error .notDirectory
      | some (.special contents) =>
          if rest = [] then .ok (.special (p.location.child name) contents)
          else .error .notDirectory
      | some (.link target) =>
          match links with
          | 0 => .error .linkLoop
          | links + 1 => t.walk links (base p target) (target.steps ++ rest) := by
  have hlost : ¬ p.lost ≠ 0 := not_not.mpr h.not_lost
  have hlength : ¬ maxName < name.length := Nat.not_lt.mpr h.length_le
  cases links
  all_goals
    exact (if_neg h.ne_here).trans
      ((if_neg h.ne_above).trans ((if_neg hlost).trans (if_neg hlength)))

theorem admits_of_walk (hhere : name ≠ Name.here) (habove : name ≠ Name.above)
    (h : t.walk links p (name :: rest) = .ok found) : p.Admits name := by
  have hguards : ¬ p.lost ≠ 0 ∧ ¬ maxName < name.length := by
    cases links
    all_goals
      rw [walk, walkWith, if_neg hhere, if_neg habove, Outcome.ite_error_eq_ok_iff,
        Outcome.ite_error_eq_ok_iff] at h
      exact ⟨h.1, h.2.1⟩
  exact ⟨hhere, habove, not_not.mp hguards.1, Nat.not_lt.mp hguards.2⟩

/-- One step, given what the rest of the names leads to and what a link leads to. -/
theorem leads_cons_of_walk
    (hrest : ∀ {p found}, t.walk links p rest = .ok found → t.Leads links p rest found)
    (hlink : ∀ {n p names found}, links = n + 1 → t.walk n p names = .ok found →
      t.Leads n p names found)
    (h : t.walk links p (name :: rest) = .ok found) : t.Leads links p (name :: rest) found := by
  by_cases hhere : name = Name.here
  · subst hhere
    rw [walk_here] at h
    exact .here (hrest h)
  by_cases habove : name = Name.above
  · subst habove
    rw [walk_above] at h
    exact .above (hrest h)
  have hname := admits_of_walk hhere habove h
  rw [walk_admitted hname] at h
  split at h
  · next hentry =>
      split at h
      · next hnil =>
          subst hnil
          cases h
          exact .vacant hname hentry
      · cases h
  · next hentry => exact .directory hname hentry (hrest h)
  · next data hentry =>
      split at h
      · next hnil =>
          subst hnil
          cases h
          exact .file hname hentry
      · cases h
  · next contents hentry =>
      split at h
      · next hnil =>
          subst hnil
          cases h
          exact .special hname hentry
      · cases h
  · next target hentry =>
      split at h
      · cases h
      · exact .link hname hentry (hlink rfl h)

theorem leads_of_walk (h : t.walk links p names = .ok found) : t.Leads links p names found := by
  -- The names are followed up to the first link, and from there with one link less.
  have hnames : ∀ links, (∀ {n p names found}, links = n + 1 → t.walk n p names = .ok found →
      t.Leads n p names found) → ∀ {names p found}, t.walk links p names = .ok found →
      t.Leads links p names found := by
    intro links hlink names
    induction names with
    | nil =>
        intro p found h
        rw [walk_nil, Except.ok.injEq] at h
        exact h ▸ .done
    | cons name rest ih =>
        intro p found h
        exact leads_cons_of_walk ih hlink h
  induction links generalizing p names found with
  | zero => exact hnames 0 (fun hn => by cases hn) h
  | succ links ih =>
      refine hnames (links + 1) ?_ h
      rintro n p names found ⟨⟩ hwalk
      exact ih hwalk

theorem Leads.walk_eq (h : t.Leads links p names found) : t.walk links p names = .ok found := by
  induction h with
  | done => exact walk_nil
  | here _ ih => rw [walk_here, ih]
  | above _ ih => rw [walk_above, ih]
  | vacant hname hentry => rw [walk_admitted hname, hentry]; rfl
  | file hname hentry => rw [walk_admitted hname, hentry]; rfl
  | special hname hentry => rw [walk_admitted hname, hentry]; rfl
  | directory hname hentry _ ih => rw [walk_admitted hname, hentry]; exact ih
  | link hname hentry _ ih => rw [walk_admitted hname, hentry]; exact ih

theorem walk_eq_ok_iff : t.walk links p names = .ok found ↔ t.Leads links p names found :=
  ⟨leads_of_walk, Leads.walk_eq⟩

/-- Names without some of those that a directory has for itself. -/
inductive Thinned : List Name → List Name → Prop
  | nil : Thinned [] []
  | keep {name : Name} {names names' : List Name} (h : Thinned names names') :
      Thinned (name :: names) (name :: names')
  | drop {names names' : List Name} (h : Thinned names names') :
      Thinned (Name.here :: names) names'

theorem Thinned.refl (names : List Name) : Thinned names names := by
  induction names with
  | nil => exact .nil
  | cons name names ih => exact .keep ih

theorem Thinned.prepend (h : Thinned rest rest') (names : List Name) :
    Thinned (names ++ rest) (names ++ rest') := by
  induction names with
  | nil => exact h
  | cons name names ih => exact .keep ih

theorem thinned_filter (names : List Name) : Thinned names (names.filter (· ≠ Name.here)) := by
  induction names with
  | nil => exact .nil
  | cons name names ih =>
      by_cases hhere : name = Name.here
      · subst hhere
        rw [List.filter_cons_of_neg (by simp)]
        exact .drop ih
      · rw [List.filter_cons_of_pos (by simpa using hhere)]
        exact .keep ih

theorem Thinned.eq_singleton (h : Thinned [name] names) (hname : name ≠ Name.here) :
    names = [name] := by
  cases h with
  | keep hrest =>
      cases hrest
      rfl
  | drop _ => exact absurd rfl hname

/-- Leaving out the names that a directory has for itself does not change what is found. -/
theorem Leads.of_thinned (h : t.Leads links p names found) (hnames : Thinned names names') :
    t.Leads links p names' found := by
  induction h generalizing names' with
  | done =>
      cases hnames
      exact .done
  | here _ ih =>
      cases hnames with
      | keep hrest => exact .here (ih hrest)
      | drop hrest => exact ih hrest
  | above _ ih =>
      cases hnames with
      | keep hrest => exact .above (ih hrest)
  | vacant hname hentry =>
      obtain rfl := hnames.eq_singleton hname.ne_here
      exact .vacant hname hentry
  | file hname hentry =>
      obtain rfl := hnames.eq_singleton hname.ne_here
      exact .file hname hentry
  | special hname hentry =>
      obtain rfl := hnames.eq_singleton hname.ne_here
      exact .special hname hentry
  | directory hname hentry _ ih =>
      cases hnames with
      | keep hrest => exact .directory hname hentry (ih hrest)
      | drop _ => exact absurd rfl hname.ne_here
  | link hname hentry _ ih =>
      cases hnames with
      | keep hrest => exact .link hname hentry (ih (hrest.prepend _))
      | drop _ => exact absurd rfl hname.ne_here

/-- There is nothing below what is no directory. -/
theorem Leads.walk_append_of_isLeaf (h : t.Leads links p names found) (hleaf : found.IsLeaf)
    (hrest : rest ≠ []) : t.walk links p (names ++ rest) = .error .notDirectory := by
  induction h with
  | done => exact False.elim hleaf
  | here _ ih => rw [List.cons_append, walk_here, ih hleaf]
  | above _ ih => rw [List.cons_append, walk_above, ih hleaf]
  | vacant => exact False.elim hleaf
  | file hname hentry =>
      rw [List.cons_append, walk_admitted hname, hentry]
      exact if_neg hrest
  | special hname hentry =>
      rw [List.cons_append, walk_admitted hname, hentry]
      exact if_neg hrest
  | directory hname hentry _ ih =>
      rw [List.cons_append, walk_admitted hname, hentry]
      exact ih hleaf
  | link hname hentry _ ih =>
      rw [List.cons_append, walk_admitted hname, hentry]
      have hih := ih hleaf
      rwa [List.append_assoc] at hih

end FileTree

end GoModules
