import GoModules.FilePath.Clean
import GoModules.Proofs.Text.Cut
import GoModules.Proofs.Text.Utf8
import Mathlib.Algebra.Order.BigOperators.Group.List
import Mathlib.Algebra.Order.Ring.Nat

/-!
# Locations and the paths that spell them

A location whose names are ordinary is spelled by one path, which is clean and leads back to it.
What a path leads to from such a location is again one, so every location that is ever looked at has
a path of its own, and the path of an entry below it tells the location.
-/

namespace GoModules

open FilePath (slash)

namespace Name

/-- A name that leads one directory down. -/
structure Ordinary (n : Name) : Prop where
  ne_nil : n ≠ []
  slash_notMem : slash ∉ n
  ne_here : n ≠ Name.here
  ne_above : n ≠ Name.above

instance (n : Name) : Decidable n.Ordinary :=
  decidable_of_iff (n ≠ [] ∧ slash ∉ n ∧ n ≠ here ∧ n ≠ above)
    ⟨fun ⟨hnil, hslash, hhere, habove⟩ => ⟨hnil, hslash, hhere, habove⟩,
      fun ⟨hnil, hslash, hhere, habove⟩ => ⟨hnil, hslash, hhere, habove⟩⟩

theorem Ordinary.getLast?_append_ne {name : Name} (h : name.Ordinary) (front : Bytes) :
    (front ++ name).getLast? ≠ some slash := by
  rw [List.getLast?_append_of_ne_nil _ h.ne_nil]
  intro hlast
  exact h.slash_notMem (List.mem_of_getLast? hlast)

end Name

namespace Reduced

/-- The names that a reduced path leads down along, the innermost one first. -/
def names : Reduced → List Name
  | .absolute l => l.names
  | .relative _ names => names

theorem ordinary_of_mem_step {r : Reduced} {name : Name} (hr : ∀ n ∈ r.names, n.Ordinary)
    (hname : name ≠ [] ∧ slash ∉ name) : ∀ n ∈ (r.step name).names, n.Ordinary := by
  have hdown : ∀ names : List Name, (∀ n ∈ names, n.Ordinary) → name ≠ Name.here →
      name ≠ Name.above → ∀ n ∈ name :: names, n.Ordinary := by
    intro names hnames hhere habove
    exact List.forall_mem_cons.mpr ⟨⟨hname.1, hname.2, hhere, habove⟩, hnames⟩
  cases r with
  | absolute l =>
      change ∀ n ∈ (l.step name).names, n.Ordinary
      unfold Location.step
      split
      · exact hr
      split
      · intro n hn
        exact hr n (List.mem_of_mem_tail hn)
      · next hhere habove => exact hdown l.names hr hhere habove
  | relative ups names =>
      unfold step
      dsimp only
      split
      · exact hr
      split
      · cases names with
        | nil => exact hr
        | cons m names =>
            intro n hn
            exact hr n (List.mem_cons_of_mem m hn)
      · next hhere habove => exact hdown names hr hhere habove

theorem ordinary_of_mem_foldl_step {names : List Name} {r : Reduced}
    (hr : ∀ n ∈ r.names, n.Ordinary) (hnames : ∀ n ∈ names, n ≠ [] ∧ slash ∉ n) :
    ∀ n ∈ (names.foldl step r).names, n.Ordinary := by
  induction names generalizing r with
  | nil => exact hr
  | cons name names ih =>
      obtain ⟨hname, hnames⟩ := List.forall_mem_cons.mp hnames
      exact ih (ordinary_of_mem_step hr hname) hnames

theorem foldl_step_absolute (names : List Name) (l : Location) :
    names.foldl step (.absolute l) = .absolute (names.foldl Location.step l) := by
  induction names generalizing l with
  | nil => rfl
  | cons name names ih => exact ih (l.step name)

end Reduced

namespace FilePath

variable {p q : FilePath}

/-- Where an absolute path leads by its text. -/
def location (p : FilePath) : Location :=
  Location.root.resolve p

theorem isAbsolute_join (hq : q.isAbsolute = false) : (p.join q).isAbsolute = p.isAbsolute := by
  unfold join
  rw [if_neg (by simp [hq])]
  obtain ⟨bytes⟩ := p
  cases bytes with
  | nil => exact hq
  | cons b bytes =>
      split
      · rfl
      · rfl

theorem isAbsolute_ofText {s : Text} (h : s.head? ≠ some '/') : (ofText s).isAbsolute = false := by
  rw [isAbsolute, beq_eq_false_iff_ne]
  intro hhead
  exact h (Utf8.head?_encode hhead)

theorem segments_append_slash (front back : Bytes) :
    segments ⟨front ++ slash :: back⟩ = segments ⟨front⟩ ++ segments ⟨back⟩ := by
  simp only [segments, List.splitOn_append_cons_self, List.filter_append]

theorem segments_join (hq : q.isAbsolute = false) :
    (p.join q).segments = p.segments ++ q.segments := by
  unfold join
  rw [if_neg (by simp [hq])]
  split
  · next hend =>
      rcases hend with hnil | hslash
      · have hempty : p.segments = [] := by
          rw [segments, hnil]
          rfl
        rw [hnil, List.nil_append, hempty, List.nil_append]
      · obtain ⟨front, hfront⟩ := List.getLast?_eq_some_iff.mp hslash
        have hp : p.segments = segments ⟨front⟩ := by
          have hparts := segments_append_slash front []
          rw [show segments ⟨[]⟩ = [] from rfl, List.append_nil, ← hfront] at hparts
          exact hparts
        rw [hp, hfront, List.append_assoc, List.singleton_append, segments_append_slash]
  · exact segments_append_slash p.bytes q.bytes

theorem proper_of_mem_segments {name : Name} (h : name ∈ p.segments) :
    name ≠ [] ∧ slash ∉ name := by
  obtain ⟨hmem, hne⟩ := List.mem_filter.mp h
  refine ⟨by simpa using hne, ?_⟩
  intro hslash
  exact (Text.mem_and_ne_of_mem_splitOn hmem hslash).2 rfl

theorem segments_ofSegments (absolute : Bool) {names : List Name}
    (hnames : ∀ n ∈ names, n ≠ [] ∧ slash ∉ n) : (ofSegments absolute names).segments = names := by
  have hsplit : segments ⟨[slash].intercalate names⟩ = names := by
    cases names with
    | nil => rfl
    | cons name names =>
        have hplain : ∀ n ∈ name :: names, slash ∉ n := fun n hn => (hnames n hn).2
        rw [segments, List.splitOn_intercalate slash hplain (List.cons_ne_nil name names),
          List.filter_eq_self]
        intro n hn
        simpa using (hnames n hn).1
  cases absolute with
  | false => exact hsplit
  | true =>
      have hroot := segments_append_slash [] ([slash].intercalate names)
      rw [hsplit] at hroot
      exact hroot

theorem mem_bytes_of_mem_segments {name : Name} (hname : name ∈ p.segments) {b : UInt8}
    (hb : b ∈ name) : b ∈ p.bytes :=
  (Text.mem_and_ne_of_mem_splitOn (List.mem_filter.mp hname).1 hb).1

theorem isAbsolute_mk {name : Name} (h : name.Ordinary) : (mk name).isAbsolute = false := by
  rw [isAbsolute, beq_eq_false_iff_ne]
  intro hhead
  exact h.slash_notMem (List.mem_of_mem_head? hhead)

theorem segments_mk {name : Name} (h : name.Ordinary) : (mk name).segments = [name] := by
  have hname : ∀ n ∈ [name], n ≠ [] ∧ slash ∉ n :=
    List.forall_mem_singleton.mpr ⟨h.ne_nil, h.slash_notMem⟩
  have hone := segments_ofSegments false hname
  rwa [ofSegments, List.intercalate_singleton] at hone

end FilePath

namespace Location

variable {l l' : Location}

/-- Whether every name of a location leads one directory down. -/
def Ordinary (l : Location) : Prop :=
  ∀ n ∈ l.names, n.Ordinary

theorem ordinary_root : root.Ordinary := by
  simp [Ordinary, root]

theorem Ordinary.of_suffix (h : l.Ordinary) (hsuffix : l'.names <:+ l.names) : l'.Ordinary :=
  fun n hn => h n (hsuffix.subset hn)

theorem ordinary_resolve (h : l.Ordinary) (p : FilePath) : (l.resolve p).Ordinary := by
  have hstart : ∀ n ∈ (if p.isAbsolute then root else l).names, n.Ordinary := by
    split
    · exact ordinary_root
    · exact h
  have hnames := Reduced.ordinary_of_mem_foldl_step (r := .absolute _) hstart
    (fun n hn => FilePath.proper_of_mem_segments (p := p) hn)
  rwa [Reduced.foldl_step_absolute] at hnames

theorem segments_path (h : l.Ordinary) : l.path.segments = l.names.reverse := by
  apply FilePath.segments_ofSegments true
  intro n hn
  have hn := h n (List.mem_reverse.mp hn)
  exact ⟨hn.ne_nil, hn.slash_notMem⟩

theorem isAbsolute_path (l : Location) : l.path.isAbsolute :=
  rfl

theorem path_injective (h : l.Ordinary) (h' : l'.Ordinary) (heq : l.path = l'.path) : l = l' := by
  have hsegments := congrArg FilePath.segments heq
  rw [segments_path h, segments_path h', List.reverse_inj] at hsegments
  obtain ⟨names⟩ := l
  obtain ⟨names'⟩ := l'
  exact congrArg Location.mk hsegments

theorem step_of_ne {name : Name} (hhere : name ≠ Name.here) (habove : name ≠ Name.above)
    (l : Location) : l.step name = l.child name := by
  rw [step, if_neg hhere, if_neg habove]

/-- Names among which the directory above is not lead down, but for the ones that a directory has
for itself. -/
theorem foldl_step_of_notMem {names : List Name} (h : Name.above ∉ names) (l : Location) :
    names.foldl step l = ⟨(names.filter (· ≠ Name.here)).reverse ++ l.names⟩ := by
  induction names generalizing l with
  | nil => rfl
  | cons name names ih =>
      rw [List.mem_cons, not_or] at h
      rw [List.foldl_cons, ih h.2]
      by_cases hhere : name = Name.here
      · rw [step, if_pos hhere, List.filter_cons_of_neg (by simpa using hhere)]
      · rw [step_of_ne hhere (Ne.symm h.1), List.filter_cons_of_pos (by simpa using hhere)]
        simp [child]

theorem foldl_step_of_ordinary {names : List Name} (h : ∀ n ∈ names, n.Ordinary) (l : Location) :
    names.foldl step l = ⟨names.reverse ++ l.names⟩ := by
  have habove : Name.above ∉ names := fun hmem => (h _ hmem).ne_above rfl
  have hnames : names.filter (· ≠ Name.here) = names :=
    List.filter_eq_self.mpr fun n hn => by simpa using (h n hn).ne_here
  rw [foldl_step_of_notMem habove, hnames]

theorem location_path (h : l.Ordinary) : l.path.location = l := by
  have hnames : ∀ n ∈ l.names.reverse, n.Ordinary := fun n hn => h n (List.mem_reverse.mp hn)
  rw [FilePath.location, resolve, if_pos (isAbsolute_path l), segments_path h,
    foldl_step_of_ordinary hnames, List.reverse_reverse]
  simp [root]

end Location

namespace FilePath

variable {p q : FilePath}

theorem ordinary_of_mem_reduce (p : FilePath) : ∀ n ∈ p.reduce.names, n.Ordinary := by
  apply Reduced.ordinary_of_mem_foldl_step
  · split
    · simp [Reduced.names, Location.root]
    · simp [Reduced.names]
  · exact fun n hn => proper_of_mem_segments hn

theorem reduce_of_isAbsolute (hp : p.isAbsolute) : p.reduce = .absolute p.location := by
  rw [reduce, if_pos hp, Reduced.foldl_step_absolute, location, Location.resolve, if_pos hp]

theorem clean_of_isAbsolute (hp : p.isAbsolute) : p.clean = p.location.path := by
  rw [clean, reduce_of_isAbsolute hp, Reduced.path]

theorem ordinary_location (p : FilePath) : p.location.Ordinary :=
  Location.ordinary_resolve Location.ordinary_root p

/-- The clean form of an absolute path leads down along ordinary names. -/
theorem ordinary_of_mem_segments_clean (hp : p.isAbsolute) :
    ∀ n ∈ p.clean.segments, n.Ordinary := by
  intro n hn
  rw [clean_of_isAbsolute hp, Location.segments_path (ordinary_location p),
    List.mem_reverse] at hn
  exact ordinary_location p n hn

theorem isAbsolute_join_of_isAbsolute (hp : p.isAbsolute) (q : FilePath) :
    (p.join q).isAbsolute := by
  cases hq : q.isAbsolute with
  | true => rwa [join, if_pos hq]
  | false => rwa [isAbsolute_join hq]

/-- The path without its last name. -/
def parent (p : FilePath) : FilePath :=
  .ofSegments p.isAbsolute p.segments.dropLast

theorem isAbsolute_parent (hp : p.isAbsolute) : p.parent.isAbsolute := by
  rw [parent, hp]
  rfl

theorem parent_join {l : Location} (h : l.Ordinary) {name : Name} (hname : name.Ordinary) :
    (l.path.join ⟨name⟩).parent = l.path := by
  have hrelative := isAbsolute_mk hname
  rw [parent, isAbsolute_join hrelative, segments_join hrelative, segments_mk hname,
    List.dropLast_concat, Location.segments_path h]
  rfl

/-- The length of a path that leads along names from the root. -/
def spelledLength (names : List Name) : Nat :=
  (names.map (·.length + 1)).sum

@[simp] theorem spelledLength_cons (name : Name) (names : List Name) :
    spelledLength (name :: names) = name.length + 1 + spelledLength names := by
  simp [spelledLength]

theorem cons_intercalate {names : List Name} (h : names ≠ []) :
    slash :: [slash].intercalate names = names.flatMap (slash :: ·) := by
  induction names with
  | nil => exact absurd rfl h
  | cons name names ih =>
      by_cases hnil : names = []
      · subst hnil
        simp
      · rw [List.intercalate_cons_of_ne_nil hnil, List.flatMap_cons, ← ih hnil]
        simp

theorem length_cons_intercalate {names : List Name} (h : names ≠ []) :
    (slash :: [slash].intercalate names).length = spelledLength names := by
  rw [cons_intercalate h, List.length_flatMap]
  rfl

theorem spelledLength_segments_le (hp : p.isAbsolute) :
    spelledLength p.segments ≤ p.bytes.length := by
  obtain ⟨bytes⟩ := p
  obtain ⟨rest, rfl⟩ : ∃ rest, bytes = slash :: rest := by
    cases bytes with
    | nil => cases hp
    | cons b rest =>
        obtain rfl : b = slash := by simpa [isAbsolute] using hp
        exact ⟨rest, rfl⟩
  have hsegments : segments ⟨slash :: rest⟩ = segments ⟨rest⟩ := segments_append_slash [] rest
  have hparts := length_cons_intercalate (List.splitOn_ne_nil slash rest)
  rw [List.intercalate_splitOn] at hparts
  rw [hsegments, hparts]
  exact ((List.filter_sublist).map _).sum_le_sum (fun _ _ => Nat.zero_le _)

end FilePath

namespace Location

open FilePath (spelledLength)

theorem bytes_path {l : Location} (h : l.names ≠ []) :
    l.path.bytes = l.names.reverse.flatMap (slash :: ·) :=
  FilePath.cons_intercalate (by simpa using h)

theorem mem_bytes_path {l : Location} {b : UInt8} (hb : b ∈ l.path.bytes) :
    b = slash ∨ ∃ n ∈ l.names, b ∈ n := by
  by_cases h : l.names = []
  · left
    rw [path, h] at hb
    exact List.mem_singleton.mp hb
  · rw [bytes_path h] at hb
    obtain ⟨n, hn, hb⟩ := List.mem_flatMap.mp hb
    rcases List.mem_cons.mp hb with hslash | hb
    · exact .inl hslash
    · exact .inr ⟨n, List.mem_reverse.mp hn, hb⟩

theorem spelledLength_step_le (l : Location) (name : Name) :
    spelledLength (l.step name).names ≤ spelledLength l.names + (name.length + 1) := by
  unfold step
  split
  · omega
  split
  · have htail : spelledLength l.parent.names ≤ spelledLength l.names :=
      ((List.tail_sublist l.names).map _).sum_le_sum (fun _ _ => Nat.zero_le _)
    omega
  · rw [child, FilePath.spelledLength_cons]
    omega

theorem spelledLength_foldl_step_le (names : List Name) (l : Location) :
    spelledLength (names.foldl step l).names ≤ spelledLength l.names + spelledLength names := by
  induction names generalizing l with
  | nil => exact Nat.le_add_right _ _
  | cons name names ih =>
      have hstep := spelledLength_step_le l name
      have hrest := ih (l.step name)
      rw [List.foldl_cons, FilePath.spelledLength_cons]
      omega

end Location

/-- Cleaning makes no absolute path longer. -/
theorem FilePath.length_path_location_le {p : FilePath} (hp : p.isAbsolute) :
    p.location.path.bytes.length ≤ p.bytes.length := by
  by_cases hnil : p.location.names = []
  · have hroot : p.location.path.bytes = [slash] := by
      rw [Location.path, hnil]
      rfl
    rw [hroot]
    exact List.length_pos_of_mem (List.mem_of_mem_head? (by simpa [isAbsolute] using hp))
  · calc
      p.location.path.bytes.length = spelledLength p.location.names.reverse :=
        length_cons_intercalate (by simpa using hnil)
      _ = spelledLength p.location.names := by
        rw [spelledLength, spelledLength, List.map_reverse, List.sum_reverse]
      _ ≤ spelledLength Location.root.names + spelledLength p.segments := by
        rw [location, Location.resolve, if_pos hp]
        exact Location.spelledLength_foldl_step_le p.segments .root
      _ = spelledLength p.segments := Nat.zero_add _
      _ ≤ p.bytes.length := spelledLength_segments_le hp

end GoModules
