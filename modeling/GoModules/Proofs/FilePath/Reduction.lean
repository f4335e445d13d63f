import GoModules.Proofs.FilePath.Location
import Mathlib.Logic.Relation

/-!
# Clean paths as normal forms

The names along a path can be shortened in three ways: the name of a directory for itself is
dropped, a name cancels with the directory above that follows it, and above the root there is only
the root. Shortening them as far as possible leaves the same names in whatever order it is done, and
the clean path leads along those.
-/

namespace GoModules

open FilePath (slash)
open Relation (ReflTransGen)

namespace FilePath

/-- One step of shortening the names along a path. -/
inductive Shortens (absolute : Bool) : List Name → List Name → Prop
  | here (front back : List Name) :
      Shortens absolute (front ++ Name.here :: back) (front ++ back)
  | cancel (front back : List Name) {name : Name} (h : name.Ordinary) :
      Shortens absolute (front ++ name :: Name.above :: back) (front ++ back)
  | root (back : List Name) (h : absolute) : Shortens absolute (Name.above :: back) back

/-- The names that are left when names are shortened as far as possible. -/
structure Shortest (absolute : Bool) (names short : List Name) : Prop where
  reached : ReflTransGen (Shortens absolute) names short
  final : ∀ next, ¬ Shortens absolute short next

/-- The path that leads along names. Without any, it is the root or the current directory. -/
def along (absolute : Bool) (names : List Name) : FilePath :=
  if absolute = false ∧ names = [] then ⟨Name.here⟩ else ofSegments absolute names

variable {absolute : Bool} {names names' : List Name}

theorem Shortens.append (h : Shortens absolute names names') (back : List Name) :
    Shortens absolute (names ++ back) (names' ++ back) := by
  cases h with
  | here front rest =>
      rw [List.append_assoc, List.append_assoc, List.cons_append]
      exact .here front (rest ++ back)
  | cancel front rest h =>
      rw [List.append_assoc, List.append_assoc, List.cons_append, List.cons_append]
      exact .cancel front (rest ++ back) h
  | root rest h => exact .root (names' ++ back) h

theorem Shortens.subset (h : Shortens absolute names names') : names' ⊆ names := by
  intro n hn
  cases h with
  | here front back =>
      rw [List.mem_append] at hn
      rw [List.mem_append, List.mem_cons]
      exact hn.imp_right .inr
  | cancel front back h =>
      rw [List.mem_append] at hn
      rw [List.mem_append, List.mem_cons, List.mem_cons]
      exact hn.imp_right fun hback => .inr (.inr hback)
  | root back h => exact List.mem_cons_of_mem Name.above hn

theorem subset_of_reached (h : ReflTransGen (Shortens absolute) names names') :
    names' ⊆ names := by
  induction h with
  | refl => exact List.Subset.refl names
  | tail _ hstep ih => exact List.Subset.trans hstep.subset ih

end FilePath

namespace Reduced

open FilePath (Shortens Shortest along)

/-- The names along the path of a reduced path, the outermost one first. -/
def segments : Reduced → List Name
  | .absolute l => l.names.reverse
  | .relative ups names => List.replicate ups Name.above ++ names.reverse

def isAbsolute : Reduced → Bool
  | .absolute _ => true
  | .relative _ _ => false

/-- The root, or the current directory. -/
def start (absolute : Bool) : Reduced :=
  if absolute then .absolute .root else .relative 0 []

@[simp] theorem isAbsolute_start (absolute : Bool) : (start absolute).isAbsolute = absolute := by
  cases absolute <;> rfl

@[simp] theorem segments_start (absolute : Bool) : (start absolute).segments = [] := by
  cases absolute <;> rfl

@[simp] theorem names_start (absolute : Bool) : (start absolute).names = [] := by
  cases absolute <;> rfl

theorem path_eq_along (r : Reduced) : r.path = along r.isAbsolute r.segments := by
  cases r with
  | absolute l => rfl
  | relative ups names =>
      cases hnames : List.replicate ups Name.above ++ names.reverse with
      | nil => simp [path, along, isAbsolute, segments, hnames]
      | cons n rest => simp [path, along, isAbsolute, segments, hnames]

variable {r : Reduced} {names : List Name} {name : Name} {absolute : Bool}

@[simp] theorem isAbsolute_step (r : Reduced) (name : Name) :
    (r.step name).isAbsolute = r.isAbsolute := by
  cases r with
  | absolute l => rfl
  | relative ups names =>
      unfold step
      dsimp only
      split
      · rfl
      split
      · cases names <;> rfl
      · rfl

@[simp] theorem isAbsolute_foldl_step (names : List Name) (r : Reduced) :
    (names.foldl step r).isAbsolute = r.isAbsolute := by
  induction names generalizing r with
  | nil => rfl
  | cons name names ih => rw [List.foldl_cons, ih, isAbsolute_step]

theorem step_here (r : Reduced) : r.step Name.here = r := by
  cases r with
  | absolute l => rfl
  | relative ups names => rfl

theorem step_of_ordinary (h : name.Ordinary) (r : Reduced) :
    (r.step name).segments = r.segments ++ [name] ∧ (r.step name).step Name.above = r := by
  cases r with
  | absolute l =>
      rw [step, Location.step_of_ne h.ne_here h.ne_above]
      exact ⟨List.reverse_cons, rfl⟩
  | relative ups names =>
      have hstep : (relative ups names).step name = relative ups (name :: names) := by
        simp only [step, if_neg h.ne_here, if_neg h.ne_above]
      rw [hstep]
      exact ⟨by simp [segments], rfl⟩

/-- The directory above takes away the last name, if that leads down. Otherwise it is dropped at the
root and kept at the current directory. -/
theorem segments_step_above (r : Reduced) :
    (∃ m ∈ r.names, r.segments = (r.step Name.above).segments ++ [m]) ∨
      (r.isAbsolute ∧ r.segments = [] ∧ (r.step Name.above).segments = []) ∨
      (r.step Name.above).segments = r.segments ++ [Name.above] := by
  cases r with
  | absolute l =>
      obtain ⟨names⟩ := l
      cases names with
      | nil => exact .inr (.inl ⟨rfl, rfl, rfl⟩)
      | cons m outer => exact .inl ⟨m, List.mem_cons_self, List.reverse_cons⟩
  | relative ups names =>
      cases names with
      | nil =>
          refine .inr (.inr ?_)
          change List.replicate (ups + 1) Name.above ++ [] = _
          simp [segments, List.replicate_succ']
      | cons m outer =>
          refine .inl ⟨m, List.mem_cons_self, ?_⟩
          change List.replicate ups Name.above ++ (m :: outer).reverse =
            List.replicate ups Name.above ++ outer.reverse ++ [m]
          rw [List.reverse_cons, List.append_assoc]

/-- Each step of a reduction shortens the names along the path. -/
theorem reached_step (hr : ∀ n ∈ r.names, n.Ordinary) (hname : name ≠ [] ∧ slash ∉ name) :
    ReflTransGen (Shortens r.isAbsolute) (r.segments ++ [name]) (r.step name).segments := by
  by_cases hhere : name = Name.here
  · subst hhere
    have hstep := @Shortens.here r.isAbsolute r.segments []
    rw [List.append_nil] at hstep
    rw [step_here]
    exact .single hstep
  by_cases habove : name = Name.above
  · subst habove
    rcases segments_step_above r with ⟨m, hm, hlast⟩ | ⟨habsolute, hnil, hnil'⟩ | hkept
    · have hstep := @Shortens.cancel r.isAbsolute (r.step Name.above).segments [] m (hr m hm)
      rw [List.append_nil] at hstep
      rw [hlast, List.append_assoc]
      exact .single hstep
    · rw [hnil, hnil']
      exact .single (.root [] habsolute)
    · rw [hkept]
  · rw [(step_of_ordinary ⟨hname.1, hname.2, hhere, habove⟩ r).1]

theorem reached_foldl_step (hr : ∀ n ∈ r.names, n.Ordinary)
    (hnames : ∀ n ∈ names, n ≠ [] ∧ slash ∉ n) :
    ReflTransGen (Shortens r.isAbsolute) (r.segments ++ names) (names.foldl step r).segments := by
  induction names generalizing r with
  | nil => rw [List.append_nil, List.foldl_nil]
  | cons name names ih =>
      obtain ⟨hname, hnames⟩ := List.forall_mem_cons.mp hnames
      have hfirst := (reached_step hr hname).lift (· ++ names) fun _ _ h => h.append names
      have hrest := ih (ordinary_of_mem_step hr hname) hnames
      rw [isAbsolute_step] at hrest
      rw [← List.singleton_append, ← List.append_assoc]
      exact hfirst.trans hrest

/-- Shortening names does not change what they reduce to. -/
theorem foldl_step_of_shortens {names' : List Name} (h : Shortens absolute names names') :
    names.foldl step (start absolute) = names'.foldl step (start absolute) := by
  cases h with
  | here front back => rw [List.foldl_append, List.foldl_append, List.foldl_cons, step_here]
  | cancel front back h =>
      rw [List.foldl_append, List.foldl_append, List.foldl_cons, List.foldl_cons,
        (step_of_ordinary h _).2]
  | root back h =>
      subst h
      rfl

theorem foldl_step_of_reached {names' : List Name}
    (h : ReflTransGen (Shortens absolute) names names') :
    names.foldl step (start absolute) = names'.foldl step (start absolute) := by
  induction h with
  | refl => rfl
  | tail _ hstep ih => rw [ih, foldl_step_of_shortens hstep]

theorem foldl_step_replicate_above (ups ups' : Nat) :
    (List.replicate ups Name.above).foldl step (.relative ups' []) = .relative (ups' + ups) [] := by
  induction ups generalizing ups' with
  | zero => rfl
  | succ ups ih =>
      rw [List.replicate_succ, List.foldl_cons]
      change (List.replicate ups Name.above).foldl step (.relative (ups' + 1) []) = _
      rw [ih, Nat.add_right_comm, Nat.add_assoc]

theorem foldl_step_of_ordinary {ups : Nat} {down : List Name} (h : ∀ n ∈ names, n.Ordinary) :
    names.foldl step (.relative ups down) = .relative ups (names.reverse ++ down) := by
  induction names generalizing down with
  | nil => rfl
  | cons name names ih =>
      rw [List.forall_mem_cons] at h
      have hstep : (relative ups down).step name = relative ups (name :: down) := by
        simp only [step, if_neg h.1.ne_here, if_neg h.1.ne_above]
      rw [List.foldl_cons, hstep, ih h.2, List.reverse_cons, List.append_assoc,
        List.singleton_append]

theorem foldl_step_segments (hr : ∀ n ∈ r.names, n.Ordinary) :
    r.segments.foldl step (start r.isAbsolute) = r := by
  cases r with
  | absolute l =>
      have hnames : ∀ n ∈ l.names.reverse, n.Ordinary := fun n hn => hr n (List.mem_reverse.mp hn)
      change l.names.reverse.foldl step (.absolute .root) = _
      rw [foldl_step_absolute, Location.foldl_step_of_ordinary hnames, List.reverse_reverse]
      exact congrArg (fun names => absolute ⟨names⟩) (List.append_nil l.names)
  | relative ups names =>
      have hnames : ∀ n ∈ names.reverse, n.Ordinary := fun n hn => hr n (List.mem_reverse.mp hn)
      change (List.replicate ups Name.above ++ names.reverse).foldl step (.relative 0 []) = _
      rw [List.foldl_append, foldl_step_replicate_above, foldl_step_of_ordinary hnames,
        Nat.zero_add, List.reverse_reverse, List.append_nil]

theorem exists_segments_eq (hr : ∀ n ∈ r.names, n.Ordinary) :
    ∃ ups down, r.segments = List.replicate ups Name.above ++ down ∧ (∀ n ∈ down, n.Ordinary) ∧
      (r.isAbsolute → ups = 0) := by
  have hdown : ∀ n ∈ r.names.reverse, n.Ordinary := fun n hn => hr n (List.mem_reverse.mp hn)
  cases r with
  | absolute l => exact ⟨0, l.names.reverse, rfl, hdown, fun _ => rfl⟩
  | relative ups names =>
      exact ⟨ups, names.reverse, rfl, hdown, fun h => absurd h Bool.false_ne_true⟩

end Reduced

namespace FilePath

variable {p q : FilePath} {absolute : Bool} {names names' : List Name}

/-- Names that are ordinary behind those of directories above are as short as possible: behind an
ordinary name there are only ordinary ones. -/
theorem not_shortens {ups : Nat} {down : List Name} (hdown : ∀ n ∈ down, n.Ordinary)
    (hups : absolute → ups = 0) :
    ¬ Shortens absolute (List.replicate ups Name.above ++ down) names' := by
  have hbehind : (List.replicate ups Name.above ++ down).Pairwise
      fun n m => n.Ordinary → m.Ordinary := by
    rw [List.pairwise_append, List.pairwise_replicate]
    refine ⟨.inr id, List.pairwise_of_forall_mem_list ?_, ?_⟩
    · exact fun _ _ m hm _ => hdown m hm
    · exact fun _ _ m hm _ => hdown m hm
  intro h
  generalize hnames : List.replicate ups Name.above ++ down = names at h hbehind
  cases h with
  | here front back =>
      have hmem : Name.here ∈ List.replicate ups Name.above ++ down := by simp [hnames]
      rcases List.mem_append.mp hmem with hmem | hmem
      · exact absurd (List.eq_of_mem_replicate hmem) (by decide)
      · exact (hdown _ hmem).ne_here rfl
  | cancel front back h =>
      have hpair := (List.pairwise_append.mp hbehind).2.1
      exact ((List.pairwise_cons.mp hpair).1 Name.above List.mem_cons_self h).ne_above rfl
  | root back h =>
      rw [hups h, List.replicate_zero, List.nil_append] at hnames
      exact (hdown Name.above (by simp [hnames])).ne_above rfl

/-- In whatever order names are shortened, what is left in the end is what they reduce to. -/
theorem shortest_iff (hnames : ∀ n ∈ names, n ≠ [] ∧ slash ∉ n) {short : List Name} :
    Shortest absolute names short ↔
      short = (names.foldl Reduced.step (.start absolute)).segments := by
  have hordinary : ∀ {names : List Name}, (∀ n ∈ names, n ≠ [] ∧ slash ∉ n) →
      ∀ n ∈ (names.foldl Reduced.step (.start absolute)).names, n.Ordinary :=
    Reduced.ordinary_of_mem_foldl_step (by simp)
  have hreached : ∀ {names : List Name}, (∀ n ∈ names, n ≠ [] ∧ slash ∉ n) →
      ReflTransGen (Shortens absolute) names
        (names.foldl Reduced.step (.start absolute)).segments := by
    intro names hnames
    have hrun := Reduced.reached_foldl_step (r := .start absolute) (by simp) hnames
    rwa [Reduced.isAbsolute_start, Reduced.segments_start, List.nil_append] at hrun
  constructor
  · intro h
    have hshort : ∀ n ∈ short, n ≠ [] ∧ slash ∉ n :=
      fun n hn => hnames n (subset_of_reached h.reached hn)
    rw [Reduced.foldl_step_of_reached h.reached]
    -- The run shortens what is left as well, which cannot be shortened.
    rcases (hreached hshort).cases_head with heq | ⟨next, hstep, -⟩
    · exact heq
    · exact absurd hstep (h.final next)
  · rintro rfl
    refine ⟨hreached hnames, fun next => ?_⟩
    obtain ⟨ups, down, hsegments, hdown, hups⟩ := Reduced.exists_segments_eq (hordinary hnames)
    rw [Reduced.isAbsolute_foldl_step, Reduced.isAbsolute_start] at hups
    rw [hsegments]
    exact not_shortens hdown hups

theorem isAbsolute_ofSegments (hnames : ∀ n ∈ names, n ≠ [] ∧ slash ∉ n) :
    (ofSegments absolute names).isAbsolute = absolute := by
  cases absolute with
  | true => rfl
  | false =>
      rw [isAbsolute, beq_eq_false_iff_ne]
      intro hhead
      cases names with
      | nil => cases hhead
      | cons name rest =>
          obtain ⟨hne, hslash⟩ := hnames name List.mem_cons_self
          obtain ⟨b, tail, rfl⟩ := List.exists_cons_of_ne_nil hne
          have hb : b = slash := by
            by_cases hrest : rest = []
            · simpa [ofSegments, hrest] using hhead
            · simpa [ofSegments, List.intercalate_cons_of_ne_nil hrest] using hhead
          exact hslash (hb ▸ List.mem_cons_self)

theorem isAbsolute_along (hnames : ∀ n ∈ names, n ≠ [] ∧ slash ∉ n) :
    (along absolute names).isAbsolute = absolute := by
  unfold along
  split
  · next hhere => exact hhere.1.symm
  · exact isAbsolute_ofSegments hnames

theorem reduce_eq_foldl_step (p : FilePath) :
    p.reduce = p.segments.foldl Reduced.step (.start p.isAbsolute) := rfl

theorem segments_reduce_subset (p : FilePath) : p.reduce.segments ⊆ p.segments :=
  subset_of_reached ((shortest_iff fun _ hn => proper_of_mem_segments hn).mpr rfl).reached

theorem isAbsolute_reduce (p : FilePath) : p.reduce.isAbsolute = p.isAbsolute := by
  rw [reduce_eq_foldl_step, Reduced.isAbsolute_foldl_step, Reduced.isAbsolute_start]

theorem clean_eq_along (p : FilePath) : p.clean = along p.isAbsolute p.reduce.segments := by
  rw [clean, Reduced.path_eq_along, isAbsolute_reduce]

theorem proper_of_mem_segments_reduce (p : FilePath) :
    ∀ n ∈ p.reduce.segments, n ≠ [] ∧ slash ∉ n := by
  obtain ⟨ups, down, hsegments, hdown, -⟩ := Reduced.exists_segments_eq (ordinary_of_mem_reduce p)
  intro n hn
  rw [hsegments] at hn
  rcases List.mem_append.mp hn with hn | hn
  · rw [List.eq_of_mem_replicate hn]
    decide
  · exact ⟨(hdown n hn).ne_nil, (hdown n hn).slash_notMem⟩

theorem isAbsolute_clean (p : FilePath) : p.clean.isAbsolute = p.isAbsolute := by
  rw [clean_eq_along, isAbsolute_along (proper_of_mem_segments_reduce p)]

/-- The clean path is the name of the current directory, or leads along the names of the reduced
path. -/
theorem clean_eq_here_or_segments (p : FilePath) :
    (p.clean = ⟨Name.here⟩ ∧ p.reduce = .relative 0 []) ∨
      p.clean.segments = p.reduce.segments := by
  rw [clean_eq_along, along]
  split
  · next hhere =>
      have hreduce := Reduced.foldl_step_segments (ordinary_of_mem_reduce p)
      rw [hhere.2, isAbsolute_reduce, hhere.1] at hreduce
      exact .inl ⟨rfl, hreduce.symm⟩
  · exact .inr (segments_ofSegments _ (proper_of_mem_segments_reduce p))

theorem reduce_clean (p : FilePath) : p.clean.reduce = p.reduce := by
  rcases clean_eq_here_or_segments p with ⟨hclean, hreduce⟩ | hsegments
  · rw [hclean, hreduce]
    decide
  · rw [reduce_eq_foldl_step, isAbsolute_clean, hsegments, ← isAbsolute_reduce,
      Reduced.foldl_step_segments (ordinary_of_mem_reduce p)]

theorem clean_clean (p : FilePath) : p.clean.clean = p.clean := by
  rw [clean, reduce_clean, ← clean]

theorem reduce_join (hq : q.isAbsolute = false) :
    (p.join q).reduce = q.segments.foldl Reduced.step p.reduce := by
  rw [reduce_eq_foldl_step, isAbsolute_join hq, segments_join hq, List.foldl_append,
    ← reduce_eq_foldl_step]

theorem clean_join_clean (hq : q.isAbsolute = false) :
    (p.clean.join q).clean = (p.join q).clean := by
  rw [clean, reduce_join hq, reduce_clean, ← reduce_join hq, ← clean]

/-- The clean form of a path is what is left of it in the end, in whatever order its names are
shortened: directories above, which an absolute path has none of, and then ordinary names. -/
theorem clean_normalForm (p : FilePath) :
    p.clean.isAbsolute = p.isAbsolute ∧
      (p.clean = ⟨Name.here⟩ ∨ ∃ ups down,
        p.clean.segments = List.replicate ups Name.above ++ down ∧ (∀ n ∈ down, n.Ordinary) ∧
          (p.isAbsolute → ups = 0)) ∧
      (∃ short, p.clean = along p.isAbsolute short ∧
        ∀ names, Shortest p.isAbsolute p.segments names ↔ names = short) ∧
      p.clean.clean = p.clean ∧
      ∀ q : FilePath, q.isAbsolute = false → (p.join q).clean = (p.clean.join q).clean := by
  refine ⟨isAbsolute_clean p, ?_, ⟨p.reduce.segments, clean_eq_along p, ?_⟩, clean_clean p, ?_⟩
  · rcases clean_eq_here_or_segments p with ⟨hclean, -⟩ | hsegments
    · exact .inl hclean
    · rw [hsegments, ← isAbsolute_reduce]
      exact .inr (Reduced.exists_segments_eq (ordinary_of_mem_reduce p))
  · exact fun names => shortest_iff fun n hn => proper_of_mem_segments hn
  · exact fun q hq => (clean_join_clean hq).symm

end FilePath

end GoModules
