import GoModules.Proofs.FilePath.Reduction

/-!
# Paths below a root

The clean form of a path names the directory above a number of times, and then nothing but ordinary
names. A relative path that is joined to an absolute root leads below the clean root unless its own
clean form begins with the directory above.
-/

namespace GoModules

namespace Reduced

/-- Names that reduce by themselves lead from a directory up and then down again. -/
theorem foldl_step_of_relative {names down down' : List Name} {ups ups' : Nat}
    (h : names.foldl step (.relative ups down) = .relative ups' down') (l : Location) :
    names.foldl Location.step ⟨down ++ l.names.drop ups⟩ = ⟨down' ++ l.names.drop ups'⟩ := by
  induction names generalizing ups down with
  | nil =>
      cases h
      rfl
  | cons name names ih =>
      rw [List.foldl_cons] at h ⊢
      unfold step at h
      unfold Location.step
      dsimp only at h
      split at h
      · next hhere =>
          rw [if_pos hhere]
          exact ih h
      next hhere =>
      rw [if_neg hhere]
      split at h
      · next habove =>
          rw [if_pos habove]
          cases down with
          | nil =>
              have htail : (l.names.drop ups).tail = l.names.drop (ups + 1) := List.tail_drop
              rw [Location.parent, List.nil_append, htail]
              exact ih h
          | cons m down => exact ih h
      · next habove =>
          rw [if_neg habove]
          exact ih h

end Reduced

namespace FilePath

/-- Whether the clean form of a path is absolute and at or below the clean form of a root. -/
def Within (p root : FilePath) : Prop :=
  p.clean.isAbsolute ∧ root.clean.isAbsolute ∧ root.clean.segments <+: p.clean.segments

/-- Whether the clean form of a path begins with the directory above. -/
def Climbs (p : FilePath) : Prop :=
  p.clean.segments.head? = some Name.above

instance (p root : FilePath) : Decidable (p.Within root) :=
  inferInstanceAs (Decidable (_ ∧ _ ∧ _))

instance (p : FilePath) : Decidable p.Climbs :=
  inferInstanceAs (Decidable (_ = _))

variable {p q : FilePath}

theorem exists_reduce_eq_relative (hp : p.isAbsolute = false) :
    ∃ ups down, p.reduce = .relative ups down := by
  have habsolute := isAbsolute_reduce p
  cases hreduce : p.reduce with
  | absolute l =>
      rw [hreduce, hp] at habsolute
      cases habsolute
  | relative ups down => exact ⟨ups, down, rfl⟩

theorem within_iff (hp : p.isAbsolute) (hq : q.isAbsolute) :
    p.Within q ↔ q.location.names <:+ p.location.names := by
  rw [Within, clean_of_isAbsolute hp, clean_of_isAbsolute hq,
    Location.segments_path (ordinary_location p), Location.segments_path (ordinary_location q),
    List.reverse_prefix]
  simp [Location.isAbsolute_path]

/-- The clean form of a relative path begins with the directory above if the path leads there at
all. -/
theorem climbs_iff {ups : Nat} {down : List Name} (h : p.reduce = .relative ups down) :
    p.Climbs ↔ ups ≠ 0 := by
  rw [Climbs]
  rcases clean_eq_here_or_segments p with ⟨hclean, hreduce⟩ | hsegments
  · obtain ⟨rfl, rfl⟩ := Reduced.relative.inj (h.symm.trans hreduce)
    rw [hclean]
    decide
  · rw [hsegments, h, Reduced.segments]
    cases ups with
    | succ ups => simp [List.replicate_succ]
    | zero =>
        have hlast : down.getLast? ≠ some Name.above := by
          intro hlast
          have hordinary := ordinary_of_mem_reduce p
          rw [h] at hordinary
          exact (hordinary _ (List.mem_of_getLast? hlast)).ne_above rfl
        simp [hlast]

/-- A relative path that does not climb stays below the root that it is joined to. -/
theorem within_join (hp : p.isAbsolute) (hq : q.isAbsolute = false) (hclimbs : ¬ q.Climbs) :
    (p.join q).Within p := by
  have hjoin : (p.join q).isAbsolute := (isAbsolute_join hq).trans hp
  obtain ⟨ups, down, hreduce⟩ := exists_reduce_eq_relative hq
  obtain rfl : ups = 0 := by
    rwa [climbs_iff hreduce, not_not] at hclimbs
  have hlocation : (p.join q).location = ⟨down ++ p.location.names⟩ := by
    rw [reduce, if_neg (by simp [hq])] at hreduce
    rw [location, location, Location.resolve, Location.resolve, if_pos hjoin, if_pos hp,
      segments_join hq, List.foldl_append]
    exact Reduced.foldl_step_of_relative hreduce _
  rw [within_iff hjoin hp, hlocation]
  exact List.suffix_append _ _

theorem not_climbs_of_notMem (hp : p.isAbsolute = false) (h : Name.above ∉ p.segments) :
    ¬ p.Climbs := by
  obtain ⟨ups, down, hreduce⟩ := exists_reduce_eq_relative hp
  rw [climbs_iff hreduce]
  intro hups
  have hmem : Name.above ∈ p.reduce.segments := by simp [hreduce, Reduced.segments, hups]
  exact h (segments_reduce_subset p hmem)

end FilePath

end GoModules
