import GoModules.Proofs.Text.Cut
import GoModules.Proofs.Text.Decimal
import GoModules.Version.Basic

/-!
# Canonical forms of versions

Reading gives a version whose numbers fit into 64 bits and whose pre-release is well formed. The
written form of any such version is read back as the same version, so that writing what was read is
a normal form.
-/

namespace GoModules.Version

open Text (cutAt decimal)

/-- The versions that some text spells. -/
structure Valid (v : Version) : Prop where
  major : v.major < UInt64.size
  minor : v.minor < UInt64.size
  patch : v.patch < UInt64.size
  pre : v.pre ≠ [] → isPreRelease v.pre

/-- The three numbers of a version. -/
def core (v : Version) : Text :=
  ['.'].intercalate [decimal v.major, decimal v.minor, decimal v.patch]

/-- The mark of a version behind a plus sign, if there is one. -/
def build (v : Version) : Text :=
  if v.incompatible then '+' :: incompatibleMark else []

/-- What follows the three numbers of a version. -/
def tail (v : Version) : Text :=
  (if v.pre = [] then [] else '-' :: v.pre) ++ v.build

theorem text_eq (v : Version) : v.text = 'v' :: (v.core ++ v.tail) := by
  simp [text, core, tail, build]

/-- Numbers in decimal form with dots between them. -/
def dotted (numbers : List Nat) : Text :=
  ['.'].intercalate (numbers.map decimal)

theorem splitOn_dotted {numbers : List Nat} (h : numbers ≠ []) :
    (dotted numbers).splitOn '.' = numbers.map decimal := by
  have hdot : ∀ part ∈ numbers.map decimal, '.' ∉ part := by
    intro part hpart hmem
    obtain ⟨n, -, rfl⟩ := List.mem_map.mp hpart
    exact absurd (Text.isDigit_of_mem_decimal hmem) (by decide)
  exact List.splitOn_intercalate '.' hdot (by simpa using h)

theorem isDigit_or_dot_of_mem_dotted {numbers : List Nat} {c : Char} (hc : c ∈ dotted numbers) :
    c.isDigit ∨ c = '.' := by
  have hne : numbers ≠ [] := by
    rintro rfl
    cases hc
  rcases Text.mem_splitOn_or_eq_of_mem '.' hc with ⟨part, hpart, hmem⟩ | rfl
  · rw [splitOn_dotted hne] at hpart
    obtain ⟨n, -, rfl⟩ := List.mem_map.mp hpart
    exact .inl (Text.isDigit_of_mem_decimal hmem)
  · exact .inr rfl

/-- Numbers are cut off from a tail that begins with one of its marks. -/
theorem cutAt_dotted_append (numbers : List Nat) {tail : Text}
    (htail : ∀ c ∈ tail.head?, c = '-' ∨ c = '+') :
    cutAt (fun c => c == '-' || c == '+') (dotted numbers ++ tail) = (dotted numbers, tail) := by
  apply Text.cutAt_append_of_head?
  · intro c hc
    rcases isDigit_or_dot_of_mem_dotted hc with hdigit | rfl
    · rw [Bool.or_eq_false_iff, beq_eq_false_iff_ne, beq_eq_false_iff_ne]
      constructor <;> rintro rfl <;> exact absurd hdigit (by decide)
    · decide
  · simpa using htail

theorem core_eq (v : Version) : v.core = dotted [v.major, v.minor, v.patch] := rfl

theorem splitOn_core (v : Version) :
    v.core.splitOn '.' = [decimal v.major, decimal v.minor, decimal v.patch] := by
  rw [core_eq, splitOn_dotted (List.cons_ne_nil _ _)]
  rfl

theorem cutAt_core_append_tail (v : Version) :
    cutAt (fun c => c == '-' || c == '+') (v.core ++ v.tail) = (v.core, v.tail) := by
  rw [core_eq]
  refine cutAt_dotted_append _ ?_
  unfold tail build
  split <;> split <;> simp

/-- Every character of a well-formed pre-release is a dot or belongs to an identifier. -/
theorem isIdentifierChar_or_dot_of_mem {pre : Text} {c : Char} (hpre : isPreRelease pre)
    (hc : c ∈ pre) : isIdentifierChar c ∨ c = '.' := by
  rcases Text.mem_splitOn_or_eq_of_mem '.' hc with ⟨part, hpart, hmem⟩ | rfl
  · have hident := List.all_eq_true.mp hpre part hpart
    simp only [isPreIdentifier, isBuildIdentifier, Bool.and_eq_true, List.all_eq_true] at hident
    exact .inl (hident.1.2 c hmem)
  · exact .inr rfl

theorem getLast?_ne_dot_of_isPreRelease {pre : Text} (hpre : isPreRelease pre) :
    pre.getLast? ≠ some '.' := by
  intro hlast
  obtain ⟨front, rfl⟩ := List.getLast?_eq_some_iff.mp hlast
  have hmem : [] ∈ (front ++ ['.']).splitOn '.' := by
    rw [List.splitOn_append_cons_self, List.splitOn_nil]
    exact List.mem_append_right _ List.mem_cons_self
  have hident := List.all_eq_true.mp hpre [] hmem
  cases hident

/-- A pre-release is cut off from what a plus sign begins. -/
theorem cutAt_append_of_isPreRelease {pre rest : Text} (hpre : isPreRelease pre)
    (hrest : ∀ c ∈ rest.head?, c = '+') : cutAt (· == '+') (pre ++ rest) = (pre, rest) := by
  apply Text.cutAt_append_of_head?
  · intro c hc
    rw [beq_eq_false_iff_ne]
    rintro rfl
    rcases isIdentifierChar_or_dot_of_mem hpre hc with hident | hdot
    · exact absurd hident (by decide)
    · exact absurd hdot (by decide)
  · simpa using hrest

/-- The characters of written versions. -/
theorem isIdentifierChar_or_mark_of_mem_text {v : Version} (hv : v.Valid) {c : Char}
    (hc : c ∈ v.text) : isIdentifierChar c ∨ c = '.' ∨ c = '+' := by
  have hmark : incompatibleMark.all isIdentifierChar := by decide
  rw [text_eq, List.mem_cons, List.mem_append, core_eq, tail, List.mem_append] at hc
  rcases hc with rfl | hcore | hpre | hbuild
  · exact .inl (by decide)
  · rcases isDigit_or_dot_of_mem_dotted hcore with hdigit | rfl
    · exact .inl (by simp [isIdentifierChar, Char.isAlphanum, hdigit])
    · exact .inr (.inl rfl)
  · split at hpre
    · cases hpre
    · next hne =>
        rcases List.mem_cons.mp hpre with rfl | hpre
        · exact .inl (by decide)
        · rcases isIdentifierChar_or_dot_of_mem (hv.pre hne) hpre with hident | rfl
          · exact .inl hident
          · exact .inr (.inl rfl)
  · rw [build] at hbuild
    split at hbuild
    · rcases List.mem_cons.mp hbuild with rfl | hbuild
      · exact .inr (.inr rfl)
      · exact .inl (List.all_eq_true.mp hmark c hbuild)
    · cases hbuild

/-- A written version ends in the mark, in its pre-release or in its last number, and none of these
ends in a dot. -/
theorem getLast?_text_ne_dot {v : Version} (hv : v.Valid) : v.text.getLast? ≠ some '.' := by
  have hend : ∀ front last : Text, last ≠ [] → last.getLast? ≠ some '.' →
      (front ++ last).getLast? ≠ some '.' := by
    intro front last hne hlast
    rwa [List.getLast?_append_of_ne_nil _ hne]
  rw [text]
  cases hmark : v.incompatible with
  | true =>
      rw [if_pos rfl]
      exact hend _ ('+' :: incompatibleMark) (by decide) (by decide)
  | false =>
      rw [if_neg Bool.false_ne_true, List.append_nil]
      by_cases hpre : v.pre = []
      · have hlast : (decimal v.patch).getLast? ≠ some '.' := by
          intro hlast
          have hdigit := Text.isDigit_of_mem_decimal (List.mem_of_mem_getLast? hlast)
          cases hdigit
        have hpatch := hend ('v' :: (decimal v.major ++ '.' :: (decimal v.minor ++ ['.'])))
          (decimal v.patch) (Text.decimal_ne_nil v.patch) hlast
        simpa [hpre] using hpatch
      · rw [if_neg hpre]
        have hlast : v.pre.getLast? ≠ some '.' := getLast?_ne_dot_of_isPreRelease (hv.pre hpre)
        have hpre' := hend ('v' :: (v.core ++ ['-'])) v.pre hpre hlast
        simpa [core] using hpre'

theorem readBuild?_build (v : Version) : readBuild? v.build = some v.incompatible := by
  unfold build
  cases v.incompatible <;> decide

theorem readTail?_tail {v : Version} (hv : v.Valid) :
    readTail? v.tail = some (v.pre, v.incompatible) := by
  by_cases hpre : v.pre = []
  · have htail : v.tail = v.build := by simp [tail, hpre]
    rw [htail, hpre]
    unfold build
    cases v.incompatible <;> decide
  · have hcut : cutAt (· == '+') (v.pre ++ v.build) = (v.pre, v.build) := by
      apply cutAt_append_of_isPreRelease (hv.pre hpre)
      unfold build
      split <;> simp
    have htail : v.tail = '-' :: (v.pre ++ v.build) := by simp [tail, hpre]
    simp only [htail, readTail?, hcut, hv.pre hpre, readBuild?_build, if_true, Option.map_some]

/-- The written form of a version is read back as that version. -/
theorem read?_text {v : Version} (hv : v.Valid) : read? v.text = some v := by
  rw [text_eq]
  simp only [read?, cutAt_core_append_tail, splitOn_core, readTail?_tail hv,
    Text.number?_decimal hv.major, Text.number?_decimal hv.minor, Text.number?_decimal hv.patch]
  rfl

theorem canonical?_text {v : Version} (hv : v.Valid) : canonical? v.text = some v.text := by
  rw [canonical?, read?_text hv, Option.map_some]

theorem isPreRelease_of_readTail? {tail pre : Text} {incompatible : Bool}
    (h : readTail? tail = some (pre, incompatible)) : pre ≠ [] → isPreRelease pre := by
  unfold readTail? at h
  split at h
  · dsimp only at h
    split at h
    · next hpre =>
        obtain ⟨_, _, heq⟩ := Option.map_eq_some_iff.mp h
        intro _
        cases heq
        exact hpre
    · cases h
  · obtain ⟨_, _, heq⟩ := Option.map_eq_some_iff.mp h
    cases heq
    exact fun hne => absurd rfl hne

/-- Whatever is read is the value of its own written form. -/
theorem valid_of_read? {s : Text} {v : Version} (h : read? s = some v) : v.Valid := by
  unfold read? at h
  split at h
  · next s =>
      dsimp only at h
      split at h
      · obtain ⟨a, ha, heq⟩ := Option.bind_eq_some_iff.mp h
        cases heq
        exact ⟨Text.lt_of_number? ha, Nat.two_pow_pos 64, Nat.two_pow_pos 64,
          fun hne => absurd rfl hne⟩
      · obtain ⟨a, ha, h⟩ := Option.bind_eq_some_iff.mp h
        obtain ⟨b, hb, heq⟩ := Option.bind_eq_some_iff.mp h
        cases heq
        exact ⟨Text.lt_of_number? ha, Text.lt_of_number? hb, Nat.two_pow_pos 64,
          fun hne => absurd rfl hne⟩
      · obtain ⟨⟨pre, mark⟩, htail, h⟩ := Option.bind_eq_some_iff.mp h
        obtain ⟨a, ha, h⟩ := Option.bind_eq_some_iff.mp h
        obtain ⟨b, hb, h⟩ := Option.bind_eq_some_iff.mp h
        obtain ⟨c, hc, heq⟩ := Option.bind_eq_some_iff.mp h
        cases heq
        exact ⟨Text.lt_of_number? ha, Text.lt_of_number? hb, Text.lt_of_number? hc,
          isPreRelease_of_readTail? htail⟩
      · cases h
  · cases h

theorem text_inj {v w : Version} (hv : v.Valid) (hw : w.Valid) : v.text = w.text ↔ v = w := by
  constructor
  · intro h
    have hread := read?_text hw
    rw [← h, read?_text hv] at hread
    exact Option.some.inj hread
  · rintro rfl
    rfl

theorem canonical?_eq_some_iff {s c : Text} :
    canonical? s = some c ↔ ∃ v, read? s = some v ∧ v.text = c :=
  Option.map_eq_some_iff

/-- The canonical form of a version is its own canonical form, and has the major number and the mark
of the version. Two versions have the same one just when they have the same numbers and the same
pre-release and agree on the mark. -/
theorem canonical?_normalForm :
    (∀ s c, canonical? s = some c →
      canonical? c = some c ∧ isCanonical c ∧
        (∃ n, (read? s).map (·.major) = some n ∧ (read? c).map (·.major) = some n) ∧
        (read? c).any (·.incompatible) = (read? s).any (·.incompatible)) ∧
    ∀ s t v w, read? s = some v → read? t = some w →
      (canonical? s = canonical? t ↔
        v.major = w.major ∧ v.minor = w.minor ∧ v.patch = w.patch ∧ v.pre = w.pre ∧
          v.incompatible = w.incompatible) := by
  constructor
  · intro s c h
    obtain ⟨v, hv, rfl⟩ := canonical?_eq_some_iff.mp h
    have hcanonical := canonical?_text (valid_of_read? hv)
    have hread := read?_text (valid_of_read? hv)
    refine ⟨hcanonical, ?_, ⟨v.major, by rw [hv, Option.map_some], ?_⟩, by rw [hread, hv]⟩
    · rw [isCanonical, hcanonical, beq_self_eq_true]
    · rw [hread, Option.map_some]
  · intro s t v w hv hw
    rw [canonical?, canonical?, hv, hw, Option.map_some, Option.map_some, Option.some.injEq,
      text_inj (valid_of_read? hv) (valid_of_read? hw)]
    obtain ⟨major, minor, patch, pre, incompatible⟩ := v
    obtain ⟨major', minor', patch', pre', incompatible'⟩ := w
    rw [mk.injEq]

theorem canonical?_normalForm_metadata :
    (canonical? "v1.2.3--a.0b+c.01".toList = some "v1.2.3--a.0b".toList ∧
      canonical? "v1.2.3--a.0b".toList = some "v1.2.3--a.0b".toList ∧
      isCanonical "v1.2.3--a.0b".toList) ∧
    (read? "v4+incompatible".toList = none ∧
      read? "v4.0.0+incompatible".toList = some ⟨4, 0, 0, [], true⟩ ∧
      read? "v4.0.0+incompatible.1".toList = some ⟨4, 0, 0, [], false⟩ ∧
      canonical? "v4.0.0+incompatible".toList ≠ canonical? "v4.0.0+incompatible.1".toList) := by
  have hread : canonical? "v1.2.3--a.0b+c.01".toList = some "v1.2.3--a.0b".toList := by
    decide +kernel
  have hmarked : read? "v4.0.0+incompatible".toList = some ⟨4, 0, 0, [], true⟩ := by
    decide +kernel
  have hplain : read? "v4.0.0+incompatible.1".toList = some ⟨4, 0, 0, [], false⟩ := by
    decide +kernel
  obtain ⟨hsame, hcanonical, -⟩ := canonical?_normalForm.1 _ _ hread
  refine ⟨⟨hread, hsame, hcanonical⟩, by decide +kernel, hmarked, hplain, ?_⟩
  intro heq
  obtain ⟨-, -, -, -, hmark⟩ := (canonical?_normalForm.2 _ _ _ _ hmarked hplain).mp heq
  cases hmark

end GoModules.Version
