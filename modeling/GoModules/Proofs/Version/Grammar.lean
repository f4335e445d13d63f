import GoModules.Proofs.Version.Canonical

/-!
# The grammar of versions

What a version may look like, put together from numbers and identifiers, and what its canonical form
is. The reader cuts a text from left to right: at the first hyphen or plus sign, at dots, and behind
a hyphen at the first plus sign. It accepts the texts of the grammar and no others, since none of
these signs can stand in a part that is in front of it.
-/

namespace GoModules.Version

open Text (cutAt decimal)

/-- Letters and digits of ASCII and hyphens, and at least one of them. -/
def Identifier (s : Text) : Prop :=
  s ≠ [] ∧ ∀ c ∈ s, c.isAlphanum ∨ c = '-'

/-- An identifier that has no superfluous leading zero if it is a number. -/
def PreIdentifier (s : Text) : Prop :=
  Identifier s ∧ ((∀ c ∈ s, c.isDigit) → s.head? = some '0' → s = ['0'])

/-- One or more parts with dots between them. -/
def Joined (P : Text → Prop) (s : Text) : Prop :=
  ∃ parts, parts ≠ [] ∧ (∀ part ∈ parts, P part) ∧ s = ['.'].intercalate parts

/-- A mark and what it introduces, if there is anything to introduce. -/
def introduced (mark : Char) : Option Text → Text
  | none => []
  | some s => mark :: s

@[simp] theorem introduced_none (mark : Char) : introduced mark none = [] := rfl

@[simp] theorem introduced_some (mark : Char) (s : Text) : introduced mark (some s) = mark :: s :=
  rfl

/-- How versions are spelled, and the canonical form of each. Numbers fit into 64 bits, and only a
version with all three of them may have a pre-release and a build. -/
inductive Spelling : Text → Text → Prop
  | major {a : Nat} (ha : a < UInt64.size) : Spelling ('v' :: dotted [a]) ('v' :: dotted [a, 0, 0])
  | minor {a b : Nat} (ha : a < UInt64.size) (hb : b < UInt64.size) :
      Spelling ('v' :: dotted [a, b]) ('v' :: dotted [a, b, 0])
  | full {a b c : Nat} {pre build : Option Text} (ha : a < UInt64.size) (hb : b < UInt64.size)
      (hc : c < UInt64.size) (hpre : ∀ s ∈ pre, Joined PreIdentifier s)
      (hbuild : ∀ s ∈ build, Joined Identifier s) :
      Spelling ('v' :: (dotted [a, b, c] ++ (introduced '-' pre ++ introduced '+' build)))
        ('v' :: (dotted [a, b, c] ++ (introduced '-' pre ++
          introduced '+' (build.filter (· = "incompatible".toList)))))

variable {s : Text}

theorem isBuildIdentifier_iff : isBuildIdentifier s ↔ Identifier s := by
  simp [isBuildIdentifier, Identifier, isIdentifierChar]

theorem isPreIdentifier_iff : isPreIdentifier s ↔ PreIdentifier s := by
  rw [isPreIdentifier, Bool.and_eq_true, isBuildIdentifier_iff, PreIdentifier]
  apply and_congr_right'
  simp only [Bool.or_eq_true, Bool.not_eq_true', bne_iff_ne, beq_iff_eq, ← Bool.not_eq_true,
    List.all_eq_true]
  tauto

theorem Identifier.notMem {c : Char} (h : Identifier s) (hc : isIdentifierChar c = false) :
    c ∉ s := by
  intro hmem
  have hchar : isIdentifierChar c = true := by
    simpa [isIdentifierChar] using h.2 c hmem
  exact Bool.false_ne_true (hc.symm.trans hchar)

/-- A text is made up of parts without dots just when these are its parts between dots. -/
theorem all_splitOn_iff {p : Text → Bool} {P : Text → Prop} (hp : ∀ {s}, p s ↔ P s)
    (hdot : ∀ {s}, P s → '.' ∉ s) : (s.splitOn '.').all p ↔ Joined P s := by
  rw [List.all_eq_true]
  constructor
  · intro h
    exact ⟨s.splitOn '.', List.splitOn_ne_nil _ _, fun part hpart => hp.mp (h part hpart),
      (List.intercalate_splitOn '.').symm⟩
  · rintro ⟨parts, hne, hparts, rfl⟩ part hpart
    rw [List.splitOn_intercalate '.' (fun part hpart => hdot (hparts part hpart)) hne] at hpart
    exact hp.mpr (hparts part hpart)

theorem isPreRelease_iff : isPreRelease s ↔ Joined PreIdentifier s :=
  all_splitOn_iff isPreIdentifier_iff fun h => h.1.notMem (by decide)

theorem isBuild_iff : isBuild s ↔ Joined Identifier s :=
  all_splitOn_iff isBuildIdentifier_iff fun h => h.notMem (by decide)

theorem Joined.ne_nil {P : Text → Prop} (hP : ∀ {s}, P s → s ≠ []) (h : Joined P s) : s ≠ [] := by
  obtain ⟨parts, hne, hparts, rfl⟩ := h
  obtain ⟨part, rest, rfl⟩ := List.exists_cons_of_ne_nil hne
  have hpart := hP (hparts part List.mem_cons_self)
  by_cases hnil : rest = []
  · subst hnil
    rwa [List.intercalate_singleton]
  · rw [List.intercalate_cons_of_ne_nil hnil]
    simp

theorem readBuild?_eq_some_iff {b : Bool} :
    readBuild? s = some b ↔
      ∃ build : Option Text, s = introduced '+' build ∧ (∀ t ∈ build, Joined Identifier t) ∧
        b = decide (build = some incompatibleMark) := by
  constructor
  · intro h
    unfold readBuild? at h
    split at h
    · cases h
      exact ⟨none, rfl, by simp, by simp⟩
    · next build =>
        rw [Option.ite_none_right_eq_some] at h
        obtain ⟨hbuild, heq⟩ := h
        cases heq
        refine ⟨some build, rfl, by simpa using isBuild_iff.mp hbuild, ?_⟩
        simp [beq_eq_decide]
    · cases h
  · rintro ⟨build, rfl, hbuild, rfl⟩
    cases build with
    | none => simp [introduced, readBuild?]
    | some build =>
        rw [introduced, readBuild?, if_pos (isBuild_iff.mpr (hbuild build rfl))]
        simp [beq_eq_decide]

theorem head?_introduced {c : Char} (mark : Char) (part : Option Text)
    (h : c ∈ (introduced mark part).head?) : c = mark := by
  cases part with
  | none => cases h
  | some part =>
      cases h
      rfl

theorem readTail?_introduced {pre build : Option Text} {b : Bool}
    (hpre : ∀ s ∈ pre, Joined PreIdentifier s)
    (hbuild : readBuild? (introduced '+' build) = some b) :
    readTail? (introduced '-' pre ++ introduced '+' build) = some (pre.getD [], b) := by
  cases pre with
  | none =>
      rw [introduced, List.nil_append, readTail?, hbuild]
      · rfl
      · intro rest hrest
        have hmark := head?_introduced (c := '-') '+' build (by rw [hrest]; rfl)
        cases hmark
  | some pre =>
      have hrelease := isPreRelease_iff.mpr (hpre pre rfl)
      have hcut := cutAt_append_of_isPreRelease hrelease fun c hc =>
        head?_introduced '+' build hc
      rw [introduced_some, List.cons_append, readTail?, hcut]
      dsimp only
      rw [if_pos hrelease, hbuild]
      rfl

theorem exists_introduced_of_readTail? {tail pre : Text} {b : Bool}
    (h : readTail? tail = some (pre, b)) :
    ∃ p build : Option Text, tail = introduced '-' p ++ introduced '+' build ∧
      (∀ s ∈ p, Joined PreIdentifier s) ∧ (∀ s ∈ build, Joined Identifier s) ∧
      pre = p.getD [] ∧ b = decide (build = some incompatibleMark) := by
  unfold readTail? at h
  split at h
  · next tail =>
      dsimp only at h
      rw [Option.ite_none_right_eq_some] at h
      obtain ⟨hpre, h⟩ := h
      obtain ⟨_, hbuild, heq⟩ := Option.map_eq_some_iff.mp h
      cases heq
      obtain ⟨build, hrest, hparts, hb⟩ := readBuild?_eq_some_iff.mp hbuild
      refine ⟨some (cutAt (· == '+') tail).1, build, ?_, ?_, hparts, rfl, hb⟩
      · rw [introduced_some, ← hrest, List.cons_append, Text.cutAt_append]
      · simpa using isPreRelease_iff.mp hpre
  · obtain ⟨_, hbuild, heq⟩ := Option.map_eq_some_iff.mp h
    cases heq
    obtain ⟨build, hrest, hparts, hb⟩ := readBuild?_eq_some_iff.mp hbuild
    exact ⟨none, build, hrest, by simp, hparts, rfl, hb⟩

theorem build_eq_introduced (build : Option Text) :
    (if decide (build = some incompatibleMark) then '+' :: incompatibleMark else []) =
      introduced '+' (build.filter (· = "incompatible".toList)) := by
  cases build with
  | none => rfl
  | some build =>
      by_cases hbuild : build = incompatibleMark
      · subst hbuild
        rfl
      · have hmark : ¬ decide (some build = some incompatibleMark) = true := by
          rwa [decide_eq_true_eq, Option.some.injEq]
        have hfilter : (some build).filter (· = "incompatible".toList) = none :=
          Option.filter_some_neg (decide_eq_false hbuild)
        rw [if_neg hmark, hfilter, introduced_none]

theorem text_eq_dotted (a b c : Nat) : text ⟨a, b, c, [], false⟩ = 'v' :: dotted [a, b, c] := by
  simp [text_eq, core_eq, tail, build]

/-- The written form of a version with a tail that is read. -/
theorem text_eq_introduced {a b c : Nat} {pre build : Option Text}
    (hpre : ∀ s ∈ pre, Joined PreIdentifier s) :
    text ⟨a, b, c, pre.getD [], decide (build = some incompatibleMark)⟩ =
      'v' :: (dotted [a, b, c] ++ (introduced '-' pre ++
        introduced '+' (build.filter (· = "incompatible".toList)))) := by
  have hrelease : (if pre.getD [] = [] then [] else '-' :: pre.getD []) = introduced '-' pre := by
    cases pre with
    | none => rfl
    | some pre => exact if_neg ((hpre pre rfl).ne_nil fun h => h.1.1)
  rw [text_eq, core_eq, tail, Version.build, build_eq_introduced, hrelease]

theorem eq_dotted_append {p : Char → Bool} (numbers : List Nat)
    (h : (cutAt p s).1.splitOn '.' = numbers.map decimal) :
    s = dotted numbers ++ (cutAt p s).2 := by
  rw [dotted, ← h, List.intercalate_splitOn, Text.cutAt_append]

/-- One case for each number of parts that the reader tells apart. -/
theorem spelling_of_read? {v : Version} (h : read? s = some v) : Spelling s v.text := by
  unfold read? at h
  split at h
  · dsimp only at h
    split at h
    · next hparts htail =>
        obtain ⟨a, hread, heq⟩ := Option.bind_eq_some_iff.mp h
        obtain ⟨rfl, ha⟩ := Text.number?_eq_some_iff.mp hread
        cases heq
        rw [eq_dotted_append [a] hparts, htail, List.append_nil, text_eq_dotted]
        exact .major ha
    · next hparts htail =>
        obtain ⟨a, hmajor, h⟩ := Option.bind_eq_some_iff.mp h
        obtain ⟨b, hminor, heq⟩ := Option.bind_eq_some_iff.mp h
        obtain ⟨rfl, ha⟩ := Text.number?_eq_some_iff.mp hmajor
        obtain ⟨rfl, hb⟩ := Text.number?_eq_some_iff.mp hminor
        cases heq
        rw [eq_dotted_append [a, b] hparts, htail, List.append_nil, text_eq_dotted]
        exact .minor ha hb
    · next hparts =>
        obtain ⟨⟨pre, mark⟩, htail, h⟩ := Option.bind_eq_some_iff.mp h
        obtain ⟨a, hmajor, h⟩ := Option.bind_eq_some_iff.mp h
        obtain ⟨b, hminor, h⟩ := Option.bind_eq_some_iff.mp h
        obtain ⟨c, hpatch, heq⟩ := Option.bind_eq_some_iff.mp h
        obtain ⟨rfl, ha⟩ := Text.number?_eq_some_iff.mp hmajor
        obtain ⟨rfl, hb⟩ := Text.number?_eq_some_iff.mp hminor
        obtain ⟨rfl, hc⟩ := Text.number?_eq_some_iff.mp hpatch
        cases heq
        obtain ⟨pre, build, heq, hpre, hbuild, rfl, rfl⟩ := exists_introduced_of_readTail? htail
        rw [eq_dotted_append [a, b, c] hparts, heq, text_eq_introduced hpre]
        exact .full ha hb hc hpre hbuild
    · cases h
  · cases h

theorem canonical?_of_spelling {c : Text} (h : Spelling s c) : canonical? s = some c := by
  have hshort : ∀ numbers, cutAt (fun c => c == '-' || c == '+') (dotted numbers) =
      (dotted numbers, []) := by
    intro numbers
    have hnil : ∀ c ∈ ([] : Text).head?, c = '-' ∨ c = '+' := by simp
    have hcut := cutAt_dotted_append numbers hnil
    rwa [List.append_nil] at hcut
  rw [canonical?_eq_some_iff]
  cases h with
  | @major a ha =>
      refine ⟨_, ?_, text_eq_dotted a 0 0⟩
      simp only [read?, hshort, splitOn_dotted (List.cons_ne_nil _ _), List.map_cons,
        List.map_nil, Text.number?_decimal ha]
      rfl
  | @minor a b ha hb =>
      refine ⟨_, ?_, text_eq_dotted a b 0⟩
      simp only [read?, hshort, splitOn_dotted (List.cons_ne_nil _ _), List.map_cons,
        List.map_nil, Text.number?_decimal ha, Text.number?_decimal hb]
      rfl
  | @full a b c pre build ha hb hc hpre hbuild =>
      have htail := readTail?_introduced hpre (readBuild?_eq_some_iff.mpr ⟨build, rfl, hbuild, rfl⟩)
      have hmarks : ∀ c ∈ (introduced '-' pre ++ introduced '+' build).head?,
          c = '-' ∨ c = '+' := by
        intro c hc
        cases pre with
        | none => exact .inr (head?_introduced '+' build hc)
        | some pre => exact .inl (head?_introduced '-' (some pre) hc)
      refine ⟨_, ?_, text_eq_introduced hpre⟩
      simp only [read?, cutAt_dotted_append _ hmarks, splitOn_dotted (List.cons_ne_nil _ _),
        List.map_cons, List.map_nil, htail, Text.number?_decimal ha, Text.number?_decimal hb,
        Text.number?_decimal hc]
      rfl

/-- The texts that have a canonical form are those of the grammar, with the form given there. -/
theorem canonical?_iff_spelling {s c : Text} : canonical? s = some c ↔ Spelling s c := by
  constructor
  · intro h
    obtain ⟨v, hv, rfl⟩ := canonical?_eq_some_iff.mp h
    exact spelling_of_read? hv
  · exact canonical?_of_spelling

end GoModules.Version
