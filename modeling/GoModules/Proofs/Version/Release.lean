import GoModules.Proofs.Text.Ascii
import GoModules.Proofs.Text.Cut
import GoModules.Version.Release

/-!
# The patterns of releases and toolchains

The readers of releases and toolchains cut a text from left to right. Here the same texts are
described by what they are put together from.
-/

namespace GoModules.Release

open Text (cutAt)

/-- Zero, or digits of which the first is not zero. -/
def Numeral (s : Text) : Prop :=
  s = ['0'] ∨ ∃ c rest, s = c :: rest ∧ c ≠ '0' ∧ c.isDigit ∧ ∀ d ∈ rest, d.isDigit

/-- Nothing, or lower-case letters followed by digits. -/
def Suffix (s : Text) : Prop :=
  s = [] ∨ ∃ letters digits, s = letters ++ digits ∧ letters ≠ [] ∧ digits ≠ [] ∧
    (∀ c ∈ letters, c.isLower) ∧ ∀ c ∈ digits, c.isDigit

theorem isNumber_iff {s : Text} : isNumber s ↔ Numeral s := by
  simp only [isNumber, Bool.and_eq_true, Bool.or_eq_true, decide_eq_true_eq, bne_iff_ne,
    beq_iff_eq, List.all_eq_true]
  constructor
  · rintro ⟨⟨hne, hdigits⟩, hhead | rfl⟩
    · obtain ⟨c, rest, rfl⟩ := List.exists_cons_of_ne_nil hne
      exact .inr ⟨c, rest, rfl, by simpa using hhead, hdigits c List.mem_cons_self,
        fun d hd => hdigits d (List.mem_cons_of_mem c hd)⟩
    · exact .inl rfl
  · rintro (rfl | ⟨c, rest, rfl, hc, hdigit, hrest⟩)
    · exact ⟨⟨List.cons_ne_nil _ _, by simp⟩, .inr rfl⟩
    · refine ⟨⟨List.cons_ne_nil c rest, ?_⟩, .inl (by simpa using hc)⟩
      intro d hd
      rcases List.mem_cons.mp hd with rfl | hd
      · exact hdigit
      · exact hrest d hd

theorem Numeral.isDigit {s : Text} (h : Numeral s) : ∀ c ∈ s, c.isDigit :=
  List.all_eq_true.mp (Bool.and_eq_true_iff.mp (Bool.and_eq_true_iff.mp (isNumber_iff.mpr h)).1).2

/-- A numeral is cut off where no further digit follows. -/
theorem Numeral.cutAt_append {s t : Text} (h : Numeral s)
    (ht : ∀ c ∈ t.head?, c.isDigit = false) : cutAt (! Char.isDigit ·) (s ++ t) = (s, t) := by
  apply Text.cutAt_append_of_head?
  · intro c hc
    rw [h.isDigit c hc, Bool.not_true]
  · intro c hc
    rw [ht c hc, Bool.not_false]

theorem Suffix.isDigit_head?_eq_false {s : Text} (h : Suffix s) :
    ∀ c ∈ s.head?, c.isDigit = false := by
  rcases h with rfl | ⟨letters, digits, rfl, hne, -, hlower, -⟩
  · simp
  · obtain ⟨c, rest, rfl⟩ := List.exists_cons_of_ne_nil hne
    intro d hd
    obtain rfl : c = d := by simpa using hd
    exact Text.isDigit_eq_false_of_isLower (hlower c List.mem_cons_self)

theorem isSuffix_iff {s : Text} : isSuffix s ↔ Suffix s := by
  simp only [isSuffix, Bool.or_eq_true, beq_iff_eq, Bool.and_eq_true, decide_eq_true_eq,
    List.all_eq_true]
  apply or_congr_right
  constructor
  · rintro ⟨⟨hletters, hdigits⟩, hall⟩
    refine ⟨_, _, (Text.cutAt_append _ s).symm, hletters, hdigits, ?_, hall⟩
    intro c hc
    simpa using Text.eq_false_of_mem_cutAt hc
  · rintro ⟨letters, digits, rfl, hletters, hdigits, hlower, hall⟩
    have hcut : cutAt (! Char.isLower ·) (letters ++ digits) = (letters, digits) := by
      apply Text.cutAt_append_of_head?
      · intro c hc
        rw [hlower c hc, Bool.not_true]
      · intro c hc
        rw [Bool.not_eq_true', Bool.eq_false_iff]
        intro hlower
        have hdigit := hall c (List.mem_of_mem_head? hc)
        rw [Text.isDigit_eq_false_of_isLower hlower] at hdigit
        cases hdigit
    rw [hcut]
    exact ⟨⟨hletters, hdigits⟩, hall⟩

/-- What may follow the second number: a third one or none, and a suffix. -/
def Tail (s : Text) : Prop :=
  ∃ patch suffix, s = patch ++ suffix ∧ (patch = [] ∨ ∃ n, Numeral n ∧ patch = '.' :: n) ∧
    Suffix suffix

theorem Tail.isDigit_head?_eq_false {s : Text} (h : Tail s) :
    ∀ c ∈ s.head?, c.isDigit = false := by
  obtain ⟨patch, suffix, rfl, rfl | ⟨n, -, rfl⟩, hsuffix⟩ := h
  · exact hsuffix.isDigit_head?_eq_false
  · intro c hc
    obtain rfl : '.' = c := by simpa using hc
    decide

theorem isTail_iff {s : Text} : isTail s ↔ Tail s := by
  constructor
  · intro h
    unfold isTail at h
    split at h
    · next s =>
        obtain ⟨hpatch, hsuffix⟩ := Bool.and_eq_true_iff.mp h
        refine ⟨'.' :: (cutAt (! Char.isDigit ·) s).1, (cutAt (! Char.isDigit ·) s).2, ?_,
          .inr ⟨_, isNumber_iff.mp hpatch, rfl⟩, isSuffix_iff.mp hsuffix⟩
        rw [List.cons_append, Text.cutAt_append]
    · exact ⟨[], s, rfl, .inl rfl, isSuffix_iff.mp h⟩
  · rintro ⟨patch, suffix, rfl, rfl | ⟨n, hn, rfl⟩, hsuffix⟩
    · rw [List.nil_append, isTail, isSuffix_iff.mpr hsuffix]
      rintro rest rfl
      rcases hsuffix with hnil | ⟨letters, digits, heq, hne, -, hlower, -⟩
      · cases hnil
      · obtain ⟨c, letters, rfl⟩ := List.exists_cons_of_ne_nil hne
        obtain rfl : '.' = c := (List.cons.inj heq).1
        exact absurd (hlower '.' List.mem_cons_self) (by decide)
    · rw [List.cons_append, isTail, hn.cutAt_append hsuffix.isDigit_head?_eq_false]
      exact Bool.and_eq_true_iff.mpr ⟨isNumber_iff.mpr hn, isSuffix_iff.mpr hsuffix⟩

/-- A positive number, a dot, a second number, and what may follow it. -/
def LanguagePattern (s : Text) : Prop :=
  ∃ major minor tail, s = major ++ '.' :: (minor ++ tail) ∧
    Numeral major ∧ major ≠ ['0'] ∧ Numeral minor ∧ Tail tail

/-- The texts that are read as releases are those of the pattern. -/
theorem isLanguage_iff {s : Text} : isLanguage s ↔ LanguagePattern s := by
  constructor
  · intro h
    simp only [isLanguage, Bool.and_eq_true, decide_eq_true_eq] at h
    obtain ⟨⟨hmajor, hzero⟩, h⟩ := h
    split at h
    · next rest hrest =>
        obtain ⟨hminor, htail⟩ := Bool.and_eq_true_iff.mp h
        refine ⟨_, _, _, ?_, isNumber_iff.mp hmajor, hzero, isNumber_iff.mp hminor,
          isTail_iff.mp htail⟩
        rw [Text.cutAt_append, ← hrest, Text.cutAt_append]
    · cases h
  · rintro ⟨major, minor, tail, rfl, hmajor, hzero, hminor, htail⟩
    have hdot : ∀ c ∈ ('.' :: (minor ++ tail)).head?, c.isDigit = false := by
      intro c hc
      obtain rfl : '.' = c := by simpa using hc
      decide
    simp only [isLanguage, hmajor.cutAt_append hdot,
      hminor.cutAt_append htail.isDigit_head?_eq_false, isNumber_iff.mpr hmajor,
      isNumber_iff.mpr hminor, isTail_iff.mpr htail, decide_eq_true hzero]
    rfl

/-- The word `default`, or `go1`, or a text that begins with `go1.`. -/
def ToolchainPattern (s : Text) : Prop :=
  s = "default".toList ∨ s = "go1".toList ∨ "go1.".toList <+: s

theorem isToolchain_iff {s : Text} : isToolchain s ↔ ToolchainPattern s := by
  simp [isToolchain, ToolchainPattern, or_assoc]

end GoModules.Release
