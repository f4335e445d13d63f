import GoModules.Proofs.ModulePath.Accepted
import GoModules.Proofs.Text.Cut
import GoModules.Proofs.Text.Decimal
import Mathlib.Control.Monad.Basic
import Mathlib.Data.List.DropRight

/-!
# Major-version suffixes

Splitting a path into its front and its major-version suffix loses nothing. Where the version stands
after a slash, the suffix is the longest one of digits and dots with the `/v` before it. Where it
stands after a dot, the suffix is the decimal form of a number between `.v` and a mark, which may be
missing; but the mark without a number is taken for a version, too.
-/

namespace GoModules.ModulePath

open Text (decimal)

/-- The longest part of a kind that a text ends in. -/
structure LongestSuffix (p : Char → Bool) (s part : Text) : Prop where
  isSuffix : part <:+ s
  all : ∀ c ∈ part, p c
  longest : ∀ other, other <:+ s → (∀ c ∈ other, p c) → other.length ≤ part.length

section Cut

variable {p : Char → Bool} {s front part : Text}

theorem LongestSuffix.unique {part' : Text} (h : LongestSuffix p s part)
    (h' : LongestSuffix p s part') : part = part' := by
  have hlength : part.length = part'.length :=
    Nat.le_antisymm (h'.longest part h.isSuffix h.all) (h.longest part' h'.isSuffix h'.all)
  exact (List.suffix_of_suffix_length_le h.isSuffix h'.isSuffix hlength.le).eq_of_length hlength

theorem longestSuffix_cutSuffix (p : Char → Bool) (s : Text) :
    LongestSuffix p s (cutSuffix p s).2 where
  isSuffix := List.rtakeWhile_suffix p s
  all := fun _ hc => List.mem_rtakeWhile_imp hc
  longest := by
    rintro other ⟨rest, rfl⟩ hother
    have hreverse : ∀ c ∈ other.reverse, p c := fun c hc => hother c (List.mem_reverse.mp hc)
    rw [cutSuffix, List.reverse_append, List.takeWhile_append_of_pos hreverse]
    simp

theorem LongestSuffix.cutSuffix_eq (h : LongestSuffix p (front ++ part) part) :
    cutSuffix p (front ++ part) = (front, part) := by
  have hpart := (longestSuffix_cutSuffix p (front ++ part)).unique h
  have happend := cutSuffix_append p (front ++ part)
  rw [hpart] at happend
  exact Prod.ext (List.append_cancel_right happend) hpart

/-- A part of a kind is cut off where no longer one ends. -/
theorem cutSuffix_append_of_getLast? (hpart : ∀ c ∈ part, p c)
    (hfront : ∀ c ∈ front.getLast?, p c = false) : cutSuffix p (front ++ part) = (front, part) := by
  have hpart' : ∀ c ∈ part.reverse, p c := fun c hc => hpart c (List.mem_reverse.mp hc)
  have hfront' : ∀ c ∈ front.reverse.head?, p c = false := by rwa [List.head?_reverse]
  rw [cutSuffix, List.reverse_append, Text.takeWhile_append_of_head? hpart' hfront',
    Text.dropWhile_append_of_head? hpart' hfront', List.reverse_reverse, List.reverse_reverse]

theorem cutUnstable_spec (s : Text) :
    (cutUnstable s).1 ++ (cutUnstable s).2 = s ∧
      ((cutUnstable s).2 = [] ∨ (cutUnstable s).2 = unstableMark) := by
  unfold cutUnstable
  split
  · next start hstart => exact ⟨List.append_eq_of_isSuffixOf?_eq_some hstart, .inr rfl⟩
  · exact ⟨List.append_nil s, .inl rfl⟩

/-- What stands before the mark is cut off from it whole, unless it ends like the mark itself. -/
theorem cutUnstable_append {mark : Text} (h : s.getLast? ≠ some 'e')
    (hmark : mark = [] ∨ mark = unstableMark) : cutUnstable (s ++ mark) = (s, mark) := by
  rcases hmark with rfl | rfl
  · have hnone : unstableMark.isSuffixOf? s = none := by
      rw [Option.eq_none_iff_forall_ne_some]
      intro start hstart
      rw [← List.append_eq_of_isSuffixOf?_eq_some hstart] at h
      exact h (List.getLast?_append_of_ne_nil start (by decide))
    rw [List.append_nil, cutUnstable, hnone]
  · rw [cutUnstable, List.isSuffixOf?_eq_some_iff_append_eq.mpr rfl]

end Cut

section Slash

variable {path front number : Text}

/-- With `/v` before them, digits and dots at the end of a path are its major version or make the
path malformed. -/
theorem splitMajor?_append_number (hhost : ¬ dottedHost <+: path)
    (hnumber : LongestSuffix (fun c => c.isDigit || c == '.') path number)
    (hne : number ≠ []) (hpath : path = front ++ "/v".toList ++ number) :
    splitMajor? path =
      if number.all Char.isDigit ∧ number.head? ≠ some '0' ∧ number ≠ ['1'] then
        some (front, "/v".toList ++ number)
      else none := by
  have hdigits : number.all Char.isDigit ↔ '.' ∉ number := by
    rw [List.all_eq_true]
    constructor
    · intro hall hmem
      exact absurd (hall '.' hmem) (by decide)
    · intro hdot c hc
      rcases Bool.or_eq_true_iff.mp (hnumber.all c hc) with hdigit | heq
      · exact hdigit
      · exact absurd (beq_iff_eq.mp heq ▸ hc) hdot
  have hrefused : ('.' ∈ number ∨ number.head? = some '0' ∨ number = ['1']) ↔
      ¬ (number.all Char.isDigit ∧ number.head? ≠ some '0' ∧ number ≠ ['1']) := by
    rw [hdigits]
    tauto
  have hmark : "/v".toList.isSuffixOf? (front ++ "/v".toList) = some front :=
    List.isSuffixOf?_eq_some_iff_append_eq.mpr rfl
  subst hpath
  rw [splitMajor?, if_neg (by rwa [List.isPrefixOf_iff_prefix]), hnumber.cutSuffix_eq]
  dsimp only
  rw [hmark]
  cases number with
  | nil => exact absurd rfl hne
  | cons c number =>
      simp only [hrefused, ite_not]
      rfl

theorem splitMajor?_of_not_isSuffix (hhost : ¬ dottedHost <+: path)
    (hnumber : LongestSuffix (fun c => c.isDigit || c == '.') path number)
    (h : number = [] ∨ ¬ "/v".toList ++ number <:+ path) : splitMajor? path = some (path, []) := by
  obtain ⟨stem, rfl⟩ := hnumber.isSuffix
  rw [splitMajor?, if_neg (by rwa [List.isPrefixOf_iff_prefix]), hnumber.cutSuffix_eq]
  dsimp only
  cases number with
  | nil => rfl
  | cons c number =>
      have hnone : "/v".toList.isSuffixOf? stem = none := by
        rw [Option.eq_none_iff_forall_ne_some]
        intro front hfront
        rcases h with h | h
        · cases h
        · exact h ⟨front, by rw [← List.append_assoc, List.append_eq_of_isSuffixOf?_eq_some hfront]⟩
      rw [hnone]

end Slash

section Dot

variable {path front suffix digits mark : Text}

/-- What stands between `.v` and the mark decides whether a path is split there. -/
theorem splitDotted?_append (hdigits : ∀ c ∈ digits, c.isDigit)
    (hmark : mark = [] ∨ mark = unstableMark) :
    splitDotted? (front ++ ".v".toList ++ digits ++ mark) =
      if digits ++ mark = [] ∨
          ((digits ++ mark).head? = some '0' ∧ digits ++ mark ≠ ['0']) then none
      else some (front, ".v".toList ++ (digits ++ mark)) := by
  have hlast : (front ++ ".v".toList ++ digits).getLast? ≠ some 'e' := by
    intro hlast
    by_cases hnil : digits = []
    · simp [hnil] at hlast
    · rw [List.getLast?_append_of_ne_nil _ hnil] at hlast
      exact absurd (hdigits 'e' (List.mem_of_getLast? hlast)) (by decide)
  have hstem : cutSuffix Char.isDigit (front ++ ".v".toList ++ digits) =
      (front ++ ".v".toList, digits) := by
    apply cutSuffix_append_of_getLast? hdigits
    simp
  have hfront : ".v".toList.isSuffixOf? (front ++ ".v".toList) = some front :=
    List.isSuffixOf?_eq_some_iff_append_eq.mpr rfl
  rw [splitDotted?, cutUnstable_append hlast hmark]
  dsimp only
  rw [hstem]
  dsimp only
  rw [hfront]
  rfl

theorem splitDotted?_eq_some_iff_exists :
    splitDotted? path = some (front, suffix) ↔ ∃ digits mark, (∀ c ∈ digits, c.isDigit) ∧
      (mark = [] ∨ mark = unstableMark) ∧ digits ++ mark ≠ [] ∧
      ((digits ++ mark).head? = some '0' → digits ++ mark = ['0']) ∧
      suffix = ".v".toList ++ (digits ++ mark) ∧ path = front ++ suffix := by
  constructor
  · intro h
    obtain ⟨hpath, hmark⟩ := cutUnstable_spec path
    have hstart := cutSuffix_append Char.isDigit (cutUnstable path).1
    have hdigits := (longestSuffix_cutSuffix Char.isDigit (cutUnstable path).1).all
    unfold splitDotted? at h
    dsimp only at h
    split at h
    · cases h
    · next front' hfront =>
        split at h
        · cases h
        · next hversion =>
            cases h
            rw [not_or, not_and, not_not] at hversion
            refine ⟨_, _, hdigits, hmark, hversion.1, hversion.2, rfl, ?_⟩
            have hstem := List.append_eq_of_isSuffixOf?_eq_some hfront
            calc
              path = (cutUnstable path).1 ++ (cutUnstable path).2 := hpath.symm
              _ = (front ++ ".v".toList ++ _) ++ (cutUnstable path).2 := by rw [hstem, hstart]
              _ = front ++ ".v".toList ++ (_ ++ (cutUnstable path).2) := List.append_assoc ..
              _ = front ++ (".v".toList ++ (_ ++ (cutUnstable path).2)) := List.append_assoc ..
  · rintro ⟨digits, mark, hdigits, hmark, hne, hzero, rfl, rfl⟩
    have hsplit := @splitDotted?_append front digits mark hdigits hmark
    rw [if_neg (by tauto)] at hsplit
    simpa only [List.append_assoc] using hsplit

/-- The suffixes that carry a major version: a number, and for the development of a version other
than the zeroth a mark. -/
inductive DottedMajor : Text → Prop
  | released (n : Nat) : DottedMajor (".v".toList ++ decimal n)
  | unstable {n : Nat} (h : n ≠ 0) : DottedMajor (".v".toList ++ (decimal n ++ unstableMark))

theorem dottedMajor_of_digits (hdigits : ∀ c ∈ digits, c.isDigit) (hne : digits ≠ [])
    (hmark : mark = [] ∨ mark = unstableMark)
    (hzero : (digits ++ mark).head? = some '0' → digits ++ mark = ['0']) :
    DottedMajor (".v".toList ++ (digits ++ mark)) := by
  rw [List.head?_append_of_ne_nil _ hne] at hzero
  rcases hmark with rfl | rfl
  · rw [List.append_nil] at hzero
    obtain ⟨n, rfl⟩ : ∃ n, digits = decimal n :=
      ⟨_, (Text.decimal_ofDigitChars hne hdigits hzero).symm⟩
    rw [List.append_nil]
    exact .released n
  · have hhead : digits.head? ≠ some '0' := by
      intro hhead
      rcases List.append_eq_singleton_iff.mp (hzero hhead) with ⟨hnil, -⟩ | ⟨-, hnil⟩
      · exact hne hnil
      · exact absurd hnil (by decide)
    obtain ⟨n, rfl⟩ : ∃ n, digits = decimal n :=
      ⟨_, (Text.decimal_ofDigitChars hne hdigits fun h => absurd h hhead).symm⟩
    have hn : n ≠ 0 := by
      rintro rfl
      exact hhead rfl
    exact .unstable hn

/-- A path of the dotted host is split before the suffixes that carry a version, and before the mark
by itself. -/
theorem splitDotted?_eq_some_iff :
    splitDotted? path = some (front, suffix) ↔
      path = front ++ suffix ∧ (DottedMajor suffix ∨ suffix = ".v".toList ++ unstableMark) := by
  rw [splitDotted?_eq_some_iff_exists]
  constructor
  · rintro ⟨digits, mark, hdigits, hmark, hne, hzero, rfl, hpath⟩
    refine ⟨hpath, ?_⟩
    by_cases hnil : digits = []
    · -- The mark counts as what follows `.v`, so that no digits are needed before it.
      subst hnil
      exact .inr (congrArg (".v".toList ++ ·) (hmark.resolve_left hne))
    · exact .inl (dottedMajor_of_digits hdigits hnil hmark hzero)
  · rintro ⟨hpath, hsuffix | rfl⟩
    · cases hsuffix with
      | released n =>
          refine ⟨decimal n, [], fun c => Text.isDigit_of_mem_decimal, .inl rfl, ?_, ?_, ?_, hpath⟩
          · rw [List.append_nil]
            exact Text.decimal_ne_nil n
          · rw [List.append_nil]
            intro hhead
            rw [Text.eq_zero_of_head?_decimal n hhead]
            rfl
          · rw [List.append_nil]
      | @unstable n hn =>
          have hne := Text.decimal_ne_nil n
          refine ⟨decimal n, unstableMark, fun c => Text.isDigit_of_mem_decimal, .inr rfl,
            List.append_ne_nil_of_left_ne_nil hne _, ?_, rfl, hpath⟩
          rw [List.head?_append_of_ne_nil _ hne]
          exact fun hhead => absurd (Text.eq_zero_of_head?_decimal n hhead) hn
    · exact ⟨[], unstableMark, by simp, .inr rfl, by decide, by decide, rfl, hpath⟩

end Dot

section Split

variable {path front suffix : Text}

theorem splitMajor?_of_dottedHost (hhost : dottedHost <+: path) :
    splitMajor? path = splitDotted? path := by
  rw [splitMajor?, if_pos (List.isPrefixOf_iff_prefix.mpr hhost)]

/-- A path is its front and its suffix, which is empty or starts with its separator and a `v`. -/
theorem append_of_splitMajor? (h : splitMajor? path = some (front, suffix)) :
    front ++ suffix = path ∧ (suffix = [] ∨ "/v".toList <+: suffix ∨ ".v".toList <+: suffix) := by
  by_cases hhost : dottedHost <+: path
  · rw [splitMajor?_of_dottedHost hhost, splitDotted?_eq_some_iff_exists] at h
    obtain ⟨digits, mark, -, -, -, -, rfl, hpath⟩ := h
    exact ⟨hpath.symm, .inr (.inr (List.prefix_append _ _))⟩
  have hnumber := longestSuffix_cutSuffix (fun c => c.isDigit || c == '.') path
  by_cases hplain : (cutSuffix (fun c => c.isDigit || c == '.') path).2 = [] ∨
      ¬ "/v".toList ++ (cutSuffix (fun c => c.isDigit || c == '.') path).2 <:+ path
  · rw [splitMajor?_of_not_isSuffix hhost hnumber hplain] at h
    cases h
    exact ⟨List.append_nil path, .inl rfl⟩
  · rw [not_or, not_not] at hplain
    obtain ⟨hne, front', hpath⟩ := hplain
    rw [← List.append_assoc] at hpath
    rw [splitMajor?_append_number hhost hnumber hne hpath.symm] at h
    split at h
    · cases h
      rw [← List.append_assoc]
      exact ⟨hpath, .inr (.inl (List.prefix_append _ _))⟩
    · cases h

/-- Nothing is lost by the split. Where the version stands after a slash, digits and dots at the end
of a path are its suffix just when `/v` is before them, and malformed unless they are digits, do not
start with a zero and are not the one of the first version. -/
theorem splitMajor?_longestSuffix (path : Text) :
    (∀ front suffix, splitMajor? path = some (front, suffix) → front ++ suffix = path) ∧
      (¬ dottedHost <+: path →
        ∃ number, LongestSuffix (fun c => c.isDigit || c == '.') path number ∧
          (∀ front, path = front ++ "/v".toList ++ number → number ≠ [] →
            splitMajor? path =
              if number.all Char.isDigit ∧ number.head? ≠ some '0' ∧ number ≠ ['1'] then
                some (front, "/v".toList ++ number)
              else none) ∧
          (number = [] ∨ ¬ "/v".toList ++ number <:+ path →
            splitMajor? path = some (path, []))) := by
  refine ⟨fun front suffix h => (append_of_splitMajor? h).1, fun hhost => ?_⟩
  have hnumber := longestSuffix_cutSuffix (fun c => c.isDigit || c == '.') path
  refine ⟨_, hnumber, ?_, ?_⟩
  · exact fun front hpath hne => splitMajor?_append_number hhost hnumber hne hpath
  · exact splitMajor?_of_not_isSuffix hhost hnumber

/-- A path of the dotted host is split before a suffix that carries a version or before the mark by
itself, and an accepted path ends in one of these. -/
theorem splitMajor?_dottedHost_iff (hhost : dottedHost <+: path) :
    (∀ front suffix, splitMajor? path = some (front, suffix) ↔
      path = front ++ suffix ∧ (DottedMajor suffix ∨ suffix = ".v".toList ++ unstableMark)) ∧
      (check path = .ok () → ∃ suffix, suffix <:+ path ∧
        (DottedMajor suffix ∨ suffix = ".v".toList ++ unstableMark)) := by
  have hsplit : ∀ front suffix, splitMajor? path = some (front, suffix) ↔
      path = front ++ suffix ∧ (DottedMajor suffix ∨ suffix = ".v".toList ++ unstableMark) := by
    intro front suffix
    rw [splitMajor?_of_dottedHost hhost, splitDotted?_eq_some_iff]
  refine ⟨hsplit, fun hcheck => ?_⟩
  obtain ⟨⟨front, suffix⟩, hsome⟩ :=
    Option.isSome_iff_exists.mp (isSome_splitMajor?_of_check hcheck)
  obtain ⟨hpath, hsuffix⟩ := (hsplit front suffix).mp hsome
  exact ⟨suffix, ⟨front, hpath.symm⟩, hsuffix⟩

theorem splitMajor?_dottedHost_iff_unstable :
    dottedHost <+: "gopkg.in/check.v10-unstable".toList ∧
      splitMajor? "gopkg.in/check.v10-unstable".toList =
        some ("gopkg.in/check".toList, ".v10-unstable".toList) ∧
      ∃ suffix, suffix <:+ "gopkg.in/check.v10-unstable".toList ∧
        (DottedMajor suffix ∨ suffix = ".v".toList ++ unstableMark) := by
  have hhost : dottedHost <+: "gopkg.in/check.v10-unstable".toList := by decide
  have hcheck : check "gopkg.in/check.v10-unstable".toList = .ok () := by decide +kernel
  have hdigits : ".v10-unstable".toList = ".v".toList ++ (decimal 10 ++ unstableMark) := by
    decide +kernel
  have hmajor : DottedMajor ".v10-unstable".toList := by
    rw [hdigits]
    exact .unstable (by decide)
  obtain ⟨hsplit, hsuffix⟩ := splitMajor?_dottedHost_iff hhost
  exact ⟨hhost, (hsplit _ _).mpr ⟨by decide, .inl hmajor⟩, hsuffix hcheck⟩

/-- The mark by itself passes for a version. -/
theorem exists_check_without_number :
    ∃ path front suffix, dottedHost <+: path ∧ check path = .ok () ∧
      splitMajor? path = some (front, suffix) ∧
      ¬ ∃ n mark, (mark = [] ∨ mark = unstableMark) ∧
        suffix = ".v".toList ++ (decimal n ++ mark) := by
  refine ⟨"gopkg.in/x.v-unstable".toList, "gopkg.in/x".toList, ".v".toList ++ unstableMark,
    by decide, by decide +kernel, by decide +kernel, ?_⟩
  rintro ⟨n, mark, -, hsuffix⟩
  have hhead := congrArg List.head? (List.append_cancel_left hsuffix)
  rw [List.head?_append_of_ne_nil _ (Text.decimal_ne_nil n)] at hhead
  exact absurd (Text.isDigit_of_mem_decimal (List.mem_of_head? hhead.symm)) (by decide)

end Split

end GoModules.ModulePath
