import GoModules.Proofs.ModulePath.MajorSuffix
import GoModules.Proofs.Offset.Bytes

/-!
# Major-version suffixes by offsets

The suffix of a path can be found by a scan of its bytes from the end. Where the scan ends, the two
bytes in front are looked at, and the path is split before them. They are ASCII then, whatever
stands in the rest of the path, so the split is between two characters.
-/

namespace GoModules.Offset

open ModulePath
open Text (byteLength)
open Utf8 (encode)

/-- Splits a path before a separator and a `v`, if they are what stands in front of an index. -/
def splitMark? (separator : Char) (path : Text) (i : Nat) : Option (Option (Text × Text)) := do
  if i ≤ 1 then return none
  else
    if ! ascii (· == 'v') (← byteBefore? (encode path) i 1) then return none
    else
      if ! ascii (· == separator) (← byteBefore? (encode path) i 2) then return none
      else return some (← splitAt? (← minus? i 2) path)

/-- Splits a path whose major version stands after a dot. -/
def splitDotted? (path : Text) : Option (Option (Text × Text)) := do
  let bytes := encode path
  let i ← scanBack? (ascii Char.isDigit) bytes (byteLength (cutUnstable path).1)
  match ← splitMark? '.' path i with
  | none => return none
  | some (front, suffix) =>
      let marks := encode suffix
      if marks.length ≤ 2 then return none
      else
        if ascii (· == '0') (← marks[2]?) ∧ suffix ≠ ".v0".toList then return none
        else return some (front, suffix)

/-- Splits a path whose major version stands after a slash. -/
def splitSlashed? (path : Text) : Option (Option (Text × Text)) := do
  let bytes := encode path
  let i ← scanBack? (ascii fun c => c.isDigit || c == '.') bytes bytes.length
  if i = bytes.length then return some (path, [])
  else
    match ← splitMark? '/' path i with
    | none => return some (path, [])
    | some (front, suffix) =>
        let marks := encode suffix
        if (bytes.drop i).any (ascii (· == '.')) ∨ marks.length ≤ 2 then return none
        else
          if ascii (· == '0') (← marks[2]?) ∨ suffix = "/v1".toList then return none
          else return some (front, suffix)

def splitMajor? (path : Text) : Option (Option (Text × Text)) :=
  if dottedHost.isPrefixOf path then splitDotted? path else splitSlashed? path

variable {separator : Char} {path stem rest : Text}

theorem toNat_lt_of_beq {x : Char} (hx : x.toNat < 128) : ∀ c, (c == x) = true → c.toNat < 128 := by
  intro c hc
  rwa [beq_iff_eq.mp hc]

theorem isSuffixOf?_eq_none {part : Text} (h : ¬ part <:+ stem) : part.isSuffixOf? stem = none := by
  rw [Option.eq_none_iff_forall_ne_some]
  intro front hfront
  exact h ⟨front, List.append_eq_of_isSuffixOf?_eq_some hfront⟩

theorem splitMark?_concat_of_ne {c : Char} (hc : c ≠ 'v') (s rest : Text) :
    splitMark? separator (s ++ [c] ++ rest) (byteLength (s ++ [c])) = some none := by
  rw [splitMark?]
  by_cases hsize : byteLength (s ++ [c]) ≤ 1
  · rw [if_pos hsize]
    rfl
  · obtain ⟨b, hb, hbyte⟩ := exists_byteBefore?_concat s c rest
    have hv := ascii_of_mem (toNat_lt_of_beq (x := 'v') (by decide)) hb
    rw [if_neg hsize, hbyte]
    dsimp only [Option.bind_eq_bind, Option.bind_some]
    rw [hv, beq_eq_false_iff_ne.mpr hc]
    rfl

theorem byteLength_concat_ascii {c : Char} (hc : c.toNat < 128) (s : Text) :
    byteLength (s ++ [c]) = byteLength s + 1 := by
  have hsize : c.utf8Size = 1 := by
    rw [Char.utf8Size_eq_one_iff, UInt32.le_iff_toNat_le]
    exact Nat.le_of_lt_succ hc
  rw [Text.byteLength_append, Text.byteLength_cons, hsize]
  rfl

theorem splitMark?_concat (hseparator : separator.toNat < 128) (s rest : Text) (d : Char) :
    splitMark? separator (s ++ [d] ++ ['v'] ++ rest) (byteLength (s ++ [d] ++ ['v'])) =
      some (if d = separator then some (s, [separator, 'v'] ++ rest) else none) := by
  have hlength : byteLength (s ++ [d] ++ ['v']) = byteLength (s ++ [d]) + 1 :=
    byteLength_concat_ascii (by decide) _
  have hsize : ¬ byteLength (s ++ [d] ++ ['v']) ≤ 1 := by
    have hpos := d.utf8Size_pos
    rw [hlength, Text.byteLength_append, Text.byteLength_cons]
    omega
  obtain ⟨b, hb, hbyte⟩ := exists_byteBefore?_concat (s ++ [d]) 'v' rest
  obtain ⟨b', hb', hbyte'⟩ := exists_byteBefore?_concat s d (['v'] ++ rest)
  rw [← byteBefore?_succ, ← List.append_assoc, ← hlength] at hbyte'
  have hv := ascii_of_mem (toNat_lt_of_beq (x := 'v') (by decide)) hb
  have hd := ascii_of_mem (toNat_lt_of_beq hseparator) hb'
  rw [splitMark?, if_neg hsize, hbyte]
  dsimp only [Option.bind_eq_bind, Option.bind_some]
  rw [hv, hbyte']
  dsimp only [Option.bind_eq_bind, Option.bind_some]
  rw [hd]
  by_cases hseparated : d = separator
  · subst hseparated
    have htwo : byteLength (s ++ [d] ++ ['v']) = byteLength s + 2 := by
      rw [hlength, byteLength_concat_ascii hseparator]
    rw [htwo, minus?_of_le (Nat.le_add_left 2 _), Nat.add_sub_cancel, List.append_assoc,
      List.append_assoc]
    dsimp only [Option.bind_eq_bind, Option.bind_some]
    rw [splitAt?_append]
    simp
  · simp [hseparated]

theorem splitMark?_eq (hseparator : separator.toNat < 128) (stem rest : Text) :
    splitMark? separator (stem ++ rest) (byteLength stem) =
      some (([separator, 'v'].isSuffixOf? stem).map fun front =>
        (front, [separator, 'v'] ++ rest)) := by
  by_cases hmark : [separator, 'v'] <:+ stem
  · obtain ⟨front, rfl⟩ := hmark
    have hconcat := splitMark?_concat hseparator front rest separator
    have hfront : [separator, 'v'].isSuffixOf? (front ++ [separator, 'v']) = some front :=
      List.isSuffixOf?_eq_some_iff_append_eq.mpr rfl
    rw [if_pos rfl, List.append_assoc front] at hconcat
    rw [hfront]
    exact hconcat
  · rw [isSuffixOf?_eq_none hmark, Option.map_none]
    rcases List.eq_nil_or_concat' stem with rfl | ⟨s, c, rfl⟩
    · rfl
    by_cases hc : c = 'v'
    · subst hc
      rcases List.eq_nil_or_concat' s with rfl | ⟨s, d, rfl⟩
      · rfl
      · have hd : d ≠ separator := by
          rintro rfl
          exact hmark ⟨s, by simp⟩
        rw [splitMark?_concat hseparator, if_neg hd]
    · exact splitMark?_concat_of_ne hc s rest

theorem getLast?_cutSuffix (q : Char → Bool) (s : Text) :
    ∀ c ∈ (cutSuffix q s).1.getLast?, q c = false := by
  intro c hc
  rw [cutSuffix, List.getLast?_reverse] at hc
  have hhead := List.head?_dropWhile_not q s.reverse
  rw [Option.mem_def.mp hc] at hhead
  exact hhead

/-- What the scan of a path from an offset passes. -/
theorem scanBack?_cutSuffix {q : Char → Bool} (hq : ∀ c, q c → c.toNat < 128) (s behind : Text) :
    scanBack? (ascii q) (encode (s ++ behind)) (byteLength s) =
      some (byteLength (cutSuffix q s).1) := by
  have hall := (longestSuffix_cutSuffix q s).all
  have hscan := scanBack?_encode hq hall (getLast?_cutSuffix q s) behind
  rwa [← List.append_assoc, cutSuffix_append] at hscan

theorem exists_encode_mark (hseparator : separator.toNat < 128) (rest : Text) :
    ∃ a b, encode ([separator, 'v'] ++ rest) = a :: b :: encode rest := by
  rw [List.cons_append, List.singleton_append, encode_cons_of_ascii hseparator,
    encode_cons_of_ascii (by decide)]
  exact ⟨_, _, rfl⟩

/-- Behind the mark there is a byte of the first character of the version, if there is a version. -/
theorem exists_encode_mark_cons (hseparator : separator.toNat < 128) (c : Char) (rest : Text) :
    ¬ (encode ([separator, 'v'] ++ c :: rest)).length ≤ 2 ∧
      ∃ b, (encode ([separator, 'v'] ++ c :: rest))[2]? = some b ∧
        ascii (· == '0') b = (c == '0') := by
  obtain ⟨a, b, hmark⟩ := exists_encode_mark hseparator (c :: rest)
  obtain ⟨b', bytes, hbytes, hb'⟩ := exists_encode_cons c rest
  rw [hbytes] at hmark
  rw [hmark]
  constructor
  · simp
  · exact ⟨b', rfl, ascii_of_mem (toNat_lt_of_beq (by decide)) hb'⟩

theorem toNat_lt_of_isDigit (c : Char) (hc : c.isDigit) : c.toNat < 128 :=
  lt_of_le_of_lt (Char.isDigit_iff_toNat.mp hc).2 (by decide)

theorem splitDotted?_eq (path : Text) :
    Offset.splitDotted? path = some (ModulePath.splitDotted? path) := by
  have hpath := (cutUnstable_spec path).1
  have hmarked : ".v".toList = ['.', 'v'] := rfl
  rw [Offset.splitDotted?, ModulePath.splitDotted?, hmarked]
  generalize cutUnstable path = unstable at hpath ⊢
  obtain ⟨start, mark⟩ := unstable
  have hscan := scanBack?_cutSuffix toNat_lt_of_isDigit start mark
  have hstart := cutSuffix_append Char.isDigit start
  dsimp only at hpath ⊢
  generalize cutSuffix Char.isDigit start = cut at hscan hstart ⊢
  obtain ⟨stem, digits⟩ := cut
  dsimp only at hscan hstart ⊢
  have hseparator : '.'.toNat < 128 := by decide
  have hmark := splitMark?_eq hseparator stem (digits ++ mark)
  rw [← List.append_assoc, hstart, hpath] at hmark
  rw [hpath] at hscan
  rw [hscan]
  dsimp only [Option.bind_eq_bind, Option.bind_some]
  rw [hmark]
  dsimp only [Option.bind_eq_bind, Option.bind_some]
  cases ['.', 'v'].isSuffixOf? stem with
  | none => rfl
  | some front =>
      dsimp only [Option.map_some]
      cases digits ++ mark with
      | nil => rfl
      | cons c version =>
          obtain ⟨hlength, b, hbyte, hzero⟩ := exists_encode_mark_cons hseparator c version
          rw [if_neg hlength, hbyte]
          dsimp only [Option.bind_eq_bind, Option.bind_some]
          rw [hzero]
          by_cases hc : c = '0'
          · by_cases hversion : version = []
            · simp [hc, hversion]
            · simp [hc, hversion]
          · simp [hc]

theorem toNat_lt_of_isDigit_or_dot (c : Char) (hc : (c.isDigit || c == '.') = true) :
    c.toNat < 128 := by
  rcases Bool.or_eq_true_iff.mp hc with hdigit | hdot
  · exact toNat_lt_of_isDigit c hdigit
  · exact toNat_lt_of_beq (by decide) c hdot

theorem splitSlashed?_eq (hhost : dottedHost.isPrefixOf path = false) :
    splitSlashed? path = some (ModulePath.splitMajor? path) := by
  have hpath := cutSuffix_append (fun c => c.isDigit || c == '.') path
  have hscan := scanBack?_cutSuffix toNat_lt_of_isDigit_or_dot path []
  have hmarked : "/v".toList = ['/', 'v'] := rfl
  rw [splitSlashed?, ModulePath.splitMajor?, hhost, if_neg Bool.false_ne_true, hmarked]
  generalize cutSuffix (fun c => c.isDigit || c == '.') path = cut at hpath hscan ⊢
  obtain ⟨stem, number⟩ := cut
  dsimp only at hpath hscan ⊢
  rw [List.append_nil, ← length_encode] at hscan
  rw [hscan]
  dsimp only [Option.bind_eq_bind, Option.bind_some]
  cases number with
  | nil =>
      rw [List.append_nil] at hpath
      rw [hpath, length_encode, if_pos rfl]
      rfl
  | cons c number =>
      have hseparator : '/'.toNat < 128 := by decide
      have hmark := splitMark?_eq hseparator stem (c :: number)
      have hmore : byteLength stem ≠ (encode path).length := by
        have hsize := c.utf8Size_pos
        rw [length_encode, ← hpath, Text.byteLength_append, Text.byteLength_cons]
        omega
      have hdrop : (encode path).drop (byteLength stem) = encode (c :: number) := by
        rw [← hpath, encode_append, ← length_encode, List.drop_left]
      rw [hpath] at hmark
      rw [if_neg hmore, hmark, hdrop, any_ascii_encode (toNat_lt_of_beq (by decide))]
      dsimp only [Option.bind_eq_bind, Option.bind_some]
      cases ['/', 'v'].isSuffixOf? stem with
      | none => rfl
      | some front =>
          obtain ⟨hlength, b, hbyte, hzero⟩ := exists_encode_mark_cons hseparator c number
          dsimp only [Option.map_some]
          rw [hbyte]
          dsimp only [Option.bind_eq_bind, Option.bind_some]
          rw [hzero]
          have hdot : (c :: number).any (· == '.') = true ↔ '.' ∈ c :: number := by
            simp only [List.any_eq_true, beq_iff_eq, exists_eq_right]
          have hfirst : ['/', 'v'] ++ c :: number = "/v1".toList ↔ c :: number = ['1'] :=
            List.append_right_inj ['/', 'v']
          simp only [hdot, hlength, or_false, beq_iff_eq, hfirst, List.head?_cons,
            Option.some.injEq, Option.pure_def]
          by_cases hmem : '.' ∈ c :: number
          · rw [if_pos hmem, if_pos (.inl hmem)]
          · rw [if_neg hmem]
            by_cases hrefused : c = '0' ∨ c :: number = ['1']
            · rw [if_pos hrefused, if_pos (.inr hrefused)]
            · rw [if_neg hrefused, if_neg (not_or.mpr ⟨hmem, hrefused⟩)]
              rfl

theorem splitMajor?_eq (path : Text) :
    Offset.splitMajor? path = some (ModulePath.splitMajor? path) := by
  rw [Offset.splitMajor?]
  cases hhost : dottedHost.isPrefixOf path with
  | true =>
      rw [if_pos rfl, splitDotted?_eq, ModulePath.splitMajor?, if_pos hhost]
  | false => exact splitSlashed?_eq hhost

end GoModules.Offset
