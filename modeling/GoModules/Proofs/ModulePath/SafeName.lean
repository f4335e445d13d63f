import GoModules.Proofs.ModulePath.CacheName

/-!
# Names in the cache are safe

The name of a module in the cache is its path, an `@` and its version, escaped as one text.
Escaping goes element by element and leaves dots and slashes alone, so that an element ends, and its
first dot stands, where it did before; what it adds are marks, which no reserved name has, and
letters in lower case.
-/

namespace GoModules.ModulePath

/-- A name that a directory can have on every system. -/
structure SafeName (name : Text) : Prop where
  ne_nil : name ≠ []
  ne_here : name ≠ ['.']
  ne_above : name ≠ ['.', '.']
  getLast?_ne_dot : name.getLast? ≠ some '.'
  plain : ∀ c ∈ name, c.toNat < 0x80 ∧ c.isUpper = false ∧ c ≠ '\\' ∧ c ≠ ':'
  not_reserved : isReserved (stem name) = false

/-- The characters of names in the cache before they are escaped, but for the separators. -/
def isCacheChar (c : Char) : Bool :=
  isFileChar c && decide (c.toNat < 0x80)

variable {s t front back path version name element : Text}

theorem escapeChar_cases (c : Char) :
    (c.isUpper ∧ c.toLower.isLower ∧ escapeChar c = ['!', c.toLower]) ∨
      (c.isUpper = false ∧ escapeChar c = [c]) := by
  by_cases hupper : c.isUpper
  · refine .inl ⟨hupper, ?_, if_pos hupper⟩
    simp [Char.isAlpha, hupper]
  · exact .inr ⟨eq_false_of_ne_true hupper, if_neg hupper⟩

theorem escape_ne_nil (h : s ≠ []) : escape s ≠ [] := by
  obtain ⟨c, s, rfl⟩ := List.exists_cons_of_ne_nil h
  rcases escapeChar_cases c with ⟨-, -, hc⟩ | ⟨-, hc⟩
  · simp [hc]
  · simp [hc]

theorem escape_eq_self (h : '!' ∉ escape s) : escape s = s := by
  induction s with
  | nil => rfl
  | cons c s ih =>
      rw [escape_cons, List.mem_append, not_or] at h
      rcases escapeChar_cases c with ⟨-, -, hc⟩ | ⟨-, hc⟩
      · exact absurd (hc ▸ List.mem_cons_self) h.1
      · rw [escape_cons, hc, ih h.2, List.singleton_append]

theorem getLast?_escape_ne_dot (h : s.getLast? ≠ some '.') : (escape s).getLast? ≠ some '.' := by
  induction s using List.reverseRecOn with
  | nil => exact h
  | append_singleton front c _ =>
      rw [escape_append, escape_cons, escape_nil, List.append_nil]
      rcases escapeChar_cases c with ⟨-, hlower, hc⟩ | ⟨-, hc⟩
      · rw [hc, List.getLast?_append_of_ne_nil _ (List.cons_ne_nil _ _), List.getLast?_cons_cons,
          List.getLast?_singleton, ne_eq, Option.some.injEq]
        intro hdot
        rw [hdot] at hlower
        exact absurd hlower (by decide)
      · rw [hc, List.getLast?_concat]
        rwa [List.getLast?_concat] at h

/-- Escaping leaves the first dot where it is, and puts none before it. -/
theorem stem_escape (s : Text) : stem (escape s) = escape (stem s) := by
  have hsplit : stem s ++ s.dropWhile (· != '.') = s := List.takeWhile_append_dropWhile
  have hstem : ∀ c ∈ escape (stem s), c != '.' := by
    intro c hc
    rw [bne_iff_ne]
    rintro rfl
    have hdot := List.mem_takeWhile_imp (mem_of_mem_escape hc (by decide) (by decide))
    exact absurd hdot (by decide)
  have hrest : ∀ c ∈ (escape (s.dropWhile (· != '.'))).head?, (c != '.') = false := by
    intro c hc
    cases hdrop : s.dropWhile (· != '.') with
    | nil =>
        rw [hdrop] at hc
        cases hc
    | cons d rest =>
        obtain rfl : d = '.' := by
          simpa [hdrop] using List.head?_dropWhile_not (· != '.') s
        rw [hdrop] at hc
        obtain rfl : '.' = c := Option.some.inj hc
        rfl
  calc
    stem (escape s) = stem (escape (stem s) ++ escape (s.dropWhile (· != '.'))) := by
      rw [← escape_append, hsplit]
    _ = escape (stem s) := Text.takeWhile_append_of_head? hstem hrest

theorem notMem_of_isReserved {c : Char} (hc : c = '!' ∨ c = '@') (h : isReserved s) : c ∉ s := by
  have hnames : ∀ name ∈ reservedNames, '!' ∉ name ∧ '@' ∉ name := by decide
  have hname := hnames _ (List.contains_iff_mem.mp h)
  intro hmem
  have hupper : c.toUpper ∈ s.map Char.toUpper := List.mem_map_of_mem hmem
  rcases hc with rfl | rfl
  · exact hname.1 hupper
  · exact hname.2 hupper

/-- No reserved name has a mark, and what is escaped without one is unchanged. -/
theorem isReserved_escape (h : isReserved s = false) : isReserved (escape s) = false := by
  rw [Bool.eq_false_iff]
  intro hreserved
  rw [escape_eq_self (notMem_of_isReserved (.inl rfl) hreserved), h] at hreserved
  cases hreserved

theorem escape_intercalate (parts : List Text) :
    escape (['/'].intercalate parts) = ['/'].intercalate (parts.map escape) := by
  induction parts with
  | nil => rfl
  | cons part parts ih =>
      by_cases hnil : parts = []
      · simp [hnil]
      · have hne : parts.map escape ≠ [] := mt List.map_eq_nil_iff.mp hnil
        rw [List.intercalate_cons_of_ne_nil hnil, List.map_cons,
          List.intercalate_cons_of_ne_nil hne, escape_append, escape_append, ih]
        rfl

theorem elements_escape (s : Text) : elements (escape s) = (elements s).map escape := by
  have hplain : ∀ part ∈ (elements s).map escape, '/' ∉ part := by
    intro part hpart hslash
    obtain ⟨element, helement, rfl⟩ := List.mem_map.mp hpart
    have hmem := mem_of_mem_escape hslash (by decide) (by decide)
    exact (Text.mem_and_ne_of_mem_splitOn helement hmem).2 rfl
  have hne : (elements s).map escape ≠ [] :=
    mt List.map_eq_nil_iff.mp (List.splitOn_ne_nil '/' s)
  have hjoin : ['/'].intercalate (elements s) = s := List.intercalate_splitOn '/'
  calc
    elements (escape s) = elements (escape (['/'].intercalate (elements s))) := by rw [hjoin]
    _ = elements (['/'].intercalate ((elements s).map escape)) := by rw [escape_intercalate]
    _ = (elements s).map escape := List.splitOn_intercalate '/' hplain hne

/-- The mark in an escaped text stands before the letter whose upper-case form was there. -/
theorem exists_isLower_of_escape (hs : '!' ∉ s) (h : escape s = front ++ '!' :: back) :
    ∃ c ∈ back.head?, c.isLower := by
  induction s generalizing front with
  | nil => simp at h
  | cons c s ih =>
      rw [List.mem_cons, not_or] at hs
      rw [escape_cons] at h
      rcases escapeChar_cases c with ⟨-, hlower, hc⟩ | ⟨-, hc⟩
      · rw [hc, List.cons_append, List.cons_append, List.nil_append] at h
        match front, h with
        | [], h =>
            rw [List.nil_append, List.cons.injEq] at h
            exact ⟨c.toLower, by simp [← h.2], hlower⟩
        | [_], h =>
            rw [List.singleton_append, List.cons.injEq, List.cons.injEq] at h
            rw [h.2.1] at hlower
            exact absurd hlower (by decide)
        | _ :: _ :: front, h =>
            rw [List.cons_append, List.cons_append, List.cons.injEq, List.cons.injEq] at h
            exact ih hs.2 h.2.2
      · rw [hc, List.singleton_append] at h
        match front, h with
        | [], h =>
            rw [List.nil_append, List.cons.injEq] at h
            exact absurd h.1.symm hs.1
        | _ :: front, h =>
            rw [List.cons_append, List.cons.injEq] at h
            exact ih hs.2 h.2

theorem plain_of_isCacheChar {c : Char} (hc : isCacheChar c) :
    c.toNat < 0x80 ∧ c ≠ '\\' ∧ c ≠ ':' := by
  obtain ⟨hfile, hascii⟩ := Bool.and_eq_true_iff.mp hc
  refine ⟨of_decide_eq_true hascii, ?_, ?_⟩
  · rintro rfl
    exact absurd hfile (by decide)
  · rintro rfl
    exact absurd hfile (by decide)

theorem PlainName.safeName_escape (h : PlainName isCacheChar s) : SafeName (escape s) := by
  have hdot := getLast?_escape_ne_dot h.getLast?_ne_dot
  refine ⟨escape_ne_nil h.ne_nil, ?_, ?_, hdot, ?_, ?_⟩
  · intro hhere
    rw [hhere] at hdot
    exact hdot rfl
  · intro habove
    rw [habove] at hdot
    exact hdot rfl
  · intro c hc
    have hupper := isUpper_eq_false_of_mem_escape hc
    by_cases hmark : c = '!'
    · subst hmark
      decide
    -- A letter in lower case may come from one in upper case, any other character was there before.
    cases hlower : c.isLower with
    | true =>
        have hcode := Text.isLower_iff_toNat.mp hlower
        refine ⟨by omega, hupper, ?_, ?_⟩
        · rintro rfl
          cases hlower
        · rintro rfl
          cases hlower
    | false =>
        have hplain := plain_of_isCacheChar (h.allowed c (mem_of_mem_escape hc hmark hlower))
        exact ⟨hplain.1, hupper, hplain.2⟩
  · rw [stem_escape]
    exact isReserved_escape h.not_reserved

theorem isCacheChar_of_isPathChar {c : Char} (hc : isPathChar c) : isCacheChar c := by
  have hmarks : ∀ c ∈ ['-', '.', '_', '~'], isCacheChar c := by
    simp [isCacheChar, isFileChar]
  rcases Bool.or_eq_true_iff.mp hc with halphanum | hmark
  · have hascii := Text.toNat_lt_of_isAlphanum halphanum
    rw [isCacheChar, isFileChar, if_pos hascii, halphanum, Bool.true_or, Bool.true_and,
      decide_eq_true hascii]
  · exact hmarks c (List.contains_iff_mem.mp hmark)

theorem PlainName.imp {allowed allowed' : Char → Bool} (h : PlainName allowed name)
    (hallowed : ∀ c ∈ name, allowed c → allowed' c) : PlainName allowed' name :=
  ⟨h.ne_nil, h.getLast?_ne_dot, fun c hc => hallowed c hc (h.allowed c hc), h.not_reserved⟩

theorem PlainName.append_version (hname : PlainName isCacheChar name)
    (hversion : PlainName isCacheChar version) :
    PlainName isCacheChar (name ++ '@' :: version) := by
  refine ⟨List.append_ne_nil_of_left_ne_nil hname.ne_nil _, ?_, ?_, ?_⟩
  · rw [List.getLast?_append_of_ne_nil _ (List.cons_ne_nil _ _), ← List.singleton_append,
      List.getLast?_append_of_ne_nil _ hversion.ne_nil]
    exact hversion.getLast?_ne_dot
  · rw [List.forall_mem_append, List.forall_mem_cons]
    exact ⟨hname.allowed, by decide, hversion.allowed⟩
  · -- Either the element has a dot already, or its part before the first dot goes on with the `@`.
    rw [stem, List.takeWhile_append]
    split
    · rw [List.takeWhile_cons_of_pos (by decide), Bool.eq_false_iff]
      exact fun hreserved => notMem_of_isReserved (.inr rfl) hreserved (by simp)
    · exact hname.not_reserved

/-- What has no slash is put behind the last element. -/
theorem mem_elements_append {rest : Text} (hrest : '/' ∉ rest)
    (h : element ∈ elements (path ++ rest)) :
    element ∈ elements path ∨ ∃ last ∈ elements path, element = last ++ rest := by
  obtain ⟨above, last, hpath, -, happend⟩ := Text.exists_splitOnP_append (· == '/') path
  have hsingle : rest.splitOnP (· == '/') = [rest] := by
    apply List.splitOnP_eq_singleton
    intro c hc
    exact beq_false_of_ne fun hslash => hrest (hslash ▸ hc)
  have helements : elements (path ++ rest) = above ++ [last ++ rest] := happend hsingle
  rw [helements] at h
  change element ∈ path.splitOnP _ ∨ ∃ last ∈ path.splitOnP _, _
  rw [hpath]
  rcases List.mem_append.mp h with habove | hlast
  · exact .inl (List.mem_append_left _ habove)
  · exact .inr ⟨last, by simp, List.mem_singleton.mp hlast⟩

/-- The elements of the name of a module are safe, and each mark in it stands before a letter in
lower case. -/
theorem safeName_of_cacheName (h : cacheName path version [] = .ok name) :
    (FilePath.ofText name).isAbsolute = false ∧ (∀ element ∈ elements name, SafeName element) ∧
      ∀ front back, name = front ++ '!' :: back → ∃ c ∈ back.head?, c.isLower := by
  obtain ⟨hpath, hversion, hname⟩ := cacheName_eq_ok_iff.mp h
  obtain ⟨hplain, hmark, hascii, -⟩ := escapeVersion_eq_ok_iff.mp hversion
  have hescape : name = escape (path ++ '@' :: version) := by
    rw [hname, escape_append, escape_cons, List.append_nil]
    rfl
  have hmark' : '!' ∉ path ++ '@' :: version := by
    simp [mark_notMem_of_check hpath, hmark]
  have hslash : '/' ∉ '@' :: version := by
    intro hmem
    rcases List.mem_cons.mp hmem with heq | hmem
    · cases heq
    · exact absurd (hplain.allowed '/' hmem) (by decide)
  have hversion' : PlainName isCacheChar version :=
    hplain.imp fun c hc hfile => by rw [isCacheChar, hfile, decide_eq_true (hascii c hc)]; rfl
  have helements : ∀ element ∈ elements path, PlainName isCacheChar element := by
    intro element helement
    exact (plainName_of_mem_elements hpath helement).imp fun c _ => isCacheChar_of_isPathChar
  refine ⟨isAbsolute_of_cacheName h, ?_, ?_⟩
  · rw [hescape, elements_escape]
    intro element helement
    obtain ⟨unescaped, hunescaped, rfl⟩ := List.mem_map.mp helement
    rcases mem_elements_append hslash hunescaped with hmem | ⟨last, hlast, rfl⟩
    · exact (helements unescaped hmem).safeName_escape
    · exact ((helements last hlast).append_version hversion').safeName_escape
  · intro front back hfront
    exact exists_isLower_of_escape hmark' (hescape ▸ hfront)

theorem safeName_of_cacheName_letters :
    cacheName "x.org/Con1".toList "v1-RC [A]@".toList [] =
        .ok "x.org/!con1@v1-!r!c [!a]@".toList ∧
      SafeName "!con1@v1-!r!c [!a]@".toList := by
  have h : cacheName "x.org/Con1".toList "v1-RC [A]@".toList [] =
      .ok "x.org/!con1@v1-!r!c [!a]@".toList := by decide +kernel
  have hmem : "!con1@v1-!r!c [!a]@".toList ∈ elements "x.org/!con1@v1-!r!c [!a]@".toList := by
    decide +kernel
  exact ⟨h, (safeName_of_cacheName h).2.1 _ hmem⟩

end GoModules.ModulePath
