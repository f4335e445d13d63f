import GoModules.Proofs.FilePath.Location
import GoModules.Proofs.ModulePath.Accepted
import GoModules.Proofs.Text.Ascii
import GoModules.Proofs.Text.Cut
import Mathlib

/-!
# Names in the cache are unique

An escaped text without marks of its own can be read back, and it is the same in lower case. In the
name of a module, the first `@` ends the path, which has none, and the first slash after it ends the
version, which has none either. So a name stands for one path, one version and one package, also
where upper and lower case are not told apart.
-/

namespace GoModules.ModulePath

open Outcome

/-- Reads an escaped text back. -/
def unescape : Text → Text
  | '!' :: c :: s => c.toUpper :: unescape s
  | c :: s => c :: unescape s
  | [] => []

theorem toUpper_toLower_of_isUpper {c : Char} (hc : c.isUpper) : c.toLower.toUpper = c := by
  have hlower : ¬ c.isLower := by
    rw [Text.isUpper_iff_toNat] at hc
    rw [Text.isLower_iff_toNat]
    omega
  rw [Char.toUpper_toLower_eq_toUpper, Char.toUpper_eq_of_not_isLower hlower]

theorem unescape_escape {s : Text} (hs : '!' ∉ s) : unescape (escape s) = s := by
  induction s with
  | nil => rfl
  | cons c s ih =>
      rw [List.mem_cons, not_or] at hs
      rw [escape_cons, escapeChar]
      split
      · next hc =>
          rw [List.cons_append, List.cons_append, List.nil_append, unescape, ih hs.2,
            toUpper_toLower_of_isUpper hc]
      · rw [List.cons_append, List.nil_append, unescape, ih hs.2]
        intro d rest hd
        exact absurd hd.symm hs.1

theorem escape_inj {s t : Text} (hs : '!' ∉ s) (ht : '!' ∉ t) (h : escape s = escape t) :
    s = t := by
  rw [← unescape_escape hs, h, unescape_escape ht]

theorem isUpper_eq_false_of_mem_escape {s : Text} {c : Char} (hc : c ∈ escape s) :
    c.isUpper = false := by
  obtain ⟨d, hd, hc⟩ := List.mem_flatMap.mp hc
  unfold escapeChar at hc
  split at hc
  · rcases List.mem_cons.mp hc with rfl | hc
    · rfl
    · rw [List.mem_singleton.mp hc]
      exact Char.isUpper_toLower_eq_false d
  · next hupper =>
      rw [List.mem_singleton.mp hc]
      exact eq_false_of_ne_true hupper

theorem map_toLower_escape (s : Text) : (escape s).map Char.toLower = escape s := by
  calc
    (escape s).map Char.toLower = (escape s).map id := by
      apply List.map_congr_left
      intro c hc
      have hupper := isUpper_eq_false_of_mem_escape hc
      exact Char.toLower_eq_of_not_isUpper (by simp [hupper])
    _ = escape s := List.map_id _

/-- What escaping adds to a text are marks and letters. -/
theorem mem_of_mem_escape {s : Text} {c : Char} (hc : c ∈ escape s) (hmark : c ≠ '!')
    (hletter : c.isLower = false) : c ∈ s := by
  obtain ⟨d, hd, hc⟩ := List.mem_flatMap.mp hc
  unfold escapeChar at hc
  split at hc
  · next hupper =>
      rcases List.mem_cons.mp hc with rfl | hc
      · exact absurd rfl hmark
      · have hlower : d.toLower.isLower := by simp [Char.isAlpha, hupper]
        rw [← List.mem_singleton.mp hc, hletter] at hlower
        cases hlower
  · rwa [List.mem_singleton.mp hc]

/-- The characters of accepted paths. -/
theorem isPathChar_or_slash_of_check {path : Text} {c : Char} (h : check path = .ok ())
    (hc : c ∈ path) : isPathChar c ∨ c = '/' := by
  rcases Text.mem_splitOn_or_eq_of_mem '/' hc with ⟨element, helement, hmem⟩ | rfl
  · exact .inl ((plainName_of_mem_elements h helement).allowed c hmem)
  · exact .inr rfl

theorem escapePath_eq {path : Text} (h : check path = .ok ()) :
    escapePath path = .ok (escape path) := by
  rw [escapePath, h]
  rfl

/-- The characters of accepted versions, and what they are escaped to. -/
theorem escapeVersion_spec {version name : Text} (h : escapeVersion version = .ok name) :
    name = escape version ∧ ∀ c ∈ version, isFileChar c ∧ c ≠ '!' := by
  obtain ⟨hplain, hmark, -, rfl⟩ := escapeVersion_eq_ok_iff.mp h
  refine ⟨rfl, fun c hc => ⟨hplain.allowed c hc, ?_⟩⟩
  rintro rfl
  exact hmark hc

section Accepted

variable {path path' version version' name name' below below' : Text}

theorem mark_notMem_of_check (h : check path = .ok ()) : '!' ∉ path := by
  intro hmem
  have hchar := isPathChar_or_slash_of_check h hmem
  revert hchar
  decide

theorem cutAt_escape_of_check (h : check path = .ok ()) (rest : Text) :
    Text.cutAt (· == '@') (escape path ++ '@' :: rest) = (escape path, '@' :: rest) := by
  apply Text.cutAt_append_of_head?
  · intro c hc
    rw [beq_eq_false_iff_ne]
    rintro rfl
    have hchar := isPathChar_or_slash_of_check h (mem_of_mem_escape hc (by decide) (by decide))
    revert hchar
    decide
  · simp

theorem mark_notMem_of_escapeVersion (h : escapeVersion version = .ok name) : '!' ∉ version := by
  intro hmem
  exact ((escapeVersion_spec h).2 '!' hmem).2 rfl

theorem cutAt_escape_of_escapeVersion (h : escapeVersion version = .ok name)
    (hbelow : ∀ c ∈ below.head?, c = '/') :
    Text.cutAt (· == '/') (escape version ++ below) = (escape version, below) := by
  apply Text.cutAt_append_of_head?
  · intro c hc
    rw [beq_eq_false_iff_ne]
    rintro rfl
    have hchar := ((escapeVersion_spec h).2 '/' (mem_of_mem_escape hc (by decide) (by decide))).1
    revert hchar
    decide
  · simpa using hbelow

theorem cacheName_eq (hpath : check path = .ok ()) (hversion : escapeVersion version = .ok name)
    (below : Text) :
    cacheName path version below = .ok (escape path ++ '@' :: (escape version ++ below)) := by
  rw [cacheName, escapePath_eq hpath, hversion, (escapeVersion_spec hversion).1]
  simp

theorem cacheName_eq_ok_iff :
    cacheName path version below = .ok name ↔ check path = .ok () ∧
      escapeVersion version = .ok (escape version) ∧
        name = escape path ++ '@' :: (escape version ++ below) := by
  constructor
  · intro h
    have hparts := h
    unfold cacheName escapePath at hparts
    simp only [bind_eq_ok_iff, mapError_eq_ok_iff] at hparts
    obtain ⟨_, ⟨_, hpath, -⟩, name', hversion, -⟩ := hparts
    rw [cacheName_eq hpath hversion, Except.ok.injEq] at h
    rw [(escapeVersion_spec hversion).1] at hversion
    exact ⟨hpath, hversion, h.symm⟩
  · rintro ⟨hpath, hversion, rfl⟩
    exact cacheName_eq hpath hversion below

theorem slash_notMem_head?_of_check (h : check path = .ok ()) : path.head? ≠ some '/' := by
  intro hhead
  obtain ⟨rest, rfl⟩ : ∃ rest, path = '/' :: rest := by
    cases path with
    | nil => cases hhead
    | cons c rest =>
        obtain rfl : c = '/' := Option.some.inj hhead
        exact ⟨rest, rfl⟩
  have hmem : [] ∈ elements ('/' :: rest) := by
    rw [elements, List.splitOn_cons_eq_if_modifyHead, if_pos (by decide)]
    exact List.mem_cons_self
  exact (plainName_of_mem_elements h hmem).ne_nil rfl

/-- The name of a module in the cache is a relative path. -/
theorem isAbsolute_of_cacheName (h : cacheName path version below = .ok name) :
    (FilePath.ofText name).isAbsolute = false := by
  obtain ⟨hcheck, -, rfl⟩ := cacheName_eq_ok_iff.mp h
  apply FilePath.isAbsolute_ofText
  intro hslash
  cases path with
  | nil => cases hslash
  | cons c path =>
      rw [escape_cons, escapeChar] at hslash
      split at hslash
      · cases hslash
      · obtain rfl : c = '/' := Option.some.inj hslash
        exact slash_notMem_head?_of_check hcheck rfl

/-- The name of a module is the same in lower case. -/
theorem map_toLower_cacheName {n : Text} (hpath : check path = .ok ())
    (hversion : escapeVersion version = .ok name) (h : cacheName path version [] = .ok n) :
    n.map Char.toLower = n := by
  rw [cacheName_eq hpath hversion, Except.ok.injEq] at h
  subst h
  simp only [List.append_nil, List.map_append, List.map_cons, map_toLower_escape]
  rfl

/-- The path ends at the first `@`, the version at the first slash after it. -/
theorem eq_of_escape_append_eq (hpath : check path = .ok ()) (hpath' : check path' = .ok ())
    (hversion : escapeVersion version = .ok name) (hversion' : escapeVersion version' = .ok name')
    (hbelow : ∀ c ∈ below.head?, c = '/') (hbelow' : ∀ c ∈ below'.head?, c = '/')
    (h : escape path ++ '@' :: (escape version ++ below) =
      escape path' ++ '@' :: (escape version' ++ below')) :
    path = path' ∧ version = version' ∧ below = below' := by
  have hpaths := congrArg (Text.cutAt (· == '@')) h
  rw [cutAt_escape_of_check hpath, cutAt_escape_of_check hpath', Prod.mk.injEq,
    List.cons.injEq] at hpaths
  obtain ⟨hpaths, -, hrests⟩ := hpaths
  have hversions := congrArg (Text.cutAt (· == '/')) hrests
  rw [cutAt_escape_of_escapeVersion hversion hbelow,
    cutAt_escape_of_escapeVersion hversion' hbelow', Prod.mk.injEq] at hversions
  obtain ⟨hversions, hbelows⟩ := hversions
  refine ⟨?_, ?_, hbelows⟩
  · exact escape_inj (mark_notMem_of_check hpath) (mark_notMem_of_check hpath') hpaths
  · exact escape_inj (mark_notMem_of_escapeVersion hversion)
      (mark_notMem_of_escapeVersion hversion') hversions

/-- Different modules have names that differ in more than case, and a name with what is below the
module tells all of its parts. -/
theorem cacheName_injective (hpath : check path = .ok ()) (hpath' : check path' = .ok ())
    (hversion : escapeVersion version = .ok name)
    (hversion' : escapeVersion version' = .ok name') :
    (∃ n n', cacheName path version [] = .ok n ∧ cacheName path' version' [] = .ok n' ∧
      ((path, version) ≠ (path', version') → n.map Char.toLower ≠ n'.map Char.toLower)) ∧
    ∀ below below', (∀ c ∈ below.head?, c = '/') → (∀ c ∈ below'.head?, c = '/') →
      cacheName path version below = cacheName path' version' below' →
      path = path' ∧ version = version' ∧ below = below' := by
  have hn := cacheName_eq hpath hversion []
  have hn' := cacheName_eq hpath' hversion' []
  refine ⟨⟨_, _, hn, hn', ?_⟩, ?_⟩
  · intro hne heq
    rw [map_toLower_cacheName hpath hversion hn,
      map_toLower_cacheName hpath' hversion' hn'] at heq
    obtain ⟨rfl, rfl, -⟩ :=
      eq_of_escape_append_eq hpath hpath' hversion hversion' (by simp) (by simp) heq
    exact hne rfl
  · intro below below' hbelow hbelow' heq
    rw [cacheName_eq hpath hversion, cacheName_eq hpath' hversion', Except.ok.injEq] at heq
    exact eq_of_escape_append_eq hpath hpath' hversion hversion' hbelow hbelow' heq

theorem cacheName_injective_letters :
    check "x.org/A".toList = .ok () ∧ check "x.org/a".toList = .ok () ∧
      escapeVersion "v1.0.0-rc".toList = .ok "v1.0.0-rc".toList ∧
      escapeVersion "v1.0.0-Rc".toList = .ok "v1.0.0-!rc".toList ∧
      ∃ n n', cacheName "x.org/A".toList "v1.0.0-rc".toList [] = .ok n ∧
        cacheName "x.org/a".toList "v1.0.0-Rc".toList [] = .ok n' ∧
        n.map Char.toLower ≠ n'.map Char.toLower := by
  have hpath : check "x.org/A".toList = .ok () := by decide +kernel
  have hpath' : check "x.org/a".toList = .ok () := by decide +kernel
  have hversion : escapeVersion "v1.0.0-rc".toList = .ok "v1.0.0-rc".toList := by decide +kernel
  have hversion' : escapeVersion "v1.0.0-Rc".toList = .ok "v1.0.0-!rc".toList := by
    decide +kernel
  obtain ⟨⟨n, n', hn, hn', hne⟩, -⟩ := cacheName_injective hpath hpath' hversion hversion'
  exact ⟨hpath, hpath', hversion, hversion', n, n', hn, hn', hne (by decide)⟩

end Accepted

end GoModules.ModulePath
