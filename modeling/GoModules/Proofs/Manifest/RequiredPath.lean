import GoModules.Proofs.Manifest.Run
import GoModules.Proofs.Manifest.Scan

/-!
# Paths of requirements

Each requirement of a manifest comes from a directive of its text, which spells the path as its
first argument. A bare word is never empty, and what stands in quotes is empty just when nothing
stands there. So an empty path is read where two quotes with nothing between them are written, and
nowhere else.
-/

namespace GoModules

open Outcome

namespace Token

/-- How the text of a token that can be an argument begins and ends. -/
def Spelled (t : Token) : Prop :=
  match t.kind with
  | .bare => ∃ c rest, t.text = c :: rest ∧ isBareChar c
  | .raw => ∃ inside, t.text = '\x60' :: (inside ++ ['\x60'])
  | .quoted => ∃ inside, t.text = '"' :: (inside ++ ['"'])
  | _ => True

theorem exists_take_of_quotedLength? {s : Text} {n : Nat} (h : quotedLength? s = some n) :
    ∃ inside, s.take n = inside ++ ['"'] := by
  induction s using quotedLength?.induct generalizing n with
  | case1 s =>
      cases h
      exact ⟨[], rfl⟩
  | case2 s => simp [quotedLength?] at h
  | case3 c s hc ih =>
      rw [quotedLength?, if_neg hc, Option.map_eq_some_iff] at h
      obtain ⟨k, hk, rfl⟩ := h
      obtain ⟨inside, hinside⟩ := ih hk
      refine ⟨'\\' :: c :: inside, ?_⟩
      rw [List.take_succ_cons, List.take_succ_cons, hinside, List.cons_append, List.cons_append]
  | case4 c s hquote hescape hc => simp [quotedLength?, hc] at h
  | case5 c s hquote hescape hc ih =>
      rw [quotedLength?, if_neg hc, Option.map_eq_some_iff] at h
      · obtain ⟨k, hk, rfl⟩ := h
        obtain ⟨inside, hinside⟩ := ih hk
        refine ⟨c :: inside, ?_⟩
        rw [List.take_succ_cons, hinside, List.cons_append]
      · exact hquote
      · exact hescape
  | case6 => cases h

theorem exists_take_of_rawLength? {s : Text} {n : Nat} (h : rawLength? s = some n) :
    ∃ inside, s.take n = inside ++ ['\x60'] := by
  induction s generalizing n with
  | nil => cases h
  | cons c s ih =>
      rw [rawLength?] at h
      split at h
      · next hc =>
          cases h
          exact ⟨[], by rw [hc, List.take_succ_cons, List.take_zero, List.nil_append]⟩
      · split at h
        · cases h
        · obtain ⟨k, hk, rfl⟩ := Option.map_eq_some_iff.mp h
          obtain ⟨inside, hinside⟩ := ih hk
          refine ⟨c :: inside, ?_⟩
          rw [List.take_succ_cons, hinside, List.cons_append]

theorem isWord_of_punctuation? {c : Char} {kind : Kind} (h : punctuation? c = some kind) :
    kind.isWord = false := by
  unfold punctuation? at h
  split at h <;> cases h <;> rfl

theorem spelled_of_isWord_eq_false {t : Token} (h : t.kind.isWord = false) : t.Spelled := by
  unfold Spelled
  split
  · next hkind => simp [hkind, Kind.isWord] at h
  · next hkind => simp [hkind, Kind.isWord] at h
  · next hkind => simp [hkind, Kind.isWord] at h
  · trivial

theorem spelled_of_bare {c : Char} {s : Text} {kind : Kind} {n : Nat} (hc : isBareChar c)
    (h : bare c s = .ok (kind, n)) (line : Nat) : Spelled ⟨kind, c :: s.take n, line⟩ := by
  rcases bare_cases h with ⟨rfl, -⟩ | ⟨rfl, -⟩ | ⟨rfl, -⟩
  · trivial
  · trivial
  · exact ⟨c, _, rfl, hc⟩

theorem spelled_of_first {c : Char} {s : Text} {kind : Kind} {n : Nat}
    (h : first c s = .ok (kind, n)) (line : Nat) : Spelled ⟨kind, c :: s.take n, line⟩ := by
  rcases first_cases h with ⟨hkind, -⟩ | ⟨rfl, rfl, hlength⟩ | ⟨rfl, rfl, hlength⟩ | ⟨hc, h⟩
  · exact spelled_of_isWord_eq_false (isWord_of_punctuation? hkind)
  · obtain ⟨inside, hinside⟩ := exists_take_of_quotedLength? hlength
    exact ⟨inside, by rw [hinside]⟩
  · obtain ⟨inside, hinside⟩ := exists_take_of_rawLength? hlength
    exact ⟨inside, by rw [hinside]⟩
  · exact spelled_of_bare hc h line

theorem Scans.spelled {line : Nat} {s : Text} {tokens : List Token} (h : Scans line s tokens) :
    ∀ t ∈ tokens, t.Spelled := by
  induction h with
  | nil => simp
  | gap hgap h ih => exact ih
  | newline h ih => exact List.forall_mem_cons.mpr ⟨trivial, ih⟩
  | token hgap hc hfirst h ih =>
      exact List.forall_mem_cons.mpr ⟨spelled_of_first hfirst _, ih⟩

end Token

namespace Word

theorem unquote?_eq_nil_iff {s : Text} : unquote? s = some [] ↔ s = [] := by
  constructor
  · intro h
    unfold unquote? at h
    split at h
    · rfl
    · cases h
    · simp [Option.bind_eq_some_iff] at h
    · simp at h
  · rintro rfl
    rw [unquote?]

theorem inside_cons_append (c d : Char) (s : Text) : inside (c :: (s ++ [d])) = s := by
  rw [inside, List.tail_cons, List.dropLast_concat]

theorem eq_nil_iff_of_ofToken {t : Token} {word : Text} (ht : t.Spelled)
    (h : ofToken t = .ok word) :
    word = [] ↔ t.text = ['"', '"'] ∨ t.text = ['\x60', '\x60'] := by
  unfold ofToken at h
  unfold Token.Spelled at ht
  split at h
  · next hkind =>
      rw [hkind] at ht
      obtain ⟨c, rest, htext, hc⟩ := ht
      cases h
      rw [htext]
      constructor
      · intro hnil
        cases hnil
      · rintro (hquotes | hquotes)
        · cases hquotes
          exact absurd hc (by decide)
        · cases hquotes
          exact absurd hc (by decide)
  · next hkind =>
      rw [hkind] at ht
      obtain ⟨inside, htext⟩ := ht
      cases h
      rw [htext, inside_cons_append]
      simp
  · next hkind =>
      rw [hkind] at ht
      obtain ⟨inside, htext⟩ := ht
      rw [htext, inside_cons_append] at h
      split at h
      · next hword =>
          cases h
          have hempty : word = [] ↔ inside = [] := by
            constructor
            · rintro rfl
              exact unquote?_eq_nil_iff.mp hword
            · intro hinside
              rw [unquote?_eq_nil_iff.mpr hinside, Option.some.injEq] at hword
              exact hword.symm
          rw [hempty, htext]
          simp
      · cases h
  · cases h

theorem exists_head?_of_ofTokens {args : List Token} {word : Text} {words : List Text}
    (h : ofTokens args = .ok (word :: words)) :
    ∃ t ∈ args.head?, ofToken t = .ok word := by
  cases args with
  | nil => cases h
  | cons t args =>
      rw [ofTokens, List.mapM_cons] at h
      simp only [bind_eq_ok_iff, pure_eq_ok, Except.ok.injEq, List.cons.injEq] at h
      obtain ⟨word', hword, _, -, rfl, -⟩ := h
      exact ⟨t, rfl, hword⟩

end Word

namespace Directive

variable {d : Directive} {e : Manifest} {r : Requirement}

theorem Declares.eq_of_mem_require (h : d.Declares e) (hr : r ∈ e.require) :
    e = { require := [r] } := by
  cases h with
  | require hverb hwords hversion =>
      rw [List.mem_singleton.mp hr]
  | _ => cases hr

theorem Declares.exists_head? (h : d.Declares { require := [r] }) :
    ∃ t ∈ d.args.head?, Word.ofToken t = .ok r.path := by
  cases h with
  | require hverb hwords hversion => exact Word.exists_head?_of_ofTokens hwords

end Directive

namespace Manifest

variable {m m' : Manifest}

theorem exists_declares_of_mem_require {items : List Item}
    (h : items.foldlM addItem m = .ok m') {r : Requirement} (hr : r ∈ m'.require) :
    r ∈ m.require ∨ ∃ d, .directive d ∈ items ∧ d.Declares { require := [r] } := by
  refine (exists_declares_of_run (P := (r ∈ ·.require)) List.mem_append.mp h hr).imp_right ?_
  rintro ⟨d, e, hmem, hd, he⟩
  rw [hd.eq_of_mem_require he] at hd
  exact ⟨d, hmem, hd⟩

theorem spelled_of_mem_items {s : Text} {d : Directive} (h : .directive d ∈ items s) :
    ∀ t ∈ d.args, t.Spelled := by
  obtain ⟨tokens, hscan, hl, hargs⟩ := exists_line_of_mem_items h
  intro t ht
  exact (Token.scans_of_scan hscan).spelled t (Line.mem_of_mem_collect hl (hargs ht))

/-- Each requirement that is read comes from a directive of the text. Its path is empty just when
the first argument there is a pair of quotes with nothing between them. -/
theorem empty_path_iff_of_read {bytes : Bytes} (h : read bytes = .ok m) :
    ∃ s, Utf8.decode? bytes = some s ∧
      ∀ r ∈ m.require, ∃ d, .directive d ∈ items s ∧ d.Declares { require := [r] } ∧
        ∃ t ∈ d.args.head?, Word.ofToken t = .ok r.path ∧
          (r.path = [] ↔ t.text = ['"', '"'] ∨ t.text = ['\x60', '\x60']) := by
  obtain ⟨s, hs, hrun⟩ := exists_run_of_read h
  refine ⟨s, hs, fun r hr => ?_⟩
  rcases exists_declares_of_mem_require hrun hr with hmem | ⟨d, hmem, hd⟩
  · cases hmem
  · obtain ⟨t, ht, hword⟩ := hd.exists_head?
    have hspelled := spelled_of_mem_items hmem t (List.mem_of_mem_head? ht)
    exact ⟨d, hmem, hd, t, ht, hword, Word.eq_nil_iff_of_ofToken hspelled hword⟩

theorem empty_path_iff_of_read_block :
    ∃ m, read (Utf8.encode "require (\n\"x.org/a\" v1.0.0\n\"\" v1.2.0\n)\n".toList) = .ok m ∧
      m.require.length = 2 ∧
      ∃ s, Utf8.decode?
          (Utf8.encode "require (\n\"x.org/a\" v1.0.0\n\"\" v1.2.0\n)\n".toList) = some s ∧
        ∀ r ∈ m.require, ∃ d, .directive d ∈ items s ∧ d.Declares { require := [r] } ∧
          ∃ t ∈ d.args.head?, Word.ofToken t = .ok r.path ∧
            (r.path = [] ↔ t.text = ['"', '"'] ∨ t.text = ['\x60', '\x60']) := by
  refine ⟨{ require := [⟨"x.org/a".toList, ⟨1, 0, 0, [], false⟩, false⟩,
    ⟨[], ⟨1, 2, 0, [], false⟩, false⟩] }, ?read, rfl, empty_path_iff_of_read ?read⟩
  decide +kernel

/-- An empty path is accepted. -/
theorem exists_empty_path_of_read :
    ∃ m, read (Utf8.encode "require \"\" v1.0.0\n".toList) = .ok m ∧
      ∃ r ∈ m.require, r.path = [] := by
  refine ⟨{ require := [⟨[], ⟨1, 0, 0, [], false⟩, false⟩] }, ?_, _, List.mem_cons_self, rfl⟩
  decide +kernel

end Manifest

end GoModules
