import GoModules.Proofs.Manifest.Behind
import GoModules.Proofs.Manifest.Recomment

/-!
# What comments cannot change

A comment reaches to the end of its line whatever it holds, and what is in front of it ends where it
ended before. So other comments leave the other tokens, and the lines they make up, as they are. A
directive looks into comments only for a deprecation message, an indirect mark or a rationale: all
else that a manifest holds is the same, and so is the fault for which it is refused.
-/

namespace GoModules

open Outcome

namespace Token

variable {s s' : Text}

/-- A text, and the same text with other comments: behind its two slashes each comment, in the order
in which the text is scanned, is left as it is or replaced by any other rest of a line. -/
inductive Recommented : Text → Text → Prop
  | refl (s : Text) : Recommented s s
  | gap {c : Char} {s s' : Text} (hgap : isGap c) (h : Recommented s s') :
      Recommented (c :: s) (c :: s')
  | token {c : Char} {s s' : Text} {kind : Kind} {n : Nat} (hgap : ¬ isGap c)
      (hfirst : first c s = .ok (kind, n)) (h : Recommented (s.drop n) s') :
      Recommented (c :: s) (c :: (s.take n ++ s'))
  | comment {c : Char} {s s' text : Text} {n : Nat} (hfirst : first c s = .ok (.comment, n))
      (htext : '\n' ∉ text) (h : Recommented (s.drop n) s') :
      Recommented (c :: s) ('/' :: '/' :: (text ++ s'))

theorem Recommented.alike (h : Recommented s s') : Alike s s' := by
  induction h with
  | refl s => exact .refl s
  | gap hgap h ih => exact ih.cons _
  | @token c s s' kind n hgap hfirst h ih =>
      have hcons := (ih.append (s.take n)).cons c
      rwa [List.take_append_drop] at hcons
  | @comment c s s' text n hfirst htext h ih =>
      obtain ⟨rfl, -, -⟩ := comment_of_first hfirst
      exact ⟨rfl, fun _ => List.prefix_append ['/', '/'] _⟩

/-- A text with other comments has the same tokens but for them, or the same fault. -/
theorem Recommented.scan_eq (h : Recommented s s') (line : Nat) :
    List.map (recomment fun _ => []) <$> scan line s' =
      List.map (recomment fun _ => []) <$> scan line s := by
  induction h generalizing line with
  | refl s => rfl
  | gap hgap h ih => rw [scan_gap hgap, scan_gap hgap, ih]
  | @token c s s' kind n hgap hfirst h ih =>
      by_cases hc : c = '\n'
      · subst hc
        cases hfirst
        rw [List.take_zero, List.nil_append, scan_newline, scan_newline, map_recomment_cons,
          map_recomment_cons, ih (line + 1), List.drop_zero]
      · have hfirst' := first_take_append hfirst fun _ => h.alike
        have hlength : (s.take n).length = n := List.length_take_of_le (le_length_of_first hfirst)
        rw [scan_cons hgap hc hfirst', scan_cons hgap hc hfirst, List.take_left' hlength,
          List.drop_left' hlength, map_recomment_cons, map_recomment_cons, ih line]
  | @comment c s s' text n hfirst htext h ih =>
      have hend := (cut_of_first (by rintro rfl; cases hfirst) hfirst line).comment rfl
      obtain ⟨rfl, -, -⟩ := comment_of_first hfirst
      have hfirst' := first_comment htext (h.alike.head ▸ hend.2)
      rw [← List.cons_append, scan_cons (by decide) (by decide) hfirst',
        scan_cons (by decide) (by decide) hfirst, List.drop_left, map_recomment_cons,
        map_recomment_cons, ih line]
      rfl

end Token

/-- A manifest without what comments say in it. -/
def Manifest.silent (m : Manifest) : Manifest :=
  { m with
    module := m.module.map ({ · with deprecated := none })
    require := m.require.map ({ · with indirect := false })
    retract := m.retract.map ({ · with rationale := [] }) }

@[simp] theorem Manifest.silent_silent (m : Manifest) : m.silent.silent = m.silent := by
  simp [silent, Function.comp_def]

theorem Line.recomment_id (l : Line) : l.recomment id = l := by
  rw [recomment, Option.map_id_fun, List.map_id_fun]
  rfl

variable (f : Text → Text)

/-- One case for each verb: the steps of a directive are the same, and what it adds in the end
differs in what its comments say only. -/
theorem Directive.silent_addTo_recomment (d : Directive) (m : Manifest) :
    Manifest.silent <$> (d.recomment f).addTo m.silent = Manifest.silent <$> d.addTo m := by
  have hok : ∀ {m m' : Manifest}, m.silent = m'.silent →
      Manifest.silent <$> (pure m : Except Manifest.Fault Manifest) = Manifest.silent <$> pure m' :=
    fun h => congrArg Except.ok h
  have hmodule : m.silent.module.isSome ↔ m.module.isSome := by
    rw [Manifest.silent, Option.isSome_map]
  have hrequire : ∀ path, m.silent.require.any (·.path = path) = m.require.any (·.path = path) := by
    intro path
    rw [Manifest.silent, List.any_map]
    rfl
  obtain ⟨verb, args, line⟩ := d
  cases verb with
  | module =>
      refine map_bind_congr fun words => map_ite_congr hmodule rfl ?_
      refine map_bind_congr fun path => hok ?_
      simp [Manifest.silent]
  | go =>
      refine map_bind_congr fun words => map_ite_congr Iff.rfl rfl ?_
      refine map_bind_congr fun version => map_ite_congr Iff.rfl rfl (hok ?_)
      simp [Manifest.silent, Function.comp_def]
  | toolchain =>
      refine map_bind_congr fun words => map_ite_congr Iff.rfl rfl ?_
      refine map_bind_congr fun name => map_ite_congr Iff.rfl rfl (hok ?_)
      simp [Manifest.silent, Function.comp_def]
  | require =>
      refine map_bind_congr fun words => map_bind_congr fun found => ?_
      refine map_ite_congr (by rw [hrequire]) rfl (hok ?_)
      simp [Manifest.silent, Function.comp_def]
  | exclude =>
      refine map_bind_congr fun words => map_bind_congr fun found => hok ?_
      simp [Manifest.silent, Function.comp_def]
  | replace =>
      refine map_bind_congr fun found => hok ?_
      simp [Manifest.silent, Function.comp_def]
  | retract =>
      refine map_bind_congr fun found => hok ?_
      simp [Manifest.silent, Function.comp_def]
  | godebug =>
      refine map_bind_congr fun words => map_bind_congr fun text => ?_
      cases setting? text with
      | none => rfl
      | some setting =>
          refine hok ?_
          simp [Manifest.silent, Function.comp_def]
  | tool =>
      refine map_bind_congr fun words => map_bind_congr fun path => hok ?_
      simp [Manifest.silent, Function.comp_def]
  | ignore =>
      refine map_bind_congr fun words => map_bind_congr fun path => hok ?_
      simp [Manifest.silent, Function.comp_def]

namespace Manifest

namespace Reading

def silent (r : Reading) : Reading :=
  { r with manifest := r.manifest.silent }

theorem silent_next_recomment (r : Reading) (l : Line) :
    silent <$> r.silent.next (l.recomment f) = silent <$> r.next l := by
  rw [next, next, Item.step_recomment, silent]
  cases Item.step r.block l with
  | error e => rfl
  | ok found =>
      obtain ⟨d, block⟩ := found
      have hrest : ∀ x : Except Fault Manifest,
          silent <$> (x >>= fun m => pure ⟨m, block⟩) =
            (⟨·, block⟩) <$> (Manifest.silent <$> x) := by
        intro x
        cases x with
        | error fault => rfl
        | ok m => rfl
      cases d with
      | none => exact congrArg (fun m => Except.ok (mk m block)) r.manifest.silent_silent
      | some d => exact (hrest _).trans (d.silent_addTo_recomment f r.manifest ▸ (hrest _).symm)

theorem silent_next_congr {r r' : Reading} (h : r'.silent = r.silent) (l : Line) :
    silent <$> r'.next (l.recomment f) = silent <$> r.next l := by
  have hid := silent_next_recomment id r' (l.recomment f)
  rw [Line.recomment_id, h] at hid
  rw [← hid, silent_next_recomment]

theorem silent_run_recomment (r : Reading) (lines : List Line) :
    silent <$> r.run (lines.map (Line.recomment f)) = silent <$> r.run lines := by
  refine map_foldlM_congr (fun l r r' h => ?_) rfl lines
  rw [map_mapError, map_mapError, silent_next_congr f h]
  rfl

theorem close_silent (r : Reading) : r.silent.close = Manifest.silent <$> r.close := by
  obtain ⟨m, block⟩ := r
  cases block with
  | none => rfl
  | some block => rfl

end Reading

/-- With other comments a manifest is read the same but for what comments say in it, or refused for
the same fault on the same line. -/
theorem silent_ofTokens_recomment (tokens : List Token) :
    silent <$> (Reading.run {} (Line.ofTokens (tokens.map (Token.recomment f))) >>=
      Reading.close) = silent <$> (Reading.run {} (Line.ofTokens tokens) >>= Reading.close) := by
  have hclose : ∀ x : Except Error Reading,
      silent <$> (x >>= Reading.close) = (Reading.silent <$> x) >>= Reading.close := by
    intro x
    cases x with
    | error e => rfl
    | ok r => exact r.close_silent.symm
  rw [Line.ofTokens_map_recomment, hclose, hclose, Reading.silent_run_recomment]

/-- Comments are inert outside three fields: two texts that differ in comments only are refused for
the same fault on the same line, or give the same manifest but for a deprecation message, the
indirect marks and the rationales. -/
theorem read_recommented {s s' : Text} (h : Token.Recommented s s') :
    silent <$> read (Utf8.encode s') = silent <$> read (Utf8.encode s) := by
  have hscan := h.scan_eq 1
  cases hs : Token.scan 1 s with
  | error e =>
      rw [hs] at hscan
      rw [read_encode_of_scan_error hs, read_encode_of_scan_error (map_eq_error_iff.mp hscan)]
  | ok tokens =>
      rw [hs] at hscan
      obtain ⟨tokens', hs', htokens⟩ := map_eq_ok_iff.mp hscan
      rw [read_encode_of_scan hs, read_encode_of_scan hs',
        ← silent_ofTokens_recomment (fun _ => []), htokens, silent_ofTokens_recomment]

theorem read_recommented_deprecation :
    ∃ s s', s = "module a//Deprecated:b".toList ∧ s' = "module a//\"=>(".toList ∧
      Token.Recommented s s' ∧ silent <$> read (Utf8.encode s') = silent <$> read (Utf8.encode s) ∧
      read (Utf8.encode s) = .ok { module := some ⟨"a".toList, some "b".toList⟩ } ∧
      read (Utf8.encode s') = .ok { module := some ⟨"a".toList, none⟩ } := by
  have hcomment : Token.Recommented ('/' :: '/' :: "Deprecated:b".toList)
      ('/' :: '/' :: ("\"=>(".toList ++ [])) :=
    .comment (n := 13) (by decide +kernel) (by decide) (.refl [])
  have hpath := @Token.Recommented.token 'a' _ _ .bare 0 (by decide) (by decide +kernel) hcomment
  have hmodule := @Token.Recommented.token 'm' ("odule".toList ++ ' ' :: _) _ .bare 5 (by decide)
    (by decide +kernel) (.gap (by decide) hpath)
  exact ⟨_, _, by decide +kernel, by decide +kernel, hmodule, read_recommented hmodule,
    by decide +kernel, by decide +kernel⟩

end Manifest

end GoModules
