import GoModules.Manifest.Directive
import Mathlib.Data.List.Forall2

/-!
# What arguments say

A directive reads each of its arguments as the word that its token spells, or as a mark. How a word
is spelled does not matter: tokens that say the same are the same arguments, and they open and close
blocks alike.
-/

namespace GoModules

theorem Token.Kind.ne_of_isWord {kind mark : Kind} (hkind : kind.isWord)
    (hmark : mark.isWord = false) : kind ≠ mark := by
  rintro rfl
  exact Bool.false_ne_true (hmark.symm.trans hkind)

namespace Word

variable {t t' : Token} {kind : Token.Kind} {ts ts' : List Token}

/-- A mark says of which kind it is, and nothing else. -/
theorem ofToken_eq_unexpected_iff (hkind : kind.isWord = false) :
    ofToken t = .error (.unexpectedToken kind) ↔ t.kind = kind := by
  obtain ⟨found, text, line⟩ := t
  constructor
  · intro h
    unfold ofToken at h
    split at h
    · cases h
    · cases h
    · split at h
      · cases h
      · cases h
    · cases h
      rfl
  · rintro rfl
    cases found with
    | bare => cases hkind
    | raw => cases hkind
    | quoted => cases hkind
    | _ => rfl

theorem kind_eq_iff_of_ofToken_eq (h : ofToken t' = ofToken t) (hkind : kind.isWord = false) :
    t'.kind = kind ↔ t.kind = kind := by
  rw [← ofToken_eq_unexpected_iff hkind, ← ofToken_eq_unexpected_iff hkind, h]

theorem isWord_eq_of_ofToken_eq (h : ofToken t' = ofToken t) : t'.kind.isWord = t.kind.isWord := by
  cases hword : t.kind.isWord with
  | false => rw [(kind_eq_iff_of_ofToken_eq h hword).mpr rfl, hword]
  | true =>
      by_contra hmark
      rw [Bool.not_eq_true] at hmark
      rw [(kind_eq_iff_of_ofToken_eq h hmark).mp rfl, hmark] at hword
      cases hword

theorem map_kind_eq_iff {kinds : List Token.Kind} (hkinds : ∀ kind ∈ kinds, kind.isWord = false) :
    ts.map Token.kind = kinds ↔
      ts.map ofToken = kinds.map fun kind => .error (.unexpectedToken kind) := by
  induction ts generalizing kinds with
  | nil => exact ⟨fun h => h ▸ rfl, fun h => (List.map_eq_nil_iff.mp h.symm).symm⟩
  | cons t ts ih =>
      cases kinds with
      | nil => simp
      | cons kind kinds =>
          rw [List.forall_mem_cons] at hkinds
          rw [List.map_cons, List.map_cons, List.map_cons, List.cons.injEq, List.cons.injEq,
            ofToken_eq_unexpected_iff hkinds.1, ih hkinds.2]

theorem forall₂_of_map_ofToken_eq (h : ts'.map ofToken = ts.map ofToken) :
    List.Forall₂ (fun t' t => ofToken t' = ofToken t) ts' ts := by
  have heq : List.Forall₂ Eq (ts'.map ofToken) (ts.map ofToken) := by rw [h, List.forall₂_eq_eq_eq]
  rwa [List.forall₂_map_left_iff, List.forall₂_map_right_iff] at heq

theorem ofTokens_congr (h : ts'.map ofToken = ts.map ofToken) : ofTokens ts' = ofTokens ts := by
  have hmap : ∀ ts : List Token, ofTokens ts = (ts.map ofToken).mapM id := by
    intro ts
    rw [List.mapM_map]
    rfl
  rw [hmap, hmap, h]

end Word

namespace Directive

variable {args args' : List Token}

theorem pathAndVersion?_cons (path : Text) (version : Option Text) :
    pathAndVersion? (path :: version.toList) = some (path, version) := by
  cases version with
  | none => rfl
  | some v => rfl

section Sides

variable {old new : List Token} {arrow : Token} (hold : ∀ t ∈ old, decide (t.kind ≠ .arrow))
  (harrow : arrow.kind = .arrow)
include hold harrow

/-- What a replacement reads on both sides of its first arrow. -/
theorem takeWhile_arrow : (old ++ arrow :: new).takeWhile (·.kind ≠ .arrow) = old := by
  rw [List.takeWhile_append_of_pos hold, List.takeWhile_cons_of_neg (by simp [harrow]),
    List.append_nil]

theorem tail_dropWhile_arrow :
    ((old ++ arrow :: new).dropWhile (·.kind ≠ .arrow)).tail = new := by
  rw [List.dropWhile_append_of_pos hold, List.dropWhile_cons_of_neg (by simp [harrow]),
    List.tail_cons]

end Sides

theorem replacement_congr (h : args'.map Word.ofToken = args.map Word.ofToken) :
    replacement args' = replacement args := by
  have hside : (fun t : Token => decide (t.kind ≠ .arrow)) =
      (fun said => decide (said ≠ .error (.unexpectedToken .arrow))) ∘ Word.ofToken := by
    funext t
    have harrow : Word.ofToken t = .error (.unexpectedToken .arrow) ↔ t.kind = .arrow :=
      Word.ofToken_eq_unexpected_iff rfl
    simp [harrow]
  have hold : (args'.takeWhile (·.kind ≠ .arrow)).map Word.ofToken =
      (args.takeWhile (·.kind ≠ .arrow)).map Word.ofToken := by
    rw [hside, ← List.takeWhile_map, ← List.takeWhile_map, h]
  have hnew : ((args'.dropWhile (·.kind ≠ .arrow)).tail).map Word.ofToken =
      ((args.dropWhile (·.kind ≠ .arrow)).tail).map Word.ofToken := by
    rw [hside, List.map_tail, List.map_tail, ← List.dropWhile_map, ← List.dropWhile_map, h]
  have holdlength := congrArg List.length hold
  have hnewlength := congrArg List.length hnew
  rw [List.length_map, List.length_map] at holdlength hnewlength
  simp only [replacement, holdlength, hnewlength, Word.ofTokens_congr hold,
    Word.ofTokens_congr hnew]

theorem bounds_congr (h : args'.map Word.ofToken = args.map Word.ofToken) :
    bounds args' = bounds args := by
  have hbound : ∀ {t t' : Token}, Word.ofToken t' = Word.ofToken t → bound t' = bound t := by
    intro t t' ht
    rw [bound, bound, ht]
  -- Only one or five arguments are looked at.
  rcases Word.forall₂_of_map_ofToken_eq h with
    _ | ⟨ha, _ | ⟨hb, _ | ⟨hc, _ | ⟨hd, _ | ⟨he, _ | ⟨hg, hrest⟩⟩⟩⟩⟩⟩
  case cons.nil =>
    rw [bounds, bounds, Word.isWord_eq_of_ofToken_eq ha, hbound ha]
  case cons.cons.cons.cons.cons.nil =>
    have hmark : ∀ kind : Token.Kind, kind.isWord = false → ∀ {t t' : Token},
        Word.ofToken t' = Word.ofToken t → (t'.kind = kind ↔ t.kind = kind) :=
      fun kind hkind _ _ ht => Word.kind_eq_iff_of_ofToken_eq ht hkind
    simp only [bounds, hmark .openBracket rfl ha, hmark .comma rfl hc, hmark .closeBracket rfl he,
      Word.isWord_eq_of_ofToken_eq hb, Word.isWord_eq_of_ofToken_eq hd, hbound hb, hbound hd]
  all_goals rfl

/-- Of the line of a directive only its comments count, and of its arguments only what they say. -/
theorem addTo_congr {d d' : Directive} (hverb : d'.verb = d.verb)
    (hargs : d'.args.map Word.ofToken = d.args.map Word.ofToken)
    (hcomments : d'.line.comments = d.line.comments) (hsuffix : d'.line.suffix = d.line.suffix)
    (m : Manifest) : d'.addTo m = d.addTo m := by
  unfold addTo
  rw [hverb, Word.ofTokens_congr hargs, replacement_congr hargs, bounds_congr hargs, hcomments,
    hsuffix]

end Directive

namespace Line

variable {l l' : Line}

theorem shape_congr (h : l'.others.map Word.ofToken = l.others.map Word.ofToken) :
    l'.shape = l.shape := by
  have hkinds : ∀ kinds : List Token.Kind, (∀ kind ∈ kinds, kind.isWord = false) →
      (l'.others.map Token.kind = kinds ↔ l.others.map Token.kind = kinds) := by
    intro kinds hmarks
    rw [Word.map_kind_eq_iff hmarks, Word.map_kind_eq_iff hmarks, h]
  have hempty := hkinds [.openParen, .closeParen] (by decide)
  have hopening := hkinds [.openParen] (by decide)
  unfold shape
  split
  · next hl' => rw [hempty.mp hl']
  · next hl' => rw [hopening.mp hl']
  · next hne hne' =>
      split
      · next hl => exact absurd (hempty.mpr hl) hne
      · next hl => exact absurd (hopening.mpr hl) hne'
      · rfl

theorem isClosing_congr (h : l'.tokens.map Word.ofToken = l.tokens.map Word.ofToken) :
    l'.isClosing = l.isClosing := by
  have hmark : ∀ kind ∈ [Token.Kind.closeParen], kind.isWord = false := by decide
  rw [isClosing, isClosing, Bool.eq_iff_iff, beq_iff_eq, beq_iff_eq, Word.map_kind_eq_iff hmark,
    Word.map_kind_eq_iff hmark, h]

end Line

end GoModules
