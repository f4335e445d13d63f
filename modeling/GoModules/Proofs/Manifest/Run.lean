import GoModules.Manifest.Reader
import GoModules.Proofs.Manifest.Declares
import GoModules.Proofs.Manifest.Structure

/-!
# Runs over the items of a manifest

A manifest is read by a run over the items of its text, and a text without tokens counts as one
broken item. Each step of a run that succeeds combines the manifest with what a directive declares,
so whatever these steps keep holds of every manifest that is read.
-/

namespace GoModules.Manifest

open Outcome

/-- The items of a text. Where there are no tokens, the fault of the text is the only item. -/
def items (s : Text) : List Item :=
  match Token.scan 1 s with
  | .ok tokens => Item.ofLines none (Line.ofTokens tokens)
  | .error e => [.broken ⟨e.line, .lexical e.fault⟩]

theorem ofText_eq_ofItems (s : Text) : ofText s = ofItems (items s) := by
  unfold ofText items
  cases Token.scan 1 s with
  | ok tokens => rfl
  | error e => rfl

theorem read_eq_ofItems {bytes : Bytes} {s : Text} (h : Utf8.decode? bytes = some s) :
    read bytes = ofItems (items s) := by
  rw [read, h]
  exact ofText_eq_ofItems s

/-- A directive of a text belongs to a line of the text. -/
theorem exists_line_of_mem_items {s : Text} {d : Directive} (h : .directive d ∈ items s) :
    ∃ tokens, Token.scan 1 s = .ok tokens ∧ d.line ∈ Line.ofTokens tokens ∧
      d.args ⊆ d.line.tokens := by
  unfold items at h
  split at h
  · next tokens hscan =>
      obtain ⟨_, _, l, hl, hstep⟩ := Item.exists_step_of_mem_ofLines h
      obtain ⟨rfl, hargs⟩ := Item.spec_of_step hstep
      exact ⟨tokens, hscan, hl, hargs⟩
  · simp at h

variable {m m' : Manifest} {item : Item}

theorem addItem_eq_ok_iff :
    addItem m item = .ok m' ↔
      ∃ d e, item = .directive d ∧ d.Declares e ∧ m.Compatible e ∧ m' = m.combine e := by
  constructor
  · intro h
    cases item with
    | directive d =>
        obtain ⟨e, hd, hc, rfl⟩ := Directive.declares_of_addTo (mapError_eq_ok_iff.mp h)
        exact ⟨d, e, rfl, hd, hc, rfl⟩
    | broken error => cases h
  · rintro ⟨d, e, rfl, hd, hc, rfl⟩
    exact mapError_eq_ok_iff.mpr (Directive.addTo_of_declares hd hc)

theorem run_cons_eq_ok_iff {items : List Item} :
    (item :: items).foldlM addItem m = .ok m' ↔
      ∃ d e, item = .directive d ∧ d.Declares e ∧ m.Compatible e ∧
        items.foldlM addItem (m.combine e) = .ok m' := by
  rw [List.foldlM_cons, bind_eq_ok_iff]
  constructor
  · rintro ⟨next, hnext, hrest⟩
    obtain ⟨d, e, hitem, hd, hc, rfl⟩ := addItem_eq_ok_iff.mp hnext
    exact ⟨d, e, hitem, hd, hc, hrest⟩
  · rintro ⟨d, e, hitem, hd, hc, hrest⟩
    exact ⟨m.combine e, addItem_eq_ok_iff.mpr ⟨d, e, hitem, hd, hc, rfl⟩, hrest⟩

/-- A run over directives that declare compatible entries puts the entries together. -/
theorem run_of_declares {parts : List Manifest} {ds : List Directive}
    (hdeclares : List.Forall₂ (fun e d => Directive.Declares d e) parts ds)
    (hparts : parts.Pairwise Compatible) (hm : ∀ e ∈ parts, m.Compatible e) :
    (ds.map Item.directive).foldlM addItem m = .ok (m.combine (combineAll parts)) := by
  induction hdeclares generalizing m with
  | nil => exact congrArg Except.ok (combine_empty m).symm
  | @cons e d parts ds hd hrest ih =>
      rw [List.pairwise_cons] at hparts
      have hme := hm e List.mem_cons_self
      have hnext : ∀ e' ∈ parts, (m.combine e).Compatible e' := by
        intro e' he'
        exact combine_compatible_iff.mpr ⟨hm e' (List.mem_cons_of_mem e he'), hparts.1 e' he'⟩
      rw [List.map_cons, run_cons_eq_ok_iff]
      refine ⟨d, e, rfl, hd, hme, ?_⟩
      rw [ih hparts.2 hnext, combine_assoc]
      rfl

/-- What every step of a run keeps holds at its end. -/
theorem run_induction {P : Manifest → Prop}
    (hstep : ∀ {m e : Manifest} {d : Directive},
      P m → d.Declares e → m.Compatible e → P (m.combine e))
    (hm : P m) {items : List Item} (h : items.foldlM addItem m = .ok m') : P m' := by
  induction items generalizing m with
  | nil =>
      cases h
      exact hm
  | cons item items ih =>
      obtain ⟨d, e, -, hd, hc, hrest⟩ := run_cons_eq_ok_iff.mp h
      exact ih (hstep hm hd hc) hrest

/-- What a manifest has at the end of a run, it had before or a directive declares it. -/
theorem exists_declares_of_run {P : Manifest → Prop}
    (hP : ∀ {a b : Manifest}, P (a.combine b) → P a ∨ P b) {items : List Item}
    (h : items.foldlM addItem m = .ok m') (hm' : P m') :
    P m ∨ ∃ d e, .directive d ∈ items ∧ d.Declares e ∧ P e := by
  induction items generalizing m with
  | nil =>
      cases h
      exact .inl hm'
  | cons item items ih =>
      obtain ⟨d, e, rfl, hd, -, hrest⟩ := run_cons_eq_ok_iff.mp h
      rcases ih hrest with hcombine | ⟨d', e', hmem, hd', he'⟩
      · rcases hP hcombine with hm | he
        · exact .inl hm
        · exact .inr ⟨d, e, List.mem_cons_self, hd, he⟩
      · exact .inr ⟨d', e', List.mem_cons_of_mem _ hmem, hd', he'⟩

theorem exists_combine_of_run {items : List Item} (h : items.foldlM addItem m = .ok m') :
    ∃ rest, m' = m.combine rest := by
  refine run_induction (P := fun x => ∃ rest, x = m.combine rest) ?_ ⟨{}, by simp⟩ h
  rintro x e d ⟨rest, rfl⟩ - -
  exact ⟨rest.combine e, combine_assoc m rest e⟩

theorem directive_of_run {items : List Item} (h : items.foldlM addItem m = .ok m') :
    ∀ item ∈ items, ∃ d, item = .directive d := by
  induction items generalizing m with
  | nil => simp
  | cons item items ih =>
      obtain ⟨d, e, hitem, -, -, hrest⟩ := run_cons_eq_ok_iff.mp h
      exact List.forall_mem_cons.mpr ⟨⟨d, hitem⟩, ih hrest⟩

/-- A manifest that is read is the end of a run over the items of a text. -/
theorem exists_run_of_read {bytes : Bytes} (h : read bytes = .ok m) :
    ∃ s, Utf8.decode? bytes = some s ∧ (items s).foldlM addItem {} = .ok m := by
  cases hs : Utf8.decode? bytes with
  | some s =>
      rw [read_eq_ofItems hs] at h
      exact ⟨s, rfl, h⟩
  | none =>
      rw [read, hs] at h
      cases h

end GoModules.Manifest
