import GoModules.Proofs.Manifest.Run
import GoModules.Proofs.Manifest.Shift
import GoModules.Proofs.Text.Utf8

/-!
# One manifest below another

Two texts with a blank line between them are read as one: the second one's statements are added to
the manifest of the first. The blank line keeps the comments apart, and nothing else is carried over
but what the manifest holds. So the second text is read the same as alone up to the first directive
that the manifest of the first has no room for.
-/

namespace GoModules

namespace Manifest

open Outcome

theorem scans_of_run {s : Text} {m m' : Manifest} (h : (items s).foldlM addItem m = .ok m') :
    ∃ tokens, Token.Scans 1 s tokens ∧ items s = Item.ofLines none (Line.ofTokens tokens) := by
  unfold items at h ⊢
  cases hscan : Token.scan 1 s with
  | ok tokens => exact ⟨tokens, Token.scan_eq_ok_iff.mp hscan, rfl⟩
  | error e =>
      rw [hscan] at h
      obtain ⟨d, hd⟩ := directive_of_run h _ List.mem_cons_self
      cases hd

/-- A text below another one has the same items as alone, further down. -/
theorem items_append {a b : Text} {m m' n n' : Manifest}
    (ha : (items a).foldlM addItem m = .ok m') (hb : (items b).foldlM addItem n = .ok n') :
    items (a ++ '\n' :: '\n' :: b) =
      items a ++ (items b).map (Item.shift (a.count '\n' + 2)) := by
  obtain ⟨front, hfront, hitems⟩ := scans_of_run ha
  obtain ⟨back, hback, hitems'⟩ := scans_of_run hb
  have hbelow := hback.shift (a.count '\n' + 2)
  rw [show 1 + (a.count '\n' + 2) = 1 + a.count '\n' + 1 + 1 by omega] at hbelow
  have hscan := (hfront.append_newline (.newline hbelow)).scan_eq
  have hstructure := directive_of_run ha
  rw [hitems] at hstructure
  rw [items, hscan, hitems, hitems']
  dsimp only
  rw [Line.ofTokens_append_blank rfl rfl, Item.ofLines_append _ hstructure,
    Line.ofTokens_map_shift, ← Item.ofLines_map_shift]
  rfl

/-- The first directive that a manifest has no room for, and the fault that is reported. -/
inductive FirstClash (a : Manifest) : List Item → Directive → Fault → Prop
  | here {items : List Item} {d : Directive} {fault : Fault} (h : d.Clashes a fault) :
      FirstClash a (.directive d :: items) d fault
  | later {items : List Item} {d d' : Directive} {fault : Fault} (hd : ∀ f, ¬ d'.Clashes a f)
      (h : FirstClash a items d fault) : FirstClash a (.directive d' :: items) d fault

variable {a b m e : Manifest} {d : Directive} {fault : Fault} {items : List Item}

theorem addItem_shift_of_compatible (hd : d.Declares e) (ha : a.Compatible e)
    (hm : m.Compatible e) (k : Nat) :
    addItem (a.combine m) (Item.shift k (.directive d)) = .ok (a.combine (m.combine e)) := by
  rw [← combine_assoc]
  exact mapError_eq_ok_iff.mpr
    (Directive.addTo_of_declares (hd.shift k) (combine_compatible_iff.mpr ⟨ha, hm⟩))

theorem addItem_shift_of_clashes (hd : d.Declares e) (h : d.Clashes a fault) (m : Manifest)
    (k : Nat) :
    addItem (a.combine m) (Item.shift k (.directive d)) = .error ⟨d.line.number + k, fault⟩ := by
  have hadd := Directive.addTo_of_clashes (hd.shift k) ((h.shift k).combine m)
  rw [Item.shift, addItem, hadd]
  rfl

/-- A run from a manifest can be made below another one that is compatible with its end. -/
theorem run_combine (h : items.foldlM addItem m = .ok b) (hb : a.Compatible b) (k : Nat) :
    (items.map (Item.shift k)).foldlM addItem (a.combine m) = .ok (a.combine b) := by
  induction items generalizing m with
  | nil =>
      cases h
      rfl
  | cons item items ih =>
      obtain ⟨d, e, rfl, hd, hm, hrest⟩ := run_cons_eq_ok_iff.mp h
      obtain ⟨rest, hend⟩ := exists_combine_of_run hrest
      rw [hend, compatible_combine_iff, compatible_combine_iff] at hb
      rw [List.map_cons, List.foldlM_cons, addItem_shift_of_compatible hd hb.1.2 hm, ok_bind]
      exact ih hrest

/-- Below a manifest that is not compatible with its end, a run ends at the first clash. -/
theorem run_clash (h : items.foldlM addItem m = .ok b) (hm : a.Compatible m)
    (hb : ¬ a.Compatible b) (k : Nat) :
    ∃ d fault, FirstClash a items d fault ∧
      (items.map (Item.shift k)).foldlM addItem (a.combine m) =
        .error ⟨d.line.number + k, fault⟩ := by
  induction items generalizing m with
  | nil =>
      cases h
      exact absurd hm hb
  | cons item items ih =>
      obtain ⟨d, e, rfl, hd, hme, hrest⟩ := run_cons_eq_ok_iff.mp h
      by_cases he : a.Compatible e
      · obtain ⟨d', fault, hfirst, hrun⟩ := ih hrest (compatible_combine_iff.mpr ⟨hm, he⟩)
        refine ⟨d', fault, ?_, ?_⟩
        · exact .later ((Directive.compatible_iff_forall_not_clashes hd).mp he) hfirst
        · rw [List.map_cons, List.foldlM_cons, addItem_shift_of_compatible hd he hme, ok_bind]
          exact hrun
      · rw [Directive.compatible_iff_forall_not_clashes hd, not_forall] at he
        obtain ⟨fault, hclash⟩ := he
        rw [not_not] at hclash
        refine ⟨d, fault, .here hclash, ?_⟩
        rw [List.map_cons, List.foldlM_cons, addItem_shift_of_clashes hd hclash, error_bind]

theorem decode?_append_blank {x y : Bytes} {s t : Text} (hx : Utf8.decode? x = some s)
    (hy : Utf8.decode? y = some t) :
    Utf8.decode? (x ++ Utf8.encode ['\n', '\n'] ++ y) = some (s ++ '\n' :: '\n' :: t) := by
  have hnewline : ∀ bytes : Bytes, Utf8.first 0x0a bytes = (some '\n', bytes) := fun _ => rfl
  rw [List.append_assoc, Utf8.decode?_append hx]
  change (Utf8.decode? (0x0a :: 0x0a :: y)).map (s ++ ·) = _
  rw [Utf8.decode?_cons (hnewline _), Utf8.decode?_cons (hnewline _), hy]
  rfl

/-- Reading goes on below a blank line with the manifest that was read above it. -/
theorem read_append_blank_eq_run {x y : Bytes} {s t : Text} {n : Manifest}
    (hx : Utf8.decode? x = some s) (hy : Utf8.decode? y = some t) (hm : read x = .ok m)
    (hn : read y = .ok n) :
    read (x ++ Utf8.encode ['\n', '\n'] ++ y) =
      ((Manifest.items t).map (Item.shift (s.count '\n' + 2))).foldlM addItem m := by
  rw [read_eq_ofItems hx] at hm
  rw [read_eq_ofItems hy] at hn
  rw [read_eq_ofItems (decode?_append_blank hx hy), items_append hm hn, ofItems,
    List.foldlM_append]
  change (ofItems (Manifest.items s) >>= _) = _
  rw [hm, ok_bind]

/-- Two manifests with a blank line between them are read as one if they are compatible, and the
result is their combination. Otherwise the first directive of the second one that the first one has
no room for is reported, on the line on which it then is. -/
theorem read_append_blank {x y : Bytes} {s t : Text} {m n : Manifest}
    (hx : Utf8.decode? x = some s) (hy : Utf8.decode? y = some t) (hm : read x = .ok m)
    (hn : read y = .ok n) :
    ((∃ both, read (x ++ Utf8.encode ['\n', '\n'] ++ y) = .ok both) ↔ m.Compatible n) ∧
    (m.Compatible n → read (x ++ Utf8.encode ['\n', '\n'] ++ y) = .ok (m.combine n)) ∧
    (¬ m.Compatible n → ∃ d fault, FirstClash m (Manifest.items t) d fault ∧
      read (x ++ Utf8.encode ['\n', '\n'] ++ y) =
        .error ⟨d.line.number + (s.count '\n' + 2), fault⟩) := by
  rw [read_append_blank_eq_run hx hy hm hn]
  rw [read_eq_ofItems hy] at hn
  have hcompatible := fun hc : m.Compatible n => run_combine hn hc (s.count '\n' + 2)
  have hclash := fun hc : ¬ m.Compatible n =>
    run_clash hn (compatible_empty m) hc (s.count '\n' + 2)
  simp only [combine_empty] at hcompatible hclash
  refine ⟨⟨?_, fun hc => ⟨_, hcompatible hc⟩⟩, hcompatible, hclash⟩
  rintro ⟨both, hboth⟩
  by_contra hc
  obtain ⟨d, fault, -, herror⟩ := hclash hc
  rw [herror] at hboth
  cases hboth

theorem read_append_blank_duplicate :
    ∃ m n : Manifest, ¬ m.Compatible n ∧
      read (Utf8.encode "require x.org/b v1.0.0\n".toList) = .ok m ∧
      read (Utf8.encode "go 1.21\nrequire x.org/b v1.1.0".toList) = .ok n ∧
      ∃ d fault,
        FirstClash m (Manifest.items "go 1.21\nrequire x.org/b v1.1.0".toList) d fault ∧
        read (Utf8.encode "require x.org/b v1.0.0\n".toList ++ Utf8.encode ['\n', '\n'] ++
            Utf8.encode "go 1.21\nrequire x.org/b v1.1.0".toList) =
          .error ⟨d.line.number + ("require x.org/b v1.0.0\n".toList.count '\n' + 2), fault⟩ := by
  refine ⟨{ require := [⟨"x.org/b".toList, ⟨1, 0, 0, [], false⟩, false⟩] },
    { go := some "1.21".toList,
      require := [⟨"x.org/b".toList, ⟨1, 1, 0, [], false⟩, false⟩] }, ?clash, ?first, ?second,
    (read_append_blank ?_ ?_ ?first ?second).2.2 ?clash⟩
  · intro h
    exact h.require _ List.mem_cons_self _ List.mem_cons_self rfl
  all_goals decide +kernel

end Manifest

end GoModules
