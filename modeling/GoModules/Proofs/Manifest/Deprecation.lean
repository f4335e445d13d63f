import GoModules.Proofs.Manifest.Comment
import GoModules.Proofs.Manifest.Layout
import GoModules.Proofs.Manifest.Run

/-!
# Messages of deprecation

A message of deprecation is put together from pieces: what one comment says behind `Deprecated:` and
what the comments right below it say, with a space between each two. All pieces are trimmed and only
the first can be empty. So a message is trimmed too, unless its first piece is empty and another one
follows: then it begins with the space between them.
-/

namespace GoModules

namespace Comment

/-- What a comment says behind `Deprecated:`. -/
def beginning? (comment : Text) : Option Text :=
  ("Deprecated:".toList.isPrefixOf? (body comment)).map Text.trim

/-- A comment that goes on with a message that has begun. -/
def GoesOn (comment : Text) : Prop :=
  beginning? comment = none ∧ body comment ≠ []

/-- Where the message of a group of comments stands. One comment begins it with the piece `first`,
and the comments `more` right below go on with it, up to an empty comment or to the end of the
group. Messages may have begun further up, but none of them has ended there. -/
def HoldsMessage (comments : List Text) (first : Text) (more : List Text) : Prop :=
  ∃ silent begun start below, comments = silent ++ (begun ++ start :: (more ++ below)) ∧
    (∀ c ∈ silent, beginning? c = none) ∧ (∀ c ∈ begun, body c ≠ []) ∧
    beginning? start = some first ∧ (∀ c ∈ more, GoesOn c) ∧ ∀ c ∈ below.head?, body c = []

/-- The message with the pieces `first` and what the comments `more` say. -/
def message (first : Text) (more : List Text) : Text :=
  [' '].intercalate (first :: more.map body)

variable {comment first msg : Text} {comments more : List Text}

theorem message_nil (first : Text) : message first [] = first :=
  List.intercalate_singleton

theorem message_cons (first c : Text) (more : List Text) :
    message first (c :: more) = message (first ++ ' ' :: body c) more := by
  cases more with
  | nil => simp [message, List.intercalate]
  | cons d more => simp [message, List.intercalate]

theorem body_ne_nil_of_beginning? (h : beginning? comment = some first) : body comment ≠ [] := by
  intro hnil
  rw [beginning?, hnil] at h
  cases h

theorem continueDeprecation_cons_of_some (h : beginning? comment = some first)
    (message : Option Text) (rest : List Text) :
    continueDeprecation message (comment :: rest) = continueDeprecation (some first) rest := by
  obtain ⟨start, hstart, rfl⟩ := Option.map_eq_some_iff.mp h
  simp only [continueDeprecation, hstart]

theorem continueDeprecation_cons_of_none (h : beginning? comment = none) (rest : List Text) :
    continueDeprecation none (comment :: rest) = continueDeprecation none rest := by
  simp only [continueDeprecation, Option.map_eq_none_iff.mp h]

theorem continueDeprecation_cons_of_nil (h : body comment = []) (m : Text) (rest : List Text) :
    continueDeprecation (some m) (comment :: rest) = some m := by
  have hnone : "Deprecated:".toList.isPrefixOf? (body comment) = none := by
    rw [h]
    rfl
  simp only [continueDeprecation, hnone, if_pos h]

theorem continueDeprecation_cons_of_goesOn (h : GoesOn comment) (m : Text) (rest : List Text) :
    continueDeprecation (some m) (comment :: rest) =
      continueDeprecation (some (m ++ ' ' :: body comment)) rest := by
  simp only [continueDeprecation, Option.map_eq_none_iff.mp h.1, if_neg h.2]

/-- A message that has begun ends where a comment is empty, unless another one begins before. -/
theorem exists_of_continueDeprecation {m : Text}
    (h : continueDeprecation (some m) comments = some msg) :
    (∃ more below, comments = more ++ below ∧ (∀ c ∈ more, GoesOn c) ∧
      (∀ c ∈ below.head?, body c = []) ∧ msg = message m more) ∨
    ∃ begun start first more below, comments = begun ++ start :: (more ++ below) ∧
      (∀ c ∈ begun, body c ≠ []) ∧ beginning? start = some first ∧ (∀ c ∈ more, GoesOn c) ∧
      (∀ c ∈ below.head?, body c = []) ∧ msg = message first more := by
  induction comments generalizing m with
  | nil =>
      cases h
      exact .inl ⟨[], [], rfl, by simp, by simp, (message_nil _).symm⟩
  | cons c rest ih =>
      cases hbegin : beginning? c with
      | some first =>
          rw [continueDeprecation_cons_of_some hbegin] at h
          rcases ih h with ⟨more, below, rfl, hmore, hbelow, hmsg⟩ |
            ⟨begun, start, first', more, below, rfl, hbegun, hrest⟩
          · exact .inr ⟨[], c, first, more, below, rfl, by simp, hbegin, hmore, hbelow, hmsg⟩
          · refine .inr ⟨c :: begun, start, first', more, below, rfl, ?_, hrest⟩
            exact List.forall_mem_cons.mpr ⟨body_ne_nil_of_beginning? hbegin, hbegun⟩
      | none =>
          by_cases hnil : body c = []
          · rw [continueDeprecation_cons_of_nil hnil] at h
            cases h
            exact .inl ⟨[], c :: rest, rfl, by simp, by simpa using hnil, (message_nil _).symm⟩
          · have hgoesOn : GoesOn c := ⟨hbegin, hnil⟩
            rw [continueDeprecation_cons_of_goesOn hgoesOn] at h
            rcases ih h with ⟨more, below, rfl, hmore, hbelow, hmsg⟩ |
              ⟨begun, start, first', more, below, rfl, hbegun, hrest⟩
            · refine .inl ⟨c :: more, below, rfl, ?_, hbelow, hmsg.trans (message_cons ..).symm⟩
              exact List.forall_mem_cons.mpr ⟨hgoesOn, hmore⟩
            · refine .inr ⟨c :: begun, start, first', more, below, rfl, ?_, hrest⟩
              exact List.forall_mem_cons.mpr ⟨hnil, hbegun⟩

theorem exists_of_deprecation (h : deprecation comments = some msg) :
    ∃ first more, HoldsMessage comments first more ∧ msg = message first more := by
  rw [deprecation] at h
  induction comments with
  | nil => cases h
  | cons c rest ih =>
      cases hbegin : beginning? c with
      | none =>
          rw [continueDeprecation_cons_of_none hbegin] at h
          obtain ⟨first, more, ⟨silent, begun, start, below, rfl, hsilent, hrest⟩, hmsg⟩ := ih h
          refine ⟨first, more, ⟨c :: silent, begun, start, below, rfl, ?_, hrest⟩, hmsg⟩
          exact List.forall_mem_cons.mpr ⟨hbegin, hsilent⟩
      | some first =>
          rw [continueDeprecation_cons_of_some hbegin] at h
          rcases exists_of_continueDeprecation h with ⟨more, below, rfl, hmore, hbelow, hmsg⟩ |
            ⟨begun, start, first', more, below, rfl, hbegun, hstart, hmore, hbelow, hmsg⟩
          · exact ⟨first, more, ⟨[], [], c, below, rfl, by simp, by simp, hbegin, hmore, hbelow⟩,
              hmsg⟩
          · refine ⟨first', more, ⟨[], c :: begun, start, below, rfl, by simp, ?_, hstart, hmore,
              hbelow⟩, hmsg⟩
            exact List.forall_mem_cons.mpr ⟨body_ne_nil_of_beginning? hbegin, hbegun⟩

theorem trim_of_beginning? (h : beginning? comment = some first) : Text.trim first = first := by
  obtain ⟨start, -, rfl⟩ := Option.map_eq_some_iff.mp h
  exact Text.trim_trim start

theorem mem_of_beginning? (h : beginning? comment = some first) {x : Char} (hx : x ∈ first) :
    x ∈ comment := by
  obtain ⟨start, hstart, rfl⟩ := Option.map_eq_some_iff.mp h
  have hbody : "Deprecated:".toList ++ start = body comment :=
    List.isPrefixOf?_eq_some_iff_append_eq.mp hstart
  apply mem_of_mem_body
  rw [← hbody]
  exact List.mem_append_right _ (Text.mem_of_mem_trim hx)

/-- A message has no characters but spaces and those of its pieces. -/
theorem notMem_message {x : Char} (hx : x ≠ ' ') (hfirst : x ∉ first) (hmore : ∀ c ∈ more, x ∉ c) :
    x ∉ message first more := by
  induction more generalizing first with
  | nil => rwa [message_nil]
  | cons c more ih =>
      rw [List.forall_mem_cons] at hmore
      rw [message_cons]
      apply ih
      · rw [List.mem_append, List.mem_cons, not_or, not_or]
        exact ⟨hfirst, hx, fun hbody => hmore.1 (mem_of_mem_body hbody)⟩
      · exact hmore.2

/-- A message is trimmed like its pieces, unless it begins with the space behind an empty one. -/
theorem trim_message (hfirst : Text.trim first = first) (hmore : ∀ c ∈ more, body c ≠ [])
    (h : first ≠ [] ∨ more = []) : Text.trim (message first more) = message first more := by
  induction more generalizing first with
  | nil => rwa [message_nil]
  | cons c more ih =>
      rw [List.forall_mem_cons] at hmore
      have hne : first ≠ [] := h.resolve_right (List.cons_ne_nil c more)
      have hhead : ∀ x ∈ (first ++ [' ']).head?, Text.isBlank x = false := by
        rw [List.head?_append_of_ne_nil first hne]
        exact (Text.trim_eq_self_iff.mp hfirst).1
      have hlonger : Text.trim (first ++ [' '] ++ body c) = first ++ [' '] ++ body c := by
        apply Text.trim_append_of_trim_eq_self hhead
        · exact List.append_ne_nil_of_left_ne_nil hne _
        · exact Text.trim_trim _
        · exact hmore.1
      rw [message_cons, List.append_cons]
      apply ih hlonger hmore.2
      left
      exact List.append_ne_nil_of_right_ne_nil _ hmore.1

/-- The space behind an empty piece is left at the beginning of a message. -/
theorem message_nil_cons (c : Text) (more : List Text) :
    message [] (c :: more) = ' ' :: message (body c) more := by
  rw [message, List.map_cons, List.intercalate_cons_of_ne_nil (List.cons_ne_nil _ _)]
  rfl

theorem trim_message_eq_self_iff (hfirst : Text.trim first = first)
    (hmore : ∀ c ∈ more, body c ≠ []) :
    Text.trim (message first more) = message first more ↔ first ≠ [] ∨ more = [] := by
  constructor
  · intro h
    by_contra hempty
    rw [not_or, not_not] at hempty
    obtain ⟨rfl, hne⟩ := hempty
    obtain ⟨c, rest, rfl⟩ := List.exists_cons_of_ne_nil hne
    rw [message_nil_cons, Text.trim_eq_self_iff] at h
    have hspace := h.1 ' ' rfl
    cases hspace
  · exact trim_message hfirst hmore

/-- A message that is not trimmed is a space in front of one that is. -/
theorem message_eq_cons_trim (hmore : ∀ c ∈ more, body c ≠ [])
    (h : first = [] ∧ more ≠ []) : message first more = ' ' :: Text.trim (message first more) := by
  obtain ⟨rfl, hne⟩ := h
  obtain ⟨c, rest, rfl⟩ := List.exists_cons_of_ne_nil hne
  rw [List.forall_mem_cons] at hmore
  have hbody : Text.trim (body c) = body c := Text.trim_trim _
  rw [message_nil_cons, Text.trim_cons_space, trim_message hbody hmore.2 (.inl hmore.1)]

theorem HoldsMessage.body_ne_nil (h : HoldsMessage comments first more) :
    ∀ c ∈ more, body c ≠ [] := by
  obtain ⟨silent, begun, start, below, -, -, -, -, hmore, -⟩ := h
  exact fun c hc => (hmore c hc).2

theorem HoldsMessage.trim_first (h : HoldsMessage comments first more) :
    Text.trim first = first := by
  obtain ⟨silent, begun, start, below, -, -, -, hstart, -⟩ := h
  exact trim_of_beginning? hstart

theorem HoldsMessage.newline_notMem (h : HoldsMessage comments first more)
    (hcomments : ∀ c ∈ comments, '\n' ∉ c) : '\n' ∉ message first more := by
  obtain ⟨silent, begun, start, below, rfl, -, -, hstart, -⟩ := h
  apply notMem_message (by decide)
  · intro hmem
    exact hcomments start (by simp) (mem_of_beginning? hstart hmem)
  · intro c hc
    exact hcomments c (by simp [hc])

end Comment

theorem Directive.Declares.deprecated_eq {d : Directive} {x : ModuleDecl}
    (h : d.Declares { module := some x }) :
    x.deprecated = Comment.deprecation d.line.comments := by
  cases h with
  | module hverb hwords => rfl

theorem Directive.Declares.eq_of_module {d : Directive} {e : Manifest} {x : ModuleDecl}
    (h : d.Declares e) (hx : e.module = some x) : e = { module := some x } := by
  cases h with
  | module hverb hwords =>
      obtain rfl := Option.some.inj hx
      rfl
  | _ => cases hx

namespace Manifest

open Comment

variable {m : Manifest} {x : ModuleDecl} {msg : Text}

theorem exists_declares_of_module {items : List Item} (h : items.foldlM addItem {} = .ok m)
    (hx : m.module = some x) :
    ∃ d, .directive d ∈ items ∧ d.Declares { module := some x } := by
  have hcombine : ∀ {a b : Manifest}, (a.combine b).module = some x →
      a.module = some x ∨ b.module = some x := by
    intro a b hab
    exact (Option.or_eq_some_iff.mp hab).imp_right And.right
  rcases exists_declares_of_run (P := (·.module = some x)) hcombine h hx with
    hnone | ⟨d, e, hmem, hd, he⟩
  · cases hnone
  · rw [hd.eq_of_module he] at hd
    exact ⟨d, hmem, hd⟩

theorem newline_notMem_of_mem_items {s : Text} {d : Directive} (h : .directive d ∈ items s) :
    ∀ c ∈ d.line.comments, '\n' ∉ c := by
  obtain ⟨tokens, hscan, hl, -⟩ := exists_line_of_mem_items h
  intro c hc
  obtain ⟨t, ht, hkind, rfl⟩ := Line.exists_of_mem_comments hscan hl hc
  apply (Token.scans_of_scan hscan).newline_notMem t ht
  rw [hkind]
  decide

/-- A message of deprecation that is read is made up of trimmed pieces, the first of which a comment
of the declaration begins and the others go on with. It has no newline, and no blanks at its ends
but one: if nothing is said where it begins and it goes on, it has a space in front. -/
theorem deprecation_of_read {bytes : Bytes} (h : read bytes = .ok m) (hx : m.module = some x)
    (hmsg : x.deprecated = some msg) :
    ∃ s d first more, Utf8.decode? bytes = some s ∧ .directive d ∈ items s ∧
      d.Declares { module := some x } ∧ HoldsMessage d.line.comments first more ∧
      msg = message first more ∧ '\n' ∉ msg ∧
      (Text.trim msg = msg ↔ first ≠ [] ∨ more = []) ∧
      (Text.trim msg ≠ msg → msg = ' ' :: Text.trim msg) := by
  obtain ⟨s, hs, hrun⟩ := exists_run_of_read h
  obtain ⟨d, hmem, hd⟩ := exists_declares_of_module hrun hx
  rw [hd.deprecated_eq] at hmsg
  obtain ⟨first, more, hholds, rfl⟩ := exists_of_deprecation hmsg
  have htrim := trim_message_eq_self_iff hholds.trim_first hholds.body_ne_nil
  refine ⟨s, d, first, more, hs, hmem, hd, hholds, rfl, ?_, htrim, fun hne => ?_⟩
  · exact hholds.newline_notMem (newline_notMem_of_mem_items hmem)
  · apply message_eq_cons_trim hholds.body_ne_nil
    rw [Ne, htrim, not_or, not_not] at hne
    exact hne

theorem deprecation_of_read_restarted :
    ∃ m x msg,
      read (Utf8.encode "// Deprecated: a\n// Deprecated:  b\nmodule x.org/m // c \n".toList) =
        .ok m ∧ m.module = some x ∧ x.deprecated = some msg ∧ msg = "b c".toList ∧
      ∃ s d first more,
        Utf8.decode? (Utf8.encode
          "// Deprecated: a\n// Deprecated:  b\nmodule x.org/m // c \n".toList) = some s ∧
        .directive d ∈ items s ∧ d.Declares { module := some x } ∧
        HoldsMessage d.line.comments first more ∧ msg = message first more ∧ '\n' ∉ msg ∧
        (Text.trim msg = msg ↔ first ≠ [] ∨ more = []) ∧
        (Text.trim msg ≠ msg → msg = ' ' :: Text.trim msg) := by
  have hread : read (Utf8.encode
      "// Deprecated: a\n// Deprecated:  b\nmodule x.org/m // c \n".toList) =
      .ok { module := some ⟨"x.org/m".toList, some "b c".toList⟩ } := by
    decide +kernel
  exact ⟨_, _, _, hread, rfl, rfl, rfl, deprecation_of_read hread rfl rfl⟩

/-- A message that has nothing behind its beginning is read with a space in front. -/
theorem exists_deprecated_not_trimmed :
    ∃ m x msg,
      read (Utf8.encode "// Deprecated:\n// use x.org/n\nmodule x.org/m\n".toList) = .ok m ∧
      m.module = some x ∧ x.deprecated = some msg ∧ Text.trim msg ≠ msg := by
  have hread : read (Utf8.encode "// Deprecated:\n// use x.org/n\nmodule x.org/m\n".toList) =
      .ok { module := some ⟨"x.org/m".toList, some " use x.org/n".toList⟩ } := by
    decide +kernel
  refine ⟨_, _, _, hread, rfl, rfl, ?_⟩
  decide

end Manifest

end GoModules
