import GoModules.Proofs.Manifest.Arguments
import GoModules.Proofs.Manifest.Statement
import GoModules.Proofs.Manifest.WellFormed

/-!
# Writing the entries of manifests

Each entry of a manifest is written as one statement. What that statement declares when it is read
is the entry again, for every entry that is well formed and whose comments can be told from the
blanks around them.
-/

namespace GoModules

open Outcome (ok_bind)
open ModulePath (isDirectory)
open Token (isBareChar)

namespace Word

theorem isPlain_of_isDigit {c : Char} (hc : c.isDigit) : IsPlain c := by
  apply isPlain_of_isAlphanum
  rw [Char.isAlphanum, hc, Bool.or_true]

theorem isPlain_of_isLower {c : Char} (hc : c.isLower) : IsPlain c := by
  apply isPlain_of_isAlphanum
  change (c.isUpper || c.isLower || c.isDigit) = true
  rw [hc, Bool.or_true, Bool.true_or]

theorem bare_text {v : Version} (h : v.Canonical) : Bare v.text := by
  have hv := Version.valid_of_read? h.read
  refine ⟨by rw [Version.text_eq]; exact List.cons_ne_nil _ _, ?_⟩
  intro c hc
  rcases Version.isIdentifierChar_or_mark_of_mem_text hv hc with hident | rfl | rfl
  · rw [Version.isIdentifierChar, Bool.or_eq_true, beq_iff_eq] at hident
    rcases hident with hident | rfl
    · exact isPlain_of_isAlphanum hident
    · decide
  · decide
  · decide

theorem isPlain_of_mem_tail {tail : Text} {c : Char} (h : Release.Tail tail) (hc : c ∈ tail) :
    IsPlain c := by
  obtain ⟨patch, suffix, rfl, hpatch, hsuffix⟩ := h
  rcases List.mem_append.mp hc with hc | hc
  · rcases hpatch with rfl | ⟨n, hn, rfl⟩
    · cases hc
    · rcases List.mem_cons.mp hc with rfl | hc
      · decide
      · exact isPlain_of_isDigit (hn.isDigit c hc)
  · rcases hsuffix with rfl | ⟨letters, digits, rfl, -, -, hlower, hdigits⟩
    · cases hc
    · rcases List.mem_append.mp hc with hc | hc
      · exact isPlain_of_isLower (hlower c hc)
      · exact isPlain_of_isDigit (hdigits c hc)

theorem bare_of_languagePattern {s : Text} (h : Release.LanguagePattern s) : Bare s := by
  obtain ⟨major, minor, tail, rfl, hmajor, -, hminor, htail⟩ := h
  refine ⟨by simp, ?_⟩
  intro c hc
  rw [List.mem_append, List.mem_cons, List.mem_append] at hc
  rcases hc with hc | rfl | hc | hc
  · exact isPlain_of_isDigit (hmajor.isDigit c hc)
  · decide
  · exact isPlain_of_isDigit (hminor.isDigit c hc)
  · exact isPlain_of_mem_tail htail hc

end Word

namespace Directive

theorem moduleVersion_of_fits {v : Version} {path : Text} (h : v.Fits path) :
    moduleVersion path v.text = .ok v := by
  obtain ⟨front, suffix, hsplit, hagrees⟩ := h.agrees
  rw [moduleVersion, h.canonical.read, hsplit]
  dsimp only
  rw [Version.checkMajor_of_agrees hagrees]
  rfl

theorem mapM_moduleVersion_of_fits {version : Option Version} {path : Text}
    (h : ∀ v ∈ version, v.Fits path) :
    (version.map Version.text).mapM (moduleVersion path) = .ok version := by
  cases version with
  | none => rfl
  | some v =>
      rw [Option.map_some, Option.mapM_some, moduleVersion_of_fits (h v rfl)]
      rfl

theorem substitute_of_wellFormed {r : Replacement} (h : r.WellFormed) :
    substitute r.substitute.path (r.substitute.version?.map Version.text) = .ok r.substitute := by
  have hfits := h.substitute
  have hdirectory := h.directory
  cases hs : r.substitute with
  | directory path =>
      rw [hs] at hdirectory
      have hpath : isDirectory path = true := hdirectory.mp rfl
      simp [substitute, Substitute.path, Substitute.version?, hpath]
  | module path version =>
      rw [hs] at hfits hdirectory
      have hpath : isDirectory path = false := by
        simpa [Substitute.version?, Substitute.path] using hdirectory
      have hversion := moduleVersion_of_fits (hfits version rfl)
      simp only [Substitute.path] at hversion
      simp [substitute, Substitute.path, Substitute.version?, hpath, hversion]

theorem setting?_of_wellFormed {s : Setting} (h : s.WellFormed) :
    setting? (s.key ++ '=' :: s.value) = some s := by
  have hkey : ∀ c ∈ s.key, (c == '=') = false := by
    intro c hc
    rw [beq_eq_false_iff_ne]
    rintro rfl
    exact h.key_plain hc
  have hcut : Text.cutAt (· == '=') (s.key ++ '=' :: s.value) = (s.key, '=' :: s.value) :=
    Text.cutAt_append_of_head? hkey (by simp)
  have hplain : ¬ (s.key ++ '=' :: s.value).any ['"', '\x60', '\'', ','].contains := by
    rw [List.any_eq_true]
    rintro ⟨c, hc, hquote⟩
    rw [List.contains_iff_mem] at hquote
    rw [List.mem_append, List.mem_cons] at hc
    rcases hc with hc | rfl | hc
    · exact h.plain c (List.mem_append_left _ hc) (by simpa [or_left_comm] using hquote)
    · exact absurd hquote (by decide)
    · exact h.plain c (List.mem_append_right _ hc) (by simpa [or_left_comm] using hquote)
  rw [setting?, hcut]
  exact if_neg (not_or.mpr ⟨h.key_ne_nil, hplain⟩)

end Directive

/-- A well-formed manifest whose comments begin and end with what they say: a message of deprecation
is one line without blanks at its ends, and so is each line of a rationale. -/
structure Manifest.Writable (m : Manifest) : Prop extends m.WellFormed where
  deprecated : ∀ x ∈ m.module, ∀ s ∈ x.deprecated, Text.trim s = s ∧ '\n' ∉ s
  rationale : ∀ r ∈ m.retract, ∀ s ∈ r.rationale.splitOn '\n', Text.trim s = s

/-- One entry of a manifest. -/
inductive Manifest.Entry
  | module (x : ModuleDecl)
  | go (version : Text)
  | toolchain (name : Text)
  | require (r : Requirement)
  | exclude (x : Exclusion)
  | replace (r : Replacement)
  | retract (r : Retraction)
  | godebug (s : Setting)
  | tool (path : Text)
  | ignore (path : Text)
deriving DecidableEq, Repr

namespace Manifest.Entry

/-- The manifest with one entry and no other. -/
def manifest : Entry → Manifest
  | .module x => { module := some x }
  | .go version => { go := some version }
  | .toolchain name => { toolchain := some name }
  | .require r => { require := [r] }
  | .exclude x => { exclude := [x] }
  | .replace r => { replace := [r] }
  | .retract r => { retract := [r] }
  | .godebug s => { godebug := [s] }
  | .tool path => { tool := [path] }
  | .ignore path => { ignore := [path] }

/-- A path in quotes, and a version behind it, if there is one, without quotes. -/
def versioned (path : Text) (version : Option Version) : List Piece :=
  .space :: .quoted path :: version.toList.flatMap fun v => [.space, .bare v.text]

/-- How an entry is written. -/
def statement : Entry → Statement
  | .module x =>
      { verb := .module
        args := versioned x.path none
        behind := x.deprecated.map Comment.deprecating }
  | .go version => { verb := .go, args := [.space, .bare version] }
  | .toolchain name => { verb := .toolchain, args := versioned name none }
  | .require r =>
      { verb := .require
        args := versioned r.path (some r.version)
        behind := if r.indirect then some "indirect".toList else none }
  | .exclude x => { verb := .exclude, args := versioned x.path (some x.version) }
  | .replace r =>
      { verb := .replace
        args := versioned r.path r.version ++
          .space :: .arrow :: versioned r.substitute.path r.substitute.version? }
  | .retract r =>
      { above := if r.rationale = [] then [] else r.rationale.splitOn '\n'
        verb := .retract
        args := [.space, .openBracket, .bare r.low.text, .comma, .space, .bare r.high.text,
          .closeBracket] }
  | .godebug s => { verb := .godebug, args := versioned (s.key ++ '=' :: s.value) none }
  | .tool path => { verb := .tool, args := versioned path none }
  | .ignore path => { verb := .ignore, args := versioned path none }

variable {e : Entry}

theorem mem_versioned {path word : Text} {version : Option Version}
    (h : .bare word ∈ versioned path version) : ∃ v ∈ version, word = v.text := by
  cases version with
  | none => simp [versioned] at h
  | some v => simpa [versioned] using h

theorem apart_versioned (verb : Verb) (path : Text) {version : Option Version}
    (h : ∀ v ∈ version, v.Canonical) : Piece.Apart (.bare verb.text :: versioned path version) := by
  constructor
  · intro word hword
    rcases List.mem_cons.mp hword with heq | hword
    · cases heq
      exact Word.bare_verb verb
    · obtain ⟨v, hv, rfl⟩ := mem_versioned hword
      exact Word.bare_text (h v hv)
  · cases version with
    | none => simp [versioned, Piece.isBare]
    | some v => simp [versioned, Piece.isBare]

theorem apart_arrow (verb : Verb) (path path' : Text) {version version' : Option Version}
    (h : ∀ v ∈ version, v.Canonical) (h' : ∀ v ∈ version', v.Canonical) :
    Piece.Apart (.bare verb.text ::
      (versioned path version ++ .space :: .arrow :: versioned path' version')) := by
  constructor
  · intro word hword
    rw [← List.cons_append, List.mem_append] at hword
    rcases hword with hword | hword
    · exact (apart_versioned verb path h).bare word hword
    · have hword' : .bare word ∈ versioned path' version' := by simpa using hword
      exact (apart_versioned verb path' h').bare word (List.mem_cons_of_mem _ hword')
  · cases version <;> cases version' <;> simp [versioned, Piece.isBare]

theorem apart_interval (verb : Verb) {low high : Version} (hlow : low.Canonical)
    (hhigh : high.Canonical) :
    Piece.Apart [.bare verb.text, .space, .openBracket, .bare low.text, .comma, .space,
      .bare high.text, .closeBracket] := by
  constructor
  · intro word hword
    have hwords : word = verb.text ∨ word = low.text ∨ word = high.text := by
      simpa using hword
    rcases hwords with rfl | rfl | rfl
    · exact Word.bare_verb verb
    · exact Word.bare_text hlow
    · exact Word.bare_text hhigh
  · simp [Piece.isBare]

/-- One case for each entry: comments end with their lines, and no two bare words touch. -/
theorem plain_statement (h : e.manifest.Writable) : e.statement.Plain := by
  have hplain : ∀ {verb : Verb} {path : Text} {version : Option Version} {behind : Option Text},
      (∀ v ∈ version, v.Canonical) → (∀ s ∈ behind, '\n' ∉ s) →
        Statement.Plain { verb, args := versioned path version, behind } := by
    intro verb path version behind hversion hbehind
    exact ⟨by simp, hbehind, apart_versioned verb path hversion⟩
  cases e with
  | module x =>
      refine hplain (by simp) ?_
      intro s hs
      obtain ⟨message, hmessage, rfl⟩ := Option.map_eq_some_iff.mp hs
      intro hmem
      rcases List.mem_append.mp hmem with hmem | hmem
      · exact absurd hmem (by decide)
      · exact (h.deprecated x rfl message hmessage).2 hmem
  | go version =>
      have hversion := Word.bare_of_languagePattern (h.go version rfl)
      refine ⟨by simp [statement], by simp [statement], ?_, ?_⟩
      · intro word hword
        have hwords : word = Verb.go.text ∨ word = version := by simpa [statement] using hword
        rcases hwords with rfl | rfl
        · exact Word.bare_verb .go
        · exact hversion
      · simp [statement, Piece.isBare]
  | toolchain name => exact hplain (by simp) (by simp)
  | require r =>
      have hr := h.require r List.mem_cons_self
      refine hplain (by simpa using hr.canonical) ?_
      intro s hs
      split at hs
      · cases hs
        decide
      · cases hs
  | exclude x =>
      have hx := h.exclude x List.mem_cons_self
      exact hplain (by simpa using hx.canonical) (by simp)
  | replace r =>
      have hr := h.replace r List.mem_cons_self
      refine ⟨by simp [statement], by simp [statement], ?_⟩
      exact apart_arrow .replace r.path r.substitute.path
        (fun v hv => (hr.version v hv).canonical) fun v hv => (hr.substitute v hv).canonical
  | retract r =>
      have hr := h.retract r List.mem_cons_self
      refine ⟨?_, by simp [statement], apart_interval .retract hr.1 hr.2⟩
      intro s hs hnewline
      rw [statement] at hs
      dsimp only at hs
      split at hs
      · cases hs
      · exact (Text.mem_and_ne_of_mem_splitOn hs hnewline).2 rfl
  | godebug s => exact hplain (by simp) (by simp)
  | tool path => exact hplain (by simp) (by simp)
  | ignore path => exact hplain (by simp) (by simp)

section Declares

variable {path path' : Text} {version version' : Option Version} {number : Nat}

/-- The tokens of a path and perhaps a version. -/
theorem tokens_versioned (path : Text) (version : Option Version) (number : Nat) :
    (versioned path version).filterMap (Piece.token? number) =
      ⟨.quoted, Word.quote path, number⟩ ::
        version.toList.map fun v => ⟨.bare, v.text, number⟩ := by
  cases version with
  | none => rfl
  | some v => rfl

theorem ofTokens_versioned (path : Text) (version : Option Version) (number : Nat) :
    Word.ofTokens ((versioned path version).filterMap (Piece.token? number)) =
      .ok (path :: (version.map Version.text).toList) := by
  rw [tokens_versioned, Word.ofTokens, List.mapM_cons, Word.ofToken_quote]
  cases version with
  | none => rfl
  | some v => rfl

theorem length_tokens_versioned (path : Text) (version : Option Version) (number : Nat) :
    ((versioned path version).filterMap (Piece.token? number)).length ∈ [1, 2] := by
  cases version with
  | none => exact List.mem_cons_self
  | some v => exact List.mem_cons_of_mem 1 List.mem_cons_self

theorem kind_tokens_versioned (path : Text) (version : Option Version) (number : Nat) :
    ∀ token ∈ (versioned path version).filterMap (Piece.token? number),
      decide (token.kind ≠ .arrow) := by
  rw [tokens_versioned]
  cases version with
  | none => simp
  | some v => simp

theorem replacement_statement {r : Replacement} (h : r.WellFormed) (number : Nat) :
    Directive.replacement ((Entry.replace r).statement.directive number).args = .ok r := by
  have hargs : ((Entry.replace r).statement.directive number).args =
      (versioned r.path r.version).filterMap (Piece.token? number) ++
        ⟨.arrow, Piece.arrow.text, number⟩ ::
          (versioned r.substitute.path r.substitute.version?).filterMap (Piece.token? number) :=
    List.filterMap_append
  have hkind := kind_tokens_versioned r.path r.version number
  have hold := length_tokens_versioned r.path r.version number
  have hnew := length_tokens_versioned r.substitute.path r.substitute.version? number
  have hwords := ofTokens_versioned r.path r.version number
  have hwords' := ofTokens_versioned r.substitute.path r.substitute.version? number
  rw [hargs]
  generalize (versioned r.path r.version).filterMap (Piece.token? number) = old at *
  generalize (versioned r.substitute.path r.substitute.version?).filterMap
    (Piece.token? number) = new at *
  have hsplit : (ModulePath.splitMajor? r.path).isNone = false := by
    rw [← Option.not_isSome, h.splits]
    rfl
  unfold Directive.replacement
  dsimp only
  rw [Directive.takeWhile_arrow hkind rfl, Directive.tail_dropWhile_arrow hkind rfl,
    if_neg (by simp [hold, hnew]), hwords, ok_bind, hwords']
  simp only [ok_bind, Directive.pathAndVersion?_cons, hsplit,
    Directive.mapM_moduleVersion_of_fits h.version, Directive.substitute_of_wellFormed h]
  rfl

theorem bounds_statement {r : Retraction} (hlow : r.low.Canonical) (hhigh : r.high.Canonical)
    (number : Nat) :
    Directive.bounds ((Entry.retract r).statement.directive number).args = .ok (r.low, r.high) := by
  have hbound : ∀ {v : Version}, v.Canonical →
      Directive.bound ⟨.bare, v.text, number⟩ = .ok v := by
    intro v hv
    rw [Directive.bound, Word.ofToken]
    dsimp only
    rw [ok_bind, hv.read]
    rfl
  have hargs : ((Entry.retract r).statement.directive number).args =
      [⟨.openBracket, Piece.openBracket.text, number⟩, ⟨.bare, r.low.text, number⟩,
        ⟨.comma, Piece.comma.text, number⟩, ⟨.bare, r.high.text, number⟩,
        ⟨.closeBracket, Piece.closeBracket.text, number⟩] := rfl
  rw [hargs, Directive.bounds, if_pos ⟨rfl, rfl, rfl, rfl, rfl⟩, hbound hlow, hbound hhigh]
  rfl

theorem deprecation_statement {x : ModuleDecl} (h : ∀ s ∈ x.deprecated, Text.trim s = s)
    (number : Nat) :
    Comment.deprecation ((Entry.module x).statement.directive number).line.comments =
      x.deprecated := by
  obtain ⟨path, deprecated⟩ := x
  cases deprecated with
  | none => rfl
  | some s => exact Comment.deprecation_written (h s rfl)

theorem indirect_statement (r : Requirement) (number : Nat) :
    ((Entry.require r).statement.directive number).line.suffix.any Comment.isIndirect =
      r.indirect := by
  obtain ⟨path, version, indirect⟩ := r
  cases indirect with
  | false => rfl
  | true => exact Comment.isIndirect_written

theorem rationale_statement {r : Retraction}
    (h : ∀ s ∈ r.rationale.splitOn '\n', Text.trim s = s) (number : Nat) :
    Comment.rationale ((Entry.retract r).statement.directive number).line.comments =
      r.rationale := by
  have hcomments : ((Entry.retract r).statement.directive number).line.comments =
      (Entry.retract r).statement.above.map Comment.written := List.append_nil _
  rw [hcomments, statement]
  dsimp only
  split
  · next hnil =>
      rw [hnil]
      rfl
  · rw [Comment.rationale_written h, Text.lines, List.intercalate_splitOn]

/-- A statement declares the entry that it was written for. -/
theorem declares_statement (h : e.manifest.Writable) (number : Nat) :
    (e.statement.directive number).Declares e.manifest := by
  cases e with
  | module x =>
      have hwords := ofTokens_versioned x.path none number
      have hdeprecated := deprecation_statement (fun s hs => (h.deprecated x rfl s hs).1) number
      have hdeclares : ((Entry.module x).statement.directive number).Declares _ :=
        .module rfl hwords
      rwa [hdeprecated] at hdeclares
  | go version => exact .go rfl rfl (Release.isLanguage_iff.mpr (h.go version rfl))
  | toolchain name =>
      have hwords := ofTokens_versioned name none number
      exact .toolchain rfl hwords (Release.isToolchain_iff.mpr (h.toolchain name rfl))
  | require r =>
      have hwords := ofTokens_versioned r.path (some r.version) number
      have hversion := Directive.moduleVersion_of_fits (h.require r List.mem_cons_self)
      have hdeclares : ((Entry.require r).statement.directive number).Declares _ :=
        .require rfl hwords hversion
      rwa [indirect_statement] at hdeclares
  | exclude x =>
      have hwords := ofTokens_versioned x.path (some x.version) number
      have hversion := Directive.moduleVersion_of_fits (h.exclude x List.mem_cons_self)
      exact .exclude rfl hwords hversion
  | replace r =>
      exact .replace rfl (replacement_statement (h.replace r List.mem_cons_self) number)
  | retract r =>
      obtain ⟨hlow, hhigh⟩ := h.retract r List.mem_cons_self
      have hrationale := rationale_statement (h.rationale r List.mem_cons_self) number
      have hdeclares : ((Entry.retract r).statement.directive number).Declares _ :=
        .retract rfl (bounds_statement hlow hhigh number)
      rwa [hrationale] at hdeclares
  | godebug s =>
      have hwords := ofTokens_versioned (s.key ++ '=' :: s.value) none number
      exact .godebug rfl hwords
        (Directive.setting?_of_wellFormed (h.godebug s List.mem_cons_self))
  | tool path => exact .tool rfl (ofTokens_versioned path none number)
  | ignore path => exact .ignore rfl (ofTokens_versioned path none number)

end Declares

end Manifest.Entry

end GoModules
