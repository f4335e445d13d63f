import GoModules.Proofs.Manifest.Arguments
import GoModules.Proofs.Manifest.RequiredPath
import GoModules.Proofs.Offset.Version
import GoModules.Proofs.Text.Ascii

/-!
# Arguments by offsets

Where arguments are read, quotes are cut off at both ends of a token, and arguments and words are
taken by their index. The tokens of a text are spelled so, and the numbers of arguments have been
checked, that all of this is in bounds.
-/

namespace GoModules.Offset

open Manifest (Fault)
open Text (byteLength)
open Utf8 (encode)
open Outcome

/-- Changes the faults of a computation. -/
def mapFault {ε ε' α : Type} (f : ε → ε') (x : Checked ε α) : Checked ε' α :=
  ExceptT.adapt f x

@[simp] theorem mapFault_inBounds {ε ε' α : Type} (f : ε → ε') (x : Except ε α) :
    mapFault f (inBounds x) = inBounds (x.mapError f) := by
  cases x with
  | error e => rfl
  | ok a => rfl

/-- The word that a token spells. -/
def word? (token : Token) : Checked Fault Text := do
  match token.kind with
  | .bare => return token.text
  | .raw => between? 1 (← minus? (byteLength token.text) 1) token.text
  | .quoted =>
      match Word.unquote? (Word.inside token.text) with
      | some word => return word
      | none => throw (.invalidQuoted token.text)
  | kind => throw (.unexpectedToken kind)

def words? (tokens : List Token) : Checked Fault (List Text) :=
  tokens.mapM word?

def moduleVersion? (path version : Text) : Checked Fault Version := do
  match ← readVersion? version with
  | none => throw (.invalidVersion path version .malformed)
  | some v =>
      match ← splitMajor? path with
      | none => throw (.invalidModulePath path)
      | some (_, suffix) =>
          mapFault (.invalidVersion path version) (checkMajor? v suffix)
          return v

/-- Whether a path begins with a drive: a letter before a colon. -/
def hasDrive? (path : Text) : Option Bool := do
  if (encode path).length < 2 then return false
  else
    if ascii Char.isAlpha (← (encode path)[0]?) then return ascii (· == ':') (← (encode path)[1]?)
    else return false

/-- Whether the target of a replacement is a directory. -/
def isDirectory? (target : Text) : Option Bool :=
  if target == ['.'] || target == ['.', '.'] ||
      ["./", ".\\", "../", "..\\", "/", "\\"].any (·.toList.isPrefixOf target) then some true
  else hasDrive? target

def substitute? (path : Text) (version : Option Text) : Checked Fault Substitute := do
  match version with
  | none =>
      if ← isDirectory? path then return .directory path
      else throw (.invalidSubstitute (if '@' ∈ path then .gluedVersion else .missingVersion))
  | some version =>
      if ← isDirectory? path then throw (.invalidSubstitute (.directoryVersion path))
      else return .module path (← moduleVersion? path version)

/-- The replacement that the words on both sides of an arrow say. -/
def replace? (old new : List Text) : Checked Fault Replacement := do
  let path ← (old[0]? : Option Text)
  if (← splitMajor? path).isNone then throw (.invalidModulePath path)
  else
    let version ← old[1]?.mapM (moduleVersion? path)
    let newPath ← (new[0]? : Option Text)
    return ⟨path, version, ← substitute? newPath new[1]?⟩

/-- Reads the arguments of a replacement, which stand on both sides of the first arrow. -/
def replacement? (args : List Token) : Checked Fault Replacement := do
  match args.findIdx? (·.kind = .arrow) with
  | none => throw (.usage .replace)
  | some i =>
      if i ∉ [1, 2] then throw (.usage .replace)
      else
        if (← minus? (← minus? args.length i) 1) ∉ [1, 2] then throw (.usage .replace)
        else
          let old ← before? i args
          let new ← behind? (i + 1) args
          replace? (← words? old) (← words? new)

def bound? (token : Token) : Checked Fault Version := do
  let word ← word? token
  match ← readVersion? word with
  | some v => return v
  | none => throw (.invalidVersion Verb.retract.text word .malformed)

/-- Reads the arguments of a retraction, of which the kinds tell how many there are. -/
def bounds? (args : List Token) : Checked Fault (Version × Version) := do
  match args.map Token.kind with
  | [kind] =>
      if kind.isWord then
        let v ← bound? (← (args[0]? : Option Token))
        return (v, v)
      else throw (.usage .retract)
  | [opening, low, separator, high, closing] =>
      if opening = .openBracket ∧ low.isWord ∧ separator = .comma ∧ high.isWord ∧
          closing = .closeBracket then
        return (← bound? (← (args[1]? : Option Token)), ← bound? (← (args[3]? : Option Token)))
      else throw (.usage .retract)
  | _ => throw (.usage .retract)

variable {token : Token} {args : List Token}

theorem word?_eq (h : token.Spelled) : word? token = inBounds (Word.ofToken token) := by
  unfold Token.Spelled at h
  unfold word? Word.ofToken
  cases hkind : token.kind with
  | raw =>
      rw [hkind] at h
      obtain ⟨inside, htext⟩ := h
      have hlength : byteLength token.text = byteLength ['\x60'] + byteLength inside + 1 := by
        rw [htext, Text.byteLength_cons, Text.byteLength_append, ← Nat.add_assoc]
        rfl
      have hbetween := between?_append ['\x60'] inside ['\x60']
      dsimp only
      rw [hlength, minus?_of_le (Nat.le_add_left 1 _), Nat.add_sub_cancel, lift_some_bind, htext,
        Word.inside_cons_append]
      exact congrArg (liftM (n := Checked Fault)) hbetween
  | quoted =>
      dsimp only
      cases Word.unquote? (Word.inside token.text) with
      | none => rfl
      | some word => rfl
  | _ => rfl

theorem words?_eq (h : ∀ token ∈ args, token.Spelled) :
    words? args = inBounds (Word.ofTokens args) :=
  mapM_inBounds fun token htoken => word?_eq (h token htoken)

theorem moduleVersion?_eq (path version : Text) :
    moduleVersion? path version = inBounds (Directive.moduleVersion path version) := by
  rw [moduleVersion?, Directive.moduleVersion, readVersion?_eq, splitMajor?_eq]
  cases hv : Version.read? version with
  | none => rfl
  | some v =>
      cases hsplit : ModulePath.splitMajor? path with
      | none => rfl
      | some split =>
          obtain ⟨front, suffix⟩ := split
          have hcheck := checkMajor?_eq (Version.valid_of_read? hv) hsplit
          simp only [lift_some_bind, hcheck, mapFault_inBounds, pure_eq_inBounds, inBounds_bind]
          rfl

theorem mapM_moduleVersion?_eq (path : Text) (version : Option Text) :
    version.mapM (moduleVersion? path) =
      inBounds (version.mapM (Directive.moduleVersion path)) := by
  cases version with
  | none => rfl
  | some v =>
      rw [Option.mapM_some, Option.mapM_some, moduleVersion?_eq]
      cases Directive.moduleVersion path v with
      | error e => rfl
      | ok version => rfl

theorem toNat_lt_of_isAlpha (c : Char) (hc : c.isAlpha) : c.toNat < 128 := by
  apply Text.toNat_lt_of_isAlphanum
  rw [Char.isAlphanum, hc, Bool.true_or]

theorem hasDrive?_singleton (c : Char) : hasDrive? [c] = some false := by
  obtain ⟨b, bytes, hbytes, hb⟩ := exists_encode_cons c []
  by_cases halpha : c.isAlpha
  · have hshort : (encode [c]).length < 2 := by
      rw [encode_cons_of_ascii (toNat_lt_of_isAlpha c halpha)]
      exact Nat.lt_succ_self 1
    rw [hasDrive?, if_pos hshort]
    rfl
  · have hletter := ascii_of_mem toNat_lt_of_isAlpha hb
    rw [hasDrive?, hbytes]
    split
    · rfl
    · rw [List.getElem?_cons_zero]
      dsimp only [Option.bind_eq_bind, Option.bind_some]
      rw [hletter, if_neg halpha]
      rfl

/-- A drive is a letter of ASCII, so the byte behind it begins the next character. -/
theorem hasDrive?_cons_cons (c d : Char) (s : Text) :
    hasDrive? (c :: d :: s) = some (c.isAlpha && d == ':') := by
  obtain ⟨b, bytes, hbytes, hb⟩ := exists_encode_cons c (d :: s)
  have hletter := ascii_of_mem toNat_lt_of_isAlpha hb
  have hlong : ¬ (encode (c :: d :: s)).length < 2 := by
    have hc := c.utf8Size_pos
    have hd := d.utf8Size_pos
    rw [length_encode, Text.byteLength_cons, Text.byteLength_cons]
    omega
  rw [hasDrive?, if_neg hlong, hbytes, List.getElem?_cons_zero]
  dsimp only [Option.bind_eq_bind, Option.bind_some]
  rw [hletter]
  by_cases halpha : c.isAlpha
  · obtain ⟨b', bytes', hbytes', hb'⟩ := exists_encode_cons d s
    have hcolon := ascii_of_mem (toNat_lt_of_beq (x := ':') (by decide)) hb'
    rw [encode_cons_of_ascii (toNat_lt_of_isAlpha c halpha), hbytes'] at hbytes
    rw [List.cons.injEq] at hbytes
    rw [if_pos halpha, ← hbytes.2, List.getElem?_cons_succ, List.getElem?_cons_zero]
    dsimp only [Option.bind_eq_bind, Option.bind_some]
    rw [hcolon, halpha, Bool.true_and]
    rfl
  · rw [if_neg halpha, Bool.eq_false_iff.mpr halpha, Bool.false_and]
    rfl

theorem hasDrive?_eq (path : Text) :
    hasDrive? path = some (match path with
      | drive :: ':' :: _ => drive.isAlpha
      | _ => false) := by
  rcases path with _ | ⟨c, _ | ⟨d, s⟩⟩
  · rfl
  · exact hasDrive?_singleton c
  · rw [hasDrive?_cons_cons]
    split
    · next heq =>
        cases heq
        rw [beq_self_eq_true, Bool.and_true]
    · next hne =>
        have hd : d ≠ ':' := by
          rintro rfl
          exact hne c s rfl
        rw [beq_eq_false_iff_ne.mpr hd, Bool.and_false]

theorem isDirectory?_eq (target : Text) :
    isDirectory? target = some (ModulePath.isDirectory target) := by
  unfold isDirectory? ModulePath.isDirectory
  rw [hasDrive?_eq]
  generalize (target == ['.'] || target == ['.', '.'] ||
    ["./", ".\\", "../", "..\\", "/", "\\"].any (·.toList.isPrefixOf target)) = rooted
  cases rooted with
  | true => rfl
  | false => rfl

theorem substitute?_eq (path : Text) (version : Option Text) :
    substitute? path version = inBounds (Directive.substitute path version) := by
  unfold substitute? Directive.substitute
  rw [isDirectory?_eq]
  cases version with
  | none =>
      cases ModulePath.isDirectory path with
      | true => rfl
      | false => rfl
  | some version =>
      dsimp only
      rw [moduleVersion?_eq]
      cases ModulePath.isDirectory path with
      | true => rfl
      | false => exact inBounds_bind _ _

theorem replace?_eq (path newPath : Text) (version newVersion : Option Text) :
    replace? (path :: version.toList) (newPath :: newVersion.toList) =
      inBounds do
        if (ModulePath.splitMajor? path).isNone then
          throw (.invalidModulePath path)
        let version ← version.mapM (Directive.moduleVersion path)
        return ⟨path, version, ← Directive.substitute newPath newVersion⟩ := by
  have hversion : ∀ version : Option Text, version.toList[0]? = version := by
    intro version
    rw [← List.head?_eq_getElem?, Option.head?_toList]
  simp only [replace?, List.getElem?_cons_zero, List.getElem?_cons_succ, lift_some_bind, hversion,
    splitMajor?_eq, mapM_moduleVersion?_eq, substitute?_eq]
  by_cases hpath : (ModulePath.splitMajor? path).isNone
  · rw [if_pos hpath, if_pos hpath]
    rfl
  · rw [if_neg hpath, if_neg hpath]
    simp only [pure_eq_inBounds, inBounds_bind, pure_eq_ok]

theorem bound?_eq (h : token.Spelled) : bound? token = inBounds (Directive.bound token) := by
  rw [bound?, Directive.bound, word?_eq h]
  apply bind_inBounds
  intro word
  rw [readVersion?_eq]
  cases Version.read? word with
  | none => rfl
  | some v => rfl

theorem bounds?_eq (h : ∀ token ∈ args, token.Spelled) :
    bounds? args = inBounds (Directive.bounds args) := by
  -- Only one or five arguments are looked at.
  rcases args with _ | ⟨a, _ | ⟨b, _ | ⟨c, _ | ⟨d, _ | ⟨e, _ | ⟨f, rest⟩⟩⟩⟩⟩⟩
  case cons.nil =>
    have ha := bound?_eq (h a List.mem_cons_self)
    simp only [bounds?, Directive.bounds, List.map_cons, List.map_nil, List.getElem?_cons_zero,
      lift_some_bind, ha]
    by_cases hword : a.kind.isWord
    · rw [if_pos hword, if_pos hword]
      exact inBounds_bind _ _
    · rw [if_neg hword, if_neg hword]
      rfl
  case cons.cons.cons.cons.cons.nil =>
    have hb := bound?_eq (h b (by simp))
    have hd := bound?_eq (h d (by simp))
    simp only [bounds?, Directive.bounds, List.map_cons, List.map_nil, List.getElem?_cons_succ,
      List.getElem?_cons_zero, lift_some_bind, hb, hd]
    by_cases hmarks : a.kind = .openBracket ∧ b.kind.isWord ∧ c.kind = .comma ∧ d.kind.isWord ∧
        e.kind = .closeBracket
    · rw [if_pos hmarks, if_pos hmarks]
      simp only [pure_eq_inBounds, inBounds_bind, pure_eq_ok]
    · rw [if_neg hmarks, if_neg hmarks]
      rfl
  all_goals rfl

theorem exists_eq_cons_of_length {words : List Text} (h : words.length ∈ [1, 2]) :
    ∃ (path : Text) (version : Option Text), words = path :: version.toList := by
  rcases words with _ | ⟨path, _ | ⟨version, _ | ⟨word, words⟩⟩⟩
  · simp at h
  · exact ⟨path, none, rfl⟩
  · exact ⟨path, some version, rfl⟩
  · simp at h

theorem length_of_ofTokens {words : List Text} (h : Word.ofTokens args = .ok words) :
    words.length = args.length := by
  induction args generalizing words with
  | nil =>
      cases h
      rfl
  | cons t args ih =>
      rw [Word.ofTokens, List.mapM_cons] at h
      simp only [bind_eq_ok_iff, pure_eq_ok, Except.ok.injEq] at h
      obtain ⟨word, -, rest, hrest, rfl⟩ := h
      exact congrArg (· + 1) (ih hrest)

theorem findIdx?_of_forall_ne (h : ∀ t ∈ args, t.kind ≠ .arrow) :
    args.findIdx? (·.kind = .arrow) = none := by
  rw [List.findIdx?_eq_none_iff]
  exact fun t ht => decide_eq_false (h t ht)

theorem findIdx?_arrow {old new : List Token} {arrow : Token}
    (hold : ∀ t ∈ old, decide (t.kind ≠ .arrow)) (harrow : arrow.kind = .arrow) :
    (old ++ arrow :: new).findIdx? (·.kind = .arrow) = some old.length := by
  have hnone := findIdx?_of_forall_ne fun t ht => of_decide_eq_true (hold t ht)
  rw [List.findIdx?_append, hnone, List.findIdx?_cons]
  simp [harrow]

/-- The first arrow, if there is one, parts what stands before it from what stands behind it. -/
theorem exists_sides_or (args : List Token) :
    (∀ t ∈ args, t.kind ≠ .arrow) ∨ ∃ old arrow new, args = old ++ arrow :: new ∧
      (∀ t ∈ old, decide (t.kind ≠ .arrow)) ∧ arrow.kind = .arrow := by
  induction args with
  | nil => exact .inl (by simp)
  | cons t args ih =>
      by_cases ht : t.kind = .arrow
      · exact .inr ⟨[], t, args, rfl, by simp, ht⟩
      · rcases ih with hnone | ⟨old, arrow, new, rfl, hold, harrow⟩
        · exact .inl (List.forall_mem_cons.mpr ⟨ht, hnone⟩)
        · refine .inr ⟨t :: old, arrow, new, rfl, ?_, harrow⟩
          exact List.forall_mem_cons.mpr ⟨decide_eq_true ht, hold⟩

theorem replacement?_of_forall_ne (h : ∀ t ∈ args, t.kind ≠ .arrow) :
    replacement? args = inBounds (Directive.replacement args) := by
  have hdrop : args.dropWhile (·.kind ≠ .arrow) = [] := by
    rw [List.dropWhile_eq_nil_iff]
    exact fun t ht => decide_eq_true (h t ht)
  unfold Directive.replacement
  dsimp only
  rw [replacement?, findIdx?_of_forall_ne h, hdrop, if_pos (.inr (by simp))]
  rfl

/-- Where there is an arrow, the sides that it has are in bounds. -/
theorem replacement?_append {old new : List Token} {arrow : Token}
    (hold : ∀ t ∈ old, decide (t.kind ≠ .arrow)) (harrow : arrow.kind = .arrow) :
    replacement? (old ++ arrow :: new) =
      if old.length ∉ [1, 2] ∨ new.length ∉ [1, 2] then throw (.usage .replace)
      else words? old >>= fun left => words? new >>= fun right => replace? left right := by
  have hminus : minus? (old ++ arrow :: new).length old.length = some (new.length + 1) := by
    rw [List.length_append, minus?_of_le (Nat.le_add_right _ _), Nat.add_sub_cancel_left,
      List.length_cons]
  have hminus' : minus? (new.length + 1) 1 = some new.length := by
    rw [minus?_of_le (Nat.le_add_left 1 _), Nat.add_sub_cancel]
  have hbehind : behind? (old.length + 1) (old ++ arrow :: new) = some new := by
    have happend := behind?_append (old ++ [arrow]) new
    rwa [List.length_append, List.length_singleton, List.append_assoc, List.singleton_append]
      at happend
  rw [replacement?, findIdx?_arrow hold harrow]
  dsimp only
  by_cases holdlength : old.length ∉ [1, 2]
  · rw [if_pos holdlength, if_pos (.inl holdlength)]
  · rw [if_neg holdlength, hminus, lift_some_bind, hminus', lift_some_bind]
    by_cases hnewlength : new.length ∉ [1, 2]
    · rw [if_pos hnewlength, if_pos (.inr hnewlength)]
    · rw [if_neg hnewlength, if_neg (not_or.mpr ⟨holdlength, hnewlength⟩), before?_append,
        lift_some_bind, hbehind, lift_some_bind]

theorem replacement?_append_eq {old new : List Token} {arrow : Token}
    (hold : ∀ t ∈ old, decide (t.kind ≠ .arrow)) (harrow : arrow.kind = .arrow)
    (h : ∀ token ∈ old ++ arrow :: new, token.Spelled) :
    replacement? (old ++ arrow :: new) =
      inBounds (Directive.replacement (old ++ arrow :: new)) := by
  have hwords : words? old = inBounds (Word.ofTokens old) :=
    words?_eq fun t ht => h t (List.mem_append_left _ ht)
  have hwords' : words? new = inBounds (Word.ofTokens new) :=
    words?_eq fun t ht => h t (List.mem_append_right _ (List.mem_cons_of_mem _ ht))
  unfold Directive.replacement
  dsimp only
  rw [Directive.takeWhile_arrow hold harrow, Directive.tail_dropWhile_arrow hold harrow,
    replacement?_append hold harrow, hwords, hwords']
  by_cases hlengths : old.length ∉ [1, 2] ∨ new.length ∉ [1, 2]
  · rw [if_pos hlengths, if_pos hlengths]
    rfl
  · rw [if_neg hlengths, if_neg hlengths]
    rw [not_or, not_not, not_not] at hlengths
    cases hleft : Word.ofTokens old with
    | error e => rfl
    | ok left =>
        cases hright : Word.ofTokens new with
        | error e => rfl
        | ok right =>
            rw [← length_of_ofTokens hleft, ← length_of_ofTokens hright] at hlengths
            obtain ⟨path, version, rfl⟩ := exists_eq_cons_of_length hlengths.1
            obtain ⟨newPath, newVersion, rfl⟩ := exists_eq_cons_of_length hlengths.2
            rw [inBounds_ok_bind, inBounds_ok_bind, replace?_eq]
            dsimp only [ok_bind]
            rw [Directive.pathAndVersion?_cons, Directive.pathAndVersion?_cons]

theorem replacement?_eq (h : ∀ token ∈ args, token.Spelled) :
    replacement? args = inBounds (Directive.replacement args) := by
  rcases exists_sides_or args with hnone | ⟨old, arrow, new, rfl, hold, harrow⟩
  · exact replacement?_of_forall_ne hnone
  · exact replacement?_append_eq hold harrow h

end GoModules.Offset
