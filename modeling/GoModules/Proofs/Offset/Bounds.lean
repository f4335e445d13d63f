import GoModules.Proofs.Outcome
import GoModules.Text.Utf8

/-!
# Offsets and their bounds

A text can be read by offsets into its bytes. Such a computation breaks off where an offset is past
the end or inside a character, an index is past the end of a list, or a difference is below zero.
The offsets that a text can be split at are the lengths of its beginnings.
-/

namespace GoModules.Offset

open Text (byteLength)
open Outcome

variable {ε α β : Type}

/-- A computation that breaks off, without an outcome, at the first bound that does not hold. -/
abbrev Checked (ε α : Type) :=
  ExceptT ε Option α

/-- An outcome on the way to which all bounds hold. -/
def inBounds (x : Except ε α) : Checked ε α :=
  ExceptT.mk (some x)

def outOfBounds : Checked ε α :=
  ExceptT.mk none

@[simp] theorem pure_eq_inBounds (a : α) : (pure a : Checked ε α) = inBounds (.ok a) := rfl

@[simp] theorem throw_eq_inBounds (e : ε) : (throw e : Checked ε α) = inBounds (.error e) := rfl

@[simp] theorem lift_some (a : α) : (liftM (some a) : Checked ε α) = inBounds (.ok a) := rfl

theorem bind_inBounds {f : α → Checked ε β} {g : α → Except ε β}
    (h : ∀ a, f a = inBounds (g a)) (x : Except ε α) : (inBounds x >>= f) = inBounds (x >>= g) := by
  cases x with
  | error e => rfl
  | ok a => exact h a

@[simp] theorem inBounds_bind (x : Except ε α) (f : α → Except ε β) :
    (inBounds x >>= fun a => inBounds (f a)) = inBounds (x >>= f) :=
  bind_inBounds (fun _ => rfl) x

theorem lift_some_bind (a : α) (f : α → Checked ε β) : (liftM (some a) >>= f) = f a := rfl

theorem inBounds_ok_bind (a : α) (f : α → Checked ε β) : (inBounds (.ok a) >>= f) = f a := rfl

theorem inBounds_error_bind (e : ε) (f : α → Checked ε β) :
    (inBounds (.error e) >>= f) = inBounds (.error e) := rfl

@[simp] theorem ite_inBounds (p : Prop) [Decidable p] (x y : Except ε α) :
    (if p then inBounds x else inBounds y) = inBounds (if p then x else y) := by
  by_cases hp : p
  · rw [if_pos hp, if_pos hp]
  · rw [if_neg hp, if_neg hp]

theorem mapM_inBounds {f : α → Checked ε β} {g : α → Except ε β} {as : List α}
    (h : ∀ a ∈ as, f a = inBounds (g a)) : as.mapM f = inBounds (as.mapM g) := by
  induction as with
  | nil => rfl
  | cons a as ih =>
      rw [List.forall_mem_cons] at h
      simp only [List.mapM_cons, h.1, ih h.2, pure_eq_inBounds, inBounds_bind, pure_eq_ok]

/-- The difference of two numbers that is not below zero. -/
def minus? (a b : Nat) : Option Nat :=
  if b ≤ a then some (a - b) else none

theorem minus?_of_le {a b : Nat} (h : b ≤ a) : minus? a b = some (a - b) :=
  if_pos h

/-- What stands before an index of a list. -/
def before? (n : Nat) (as : List α) : Option (List α) :=
  if n ≤ as.length then some (as.take n) else none

/-- What stands in a list from an index on. -/
def behind? (n : Nat) (as : List α) : Option (List α) :=
  if n ≤ as.length then some (as.drop n) else none

theorem before?_append (as bs : List α) : before? as.length (as ++ bs) = some as := by
  rw [before?, if_pos (by simp), List.take_left]

theorem behind?_append (as bs : List α) : behind? as.length (as ++ bs) = some bs := by
  rw [behind?, if_pos (by simp), List.drop_left]

/-- Splits a text at an offset. -/
def splitAt? (n : Nat) : Text → Option (Text × Text)
  | [] => if n = 0 then some ([], []) else none
  | c :: s =>
      if n = 0 then some ([], c :: s)
      else if c.utf8Size ≤ n then
        (splitAt? (n - c.utf8Size) s).map fun (before, behind) => (c :: before, behind)
      else none

/-- A text up to an offset. -/
def upTo? (n : Nat) (s : Text) : Option Text :=
  (splitAt? n s).map Prod.fst

/-- A text from an offset on. -/
def from? (n : Nat) (s : Text) : Option Text :=
  (splitAt? n s).map Prod.snd

def between? (start stop : Nat) (s : Text) : Option Text :=
  if start ≤ stop then upTo? stop s >>= from? start else none

/-- The offset of the first place of a text from which on it has a property. -/
def find? (p : Text → Bool) : Text → Option Nat
  | [] => none
  | c :: s => if p (c :: s) then some 0 else (find? p s).map (· + c.utf8Size)

/-- The number of the bytes of a text. -/
theorem length_encode (s : Text) : (Utf8.encode s).length = byteLength s := by
  induction s with
  | nil => rfl
  | cons c s ih =>
      rw [Utf8.encode, List.flatMap_cons, List.length_append, String.length_utf8EncodeChar,
        Text.byteLength_cons]
      exact congrArg (c.utf8Size + ·) ih

/-- Offsets reach the places between the characters of a text, and no others. -/
theorem splitAt?_eq_some_iff {n : Nat} {s before behind : Text} :
    splitAt? n s = some (before, behind) ↔ s = before ++ behind ∧ n = byteLength before := by
  constructor
  · intro h
    induction s generalizing n before with
    | nil =>
        rw [splitAt?] at h
        split at h
        · next hn =>
            cases h
            exact ⟨rfl, hn⟩
        · cases h
    | cons c s ih =>
        rw [splitAt?] at h
        split at h
        · next hn =>
            cases h
            exact ⟨rfl, hn⟩
        · split at h
          · next hsize =>
              obtain ⟨⟨rest, behind⟩, hrest, heq⟩ := Option.map_eq_some_iff.mp h
              cases heq
              obtain ⟨rfl, hn⟩ := ih hrest
              refine ⟨rfl, ?_⟩
              rw [Text.byteLength_cons, ← hn]
              omega
          · cases h
  · rintro ⟨rfl, rfl⟩
    induction before with
    | nil => cases behind <;> simp [splitAt?]
    | cons c before ih =>
        have hsize := c.utf8Size_pos
        rw [List.cons_append, splitAt?, if_neg (by simp; omega), if_pos (by simp),
          Text.byteLength_cons, Nat.add_sub_cancel_left, ih]
        rfl

@[simp] theorem splitAt?_append (before behind : Text) :
    splitAt? (byteLength before) (before ++ behind) = some (before, behind) :=
  splitAt?_eq_some_iff.mpr ⟨rfl, rfl⟩

theorem splitAt?_cons {n : Nat} {s before behind : Text} (h : splitAt? n s = some (before, behind))
    (c : Char) : splitAt? (n + c.utf8Size) (c :: s) = some (c :: before, behind) := by
  obtain ⟨rfl, rfl⟩ := splitAt?_eq_some_iff.mp h
  exact splitAt?_eq_some_iff.mpr ⟨rfl, Nat.add_comm _ _⟩

@[simp] theorem upTo?_append (before behind : Text) :
    upTo? (byteLength before) (before ++ behind) = some before := by
  rw [upTo?, splitAt?_append, Option.map_some]

@[simp] theorem from?_append (before behind : Text) :
    from? (byteLength before) (before ++ behind) = some behind := by
  rw [from?, splitAt?_append, Option.map_some]

theorem upTo?_cons {n : Nat} {s before : Text} (h : upTo? n s = some before) (c : Char) :
    upTo? (n + c.utf8Size) (c :: s) = some (c :: before) := by
  obtain ⟨⟨before, behind⟩, hsplit, rfl⟩ := Option.map_eq_some_iff.mp h
  rw [upTo?, splitAt?_cons hsplit, Option.map_some]

theorem between?_append (before s behind : Text) :
    between? (byteLength before) (byteLength before + byteLength s) (before ++ (s ++ behind)) =
      some s := by
  have hupTo : upTo? (byteLength (before ++ s)) (before ++ s ++ behind) = some (before ++ s) :=
    upTo?_append _ _
  rw [Text.byteLength_append, List.append_assoc] at hupTo
  rw [between?, if_pos (Nat.le_add_right _ _), hupTo]
  exact from?_append before s

end GoModules.Offset
