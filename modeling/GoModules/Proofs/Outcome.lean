import Mathlib.Data.List.Basic

/-!
# Outcomes

How a computation that may fail gives a value, and which failures it has, in terms of its steps.
-/

namespace GoModules.Outcome

variable {ε ε' α β : Type}

@[simp] theorem ok_bind (a : α) (f : α → Except ε β) : (Except.ok a >>= f) = f a := rfl

@[simp] theorem error_bind (e : ε) (f : α → Except ε β) : (Except.error e >>= f) = .error e := rfl

@[simp] theorem pure_eq_ok (a : α) : (pure a : Except ε α) = .ok a := rfl

@[simp] theorem throw_eq_error (e : ε) : (throw e : Except ε α) = .error e := rfl

theorem bind_eq_ok_iff {x : Except ε α} {f : α → Except ε β} {b : β} :
    (x >>= f) = .ok b ↔ ∃ a, x = .ok a ∧ f a = .ok b := by
  cases x with
  | error e => simp
  | ok a => simp

/-- A check gives nothing that a computation could go on with. -/
theorem bind_unit_eq_ok_iff {x : Except ε Unit} {f : Unit → Except ε β} {b : β} :
    (x >>= f) = .ok b ↔ x = .ok () ∧ f () = .ok b := by
  cases x with
  | error e => simp
  | ok a => simp

theorem map_eq_ok_iff {x : Except ε α} {f : α → β} {b : β} :
    f <$> x = .ok b ↔ ∃ a, x = .ok a ∧ f a = b := by
  cases x with
  | error e => simp [Functor.map, Except.map]
  | ok a => simp [Functor.map, Except.map]

theorem map_eq_error_iff {x : Except ε α} {f : α → β} {e : ε} :
    f <$> x = .error e ↔ x = .error e := by
  cases x with
  | error e' => simp [Functor.map, Except.map]
  | ok a => simp [Functor.map, Except.map]

/-- A guard that refuses lets a computation give a value only where it does not hold. -/
@[simp] theorem ite_error_eq_ok_iff {p : Prop} [Decidable p] {e : ε} {x : Except ε α} {a : α} :
    (if p then .error e else x) = .ok a ↔ ¬ p ∧ x = .ok a := by
  by_cases hp : p
  · simp [hp]
  · simp [hp]

@[simp] theorem mapError_ok (f : ε → ε') (a : α) : (Except.ok a).mapError f = .ok a := rfl

@[simp] theorem mapError_error (f : ε → ε') (e : ε) :
    (Except.error e : Except ε α).mapError f = .error (f e) := rfl

@[simp] theorem mapError_eq_ok_iff {f : ε → ε'} {x : Except ε α} {a : α} :
    x.mapError f = .ok a ↔ x = .ok a := by
  cases x with
  | error e => simp
  | ok b => simp

theorem forM_eq_ok_iff {f : α → Except ε Unit} {as : List α} :
    as.forM f = .ok () ↔ ∀ a ∈ as, f a = .ok () := by
  induction as with
  | nil => exact ⟨fun _ a ha => absurd ha List.not_mem_nil, fun _ => rfl⟩
  | cons a as ih =>
      rw [List.forM, bind_eq_ok_iff, List.forall_mem_cons, ← ih]
      constructor
      · rintro ⟨_, ha, has⟩
        exact ⟨ha, has⟩
      · rintro ⟨ha, has⟩
        exact ⟨(), ha, has⟩

theorem exists_of_mem_of_mapM {f : α → Except ε β} {as : List α} {bs : List β}
    (h : as.mapM f = .ok bs) : ∀ b ∈ bs, ∃ a ∈ as, f a = .ok b := by
  induction as generalizing bs with
  | nil =>
      cases h
      simp
  | cons a as ih =>
      rw [List.mapM_cons] at h
      simp only [bind_eq_ok_iff, pure_eq_ok, Except.ok.injEq] at h
      obtain ⟨b, hb, rest, hrest, rfl⟩ := h
      refine List.forall_mem_cons.mpr ⟨⟨a, List.mem_cons_self, hb⟩, fun b' hb' => ?_⟩
      obtain ⟨a', ha', heq⟩ := ih hrest b' hb'
      exact ⟨a', List.mem_cons_of_mem a ha', heq⟩

/-- Computations with the same first step agree in what `f` keeps if they go on so. -/
theorem map_bind_congr {γ : Type} {f : β → γ} {x : Except ε α} {k k' : α → Except ε β}
    (h : ∀ a, f <$> k a = f <$> k' a) : f <$> (x >>= k) = f <$> (x >>= k') := by
  cases x with
  | error e => rfl
  | ok a => exact h a

theorem map_ite_congr {p p' : Prop} [Decidable p] [Decidable p'] {f : α → β}
    {x x' y y' : Except ε α} (hp : p ↔ p') (hx : f <$> x = f <$> x') (hy : f <$> y = f <$> y') :
    f <$> (if p then x else y) = f <$> (if p' then x' else y') := by
  by_cases h : p
  · rw [if_pos h, if_pos (hp.mp h), hx]
  · rw [if_neg h, if_neg fun h' => h (hp.mpr h'), hy]

theorem map_mapError (f : α → β) (g : ε → ε') (x : Except ε α) :
    f <$> x.mapError g = (f <$> x).mapError g := by
  cases x with
  | error e => rfl
  | ok a => rfl

/-- A run can be made on what its states and its steps are sent to, if each single step can. -/
theorem foldlM_map_eq {σ τ : Type} {step : σ → α → Except ε σ} {step' : τ → β → Except ε τ}
    {f : σ → τ} {g : α → β} {as : List α}
    (h : ∀ a ∈ as, ∀ s, step' (f s) (g a) = f <$> step s a) (s : σ) :
    (as.map g).foldlM step' (f s) = f <$> as.foldlM step s := by
  induction as generalizing s with
  | nil => rfl
  | cons a as ih =>
      rw [List.forall_mem_cons] at h
      rw [List.map_cons, List.foldlM_cons, List.foldlM_cons, h.1 s]
      cases step s a with
      | error e => rfl
      | ok s' => exact ih h.2 s'

/-- Runs agree in what `f` keeps of their states if each step does so from states that agree. -/
theorem map_foldlM_congr {σ τ : Type} {step : σ → α → Except ε σ} {step' : σ → β → Except ε σ}
    {f : σ → τ} {g : α → β}
    (h : ∀ a {s s'}, f s' = f s → f <$> step' s' (g a) = f <$> step s a) {s s' : σ}
    (hs : f s' = f s) (as : List α) :
    f <$> (as.map g).foldlM step' s' = f <$> as.foldlM step s := by
  induction as generalizing s s' with
  | nil => exact congrArg Except.ok hs
  | cons a as ih =>
      have hstep := h a hs
      rw [List.map_cons, List.foldlM_cons, List.foldlM_cons]
      cases hnext : step s a with
      | error e =>
          rw [hnext] at hstep
          rw [map_eq_error_iff.mp hstep]
          rfl
      | ok s₁ =>
          rw [hnext] at hstep
          obtain ⟨s₁', hnext', hs₁⟩ := map_eq_ok_iff.mp hstep
          rw [hnext']
          exact ih hs₁

/-- All failures of a computation are of a kind. -/
def FailsIn (P : ε → Prop) (x : Except ε α) : Prop :=
  ∀ e, x = .error e → P e

variable {P : ε → Prop}

theorem failsIn_of_forall (h : ∀ e, P e) (x : Except ε α) : FailsIn P x :=
  fun e _ => h e

@[simp] theorem failsIn_ok (a : α) : FailsIn P (Except.ok a) := by
  intro e h
  cases h

@[simp] theorem failsIn_error {e : ε} : FailsIn P (Except.error e : Except ε α) ↔ P e := by
  constructor
  · intro h
    exact h e rfl
  · rintro h e ⟨⟩
    exact h

@[simp] theorem failsIn_bind {x : Except ε α} {f : α → Except ε β} :
    FailsIn P (x >>= f) ↔ FailsIn P x ∧ ∀ a, x = .ok a → FailsIn P (f a) := by
  cases x with
  | error e => simp
  | ok a => simp

@[simp] theorem failsIn_ite {p : Prop} [Decidable p] {x y : Except ε α} :
    FailsIn P (if p then x else y) ↔ (p → FailsIn P x) ∧ (¬ p → FailsIn P y) := by
  by_cases hp : p
  · simp [hp]
  · simp [hp]

@[simp] theorem failsIn_mapError {f : ε' → ε} {x : Except ε' α} :
    FailsIn P (x.mapError f) ↔ FailsIn (fun e => P (f e)) x := by
  cases x with
  | error e => simp
  | ok a => simp

theorem failsIn_mapM {f : α → Except ε β} {as : List α} (h : ∀ a ∈ as, FailsIn P (f a)) :
    FailsIn P (as.mapM f) := by
  induction as with
  | nil => exact failsIn_ok []
  | cons a as ih =>
      rw [List.forall_mem_cons] at h
      simp only [List.mapM_cons, failsIn_bind, pure_eq_ok, failsIn_ok, implies_true, and_true]
      exact ⟨h.1, fun _ _ => ih h.2⟩

end GoModules.Outcome
