import GoModules.Text.Basic
import Mathlib.Data.List.Basic
import Mathlib.Data.List.Induction

/-!
# Decimal forms

The decimal form of a number has no superfluous leading zero, so the reader of numbers accepts it
and gives the number back. It accepts nothing else.
-/

namespace GoModules.Text

theorem isDigit_of_mem_decimal {n : Nat} {c : Char} (hc : c ∈ decimal n) : c.isDigit :=
  Nat.isDigit_of_mem_toDigits (by decide) (by decide) hc

theorem decimal_ne_nil (n : Nat) : decimal n ≠ [] :=
  Nat.toDigits_ne_nil

/-- Only zero is written with a zero in front. The induction follows the digits from the last one:
cutting it off leaves the decimal form of a positive number. -/
theorem eq_zero_of_head?_decimal (n : Nat) (h : (decimal n).head? = some '0') : n = 0 := by
  induction n using Nat.strongRecOn with
  | _ n ih =>
      by_cases hn : n < 10
      · rw [decimal, Nat.toDigits_of_lt_base hn, List.head?_cons, Option.some.injEq] at h
        have hcode := congrArg Char.toNat h
        rw [Nat.toNat_digitChar_of_lt_ten hn] at hcode
        simpa using hcode
      · have hfront : (decimal (n / 10)).head? = some '0' := by
          rw [decimal, Nat.toDigits_of_base_le (by decide) (by omega),
            List.head?_append_of_ne_nil _ Nat.toDigits_ne_nil] at h
          exact h
        have := ih (n / 10) (by omega) hfront
        omega

/-- A number below `UInt64.size` is read back from its decimal form. -/
theorem number?_decimal {n : Nat} (hn : n < UInt64.size) : number? (decimal n) = some n := by
  have hvalue : Nat.ofDigitChars 10 (decimal n) 0 = n := Nat.ofDigitChars_ten_toDigits
  have hzero : (decimal n).head? = some '0' → decimal n = ['0'] := by
    intro h
    rw [eq_zero_of_head?_decimal n h]
    decide
  have hdigits : (decimal n).all Char.isDigit := by
    rw [List.all_eq_true]
    exact fun c hc => isDigit_of_mem_decimal hc
  rw [number?, if_pos ⟨decimal_ne_nil n, hdigits, hzero, by rwa [hvalue]⟩, hvalue]

theorem decimal_of_lt_ten {n : Nat} (hn : n < 10) : decimal n = [n.digitChar] :=
  Nat.toDigits_of_lt_base hn

theorem exists_digitChar_of_isDigit {c : Char} (hc : c.isDigit) :
    ∃ n < 10, c = Nat.digitChar n := by
  obtain ⟨hlow, hhigh⟩ := Char.isDigit_iff_toNat.mp hc
  simp only [Char.reduceToNat] at hlow hhigh
  have hn : c.toNat - 48 < 10 := by omega
  refine ⟨c.toNat - 48, hn, Char.toNat_inj.mp ?_⟩
  rw [Nat.toNat_digitChar_of_lt_ten hn]
  omega

/-- Digits without a superfluous leading zero are the decimal form of the number they stand for.
The induction follows the digits from the last one, as the decimal form is made. -/
theorem decimal_ofDigitChars {s : Text} (hne : s ≠ []) (hdigits : ∀ c ∈ s, c.isDigit)
    (hzero : s.head? = some '0' → s = ['0']) : decimal (Nat.ofDigitChars 10 s 0) = s := by
  induction s using List.reverseRecOn with
  | nil => exact absurd rfl hne
  | append_singleton front c ih =>
      rw [List.forall_mem_append, List.forall_mem_singleton] at hdigits
      obtain ⟨n, hn, rfl⟩ := exists_digitChar_of_isDigit hdigits.2
      rw [Nat.ofDigitChars_append, Nat.ofDigitChars_cons_digitChar_of_lt_ten hn,
        Nat.ofDigitChars_nil]
      by_cases hnil : front = []
      · subst hnil
        rw [Nat.ofDigitChars_nil, Nat.mul_zero, Nat.zero_add, decimal_of_lt_ten hn,
          List.nil_append]
      · rw [List.head?_append_of_ne_nil _ hnil] at hzero
        have hhead : front.head? ≠ some '0' := by
          intro hhead
          have hlength := congrArg List.length (hzero hhead)
          rw [List.length_append, List.length_singleton, List.length_singleton] at hlength
          exact hnil (List.length_eq_zero_iff.mp (by omega))
        have hfront := ih hnil hdigits.1 fun h => absurd h hhead
        have hpos : 0 < Nat.ofDigitChars 10 front 0 := by
          rw [Nat.pos_iff_ne_zero]
          intro hvalue
          rw [hvalue] at hfront
          rw [← hfront] at hhead
          exact hhead rfl
        calc
          decimal (10 * Nat.ofDigitChars 10 front 0 + n) =
              decimal (Nat.ofDigitChars 10 front 0) ++ decimal n :=
            (Nat.toDigits_append_toDigits (by decide) hpos hn).symm
          _ = front ++ [n.digitChar] := by rw [hfront, decimal_of_lt_ten hn]

/-- The numbers that are read are those in decimal form that fit into 64 bits. -/
theorem number?_eq_some_iff {s : Text} {n : Nat} :
    number? s = some n ↔ s = decimal n ∧ n < UInt64.size := by
  constructor
  · intro h
    unfold number? at h
    split at h
    · next hs =>
        obtain ⟨hne, hdigits, hzero, hsize⟩ := hs
        cases h
        exact ⟨(decimal_ofDigitChars hne (List.all_eq_true.mp hdigits) hzero).symm, hsize⟩
    · cases h
  · rintro ⟨rfl, hn⟩
    exact number?_decimal hn

theorem lt_of_number? {s : Text} {n : Nat} (h : number? s = some n) : n < UInt64.size :=
  (number?_eq_some_iff.mp h).2

end GoModules.Text
