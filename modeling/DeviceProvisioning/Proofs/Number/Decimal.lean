import DeviceProvisioning.Number.Decimal
import Mathlib.Tactic.Ring

/-!
# Numerals that are written

A numeral begins with a zero only if it is the numeral of zero; and filling it up with zeros changes
its width but not its value, so that a reader of fields of a fixed width finds the number in them.
Conversely so many digits stand for a number that has no more (`ofDigitChars_lt`).
-/

namespace DeviceProvisioning.Number

/-- A digit is no letter, mark or blank. -/
theorem ne_of_isDigit {c d : Char} (hc : c.isDigit = true) (hd : d.isDigit = false) : c ≠ d := by
  rintro rfl
  rw [hc] at hd
  cases hd

/-- The digits are the characters with these numbers. -/
theorem isDigit_iff {c : Char} : c.isDigit = true ↔ 48 ≤ c.toNat ∧ c.toNat ≤ 57 := by
  simp only [Char.isDigit, Bool.and_eq_true, decide_eq_true_eq, ge_iff_le, UInt32.le_iff_toNat_le]
  rfl

/-- The numeral of a number other than zero has no zero in front. -/
theorem head_decimal {n : Nat} (h : 0 < n) (more : List Char) : decimal n ≠ '0' :: more := by
  induction n using Nat.strongRecOn generalizing more with
  | ind n ih =>
    by_cases hsmall : n < 10
    · intro heq
      have hdigit : n.digitChar = '0' := by
        rw [decimal, Nat.toDigits_of_lt_base hsmall] at heq
        exact (List.cons.inj heq).1
      have hall : ∀ k < 10, 0 < k → k.digitChar ≠ '0' := by decide
      exact hall n hsmall h hdigit
    · -- its front part is the numeral of a smaller number, and not of zero
      have hrec : decimal n = decimal (n / 10) ++ [(n % 10).digitChar] :=
        Nat.toDigits_of_base_le (by decide) (by omega)
      have hne : decimal (n / 10) ≠ [] := Nat.toDigits_ne_nil
      obtain ⟨c, front, hfront⟩ := List.exists_cons_of_ne_nil hne
      intro heq
      rw [hrec, hfront] at heq
      obtain ⟨rfl, -⟩ := List.cons.inj heq
      exact ih (n / 10) (by omega) (by omega) front hfront

/-- So many digits stand for a number that has so many digits. -/
theorem ofDigitChars_lt {digits : List Char} (h : ∀ c ∈ digits, c.isDigit = true) :
    Nat.ofDigitChars 10 digits 0 < 10 ^ digits.length := by
  have key : ∀ (digits : List Char) (start : Nat), (∀ c ∈ digits, c.isDigit = true) →
      Nat.ofDigitChars 10 digits start < (start + 1) * 10 ^ digits.length := by
    intro digits
    induction digits with
    | nil =>
      intro start _
      rw [List.length_nil, Nat.pow_zero, Nat.mul_one]
      exact start.lt_succ_self
    | cons c digits ih =>
      intro start h
      obtain ⟨-, hle⟩ := isDigit_iff.1 (h c List.mem_cons_self)
      rw [Nat.ofDigitChars_cons]
      calc Nat.ofDigitChars 10 digits (10 * start + (c.toNat - '0'.toNat))
          < (10 * start + (c.toNat - '0'.toNat) + 1) * 10 ^ digits.length :=
            ih _ fun d hd => h d (List.mem_cons_of_mem _ hd)
        _ ≤ (10 * (start + 1)) * 10 ^ digits.length :=
            Nat.mul_le_mul_right _ (by change 10 * start + (c.toNat - 48) + 1 ≤ _; omega)
        _ = (start + 1) * 10 ^ (digits.length + 1) := by ring
  simpa using key digits 0 h

variable {width n : Nat}

theorem isDigit_of_mem_padded {c : Char} (h : c ∈ padded width n) : c.isDigit = true := by
  rcases List.mem_append.1 h with hzero | hdigit
  · rw [(List.mem_replicate.1 hzero).2]
    rfl
  · exact isDigit_of_mem_decimal hdigit

/-- Filling up changes no value. -/
theorem ofDigitChars_padded : Nat.ofDigitChars 10 (padded width n) 0 = n := by
  rw [padded, Nat.ofDigitChars_append, Nat.ofDigitChars_replicate_zero, Nat.mul_zero, decimal,
    Nat.ofDigitChars_ten_toDigits]

theorem padded_ne_nil (width n : Nat) : padded width n ≠ [] :=
  List.append_ne_nil_of_right_ne_nil _ Nat.toDigits_ne_nil

/-- A number that fits in a width is filled up to it. -/
theorem length_padded (hwidth : 0 < width) (h : n < 10 ^ width) :
    (padded width n).length = width := by
  have hle : (decimal n).length ≤ width := (Nat.length_toDigits_le_iff (by decide) hwidth).2 h
  rw [padded, List.length_append, List.length_replicate]
  omega

end DeviceProvisioning.Number
