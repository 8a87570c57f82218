/-!
# Decimal numerals

Numbers are written in base ten without leading zeros (`Nat.toDigits 10`) and read back in
two ways.  A **field of a protocol** (`readBounded`) may carry one plus sign and leading
zeros, and its value must fit its width; a status code is at most 65535 and a delay is
below 2^64.  Only the ASCII digits are digits.
-/

namespace DeviceProvisioning.Number

/-- The decimal numeral of a natural number. -/
def decimal (n : Nat) : List Char :=
  Nat.toDigits 10 n

/-- The decimal numeral of an integer. -/
def signedDecimal : Int → List Char
  | .ofNat n => decimal n
  | .negSucc n => '-' :: decimal (n + 1)

/-- The decimal numeral of `n`, filled up with zeros to `width` digits. -/
def padded (width n : Nat) : List Char :=
  List.replicate (width - (decimal n).length) '0' ++ decimal n

/-- The value of a non-empty string of digits. -/
def readDigits (cs : List Char) : Option Nat :=
  if cs ≠ [] ∧ cs.all Char.isDigit then some (Nat.ofDigitChars 10 cs 0) else none

/-- The numeral without the plus sign that may stand in front. -/
def dropPlus : List Char → List Char
  | '+' :: rest => rest
  | cs => cs

/-- **The value of a numeral with at most one plus sign in front,** when it is at most
`bound`. -/
def readBounded (bound : Nat) (cs : List Char) : Option Nat :=
  (readDigits (dropPlus cs)).filter (· ≤ bound)

theorem isDigit_of_mem_decimal {n : Nat} {c : Char} (h : c ∈ decimal n) : c.isDigit :=
  Nat.isDigit_of_mem_toDigits (by decide) (by decide) h

theorem readDigits_decimal (n : Nat) : readDigits (decimal n) = some n := by
  have hdigits : (decimal n).all Char.isDigit :=
    List.all_eq_true.2 fun _ hc => isDigit_of_mem_decimal hc
  rw [readDigits, if_pos ⟨Nat.toDigits_ne_nil, hdigits⟩]
  exact congrArg some (Nat.ofDigitChars_toDigits (by decide) (by decide))

/-- **A number is read back from its numeral,** when it is within the bound. -/
theorem readBounded_decimal {bound n : Nat} (h : n ≤ bound) :
    readBounded bound (decimal n) = some n := by
  have hplus : dropPlus (decimal n) = decimal n := by
    unfold dropPlus
    split
    · rename_i rest heq
      have hdigit : '+'.isDigit := isDigit_of_mem_decimal (heq ▸ List.mem_cons_self)
      cases hdigit
    · rfl
  simp [readBounded, hplus, readDigits_decimal, h]

end DeviceProvisioning.Number
