/-!
# Hexadecimal numerals

Escapes, addresses and ids are spelled in base sixteen.  A digit is read in either case and
written in lower case; `hexDigits` writes a number in a fixed width, and `ofDigits?` reads a
numeral of any width, in this base or a smaller one.
-/

namespace DeviceProvisioning.Number

/-- The value of a hexadecimal digit of either case. -/
def hexValue? (c : Char) : Option Nat :=
  if '0' ≤ c ∧ c ≤ '9' then some (c.toNat - 0x30)
  else if 'A' ≤ c ∧ c ≤ 'F' then some (c.toNat - 0x37)
  else if 'a' ≤ c ∧ c ≤ 'f' then some (c.toNat - 0x57)
  else none

/-- A lower-case hexadecimal digit. -/
def hexDigit (n : Nat) : Char :=
  Char.ofNat (if n < 10 then 0x30 + n else 0x57 + n)

/-- A number in `width` hexadecimal digits. -/
def hexDigits : Nat → Nat → List Char
  | 0, _ => []
  | width + 1, n => hexDigits width (n / 16) ++ [hexDigit (n % 16)]

/-- The number that digits spell in a base of at most sixteen. -/
def ofDigits? (base : Nat) (digits : List Char) : Option Nat :=
  (digits.mapM fun c => (hexValue? c).filter (· < base)).map
    (·.foldl (fun n v => n * base + v) 0)

theorem length_hexDigits (width n : Nat) : (hexDigits width n).length = width := by
  induction width generalizing n with
  | zero => rfl
  | succ width ih => simp [hexDigits, ih]

end DeviceProvisioning.Number
