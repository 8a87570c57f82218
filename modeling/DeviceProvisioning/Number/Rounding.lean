import DeviceProvisioning.Number.Binary64

/-!
# Rounding to binary floating point

`Binary64.ofDecimal` is the floating-point number nearest to a decimal one.  A magnitude is
first brought onto the grid of the multiples of `2^q`, with the smallest `q` that leaves at
most fifty-three bits, and no finer than the grid of the subnormal numbers; there
`roundHalfEven` picks the nearer neighbour, and of two that are as near the even one.  A
magnitude beyond the largest finite number becomes infinite.

Everything is exact arithmetic on natural numbers, so nothing is rounded twice.
-/

namespace DeviceProvisioning.Number

/-- **The natural number nearest to `num / den`,** the even one of two that are as near. -/
def roundHalfEven (num den : Nat) : Nat :=
  let below := num / den
  let rest := num % den
  if 2 * rest < den ∨ (2 * rest = den ∧ below % 2 = 0) then below else below + 1

namespace Binary64

/-- The number with this sign and these lower bits. -/
def ofMagnitude (negative : Bool) (bits : Nat) : Binary64 :=
  ⟨UInt64.ofNat (if negative then signBit + bits else bits)⟩

/-- The bits of infinity. -/
def infinityBits : Nat :=
  2047 * fractionSize

/-- Infinity of either sign. -/
def infinity (negative : Bool) : Binary64 :=
  ofMagnitude negative infinityBits

/-- The number without a value. -/
def undefinedNumber (negative : Bool) : Binary64 :=
  ofMagnitude negative (infinityBits + fractionSize / 2)

/-- The exponent of the highest bit of `num / den`, for positive numbers. -/
def highestBit (num den : Nat) : Int :=
  let guess : Int := Nat.log2 num - Nat.log2 den
  let reaches : Bool := den * Nat.pow 2 guess.toNat ≤ num * Nat.pow 2 (-guess).toNat
  if reaches then guess else guess - 1

/-- The bits of the number nearest to `num / den`, for positive numbers; the significand of
`2^53` that rounding can produce carries over into the exponent by itself. -/
def nearestBits (num den : Nat) : Nat :=
  let q := max (highestBit num den - 52) (-1074)
  let m := roundHalfEven (num * Nat.pow 2 (-q).toNat) (den * Nat.pow 2 q.toNat)
  let bits := if m < fractionSize then m
    else (q + 1075).toNat * fractionSize + (m - fractionSize)
  min bits infinityBits

/-- **The number nearest to `±significand · 10^power`.**  A power of ten that takes every
significand out of the range of the finite numbers is not reckoned with. -/
def ofDecimal (negative : Bool) (significand : Nat) (power : Int) : Binary64 :=
  let magnitude := (decimal significand).length + power
  if significand = 0 ∨ magnitude < -330 then ofMagnitude negative 0
  else if 310 < magnitude then infinity negative
  else ofMagnitude negative
    (nearestBits (significand * Nat.pow 10 power.toNat) (Nat.pow 10 (-power).toNat))

/-- Neither finite nor undefined. -/
def isInfinite (x : Binary64) : Bool :=
  x.exponentField == 2047 && x.fraction == 0

end Binary64
end DeviceProvisioning.Number
