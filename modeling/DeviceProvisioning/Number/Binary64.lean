import DeviceProvisioning.Number.Decimal

/-!
# Binary floating point, as data

A `Binary64` is known by its sixty-four bits, so that two of them can be compared and a
value that holds one has decidable equality.  Arithmetic on them is the machine's.

**Shortest digits.**  A finite number other than zero is `m · 2^q`.  The reals that round to
it form an interval, whose ends belong to it exactly when `m` is even.  `shortest` looks for
the first grid of 1, 2, … 17 significant digits on which one of the number's two neighbours
lies in the interval; of two such neighbours the nearer one wins.  All of it is exact
arithmetic on natural numbers.

**Layout.**  `render` writes the digits with the decimal point in place while the point
stands within the bounds of a `Layout`, and in scientific form otherwise.  An integral
value keeps one zero after the point.
-/

namespace DeviceProvisioning.Number

/-- A binary floating-point number of sixty-four bits. -/
structure Binary64 where
  bits : UInt64
deriving DecidableEq

namespace Binary64

/-- The number that the machine computes with. -/
def toFloat (x : Binary64) : Float :=
  Float.ofBits x.bits

/-- The bits of a machine number. -/
def ofFloat (x : Float) : Binary64 :=
  ⟨x.toBits⟩

/-- The place value of the lowest bit of the exponent, below which the fraction lies. -/
def fractionSize : Nat := Nat.pow 2 52

/-- The place value of the sign bit. -/
def signBit : Nat := Nat.pow 2 63

/-- The sign bit. -/
def isNegative (x : Binary64) : Bool :=
  signBit ≤ x.bits.toNat

/-- The eleven bits of the exponent. -/
def exponentField (x : Binary64) : Nat :=
  x.bits.toNat / fractionSize % 2048

/-- The fifty-two bits of the fraction. -/
def fraction (x : Binary64) : Nat :=
  x.bits.toNat % fractionSize

/-- Neither infinite nor undefined. -/
def isFinite (x : Binary64) : Bool :=
  x.exponentField < 2047

/-- Undefined. -/
def isNaN (x : Binary64) : Bool :=
  x.exponentField == 2047 && x.fraction != 0

/-- Zero, of either sign. -/
def isZero (x : Binary64) : Bool :=
  x.exponentField == 0 && x.fraction == 0

/-- `m`, where the magnitude is `m · 2^q`. -/
def significand (x : Binary64) : Nat :=
  if x.exponentField = 0 then x.fraction else x.fraction + fractionSize

/-- `q`, where the magnitude is `m · 2^q`. -/
def exponent (x : Binary64) : Int :=
  (max x.exponentField 1 : Nat) - 1075

/-- **The interval of a magnitude,** as numerators over one denominator: the number itself
and the two ends of the reals that round to it. -/
structure Interval where
  low : Nat
  value : Nat
  high : Nat
  den : Nat
  closed : Bool

/-- The interval of the magnitude of a finite number; below a power of two the numbers lie
twice as close. -/
def interval (x : Binary64) : Interval :=
  let m := x.significand
  let below := if x.fraction = 0 ∧ 1 < x.exponentField then 1 else 2
  let q := x.exponent - 2
  let scale := Nat.pow 2 q.toNat
  { low := (4 * m - below) * scale
    value := 4 * m * scale
    high := (4 * m + 2) * scale
    den := Nat.pow 2 (-q).toNat
    closed := m % 2 == 0 }

/-- The least `j` with `den ≤ num · 10^j`, searched for up to `fuel` steps. -/
def leadingZeros (den : Nat) : Nat → Nat → Nat
  | 0, _ => 0
  | fuel + 1, num => if den ≤ num then 0 else leadingZeros den fuel (num * 10) + 1

/-- The power of ten of the leading digit of `num / den`. -/
def leadingPower (num den : Nat) : Int :=
  if den ≤ num then ((decimal (num / den)).length : Int) - 1
  else -(leadingZeros den 400 num : Int)

/-- The neighbour of the number on the grid of multiples of `10^power` that rounds to the
number, if one does; the nearer one if both do, the even one if both are as near. -/
def onGrid (i : Interval) (power : Int) : Option Nat :=
  let up := Nat.pow 10 (-power).toNat
  let den := i.den * Nat.pow 10 power.toNat
  let value := i.value * up
  let below := value / den
  let inside (d : Nat) : Bool :=
    if i.closed then i.low * up ≤ d * den && d * den ≤ i.high * up
    else i.low * up < d * den && d * den < i.high * up
  match inside below, inside (below + 1) with
  | false, false => none
  | true, false => some below
  | false, true => some (below + 1)
  | true, true =>
    let down := value - below * den
    let rise := (below + 1) * den - value
    if down < rise ∨ (down = rise ∧ below % 2 = 0) then some below else some (below + 1)

/-- The number without its trailing zeros, and the power of ten that makes up for them. -/
def dropZeros : Nat → Nat → Int → Nat × Int
  | 0, d, power => (d, power)
  | fuel + 1, d, power =>
    if d % 10 = 0 then dropZeros fuel (d / 10) (power + 1) else (d, power)

/-- The first grid with a hit, from `digits` significant digits on. -/
def search (i : Interval) (lead : Int) : Nat → Nat → Nat × Int
  | 0, _ => (0, 0)
  | fuel + 1, digits =>
    match onGrid i (lead - digits) with
    | some d => dropZeros 18 d (lead - digits)
    | none => search i lead fuel (digits + 1)

/-- **The fewest digits that read back:** `(d, k)` stands for `d · 10^k`. -/
def shortest (x : Binary64) : Nat × Int :=
  if x.isZero then (0, 0)
  else search x.interval (leadingPower x.interval.value x.interval.den) 18 0

/-- **Where the decimal point may stand,** counted from the first digit, for the number to
be written without an exponent. -/
structure Layout where
  least : Int
  greatest : Int

/-- The digits with the decimal point after the first `point` of them. -/
def positional (digits : List Char) (point : Int) : List Char :=
  if point ≤ 0 then '0' :: '.' :: (List.replicate (-point).toNat '0' ++ digits)
  else if digits.length ≤ point.toNat then
    digits ++ List.replicate (point.toNat - digits.length) '0' ++ ['.', '0']
  else digits.take point.toNat ++ '.' :: digits.drop point.toNat

/-- An exponent with its sign. -/
def signedExponent (n : Int) : List Char :=
  if n < 0 then signedDecimal n else '+' :: signedDecimal n

/-- The digits in scientific form; `point` is where the decimal point belongs. -/
def scientific (digits : List Char) (point : Int) : List Char :=
  let mark := match digits with
    | d :: rest@(_ :: _) => d :: '.' :: rest
    | short => short
  mark ++ 'e' :: signedExponent (point - 1)

/-- The text of a finite number. -/
def render (layout : Layout) (x : Binary64) : String :=
  let body :=
    if x.isZero then ['0', '.', '0']
    else
      let (d, k) := x.shortest
      let digits := decimal d
      let point := digits.length + k
      if layout.least ≤ point ∧ point ≤ layout.greatest then positional digits point
      else scientific digits point
  String.ofList (if x.isNegative then '-' :: body else body)

end Binary64
end DeviceProvisioning.Number
