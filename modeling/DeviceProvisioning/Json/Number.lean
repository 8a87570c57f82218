import DeviceProvisioning.Json.Basic
import DeviceProvisioning.Text.Utf8

/-!
# JSON numbers

`Literal.scan` takes a number off the front of a text and keeps its parts; whoever passes
over a value needs no more.  `Literal.value?` is what the literal denotes.

An integer literal of sixty-four bits is itself.  Any other literal is reckoned in floating
point from a significand and a power of ten: the significand takes in digits as long as it
stays below 2^64; a digit of the integral part that no longer fits counts as a power of ten,
and a digit of the fraction that no longer fits is dropped, with all that follow it.  The
power of ten is applied by one multiplication or division by a table entry of at most 10^308,
after dividing by 10^308 while it is smaller.  Minus zero is the negative zero of floating
point, and a literal too large for a finite number denotes nothing.
-/

namespace DeviceProvisioning.Json

open DeviceProvisioning.Number

/-- The symbols of a text: characters, and `none` for what is not UTF-8. -/
abbrev Symbols := List (Option Char)

/-- The symbols without the blanks of JSON in front. -/
def skipBlank : Symbols → Symbols
  | some ' ' :: rest => skipBlank rest
  | some '\n' :: rest => skipBlank rest
  | some '\t' :: rest => skipBlank rest
  | some '\r' :: rest => skipBlank rest
  | s => s

/-- The digits in front, and the symbols after them. -/
def takeDigits : Symbols → List Char × Symbols
  | some c :: rest =>
    if c.isDigit then
      let (digits, after) := takeDigits rest
      (c :: digits, after)
    else ([], some c :: rest)
  | s => ([], s)

/-- **The parts of a number literal.**  `power` is the exponent that is written. -/
structure Literal where
  negative : Bool
  whole : List Char
  fraction : Option (List Char)
  power : Option Int

namespace Literal

/-- The exponent part after its mark. -/
def scanPower (s : Symbols) : Option (Int × Symbols) :=
  let (sign, s) : Int × Symbols := match s with
    | some '+' :: rest => (1, rest)
    | some '-' :: rest => (-1, rest)
    | s => (1, s)
  match takeDigits s with
  | ([], _) => none
  | (digits, rest) => some (sign * Nat.ofDigitChars 10 digits 0, rest)

/-- What may follow the integral part and the fraction. -/
def scanTail (l : Literal) : Symbols → Option (Literal × Symbols)
  | some 'e' :: rest | some 'E' :: rest =>
    (scanPower rest).map fun (p, after) => ({ l with power := some p }, after)
  | s => some (l, s)

/-- **A number literal off the front of a text**: no leading zeros, and at least one digit on
each side of the point. -/
def scan (s : Symbols) : Option (Literal × Symbols) :=
  let (negative, s) := match s with
    | some '-' :: rest => (true, rest)
    | s => (false, s)
  match takeDigits s with
  | ([], _) => none
  | ('0' :: _ :: _, _) => none
  | (whole, some '.' :: rest) =>
    match takeDigits rest with
    | ([], _) => none
    | (fraction, rest) => scanTail ⟨negative, whole, some fraction, none⟩ rest
  | (whole, rest) => scanTail ⟨negative, whole, none, none⟩ rest

/-- Takes digits into the significand while it stays below 2^64; the digits left over are
those from the first that does not fit. -/
def fill (significand : Nat) : List Char → Nat × List Char
  | [] => (significand, [])
  | c :: rest =>
    let next := significand * 10 + (c.toNat - '0'.toNat)
    if next < UInt64.size then fill next rest else (significand, c :: rest)

/-- A power of ten of the table. -/
def tenPower (n : Nat) : Float :=
  Float.ofScientific 1 false n

/-- Divides by `10^power`, by at most 10^308 at a time. -/
def divideBy : Nat → Float → Nat → Float
  | 0, f, _ => f
  | fuel + 1, f, power =>
    if power ≤ 308 then f / tenPower power
    else if f == 0 then f
    else divideBy fuel (f / tenPower 308) (power - 308)

/-- The magnitude `significand · 10^power`, unless it is too large. -/
def magnitude? (significand : Nat) (power : Int) : Option Float :=
  let f := (UInt64.ofNat significand).toFloat
  if power < 0 then some (divideBy 4 f (-power).toNat)
  else if f == 0 then some f
  else if power ≤ 308 then
    let scaled := f * tenPower power.toNat
    if scaled.isInf then none else some scaled
  else none

/-- The literal in floating point. -/
def float? (l : Literal) (significand : Nat) (power : Int) : Option Json :=
  (magnitude? significand power).map fun f =>
    .float (Binary64.ofFloat (if l.negative then -f else f))

/-- **What a literal denotes.** -/
def value? (l : Literal) : Option Json :=
  let (significand, excess) := fill 0 l.whole
  match l.fraction, l.power, excess with
  | none, none, [] =>
    if l.negative then
      if significand = 0 ∨ UInt64.size / 2 < significand then l.float? significand 0
      else some (.int (-(significand : Int)))
    else some (.int significand)
  | fraction, power, _ =>
    let digits := fraction.getD []
    let (filled, dropped) := fill significand digits
    let taken := digits.length - dropped.length
    l.float? filled ((excess.length : Int) - taken + power.getD 0)

end Literal
end DeviceProvisioning.Json
