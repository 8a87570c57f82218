import DeviceProvisioning.Number.Hexadecimal
import DeviceProvisioning.Toml.Basic

/-!
# Numbers in TOML

Underscores may stand between digits.  An integer has sixty-four bits and a sign; without one
it may be hexadecimal, octal or binary.  A float has a fraction, an exponent or both, or is
`inf` or `nan`; it denotes the nearest number, and must not be so large that only positive
infinity is near.
-/

namespace DeviceProvisioning.Toml

open DeviceProvisioning.Number

/-- The digits in front, without the underscores between them, and the text after them. -/
def digitRun (isDigit : Char → Bool) : List Char → List Char × List Char
  | '_' :: c :: rest =>
    if isDigit c then
      let (digits, after) := digitRun isDigit rest
      (c :: digits, after)
    else ([], '_' :: c :: rest)
  | c :: rest =>
    if isDigit c then
      let (digits, after) := digitRun isDigit rest
      (c :: digits, after)
    else ([], c :: rest)
  | [] => ([], [])

/-- The digits in front, the first of which must be there. -/
def digits (isDigit : Char → Bool) : List Char → Option (List Char × List Char)
  | c :: rest =>
    if isDigit c then
      let (digits, after) := digitRun isDigit rest
      some (c :: digits, after)
    else none
  | [] => none

/-- A sign in front, and whether it is a minus sign. -/
def scanSign : List Char → Bool × List Char
  | '-' :: rest => (true, rest)
  | '+' :: rest => (false, rest)
  | cs => (false, cs)

/-- The integral part of a decimal number: no zero in front of other digits. -/
def scanWhole : List Char → Option (List Char × List Char)
  | '0' :: rest => some (['0'], rest)
  | cs => digits Char.isDigit cs

/-- The fraction in front, if there is one. -/
def scanPlaces : List Char → Option (Option (List Char) × List Char)
  | '.' :: rest => (digits Char.isDigit rest).map fun (ds, after) => (some ds, after)
  | cs => some (none, cs)

/-- The exponent in front, if there is one. -/
def scanExponent : List Char → Option (Option Int × List Char)
  | 'e' :: rest | 'E' :: rest => do
    let (negative, rest) := scanSign rest
    let (ds, after) ← digits Char.isDigit rest
    let n : Int := Nat.ofDigitChars 10 ds 0
    return (some (if negative then -n else n), after)
  | cs => some (none, cs)

/-- The integer with this sign and these digits, if it has sixty-four bits. -/
def integer? (negative : Bool) (n : Nat) : Option Toml :=
  if negative then if n ≤ UInt64.size / 2 then some (.int (-(n : Int))) else none
  else if n < UInt64.size / 2 then some (.int n) else none

/-- The float that a literal denotes. -/
def float? (negative : Bool) (significand : Nat) (power : Int) : Option Toml :=
  let x := Binary64.ofDecimal negative significand power
  if x.isInfinite && !negative then none else some (.float x)

/-- A decimal number in front, after its sign. -/
def scanDecimal (negative : Bool) (cs : List Char) : Option (Toml × List Char) := do
  let (whole, cs) ← scanWhole cs
  let (places, cs) ← scanPlaces cs
  let (exponent, cs) ← scanExponent cs
  let places' := places.getD []
  let significand := Nat.ofDigitChars 10 (whole ++ places') 0
  let value ←
    if places.isNone ∧ exponent.isNone then integer? negative significand
    else float? negative significand (exponent.getD 0 - places'.length)
  return (value, cs)

/-- An integer in front that is written in another base, after the mark of the base. -/
def scanBase (base : Nat) (cs : List Char) : Option (Toml × List Char) := do
  let isDigit (c : Char) : Bool := ((hexValue? c).filter (· < base)).isSome
  let (ds, after) ← digits isDigit cs
  let value ← integer? false ((ofDigits? base ds).getD 0)
  return (value, after)

/-- A number in front that need not have digits. -/
def scanSigned (negative : Bool) : List Char → Option (Toml × List Char)
  | 'i' :: 'n' :: 'f' :: rest => some (.float (Binary64.infinity negative), rest)
  | 'n' :: 'a' :: 'n' :: rest => some (.float (Binary64.undefinedNumber negative), rest)
  | cs => scanDecimal negative cs

/-- **A number in front.** -/
def scanNumber : List Char → Option (Toml × List Char)
  | '0' :: 'x' :: rest => scanBase 16 rest
  | '0' :: 'o' :: rest => scanBase 8 rest
  | '0' :: 'b' :: rest => scanBase 2 rest
  | cs =>
    let (negative, rest) := scanSign cs
    scanSigned negative rest

end DeviceProvisioning.Toml
