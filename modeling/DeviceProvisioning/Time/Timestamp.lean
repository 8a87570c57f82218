import DeviceProvisioning.Number.Decimal
import DeviceProvisioning.Text.Blank
import DeviceProvisioning.Time.Calendar

/-!
# Timestamps

A timestamp is an instant in universal time, to the nanosecond.  Second 60 of any minute is
a leap second.

**Written form.**  `YYYY-MM-DDThh:mm:ss`, a fraction of three, six or nine digits if there is
one, and `Z`.  A year outside 0 to 9999 has a sign and at least four digits.

**Accepted forms** are more: blanks may stand before every number, before every mark inside
date and time, before the offset and at the end; a number may have fewer digits than its
place; a year with a sign may have any number of them; the date may be parted from the time
by `T`, `t` or a space; fraction digits beyond nine are dropped.  The offset is `Z`, `z`,
`UTC` in either case, or a sign (plus, hyphen or the minus sign U+2212), two digits of hours,
any colons and blanks, and two digits of minutes; it is less than a day.
-/

namespace DeviceProvisioning.Time

open DeviceProvisioning.Text DeviceProvisioning.Number

/-- **An instant in universal time.** -/
structure Timestamp where
  date : Date
  hour : Nat
  minute : Nat
  second : Nat
  nanos : Nat
deriving DecidableEq

namespace Timestamp

/-- A year, with a sign when it does not have four digits. -/
def yearText (year : Int) : List Char :=
  if 0 ≤ year ∧ year ≤ 9999 then padded 4 year.toNat
  else (if year < 0 then '-' else '+') :: padded 4 year.natAbs

/-- The fraction of a second, in as few groups of three digits as hold it. -/
def fractionText (nanos : Nat) : List Char :=
  if nanos = 0 then []
  else if nanos % 1000000 = 0 then '.' :: padded 3 (nanos / 1000000)
  else if nanos % 1000 = 0 then '.' :: padded 6 (nanos / 1000)
  else '.' :: padded 9 nanos

/-- The written form, as characters. -/
def chars (t : Timestamp) : List Char :=
  yearText t.date.year ++ '-' :: padded 2 t.date.month ++ '-' :: padded 2 t.date.day
    ++ 'T' :: padded 2 t.hour ++ ':' :: padded 2 t.minute ++ ':' :: padded 2 t.second
    ++ fractionText t.nanos ++ ['Z']

/-- **The written form.** -/
def render (t : Timestamp) : String :=
  String.ofList t.chars

/-! ## Reading -/

/-- Digits in front, at most `most` of them, and the text after them; there must be one. -/
def number (most : Nat) (cs : List Char) : Option (Nat × List Char) :=
  match (cs.take most).takeWhile Char.isDigit with
  | [] => none
  | digits => some (Nat.ofDigitChars 10 digits 0, cs.drop digits.length)

/-- Digits in front, however many. -/
def longNumber (cs : List Char) : Option (Nat × List Char) :=
  number cs.length cs

/-- A year: four digits at most, or a sign and any number of digits. -/
def readYear (cs : List Char) : Option (Int × List Char) :=
  match trimStart cs with
  | '-' :: rest => (longNumber rest).map fun (n, after) => (-(n : Int), after)
  | '+' :: rest => (longNumber rest).map fun (n, after) => ((n : Int), after)
  | cs => (number 4 cs).map fun (n, after) => ((n : Int), after)

/-- A number of two digits at most, after blanks. -/
def readPair (cs : List Char) : Option (Nat × List Char) :=
  number 2 (trimStart cs)

/-- The text after a mark that stands in front. -/
def readMark (mark : Char) (cs : List Char) : Option (List Char) :=
  match cs with
  | c :: rest => if c = mark then some rest else none
  | [] => none

/-- The fraction of a second in nanoseconds, if there is one. -/
def readFraction : List Char → Option (Nat × List Char)
  | '.' :: rest => do
    let (n, after) ← number 9 rest
    let places := rest.length - after.length
    return (n * Nat.pow 10 (9 - places), after.dropWhile Char.isDigit)
  | cs => some (0, cs)

/-- Exactly two digits. -/
def twoDigits : List Char → Option (Nat × List Char)
  | a :: b :: rest =>
    if a.isDigit && b.isDigit then some (Nat.ofDigitChars 10 [a, b] 0, rest) else none
  | _ => none

/-- An offset from universal time, in minutes. -/
def readOffset (cs : List Char) : Option (Int × List Char) :=
  match cs with
  | 'Z' :: rest | 'z' :: rest => some (0, rest)
  | u :: t :: c :: rest =>
    if u.toUpper = 'U' ∧ t.toUpper = 'T' ∧ c.toUpper = 'C' then some (0, rest)
    else do
      let sign : Int ←
        if u = '+' then some 1 else if u = '-' ∨ u = '\u2212' then some (-1) else none
      let (hours, after) ← twoDigits (t :: c :: rest)
      let (minutes, after) ← twoDigits (after.dropWhile fun m => m = ':' || isBlank m)
      if minutes < 60 then return (sign * (hours * 60 + minutes : Nat), after) else none
  | _ => none

/-- **The instant that a clock at an offset shows,** in universal time. -/
def ofLocal? (date : Date) (hour minute second nanos : Nat) (offset : Int) : Option Timestamp := do
  let minutes : Int := (hour * 60 + minute : Nat) - offset
  let date ←
    if minutes < 0 then date.previous? else if 1440 ≤ minutes then date.next? else some date
  let inDay := (minutes % 1440).toNat
  return { date, hour := inDay / 60, minute := inDay % 60, second, nanos }

/-- Reads one of the accepted forms, as characters. -/
def ofChars? (cs : List Char) : Option Timestamp := do
  let (year, cs) ← readYear cs
  let cs ← readMark '-' (trimStart cs)
  let (month, cs) ← readPair cs
  let cs ← readMark '-' (trimStart cs)
  let (day, cs) ← readPair cs
  let cs ←
    match cs with
    | 'T' :: rest | 't' :: rest | ' ' :: rest => some rest
    | _ => none
  let (hour, cs) ← readPair cs
  let cs ← readMark ':' (trimStart cs)
  let (minute, cs) ← readPair cs
  let cs ← readMark ':' (trimStart cs)
  let (second, cs) ← readPair cs
  let (nanos, cs) ← readFraction cs
  let (offset, cs) ← readOffset (trimStart cs)
  let date : Date := { year, month, day }
  if trimStart cs = [] ∧ date.isValid ∧ hour < 24 ∧ minute < 60 ∧ second ≤ 60
      ∧ -1440 < offset ∧ offset < 1440 then
    ofLocal? date hour minute second nanos offset
  else none

/-- **Reads one of the accepted forms.** -/
def parse? (text : String) : Option Timestamp :=
  ofChars? text.toList

end Timestamp
end DeviceProvisioning.Time
