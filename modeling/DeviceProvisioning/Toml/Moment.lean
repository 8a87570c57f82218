import DeviceProvisioning.Number.Decimal
import DeviceProvisioning.Time.Calendar

/-!
# Dates and times in TOML

A moment is a day, a time of day, or both, and in the last case an offset from universal
time may follow.  Every number has its full width, seconds are never left out, and second 60
exists in every minute; fraction digits beyond nine are dropped.  A day and a time are parted
by `T`, `t` or one space, and are written with `T`.
-/

namespace DeviceProvisioning.Toml

open DeviceProvisioning.Number
open DeviceProvisioning.Time (Date)

/-- A time of day. -/
structure Clock where
  hour : Nat
  minute : Nat
  second : Nat
  nanos : Nat
deriving DecidableEq

/-- An offset from universal time. -/
inductive Offset where
  | zero
  | minutes (n : Int)
deriving DecidableEq

/-- **A day, a time of day, or both.** -/
inductive Moment where
  | day (date : Date)
  | clock (time : Clock)
  | both (date : Date) (time : Clock) (offset : Option Offset)
deriving DecidableEq

/-! ## Writing -/

/-- The written form of a day. -/
def dateChars (d : Date) : List Char :=
  padded 4 d.year.toNat ++ '-' :: padded 2 d.month ++ '-' :: padded 2 d.day

/-- The fraction of a second without the zeros at its end. -/
def fractionChars (nanos : Nat) : List Char :=
  if nanos = 0 then []
  else '.' :: ((padded 9 nanos).reverse.dropWhile (· == '0')).reverse

/-- The written form of a time of day. -/
def Clock.chars (c : Clock) : List Char :=
  padded 2 c.hour ++ ':' :: padded 2 c.minute ++ ':' :: padded 2 c.second
    ++ fractionChars c.nanos

/-- The written form of an offset. -/
def Offset.chars : Offset → List Char
  | zero => ['Z']
  | minutes n =>
    (if n < 0 then '-' else '+') :: padded 2 (n.natAbs / 60) ++ ':' :: padded 2 (n.natAbs % 60)

/-- **The written form of a moment.** -/
def Moment.render : Moment → String
  | day date => String.ofList (dateChars date)
  | clock time => String.ofList time.chars
  | both date time offset =>
    String.ofList
      (dateChars date ++ 'T' :: time.chars ++ (offset.map Offset.chars).getD [])

/-! ## Reading -/

/-- A number of exactly `width` digits in front, within bounds. -/
def place (width least greatest : Nat) (cs : List Char) : Option (Nat × List Char) := do
  let digits := cs.take width
  let n ← if digits.length = width then readDigits digits else none
  if least ≤ n ∧ n ≤ greatest then some (n, cs.drop width) else none

/-- The text after a mark that stands in front. -/
def afterMark (mark : Char) : List Char → Option (List Char)
  | c :: rest => if c = mark then some rest else none
  | [] => none

/-- A day in front. -/
def scanDate (cs : List Char) : Option (Date × List Char) := do
  let (year, cs) ← place 4 0 9999 cs
  let cs ← afterMark '-' cs
  let (month, cs) ← place 2 1 12 cs
  let cs ← afterMark '-' cs
  let (day, cs) ← place 2 1 (Date.daysInMonth year month) cs
  return ({ year, month, day }, cs)

/-- The nanoseconds that the digits after the point stand for. -/
def nanosOf (digits : List Char) : Nat :=
  let kept := digits.take 9
  Nat.ofDigitChars 10 kept 0 * Nat.pow 10 (9 - kept.length)

/-- The fraction of a second in front, if there is one. -/
def scanFraction : List Char → Option (Nat × List Char)
  | '.' :: rest =>
    match rest.takeWhile Char.isDigit with
    | [] => none
    | digits => some (nanosOf digits, rest.drop digits.length)
  | cs => some (0, cs)

/-- A time of day in front. -/
def scanClock (cs : List Char) : Option (Clock × List Char) := do
  let (hour, cs) ← place 2 0 23 cs
  let cs ← afterMark ':' cs
  let (minute, cs) ← place 2 0 59 cs
  let cs ← afterMark ':' cs
  let (second, cs) ← place 2 0 60 cs
  let (nanos, cs) ← scanFraction cs
  return ({ hour, minute, second, nanos }, cs)

/-- Hours and minutes after the sign of an offset. -/
def scanSpan (sign : Int) (cs : List Char) : Option (Offset × List Char) := do
  let (hours, cs) ← place 2 0 23 cs
  let cs ← afterMark ':' cs
  let (minutes, cs) ← place 2 0 59 cs
  return (.minutes (sign * (hours * 60 + minutes : Nat)), cs)

/-- An offset in front. -/
def scanOffset : List Char → Option (Offset × List Char)
  | 'Z' :: rest | 'z' :: rest => some (.zero, rest)
  | '+' :: rest => scanSpan 1 rest
  | '-' :: rest => scanSpan (-1) rest
  | _ => none

/-- The time of day that may follow a day, after the mark between them. -/
def scanRest (date : Date) (cs : List Char) : Option (Moment × List Char) :=
  match cs with
  | 'T' :: rest | 't' :: rest | ' ' :: rest =>
    (scanClock rest).map fun (time, after) =>
      match scanOffset after with
      | some (offset, after) => (.both date time (some offset), after)
      | none => (.both date time none, after)
  | _ => none

/-- **A moment in front**: as long a one as there is. -/
def Moment.scan (cs : List Char) : Option (Moment × List Char) :=
  match scanDate cs with
  | some (date, after) => some ((scanRest date after).getD (.day date, after))
  | none => (scanClock cs).map fun (time, after) => (.clock time, after)

end DeviceProvisioning.Toml
