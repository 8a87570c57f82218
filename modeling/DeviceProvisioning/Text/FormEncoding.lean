import DeviceProvisioning.Text.Split
import DeviceProvisioning.Text.Utf8

/-!
# Form encoding

The query part of a topic is `application/x-www-form-urlencoded`: pairs joined by `&`, key
and value joined by `=`.

Writing a key or value (`encode`) keeps letters, digits and `*-._`, turns a space into `+`,
and writes every other octet of its UTF-8 form as `%` and two upper-case hexadecimal
digits.

Reading (`pairs`) skips empty segments, cuts each segment at its first `=`, and decodes
both sides: `+` is a space, `%` with two hexadecimal digits is an octet, a `%` without them
stands for itself, and the octets are read as UTF-8 with U+FFFD for what is malformed.
-/

namespace DeviceProvisioning.Text.Form

/-- The octets that are written as they are. -/
def isPlain (b : UInt8) : Bool :=
  (0x30 ≤ b && b ≤ 0x39) || (0x41 ≤ b && b ≤ 0x5A) || (0x61 ≤ b && b ≤ 0x7A)
    || b == 0x2A || b == 0x2D || b == 0x2E || b == 0x5F

/-- The upper-case hexadecimal digit of a number below sixteen. -/
def hexDigit (n : Nat) : Char :=
  Char.ofNat (if n < 10 then 0x30 + n else 0x37 + n)

/-- The percent escape of an octet. -/
def escape (b : UInt8) : List Char :=
  ['%', hexDigit (b.toNat / 16), hexDigit (b.toNat % 16)]

/-- One octet, written. -/
def encodeOctet (b : UInt8) : List Char :=
  if b == 0x20 then ['+'] else if isPlain b then [Char.ofNat b.toNat] else escape b

/-- A key or value, written. -/
def encode (s : String) : String :=
  String.ofList ((Utf8.encode s).flatMap encodeOctet)

/-- The value of a hexadecimal digit of either case, given as an octet. -/
def hexValue? (b : UInt8) : Option Nat :=
  if 0x30 ≤ b && b ≤ 0x39 then some (b.toNat - 0x30)
  else if 0x41 ≤ b && b ≤ 0x46 then some (b.toNat - 0x37)
  else if 0x61 ≤ b && b ≤ 0x66 then some (b.toNat - 0x57)
  else none

/-- Octets with their percent escapes resolved. -/
def unescape : Octets → Octets
  | [] => []
  | b :: rest =>
    if b == 0x25 then
      match rest with
      | h :: l :: rest' =>
        match hexValue? h, hexValue? l with
        | some high, some low => UInt8.ofNat (high * 16 + low) :: unescape rest'
        | _, _ => b :: unescape (h :: l :: rest')
      | short => b :: short
    else b :: unescape rest
termination_by octets => octets.length

/-- A key or value, read. -/
def decode (cs : List Char) : String :=
  let spaced := (Utf8.encode (String.ofList cs)).map fun b => if b == 0x2B then 0x20 else b
  Utf8.decodeLossy (unescape spaced)

/-- One segment of a query, read; a segment without `=` is a key with an empty value. -/
def pair (segment : List Char) : String × String :=
  match cutAt '=' segment with
  | some (key, value) => (decode key, decode value)
  | none => (decode segment, "")

/-- **The pairs of a query,** in the order in which they stand. -/
def pairs (query : List Char) : List (String × String) :=
  ((query.splitOn '&').filter (· ≠ [])).map pair

/-- The value of the last pair with this key. -/
def lastValue? (key : String) (ps : List (String × String)) : Option String :=
  ps.reverse.lookup key

end DeviceProvisioning.Text.Form
