import DeviceProvisioning.Json.Basic
import DeviceProvisioning.Number.Hexadecimal

/-!
# Writing JSON

`render` is the compact form: no blanks, members in the order of the object.  `renderPretty`
puts every item and member on a line of its own, two spaces deeper than what encloses it.

In a string only the quotation mark, the backslash and the control characters below U+0020
are escaped, five of them by a letter and the others by four hexadecimal digits.

A floating-point number is written with the fewest digits that read back, with the point in
place while it stands between four places before the first digit and the sixteenth digit.
-/

namespace DeviceProvisioning.Json

open DeviceProvisioning.Number

/-- Where the decimal point may stand before a number is written with an exponent. -/
def layout : Binary64.Layout := ⟨-4, 16⟩

/-- One character of a string, written. -/
def escapeChar (c : Char) : List Char :=
  if c = '"' then ['\\', '"']
  else if c = '\\' then ['\\', '\\']
  else if c = '\x08' then ['\\', 'b']
  else if c = '\t' then ['\\', 't']
  else if c = '\n' then ['\\', 'n']
  else if c = '\x0c' then ['\\', 'f']
  else if c = '\r' then ['\\', 'r']
  else if c.toNat < 0x20 then
    ['\\', 'u', '0', '0', hexDigit (c.toNat / 16), hexDigit (c.toNat % 16)]
  else [c]

/-- A string, written. -/
def quote (s : String) : List Char :=
  '"' :: (s.toList.flatMap escapeChar ++ ['"'])

mutual

/-- **The compact text of a value.** -/
def chars : Json → List Char
  | .null => ['n', 'u', 'l', 'l']
  | .bool true => ['t', 'r', 'u', 'e']
  | .bool false => ['f', 'a', 'l', 's', 'e']
  | .int n => signedDecimal n
  | .float x => if x.isFinite then (x.render layout).toList else ['n', 'u', 'l', 'l']
  | .str s => quote s
  | .arr [] => ['[', ']']
  | .arr (v :: rest) => '[' :: (chars v ++ itemChars rest)
  | .obj [] => ['{', '}']
  | .obj ((k, v) :: rest) => '{' :: (quote k ++ ':' :: (chars v ++ memberChars rest))

/-- The items after the first, and the closing bracket. -/
def itemChars : List Json → List Char
  | [] => [']']
  | v :: rest => ',' :: (chars v ++ itemChars rest)

/-- The members after the first, and the closing brace. -/
def memberChars : List (String × Json) → List Char
  | [] => ['}']
  | (k, v) :: rest => ',' :: (quote k ++ ':' :: (chars v ++ memberChars rest))

end

/-- The compact text of a value. -/
def render (v : Json) : String :=
  String.ofList v.chars

/-- A line break and the indentation of a level. -/
def newline (level : Nat) : List Char :=
  '\n' :: List.replicate (2 * level) ' '

mutual

/-- The text of a value on several lines, inside `level` enclosing values. -/
def prettyChars (level : Nat) : Json → List Char
  | .arr (v :: rest) =>
    '[' :: (newline (level + 1) ++ prettyChars (level + 1) v ++ prettyItems level rest)
  | .obj ((k, v) :: rest) =>
    '{' :: (newline (level + 1) ++ quote k ++ ':' :: ' ' :: prettyChars (level + 1) v
      ++ prettyMembers level rest)
  | v => chars v

/-- The items after the first, and the closing bracket on its own line. -/
def prettyItems (level : Nat) : List Json → List Char
  | [] => newline level ++ [']']
  | v :: rest =>
    ',' :: (newline (level + 1) ++ prettyChars (level + 1) v ++ prettyItems level rest)

/-- The members after the first, and the closing brace on its own line. -/
def prettyMembers (level : Nat) : List (String × Json) → List Char
  | [] => newline level ++ ['}']
  | (k, v) :: rest =>
    ',' :: (newline (level + 1) ++ quote k ++ ':' :: ' ' :: prettyChars (level + 1) v
      ++ prettyMembers level rest)

end

/-- The text of a value on several lines. -/
def renderPretty (v : Json) : String :=
  String.ofList (prettyChars 0 v)

end DeviceProvisioning.Json
