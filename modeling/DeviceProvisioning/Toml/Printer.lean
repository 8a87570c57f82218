import DeviceProvisioning.Number.Hexadecimal
import DeviceProvisioning.Toml.Basic
import DeviceProvisioning.Toml.Text

/-!
# Writing TOML

`render` writes a document.  The values of a table come first, and a section follows for
every table in it.  A table that holds nothing but tables has no section of its own; an array
of tables has one section for each of them.  Sections are parted by an empty line.

Inside a value, an array of two or more items has a line for each of them, always four spaces
deep, and a table stands between braces.

A **string** is written in the first of these forms that can hold it as it is, up to escapes
of tabs: basic, literal, basic on several lines, literal on several lines.  When none of them
can, it is a basic string with escapes, on several lines if it has line breaks.
-/

namespace DeviceProvisioning.Toml

open DeviceProvisioning.Number

/-! ## Strings -/

/-- A control character that is neither a tab nor a line feed. -/
def isControl (c : Char) : Bool :=
  c != '\t' && c != '\n' && (c.toNat < 0x20 || c.toNat == 0x7F)

/-- The length of the longest run of a mark, after a run of `run` marks. -/
def longestRun (mark : Char) (run : Nat) : List Char → Nat
  | [] => run
  | c :: rest =>
    if c = mark then longestRun mark (run + 1) rest else max run (longestRun mark 0 rest)

/-- What is escaped in a basic string: a letter after a backslash, or a number. -/
def escapeOf (c : Char) : List Char :=
  if c = '\x08' then ['\\', 'b']
  else if c = '\t' then ['\\', 't']
  else if c = '\n' then ['\\', 'n']
  else if c = '\x0c' then ['\\', 'f']
  else if c = '\r' then ['\\', 'r']
  else if c = '"' then ['\\', '"']
  else if c = '\\' then ['\\', '\\']
  else '\\' :: 'u' :: (hexDigits 4 c.toNat).map Char.toUpper

/-- The inside of a basic string.  At most `most` marks stand in a row, and `run` of them
have just been written; line breaks stand as they are if the string spans lines. -/
def escaped (most : Nat) (spans : Bool) (run : Nat) : List Char → List Char
  | [] => []
  | c :: rest =>
    if c = '"' then
      if run < most then c :: escaped most spans (run + 1) rest
      else escapeOf c ++ escaped most spans 0 rest
    else if (spans && c == '\n') || !(c == '\t' || c == '\n' || c == '\\' || isControl c) then
      c :: escaped most spans 0 rest
    else escapeOf c ++ escaped most spans 0 rest

/-- The line break that follows the opening marks of a string with line breaks. -/
def opening (cs : List Char) : List Char :=
  if '\n' ∈ cs then ['\n'] else []

/-- A basic string on one line. -/
def basicChars (cs : List Char) : List Char :=
  '"' :: (escaped 0 false 0 cs ++ ['"'])

/-- A basic string that may span lines. -/
def basicLinesChars (cs : List Char) : List Char :=
  ['"', '"', '"'] ++ opening cs ++ escaped 2 true 0 cs ++ ['"', '"', '"']

/-- **A string, written.** -/
def stringChars (cs : List Char) : List Char :=
  let control := cs.any isControl
  let breaks := '\n' ∈ cs
  let slash := '\\' ∈ cs
  let doubles := longestRun '"' 0 cs
  let singles := longestRun '\'' 0 cs
  if !control && !slash && doubles == 0 && !breaks then basicChars cs
  else if !control && singles == 0 && !breaks then '\'' :: (cs ++ ['\''])
  else if !control && !slash && doubles ≤ 2 then basicLinesChars cs
  else if !control && singles ≤ 2 then
    ['\'', '\'', '\''] ++ opening cs ++ cs ++ ['\'', '\'', '\'']
  else if breaks then basicLinesChars cs
  else basicChars cs

/-- **A key, written**: bare if it can be, and else as a string on one line. -/
def keyChars (key : String) : List Char :=
  let cs := key.toList
  let control := cs.any fun c => isControl c || c == '\n'
  if cs ≠ [] ∧ cs.all isBare then cs
  else if control then basicChars cs
  else if '\\' ∉ cs ∧ '"' ∉ cs then basicChars cs
  else if '\'' ∉ cs then '\'' :: (cs ++ ['\''])
  else basicChars cs

/-! ## Values -/

/-- Floats are never written with an exponent. -/
def layout : Binary64.Layout := ⟨-400, 400⟩

/-- A float, written. -/
def floatChars (x : Binary64) : List Char :=
  if x.isFinite then (x.render layout).toList
  else (if x.isNegative then ['-'] else []) ++ (if x.isNaN then "nan" else "inf").toList

/-- The line break and the indentation in front of an item. -/
def itemBreak : List Char := ['\n', ' ', ' ', ' ', ' ']

mutual

/-- **A value, written.** -/
def chars : Toml → List Char
  | .str s => stringChars s.toList
  | .int n => signedDecimal n
  | .float x => floatChars x
  | .bool true => ['t', 'r', 'u', 'e']
  | .bool false => ['f', 'a', 'l', 's', 'e']
  | .moment m => m.render.toList
  | .arr _ [] => ['[', ']']
  | .arr _ [v] => '[' :: (chars v ++ [']'])
  | .arr _ (v :: w :: rest) =>
    '[' :: (itemBreak ++ chars v ++ ',' :: itemBreak ++ chars w ++ ',' :: itemChars rest)
  | .table _ [] => ['{', '}']
  | .table _ ((k, v) :: rest) =>
    '{' :: ' ' :: (keyChars k ++ [' ', '=', ' '] ++ chars v ++ pairChars rest)

/-- The items after the second, and the closing bracket on its own line. -/
def itemChars : List Toml → List Char
  | [] => ['\n', ']']
  | v :: rest => itemBreak ++ chars v ++ ',' :: itemChars rest

/-- The members after the first, and the closing brace. -/
def pairChars : Members → List Char
  | [] => [' ', '}']
  | (k, v) :: rest => [',', ' '] ++ keyChars k ++ [' ', '=', ' '] ++ chars v ++ pairChars rest

end

/-! ## Documents -/

/-- Whether a value is a table. -/
def isTable : Toml → Bool
  | .table _ _ => true
  | _ => false

/-- Whether a member has sections of its own: a table, or an array of nothing but tables. -/
def hasSection : Toml → Bool
  | .table _ _ => true
  | .arr _ items => !items.isEmpty && items.all isTable
  | _ => false

/-- The lines of the members that have no sections. -/
def valueLines (members : Members) : List Char :=
  (members.filter fun (_, v) => !hasSection v).flatMap fun (k, v) =>
    keyChars k ++ [' ', '=', ' '] ++ chars v ++ ['\n']

/-- The path of a table, with its dots. -/
def pathChars (path : List String) : List Char :=
  ['.'].intercalate (path.map keyChars)

/-- The section of a table by itself.  A table whose members all have sections has none,
unless it is an item of an array. -/
def ownSection (path : List String) (isItem : Bool) (members : Members) : List Char :=
  let own := valueLines members
  let header :=
    if path = [] then []
    else if isItem then ['[', '['] ++ pathChars path ++ [']', ']', '\n']
    else if own = [] ∧ members ≠ [] then []
    else '[' :: (pathChars path ++ [']', '\n'])
  header ++ own

mutual

/-- The sections of a member. -/
def sections (path : List String) (isItem : Bool) : Toml → List (List Char)
  | .table _ members => ownSection path isItem members :: innerSections path members
  | .arr _ items =>
    if !items.isEmpty && items.all isTable then itemSections path items else []
  | _ => []

/-- The sections of the items of an array of tables. -/
def itemSections (path : List String) : List Toml → List (List Char)
  | [] => []
  | v :: rest => sections path true v ++ itemSections path rest

/-- The sections of the members of a table. -/
def innerSections (path : List String) : Members → List (List Char)
  | [] => []
  | (k, v) :: rest => sections (path ++ [k]) false v ++ innerSections path rest

end

/-- **The document that writes a table.** -/
def render (table : Toml) : String :=
  String.ofList (['\n'].intercalate ((sections [] false table).filter (· ≠ [])))

end DeviceProvisioning.Toml
