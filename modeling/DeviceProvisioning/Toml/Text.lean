import DeviceProvisioning.Number.Hexadecimal

/-!
# Blanks, comments, strings and keys of TOML

Lines end with a line feed, which a carriage return may precede; a carriage return stands
nowhere else.  Control characters other than the tab stand in no comment and in no string.

A string is **basic**, with escapes, or **literal**, without; and either of them may span
lines when it is opened by three marks.  A line break right after the opening marks does not
count, and in a basic string a backslash at the end of a line takes away the line break and
all blanks up to the next character.  One or two marks may stand inside, and also right
before the closing marks.

The first argument of the recursive readers bounds how often they call themselves; the length
of the text is enough.
-/

namespace DeviceProvisioning.Toml

/-- The characters of comments, and of strings apart from marks and backslashes. -/
def isText (c : Char) : Bool :=
  c == '\t' || (0x20 ≤ c.toNat && c.toNat != 0x7F)

/-- The text without the spaces and tabs in front. -/
def skipBlanks : List Char → List Char
  | ' ' :: rest => skipBlanks rest
  | '\t' :: rest => skipBlanks rest
  | cs => cs

/-- The text after a line break that stands in front. -/
def afterBreak : List Char → Option (List Char)
  | '\n' :: rest => some rest
  | '\r' :: '\n' :: rest => some rest
  | _ => none

/-- The text without the spaces, tabs and line breaks in front. -/
def skipLines : List Char → List Char
  | ' ' :: rest => skipLines rest
  | '\t' :: rest => skipLines rest
  | '\n' :: rest => skipLines rest
  | '\r' :: '\n' :: rest => skipLines rest
  | cs => cs

/-- The text without the comment in front. -/
def skipComment : List Char → List Char
  | '#' :: rest => rest.dropWhile isText
  | cs => cs

/-- The text after the end of a line: blanks, a comment, and a line break or the end. -/
def endLine (cs : List Char) : Option (List Char) :=
  match skipComment (skipBlanks cs) with
  | [] => some []
  | cs => afterBreak cs

/-- The text without the blanks, line breaks and comments in front. -/
def skipFiller : Nat → List Char → Option (List Char)
  | 0, _ => none
  | fuel + 1, cs =>
    match skipLines cs with
    | '#' :: rest => do skipFiller fuel (← afterBreak (rest.dropWhile isText))
    | cs => some cs

/-! ## Strings -/

/-- The character that a number of `width` hexadecimal digits names. -/
def scalar (width : Nat) (cs : List Char) : Option (Char × List Char) := do
  let digits := cs.take width
  let n ← if digits.length = width then Number.ofDigits? 16 digits else none
  if n.isValidChar then some (Char.ofNat n, cs.drop width) else none

/-- The character that an escape stands for, after its backslash. -/
def escape : List Char → Option (Char × List Char)
  | 'b' :: rest => some ('\x08', rest)
  | 't' :: rest => some ('\t', rest)
  | 'n' :: rest => some ('\n', rest)
  | 'f' :: rest => some ('\x0c', rest)
  | 'r' :: rest => some ('\r', rest)
  | '"' :: rest => some ('"', rest)
  | '\\' :: rest => some ('\\', rest)
  | 'u' :: rest => scalar 4 rest
  | 'U' :: rest => scalar 8 rest
  | _ => none

/-- The rest of a basic string on one line. -/
def basicTail : Nat → List Char → Option (List Char × List Char)
  | 0, _ => none
  | fuel + 1, cs =>
    match cs with
    | '"' :: rest => some ([], rest)
    | '\\' :: rest => do
      let (c, rest) ← escape rest
      let (s, after) ← basicTail fuel rest
      return (c :: s, after)
    | c :: rest =>
      if isText c then (basicTail fuel rest).map fun (s, after) => (c :: s, after) else none
    | [] => none

/-- The rest of a literal string on one line. -/
def literalTail : List Char → Option (List Char × List Char)
  | '\'' :: rest => some ([], rest)
  | c :: rest =>
    if isText c then (literalTail rest).map fun (s, after) => (c :: s, after) else none
  | [] => none

/-- The marks that still belong to a string, and the text after its three closing marks. -/
def closing (mark : Char) (cs : List Char) : Option (List Char × List Char) :=
  let marks := cs.takeWhile (· == mark)
  if marks.length < 3 then none
  else
    let inside := min (marks.length - 3) 2
    some (marks.take inside, cs.drop (inside + 3))

/-- The text after a line break that a backslash takes away. -/
def afterJoin (cs : List Char) : Option (List Char) :=
  (afterBreak (skipBlanks cs)).map skipLines

/-- The rest of a basic string that may span lines. -/
def basicLines : Nat → List Char → Option (List Char × List Char)
  | 0, _ => none
  | fuel + 1, cs =>
    match closing '"' cs, cs with
    | some closed, _ => some closed
    | none, '\\' :: rest =>
      match afterJoin rest with
      | some rest => basicLines fuel rest
      | none => do
        let (c, rest) ← escape rest
        let (s, after) ← basicLines fuel rest
        return (c :: s, after)
    | none, c :: rest =>
      match afterBreak cs with
      | some rest => (basicLines fuel rest).map fun (s, after) => ('\n' :: s, after)
      | none =>
        if isText c then (basicLines fuel rest).map fun (s, after) => (c :: s, after) else none
    | none, [] => none

/-- The rest of a literal string that may span lines. -/
def literalLines : Nat → List Char → Option (List Char × List Char)
  | 0, _ => none
  | fuel + 1, cs =>
    match closing '\'' cs, cs with
    | some closed, _ => some closed
    | none, c :: rest =>
      match afterBreak cs with
      | some rest => (literalLines fuel rest).map fun (s, after) => ('\n' :: s, after)
      | none =>
        if isText c then (literalLines fuel rest).map fun (s, after) => (c :: s, after) else none
    | none, [] => none

/-- The text without the line break in front, if there is one. -/
def dropBreak (cs : List Char) : List Char :=
  (afterBreak cs).getD cs

/-- A string, of any of the four kinds. -/
def string (cs : List Char) : Option (String × List Char) :=
  let tail := match cs with
    | '"' :: '"' :: '"' :: rest => basicLines (rest.length + 1) (dropBreak rest)
    | '\'' :: '\'' :: '\'' :: rest => literalLines (rest.length + 1) (dropBreak rest)
    | '"' :: rest => basicTail (rest.length + 1) rest
    | '\'' :: rest => literalTail rest
    | _ => none
  tail.map fun (s, after) => (String.ofList s, after)

/-! ## Keys -/

/-- The characters of keys without marks. -/
def isBare (c : Char) : Bool :=
  c.isAlphanum || c == '-' || c == '_'

/-- One part of a key. -/
def keyPart (cs : List Char) : Option (String × List Char) :=
  let part := match cs with
    | '"' :: rest => basicTail (rest.length + 1) rest
    | '\'' :: rest => literalTail rest
    | cs =>
      match cs.takeWhile isBare with
      | [] => none
      | bare => some (bare, cs.drop bare.length)
  part.map fun (s, after) => (String.ofList s, after)

/-- The parts of a key, joined by dots, of which there may be `most`. -/
def keyParts : Nat → List Char → Option (List String × List Char)
  | 0, _ => none
  | most + 1, cs => do
    let (part, cs) ← keyPart (skipBlanks cs)
    match skipBlanks cs with
    | '.' :: rest =>
      let (parts, after) ← keyParts most rest
      return (part :: parts, after)
    | after => return ([part], after)

/-- How deeply values may lie inside each other, and of how many parts a key may be. -/
def depthLimit : Nat := 79

/-- **A key,** with the blanks around it. -/
def key (cs : List Char) : Option (List String × List Char) :=
  keyParts depthLimit cs

end DeviceProvisioning.Toml
