import DeviceProvisioning.Toml.Number
import DeviceProvisioning.Toml.Table
import DeviceProvisioning.Toml.Text

/-!
# Reading TOML

`Toml.parse?` reads a document.  A document is a list of lines, and each of them is a header,
a key with its value, or empty.  Arrays may span lines and hold comments; a table between
braces stays on one line, apart from what its arrays and its strings do, and is closed when
its brace is.

`value`, `items` and `pairs` call each other; the first argument bounds the number of calls
and is enough when it is twice the length of the text and two more.  The second one says how
many brackets and braces may still be opened.
-/

namespace DeviceProvisioning.Toml

/-- The text after a word that stands in front. -/
def afterWord (word : String) (cs : List Char) : Option (List Char) :=
  word.toList.isPrefixOf? cs

/-- A value without values inside. -/
def scanScalar (cs : List Char) : Option (Toml × List Char) :=
  match cs with
  | '"' :: _ | '\'' :: _ => (string cs).map fun (s, after) => (.str s, after)
  | 't' :: rest => (afterWord "rue" rest).map (.bool true, ·)
  | 'f' :: rest => (afterWord "alse" rest).map (.bool false, ·)
  | _ =>
    match Moment.scan cs with
    | some (m, after) => some (.moment m, after)
    | none => scanNumber cs

mutual

/-- **A value in front.** -/
def value : Nat → Nat → List Char → Option (Toml × List Char)
  | 0, _, _ => none
  | fuel + 1, depth, cs =>
    match cs, depth with
    | '[' :: rest, depth + 1 =>
      (items fuel depth rest).map fun (vs, after) => (.arr false vs, after)
    | '{' :: rest, depth + 1 =>
      match skipBlanks rest with
      | '}' :: after => some (.table .closed [], after)
      | _ =>
        (pairs fuel depth ⟨.closed, []⟩ rest).map fun (draft, after) => (draft.toToml, after)
    | '[' :: _, 0 => none
    | '{' :: _, 0 => none
    | cs, _ => scanScalar cs

/-- The items of an array from here on, with the closing bracket. -/
def items : Nat → Nat → List Char → Option (List Toml × List Char)
  | 0, _, _ => none
  | fuel + 1, depth, cs => do
    match ← skipFiller fuel cs with
    | ']' :: rest => return ([], rest)
    | cs =>
      let (v, cs) ← value fuel depth cs
      match ← skipFiller fuel cs with
      | ',' :: rest =>
        let (vs, after) ← items fuel depth rest
        return (v :: vs, after)
      | ']' :: rest => return ([v], rest)
      | _ => none

/-- The members of a table between braces from here on, with the closing brace. -/
def pairs : Nat → Nat → Draft → List Char → Option (Draft × List Char)
  | 0, _, _, _ => none
  | fuel + 1, depth, draft, cs => do
    let (path, cs) ← key cs
    let cs ← afterMark '=' cs
    let (v, cs) ← value fuel depth (skipBlanks cs)
    let name ← path.getLast?
    let draft ← draft.assign path.dropLast name v
    match skipBlanks cs with
    | ',' :: rest => pairs fuel depth draft rest
    | '}' :: rest => return (draft, rest)
    | _ => none

end

/-- A header in double brackets, after them. -/
def itemHeader (d : Document) (cs : List Char) : Option (Document × List Char) := do
  let (path, cs) ← key cs
  let cs ← endLine (← afterWord "]]" cs)
  return (← d.openItem path, cs)

/-- A header in single brackets, after the first. -/
def tableHeader (d : Document) (cs : List Char) : Option (Document × List Char) := do
  let (path, cs) ← key cs
  let cs ← endLine (← afterMark ']' cs)
  return (← d.openTable path, cs)

/-- A key and its value. -/
def assignment (d : Document) (cs : List Char) : Option (Document × List Char) := do
  let (path, cs) ← key cs
  let cs ← afterMark '=' cs
  let (v, cs) ← value (2 * cs.length + 2) depthLimit (skipBlanks cs)
  let cs ← endLine cs
  return (← d.assign path v, cs)

/-- One line, or the lines of one value. -/
def line (d : Document) (cs : List Char) : Option (Document × List Char) :=
  match skipBlanks cs with
  | '[' :: '[' :: rest => itemHeader d rest
  | '[' :: rest => tableHeader d rest
  | '#' :: rest => (endLine ('#' :: rest)).map (d, ·)
  | cs =>
    match afterBreak cs with
    | some rest => some (d, rest)
    | none => assignment d cs

/-- The lines of a document. -/
def lines : Nat → Document → List Char → Option Document
  | 0, _, _ => none
  | fuel + 1, d, cs =>
    if skipBlanks cs = [] then some d
    else do
      let (d, cs) ← line d cs
      lines fuel d cs

/-- The text without the mark of its octet order. -/
def dropOrderMark : List Char → List Char
  | '\uFEFF' :: rest => rest
  | cs => cs

/-- **The table that a document writes.** -/
def parse? (text : String) : Option Toml :=
  (lines (text.length + 1) {} (dropOrderMark text.toList)).map (·.root.toToml)

end DeviceProvisioning.Toml
