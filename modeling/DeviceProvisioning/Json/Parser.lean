import DeviceProvisioning.Json.Number
import DeviceProvisioning.Number.Hexadecimal

/-!
# Reading JSON

A **reader** takes one value off the front of a text.  It is told how many brackets it may
still open: a text may have 127 brackets open at one time.  Inside a string every character
must be UTF-8 and no control character, and an escaped surrogate must be one half of a pair.

**Passing over a value** is more lenient than reading it.  `skip` follows the grammar alone:
it does not count brackets, does not care whether a number has a value or a surrogate its
other half, and lets malformed octets stand inside strings.

`items`, `members` and `value` call each other; the first argument bounds the number of calls
and is never exhausted when it is at least twice the length of the text and two more.
-/

namespace DeviceProvisioning.Json

open DeviceProvisioning.Number (hexValue?)

/-- The symbols after `word`, if the text begins with it. -/
def dropWord (word : String) (s : Symbols) : Option Symbols :=
  (word.toList.map some).isPrefixOf? s

/-- Four hexadecimal digits. -/
def hexFour : Symbols → Option (Nat × Symbols)
  | some a :: some b :: some c :: some d :: rest => do
    let a ← hexValue? a
    let b ← hexValue? b
    let c ← hexValue? c
    let d ← hexValue? d
    return (((a * 16 + b) * 16 + c) * 16 + d, rest)
  | _ => none

/-- The character that a letter stands for after a backslash. -/
def letterEscape? : Char → Option Char
  | '"' => some '"'
  | '\\' => some '\\'
  | '/' => some '/'
  | 'b' => some '\x08'
  | 'f' => some '\x0c'
  | 'n' => some '\n'
  | 'r' => some '\r'
  | 't' => some '\t'
  | _ => none

/-- The character of an escape by number, after the `u`; two surrogates make one character. -/
def numberEscape (s : Symbols) : Option (Char × Symbols) := do
  let (high, s) ← hexFour s
  if 0xD800 ≤ high ∧ high < 0xDC00 then
    match s with
    | some '\\' :: some 'u' :: s =>
      let (low, s) ← hexFour s
      if 0xDC00 ≤ low ∧ low < 0xE000 then
        return (Char.ofNat (0x10000 + (high - 0xD800) * 0x400 + (low - 0xDC00)), s)
      else none
    | _ => none
  else if 0xDC00 ≤ high ∧ high < 0xE000 then none
  else return (Char.ofNat high, s)

/-- The rest of a string after its opening mark; the first argument bounds its length. -/
def stringTail : Nat → Symbols → Option (List Char × Symbols)
  | 0, _ => none
  | fuel + 1, s =>
    match s with
    | some '"' :: rest => some ([], rest)
    | some '\\' :: some 'u' :: rest => do
      let (c, rest) ← numberEscape rest
      let (cs, rest) ← stringTail fuel rest
      return (c :: cs, rest)
    | some '\\' :: some e :: rest => do
      let c ← letterEscape? e
      let (cs, rest) ← stringTail fuel rest
      return (c :: cs, rest)
    | some c :: rest =>
      if c = '\\' ∨ c.toNat < 0x20 then none
      else do
        let (cs, rest) ← stringTail fuel rest
        return (c :: cs, rest)
    | _ => none

/-- **A string off the front of a text.** -/
def string : Symbols → Option (String × Symbols)
  | some '"' :: rest =>
    (stringTail (rest.length + 1) rest).map fun (cs, rest) => (String.ofList cs, rest)
  | _ => none

/-- The text after the rest of a string that is passed over. -/
def skipStringTail : Nat → Symbols → Option Symbols
  | 0, _ => none
  | fuel + 1, s =>
    match s with
    | some '"' :: rest => some rest
    | some '\\' :: some 'u' :: rest => do
      let (_, rest) ← hexFour rest
      skipStringTail fuel rest
    | some '\\' :: some e :: rest => do
      let _ ← letterEscape? e
      skipStringTail fuel rest
    | some c :: rest =>
      if c = '\\' ∨ c.toNat < 0x20 then none else skipStringTail fuel rest
    | none :: rest => skipStringTail fuel rest
    | [] => none

/-- The text after a string that is passed over. -/
def skipString : Symbols → Option Symbols
  | some '"' :: rest => skipStringTail (rest.length + 1) rest
  | _ => none

/-- The colon between a key and its value. -/
def colon (s : Symbols) : Option Symbols :=
  match skipBlank s with
  | some ':' :: rest => some rest
  | _ => none

mutual

/-- A value off the front of a text, opening at most `depth` brackets at one time. -/
def value : Nat → Nat → Symbols → Option (Json × Symbols)
  | 0, _, _ => none
  | fuel + 1, depth, s =>
    match skipBlank s with
    | some 'n' :: rest => (dropWord "ull" rest).map (.null, ·)
    | some 't' :: rest => (dropWord "rue" rest).map (.bool true, ·)
    | some 'f' :: rest => (dropWord "alse" rest).map (.bool false, ·)
    | some '"' :: rest => (string (some '"' :: rest)).map fun (t, after) => (.str t, after)
    | some '[' :: rest =>
      match depth with
      | 0 => none
      | depth + 1 =>
        match skipBlank rest with
        | some ']' :: after => some (.arr [], after)
        | _ => (items fuel depth rest).map fun (vs, after) => (.arr vs, after)
    | some '{' :: rest =>
      match depth with
      | 0 => none
      | depth + 1 =>
        match skipBlank rest with
        | some '}' :: after => some (.obj [], after)
        | _ => (members fuel depth rest).map fun (ms, after) => (ofMembers ms, after)
    | s => do
      let (literal, rest) ← Literal.scan s
      let v ← literal.value?
      return (v, rest)

/-- The items of an array from here on, with the closing bracket. -/
def items : Nat → Nat → Symbols → Option (List Json × Symbols)
  | 0, _, _ => none
  | fuel + 1, depth, s => do
    let (v, s) ← value fuel depth s
    match skipBlank s with
    | some ',' :: rest =>
      let (vs, rest) ← items fuel depth rest
      return (v :: vs, rest)
    | some ']' :: rest => return ([v], rest)
    | _ => none

/-- The members of an object from here on, in the order of the text, with the closing
brace. -/
def members : Nat → Nat → Symbols → Option (List (String × Json) × Symbols)
  | 0, _, _ => none
  | fuel + 1, depth, s => do
    let (k, s) ← string (skipBlank s)
    let s ← colon s
    let (v, s) ← value fuel depth s
    match skipBlank s with
    | some ',' :: rest =>
      let (ms, rest) ← members fuel depth rest
      return ((k, v) :: ms, rest)
    | some '}' :: rest => return ([(k, v)], rest)
    | _ => none

end

mutual

/-- The text after a value that is passed over. -/
def skipValue : Nat → Symbols → Option Symbols
  | 0, _ => none
  | fuel + 1, s =>
    match skipBlank s with
    | some 'n' :: rest => dropWord "ull" rest
    | some 't' :: rest => dropWord "rue" rest
    | some 'f' :: rest => dropWord "alse" rest
    | some '"' :: rest => skipString (some '"' :: rest)
    | some '[' :: rest =>
      match skipBlank rest with
      | some ']' :: after => some after
      | _ => skipItems fuel rest
    | some '{' :: rest =>
      match skipBlank rest with
      | some '}' :: after => some after
      | _ => skipMembers fuel rest
    | s => (Literal.scan s).map (·.2)

/-- The text after the items from here on and the closing bracket. -/
def skipItems : Nat → Symbols → Option Symbols
  | 0, _ => none
  | fuel + 1, s => do
    let s ← skipValue fuel s
    match skipBlank s with
    | some ',' :: rest => skipItems fuel rest
    | some ']' :: rest => return rest
    | _ => none

/-- The text after the members from here on and the closing brace. -/
def skipMembers : Nat → Symbols → Option Symbols
  | 0, _ => none
  | fuel + 1, s => do
    let s ← skipString (skipBlank s)
    let s ← colon s
    let s ← skipValue fuel s
    match skipBlank s with
    | some ',' :: rest => skipMembers fuel rest
    | some '}' :: rest => return rest
    | _ => none

end

/-- A number of calls that suffices for a text. -/
def enough (s : Symbols) : Nat :=
  2 * s.length + 2

/-- The number of brackets that may be open at one time. -/
def maxDepth : Nat := 127

/-- **A reader** takes a value off the front of a text; the number tells how many brackets it
may still open. -/
abbrev Reader (α : Type) := Nat → Symbols → Option (α × Symbols)

/-- Reads any value. -/
def Reader.any : Reader Json := fun depth s =>
  value (enough s) depth s

/-- Passes over any value. -/
def skip (s : Symbols) : Option Symbols :=
  skipValue (enough s) s

/-- What a reader makes of a whole text: nothing but blanks may follow. -/
def Reader.run {α : Type} (read : Reader α) (s : Symbols) : Option α := do
  let (a, rest) ← read maxDepth s
  if skipBlank rest = [] then some a else none

/-- **The value of a text** given as octets. -/
def parse? (octets : Text.Octets) : Option Json :=
  Reader.any.run (Text.Utf8.decode octets)

/-- The value of a text. -/
def ofText? (text : String) : Option Json :=
  Reader.any.run (Text.symbols text)

end DeviceProvisioning.Json
