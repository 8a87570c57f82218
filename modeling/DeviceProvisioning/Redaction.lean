import DeviceProvisioning.Text.Blank

/-!
# Redaction

A message may quote an access signature.  Before it is written to a log, every value of a
secret is replaced by three stars.  A secret is a **keyword** (`sig`, `signature`, `skn`,
`password` or `key`), an equals sign, and at least one character of a value; the value ends
before `&` and before a blank.

Keywords are recognised in any spelling that Unicode's simple case folding allows, which
adds to the two ASCII cases the long s (U+017F) and the Kelvin sign (U+212A).

`redact` scans from the left: where a secret begins, its value is dropped and the scan goes
on after it; elsewhere the character stays.
-/

namespace DeviceProvisioning.Redaction

open DeviceProvisioning.Text

/-- A character with its case folded, as far as the keywords can tell. -/
def fold (c : Char) : Char :=
  if c = '\u017F' then 's' else if c = '\u212A' then 'k' else c.toLower

/-- The words after which an equals sign announces a secret. -/
def keywords : List (List Char) :=
  ["sig", "signature", "skn", "password", "key"].map String.toList

/-- A character that ends a value. -/
def isSeparator (c : Char) : Bool :=
  c == '&' || isBlank c

/-- The characters that spell `word` in front of a text, and the text after them. -/
def spelling? : List Char → List Char → Option (List Char × List Char)
  | [], cs => some ([], cs)
  | _ :: _, [] => none
  | w :: word, c :: cs =>
    if fold c = w then (spelling? word cs).map fun (spelt, rest) => (c :: spelt, rest) else none

/-- The keyword in front of a text with the equals sign after it, and the text from the
value on, when a value follows. -/
def secret? (cs : List Char) : Option (List Char × List Char) :=
  keywords.findSome? fun word =>
    match spelling? word cs with
    | some (spelt, '=' :: v :: rest) =>
      if isSeparator v then none else some (spelt ++ ['='], v :: rest)
    | _ => none

/-- What takes the place of a value. -/
def stars : List Char := ['*', '*', '*']

/-- The scan; the first argument bounds the length of the text. -/
def scan : Nat → List Char → List Char
  | 0, cs => cs
  | _ + 1, [] => []
  | fuel + 1, c :: cs =>
    match secret? (c :: cs) with
    | some (kept, value) => kept ++ stars ++ scan fuel (value.dropWhile (!isSeparator ·))
    | none => c :: scan fuel cs

/-- **The message without the values of its secrets.** -/
def redact (message : String) : String :=
  let cs := message.toList
  String.ofList (scan cs.length cs)

end DeviceProvisioning.Redaction
