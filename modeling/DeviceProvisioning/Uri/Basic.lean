import DeviceProvisioning.Uri.Host

/-!
# URIs

`Uri.parse?` follows the URL Standard as far as scheme, host and port are concerned.
Control characters and spaces around the text do not belong to it, and tabs and line breaks
inside it are ignored.  An authority follows two slashes; it may begin with credentials, and
these must be followed by a host.  A port is at most 65535 and may be empty.

The schemes of the web (`http`, `https`, `ws`, `wss`, `ftp` and `file`) have rules of their
own: slashes and backslashes count as the same, any number of them leads to the authority,
and the host must be a domain.
-/

namespace DeviceProvisioning

open DeviceProvisioning.Text DeviceProvisioning.Number

/-- **The parts of a URI that lead to a host.** -/
structure Uri where
  scheme : String
  host : Option String
  port : Option Nat
deriving DecidableEq

namespace Uri

/-- A control character or a space. -/
def isMargin (c : Char) : Bool :=
  c.toNat ≤ 0x20

/-- The text without its margins and without tabs and line breaks. -/
def clean (cs : List Char) : List Char :=
  let trimmed := ((cs.dropWhile isMargin).reverse.dropWhile isMargin).reverse
  trimmed.filter fun c => c ≠ '\t' ∧ c ≠ '\n' ∧ c ≠ '\r'

/-- The scheme in lower case, and the text after its colon. -/
def scheme? (cs : List Char) : Option (List Char × List Char) := do
  let (scheme, rest) ← cutAt ':' cs
  let first ← scheme.head?
  if first.isAlpha ∧ scheme.all fun c => c.isAlphanum || c == '+' || c == '-' || c == '.' then
    some (scheme.map Char.toLower, rest)
  else none

/-- Whether a character ends the authority. -/
def endsAuthority (web : Bool) (c : Char) : Bool :=
  c == '/' || c == '?' || c == '#' || (web && c == '\\')

/-- The credentials of an authority and the text after their last `@`, if there is one. -/
def credentials? (authority : List Char) : Option (List Char × List Char) :=
  match cutAt '@' authority.reverse with
  | some (after, before) => some (before.reverse, after.reverse)
  | none => none

/-- The host in front of an authority and the text after it; a colon in brackets belongs to
the host. -/
def takeHost : Bool → List Char → List Char × List Char
  | _, [] => ([], [])
  | inBrackets, c :: rest =>
    if c = ':' ∧ ¬inBrackets then ([], c :: rest)
    else
      let (host, after) := takeHost (if c = '[' then true else if c = ']' then false else inBrackets) rest
      (c :: host, after)

/-- The port after a colon; what follows a backslash does not belong to it. -/
def port? (cs : List Char) : Option (Option Nat) :=
  let digits := cs.takeWhile Char.isDigit
  match cs.drop digits.length with
  | [] | '\\' :: _ =>
    if digits = [] then some none
    else if Nat.ofDigitChars 10 digits 0 ≤ 65535 then some (some (Nat.ofDigitChars 10 digits 0))
    else none
  | _ => none

/-- The host and port after two slashes. -/
def authority? (web : Bool) (cs : List Char) : Option (Option String × Option Nat) := do
  let authority := cs.takeWhile (!endsAuthority web ·)
  let (named, place) ←
    match credentials? authority with
    | none => some (false, authority)
    | some ([], place) =>
      if place = [] ∧ authority.length < cs.length then none else some (false, place)
    | some (credentials, place) => some (credentials ≠ [':'], place)
  let (host, rest) := takeHost false place
  if host = [] ∧ (named ∨ web ∨ rest ≠ []) then none
  else
    let port ← match rest with
      | ':' :: digits => port? digits
      | _ => some none
    if host = [] then return (none, none)
    else if web then (if isDomain host then return (some (String.ofList host), port) else none)
    else
      let host ← opaqueHost? host
      return (some host, port)

/-- The schemes of the web with an authority. -/
def webSchemes : List String := ["http", "https", "ws", "wss", "ftp"]

/-- Whether the text names a drive, as `c:` or `c|`. -/
def isDrive (cs : List Char) : Bool :=
  match cs with
  | [letter, mark] => letter.isAlpha && (mark == ':' || mark == '|')
  | _ => false

/-- Whether the text after `file:` is that of a URI. -/
def isFile (cs : List Char) : Bool :=
  match cs with
  | a :: b :: rest =>
    if (a == '/' || a == '\\') && (b == '/' || b == '\\') then
      let host := rest.takeWhile (!endsAuthority true ·)
      host = [] || isDrive host || isDomain host
    else true
  | _ => true

/-- **Reads a URI.** -/
def parse? (text : String) : Option Uri := do
  let (schemeChars, rest) ← scheme? (clean text.toList)
  let scheme := String.ofList schemeChars
  if scheme = "file" then
    if isFile rest then return { scheme, host := none, port := none } else none
  else if scheme ∈ webSchemes then
    let (host, port) ← authority? true (rest.dropWhile fun c => c = '/' ∨ c = '\\')
    return { scheme, host, port }
  else match rest with
    | '/' :: '/' :: rest =>
      let (host, port) ← authority? false rest
      return { scheme, host, port }
    | _ => return { scheme, host := none, port := none }

end Uri
end DeviceProvisioning
