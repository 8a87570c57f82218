import DeviceProvisioning.Number.Hexadecimal

/-!
# Request ids

A request carries an id of 128 bits in its topic, and the service repeats it in the topic of
its answer.  An id is written as thirty-two lower-case hexadecimal digits in five groups.  It
is read from four spellings, in either case: with and without hyphens, with hyphens inside
braces, and with hyphens after `urn:uuid:`.

A `Source` hands out ids one after the other.
-/

namespace DeviceProvisioning

/-- **The id of a request.** -/
structure RequestId where
  val : BitVec 128
deriving DecidableEq

namespace RequestId

/-- The id with this value. -/
def ofNat (n : Nat) : RequestId :=
  ⟨BitVec.ofNat 128 n⟩

/-- The five groups of thirty-two digits, joined by hyphens. -/
def group (digits : List Char) : List Char :=
  digits.take 8 ++ '-' :: (digits.drop 8).take 4 ++ '-' :: (digits.drop 12).take 4
    ++ '-' :: (digits.drop 16).take 4 ++ '-' :: digits.drop 20

/-- The written form, as characters. -/
def chars (id : RequestId) : List Char :=
  group (Number.hexDigits 32 id.val.toNat)

/-- **The written form of an id.** -/
def render (id : RequestId) : String :=
  String.ofList id.chars

/-- The id that thirty-two digits spell. -/
def ofDigits? (digits : List Char) : Option RequestId :=
  if digits.length = 32 then (Number.ofDigits? 16 digits).map ofNat else none

/-- The id that five groups joined by hyphens spell. -/
def ofGroups? (cs : List Char) : Option RequestId :=
  let digits := cs.take 8 ++ (cs.drop 9).take 4 ++ (cs.drop 14).take 4 ++ (cs.drop 19).take 4
    ++ cs.drop 24
  if cs.length = 36 ∧ cs = group digits then ofDigits? digits else none

/-- The id that a text spells, as characters. -/
def ofChars? (cs : List Char) : Option RequestId :=
  match cs with
  | '{' :: rest =>
    match rest.reverse with
    | '}' :: inner => ofGroups? inner.reverse
    | _ => none
  | _ =>
    if (cs.take 9).map Char.toLower = "urn:uuid:".toList then ofGroups? (cs.drop 9)
    else if cs.length = 32 then ofDigits? cs
    else ofGroups? cs

/-- **The id that a text spells.** -/
def parse? (text : String) : Option RequestId :=
  ofChars? text.toList

/-- **A source of ids**: a stream of them, and how many have been drawn. -/
structure Source where
  stream : Nat → RequestId
  drawn : Nat

namespace Source

/-- The ids 1, 2, 3 and so on. -/
def sequential : Source where
  stream n := ofNat (n + 1)
  drawn := 0

/-- The next id of the source. -/
def peek (s : Source) : RequestId :=
  s.stream s.drawn

/-- The source after its next id has been drawn. -/
def advance (s : Source) : Source :=
  { s with drawn := s.drawn + 1 }

end Source
end RequestId
end DeviceProvisioning
