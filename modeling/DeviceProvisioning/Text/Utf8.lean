/-!
# UTF-8

Message bodies are octets that need not be UTF-8.  `decode` reads them once and keeps both
facts a reader may want: it yields one entry per character, and `none` for every malformed
run, where a run is as long as it could still have begun a character.  The three readings of
a body follow from it:

* strict (`decode?`): the text, if no run is malformed;
* lossy (`decodeLossy`): every malformed run becomes U+FFFD;
* as symbols (`decode` itself): a JSON reader looks at the characters and passes over a
  malformed run only inside a string that it skips.

The lead octet fixes how many octets follow and the range of the first of them; that range
excludes overlong forms and surrogates.
-/

namespace DeviceProvisioning.Text

/-- Octets, as they travel in messages and lie in files. -/
abbrev Octets := List UInt8

namespace Utf8

/-- The octets of a text. -/
def encode (s : String) : Octets :=
  s.toList.flatMap String.utf8EncodeChar

/-- **What a lead octet announces**: the payload bits it carries itself, the range of the
octet after it, and the number of octets after that one. -/
structure Lead where
  bits : Nat
  lo : UInt8
  hi : UInt8
  more : Nat

/-- The lead octets of characters longer than one octet. -/
def lead? (b : UInt8) : Option Lead :=
  if b < 0xC2 then none
  else if b ≤ 0xDF then some ⟨b.toNat - 0xC0, 0x80, 0xBF, 0⟩
  else if b == 0xE0 then some ⟨0, 0xA0, 0xBF, 1⟩
  else if b == 0xED then some ⟨0xD, 0x80, 0x9F, 1⟩
  else if b ≤ 0xEF then some ⟨b.toNat - 0xE0, 0x80, 0xBF, 1⟩
  else if b == 0xF0 then some ⟨0, 0x90, 0xBF, 2⟩
  else if b ≤ 0xF3 then some ⟨b.toNat - 0xF0, 0x80, 0xBF, 2⟩
  else if b == 0xF4 then some ⟨4, 0x80, 0x8F, 2⟩
  else none

/-- An octet that continues a character. -/
def isTail (b : UInt8) : Bool :=
  0x80 ≤ b && b ≤ 0xBF

/-- The value after one more continuation octet. -/
def push (value : Nat) (b : UInt8) : Nat :=
  value * 64 + (b.toNat - 0x80)

/-- Reads `count` continuation octets on top of `value`; `none` stands for a run that breaks
off, and the octet that breaks it is not consumed. -/
def tails : Nat → Nat → Octets → Option Char × Octets
  | 0, value, rest => (some (Char.ofNat value), rest)
  | _ + 1, _, [] => (none, [])
  | count + 1, value, b :: rest =>
    if isTail b then tails count (push value b) rest else (none, b :: rest)

/-- The first character of `b :: rest`, and the octets after it. -/
def next (b : UInt8) (rest : Octets) : Option Char × Octets :=
  if b < 0x80 then (some (Char.ofNat b.toNat), rest)
  else match lead? b, rest with
    | none, _ => (none, rest)
    | some _, [] => (none, [])
    | some l, c :: rest' =>
      if l.lo ≤ c && c ≤ l.hi then tails l.more (push l.bits c) rest' else (none, c :: rest')

theorem length_tails_le (count value : Nat) (rest : Octets) :
    (tails count value rest).2.length ≤ rest.length := by
  induction count generalizing value rest with
  | zero => simp [tails]
  | succ n ih =>
    cases rest with
    | nil => simp [tails]
    | cons b r =>
      simp only [tails]
      split
      · exact Nat.le_succ_of_le (ih _ _)
      · simp

theorem length_next_le (b : UInt8) (rest : Octets) : (next b rest).2.length ≤ rest.length := by
  unfold next
  split
  · simp
  · split
    · simp
    · simp
    · split
      · exact Nat.le_succ_of_le (length_tails_le _ _ _)
      · simp

/-- **The characters of a body**, with `none` for every malformed run. -/
def decode : Octets → List (Option Char)
  | [] => []
  | b :: rest => (next b rest).1 :: decode (next b rest).2
termination_by octets => octets.length
decreasing_by exact Nat.lt_succ_of_le (length_next_le b rest)

/-- The text of a body that is UTF-8 throughout. -/
def decode? (octets : Octets) : Option String :=
  ((decode octets).mapM id).map String.ofList

/-- The text of a body, with U+FFFD in place of every malformed run. -/
def decodeLossy (octets : Octets) : String :=
  String.ofList ((decode octets).map (·.getD '\uFFFD'))

end Utf8

/-- The characters of a text as the symbols a reader takes, none of them malformed. -/
def symbols (s : String) : List (Option Char) :=
  s.toList.map some

end DeviceProvisioning.Text
