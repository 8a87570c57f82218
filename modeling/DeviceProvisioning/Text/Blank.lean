/-!
# Blank characters

The fields a caller fills in are trimmed before they are judged: an access signature of
one non-breaking space is as empty as no signature at all.  A character is **blank** when
it has the Unicode property `White_Space`; the property has twenty-five members, in ten
runs.

Trimming works on lists of characters.  `allBlank` is what trimming and asking for
emptiness amounts to.
-/

namespace DeviceProvisioning.Text

/-- **The Unicode property `White_Space`.** -/
def isBlank (c : Char) : Bool :=
  let n := c.toNat
  (0x09 ≤ n && n ≤ 0x0D) || n == 0x20 || n == 0x85 || n == 0xA0 || n == 0x1680
    || (0x2000 ≤ n && n ≤ 0x200A) || n == 0x2028 || n == 0x2029 || n == 0x202F
    || n == 0x205F || n == 0x3000

/-- The text without its leading blanks. -/
def trimStart (cs : List Char) : List Char :=
  cs.dropWhile isBlank

/-- The text without its leading and trailing blanks. -/
def trim (cs : List Char) : List Char :=
  (trimStart (trimStart cs).reverse).reverse

/-- Whether the text holds nothing but blanks. -/
def allBlank (s : String) : Bool :=
  s.toList.all isBlank

theorem trimStart_eq_nil_iff {cs : List Char} :
    trimStart cs = [] ↔ ∀ c ∈ cs, isBlank c = true := by
  induction cs with
  | nil => simp [trimStart]
  | cons c r ih =>
    by_cases h : isBlank c = true
    · simp_all [trimStart]
    · simp [trimStart, h]

end DeviceProvisioning.Text
