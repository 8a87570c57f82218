import DeviceProvisioning.Number.Binary64

/-!
# JSON values

A payload is a JSON value.  An integer literal that fits in sixty-four bits, signed or
unsigned, stays an integer; every other number is a binary floating-point number.  The
members of an object are kept in the order of their keys, each key once: `insert` puts a
member in its place and replaces the one that had its key.

Equality of values is decided by going through both side by side (`same`).
-/

namespace DeviceProvisioning

/-- **A JSON value.** -/
inductive Json where
  | null
  | bool (b : Bool)
  | int (n : Int)
  | float (x : Number.Binary64)
  | str (s : String)
  | arr (items : List Json)
  | obj (members : List (String × Json))

namespace Json

/-- The members of an object, in the order of their keys. -/
abbrev Members := List (String × Json)

/-- Puts a member in its place; a member with the same key is replaced. -/
def insert (key : String) (value : Json) : Members → Members
  | [] => [(key, value)]
  | (k, v) :: rest =>
    if key < k then (key, value) :: (k, v) :: rest
    else if key = k then (key, value) :: rest
    else (k, v) :: insert key value rest

/-- The object with these members; of two members with one key the later one stays. -/
def ofMembers (members : List (String × Json)) : Json :=
  .obj (members.foldl (fun ms (k, v) => insert k v ms) [])

/-- The member of an object with this key. -/
def get? (key : String) : Json → Option Json
  | .obj members => members.lookup key
  | _ => none

/-- The integers that a value can hold: those of sixty-four bits, signed or unsigned. -/
def InRange (n : Int) : Prop :=
  -(UInt64.size / 2 : Nat) ≤ n ∧ n < UInt64.size

/-! ## Equality -/

mutual

/-- Whether two values are the same. -/
def same : Json → Json → Bool
  | .null, .null => true
  | .bool a, .bool b => a == b
  | .int m, .int n => m == n
  | .float x, .float y => x == y
  | .str s, .str t => s == t
  | .arr xs, .arr ys => sameItems xs ys
  | .obj ms, .obj ns => sameMembers ms ns
  | _, _ => false

/-- Whether two lists hold the same items. -/
def sameItems : List Json → List Json → Bool
  | [], [] => true
  | x :: xs, y :: ys => same x y && sameItems xs ys
  | _, _ => false

/-- Whether two lists hold the same members. -/
def sameMembers : Members → Members → Bool
  | [], [] => true
  | (k, v) :: ms, (l, w) :: ns => k == l && same v w && sameMembers ms ns
  | _, _ => false

end

mutual

/-- **The comparison decides equality.**  Values nest through lists of items and of members, so each
of the three is compared by induction together with the others. -/
theorem same_iff (v w : Json) : same v w = true ↔ v = w := by
  cases v with
  | arr xs => cases w <;> simp [same, sameItems_iff xs]
  | obj ms => cases w <;> simp [same, sameMembers_iff ms]
  | _ => cases w <;> simp [same]

theorem sameItems_iff (xs ys : List Json) : sameItems xs ys = true ↔ xs = ys := by
  cases xs with
  | nil => cases ys <;> simp [sameItems]
  | cons x xs => cases ys <;> simp [sameItems, same_iff x, sameItems_iff xs]

theorem sameMembers_iff (ms ns : Members) : sameMembers ms ns = true ↔ ms = ns := by
  cases ms with
  | nil => cases ns <;> simp [sameMembers]
  | cons m ms =>
    obtain ⟨k, v⟩ := m
    cases ns with
    | nil => simp [sameMembers]
    | cons n ns =>
      obtain ⟨l, w⟩ := n
      simp [sameMembers, same_iff v, sameMembers_iff ms]

end

instance : DecidableEq Json :=
  fun v w => decidable_of_iff (same v w = true) (same_iff v w)

end Json
end DeviceProvisioning
