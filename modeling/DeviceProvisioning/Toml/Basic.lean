import DeviceProvisioning.Json.Basic
import DeviceProvisioning.Number.Rounding
import DeviceProvisioning.Toml.Moment

/-!
# TOML values

A table remembers its `Origin`, because that decides what a later line of the document may
add to it; and an array remembers whether every `[[…]]` of its name adds a table to it.
Apart from reading a document, nothing looks at either.

`toJson` is the JSON value that stands for a TOML value.  JSON has no moments and no numbers
that are not finite: a moment becomes an object with one reserved key, and such a number
becomes `null`.
-/

namespace DeviceProvisioning

/-- **How a table came to be.** -/
inductive Toml.Origin where
  /-- A header names something inside the table. -/
  | implied
  /-- The table has a header of its own, or is the document. -/
  | headed
  /-- A dotted key names something inside the table. -/
  | dotted
  /-- The table is written between braces. -/
  | closed
deriving DecidableEq

/-- **A TOML value.** -/
inductive Toml where
  | str (s : String)
  | int (n : Int)
  | float (x : Number.Binary64)
  | bool (b : Bool)
  | moment (m : Toml.Moment)
  | arr (grows : Bool) (items : List Toml)
  | table (origin : Toml.Origin) (members : List (String × Toml))

namespace Toml

/-- The members of a table, in the order in which they were added. -/
abbrev Members := List (String × Toml)

/-- A table with these members. -/
def ofMembers (members : Members) : Toml :=
  .table .headed members

/-- The key of the object that stands for a moment. -/
def momentKey : String := "$__toml_private_datetime"

mutual

/-- **The JSON value that stands for a TOML value.** -/
def toJson : Toml → Json
  | .str s => .str s
  | .int n => .int n
  | .float x => if x.isFinite then .float x else .null
  | .bool b => .bool b
  | .moment m => .obj [(momentKey, .str m.render)]
  | .arr _ items => .arr (itemsToJson items)
  | .table _ members => .obj (membersToJson members)

/-- The JSON values that stand for the items of an array. -/
def itemsToJson : List Toml → List Json
  | [] => []
  | v :: rest => toJson v :: itemsToJson rest

/-- The members of the object that stands for a table. -/
def membersToJson : Members → Json.Members
  | [] => []
  | (k, v) :: rest => Json.insert k (toJson v) (membersToJson rest)

end

mutual

/-- **The TOML value for a JSON value**; there is none for `null`. -/
def ofJson? : Json → Option Toml
  | .null => none
  | .bool b => some (.bool b)
  | .int n => some (.int n)
  | .float x => some (.float x)
  | .str s => some (.str s)
  | .arr items => (itemsOfJson? items).map (.arr false)
  | .obj members => (membersOfJson? members).map ofMembers

/-- The TOML values for JSON values. -/
def itemsOfJson? : List Json → Option (List Toml)
  | [] => some []
  | v :: rest => do return (← ofJson? v) :: (← itemsOfJson? rest)

/-- The members of a table for those of an object. -/
def membersOfJson? : Json.Members → Option Members
  | [] => some []
  | (k, v) :: rest => do return (k, ← ofJson? v) :: (← membersOfJson? rest)

end

end Toml
end DeviceProvisioning
