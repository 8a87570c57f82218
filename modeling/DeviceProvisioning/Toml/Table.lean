import DeviceProvisioning.Toml.Basic

/-!
# How a document fills its tables

Lines add to tables that other lines have begun, within rules.  A **header** may lead through
any table and through the newest table of a growing array, and makes the tables on its way
that are not there; the table it names must be new, or implied by an earlier header.  A
header in double brackets adds a table to an array of its own making.  A **dotted key** may
lead through what other dotted keys and headers have implied, but not through a table that
has a header; the table in which its last part is put must itself have come from a dotted
key.  No key is given a value twice, and nothing is added to a value.
-/

namespace DeviceProvisioning.Toml

/-- Puts a member in the place of the one with its key, or at the end. -/
def Members.set (key : String) (value : Toml) : Members → Members
  | [] => [(key, value)]
  | (k, v) :: rest => if k = key then (key, value) :: rest else (k, v) :: set key value rest

/-- A table in the making. -/
structure Draft where
  origin : Origin
  members : Members

namespace Draft

/-- The finished table. -/
def toToml (d : Draft) : Toml :=
  .table d.origin d.members

/-- The draft with a member put in its place. -/
def set (key : String) (value : Toml) (d : Draft) : Draft :=
  { d with members := d.members.set key value }

/-- What begins a path leads to, as a draft and as what to do with the changed draft. -/
def enter (dotted : Bool) (key : String) (d : Draft) : Option (Draft × (Draft → Toml)) :=
  match d.members.lookup key with
  | none => some (⟨if dotted then .dotted else .implied, []⟩, toToml)
  | some (.table .closed _) => none
  | some (.table origin members) =>
    if dotted ∧ origin = .headed then none else some (⟨origin, members⟩, toToml)
  | some (.arr true items) =>
    match items.getLast? with
    | some (.table origin members) =>
      some (⟨origin, members⟩, fun last => .arr true (items.dropLast ++ [last.toToml]))
    | _ => none
  | some _ => none

/-- **Changes the table at the end of a path.** -/
def change (dotted : Bool) (f : Draft → Option Draft) : List String → Draft → Option Draft
  | [], d => f d
  | key :: path, d => do
    let (inner, rebuild) ← d.enter dotted key
    let inner ← change dotted f path inner
    return d.set key (rebuild inner)

/-- Adds a member that must be new. -/
def add (key : String) (value : Toml) (d : Draft) : Option Draft :=
  if (d.members.lookup key).isSome then none else some (d.set key value)

/-- **A line that gives a value to a key** of one or more parts. -/
def assign (path : List String) (key : String) (value : Toml) (d : Draft) : Option Draft :=
  d.change true (fun t =>
    if decide (t.origin = .dotted) == path.isEmpty then none else t.add key value) path

/-- The table that a header names. -/
def openTable (key : String) (d : Draft) : Option Draft :=
  match d.members.lookup key with
  | none => some (d.set key (.table .headed []))
  | some (.table .implied members) => some (d.set key (.table .headed members))
  | some _ => none

/-- The new table of a growing array. -/
def openItem (key : String) (d : Draft) : Option Draft :=
  match d.members.lookup key with
  | none => some (d.set key (.arr true [.table .headed []]))
  | some (.arr true items) => some (d.set key (.arr true (items ++ [.table .headed []])))
  | some _ => none

end Draft

/-- **A document in the making**: its tables, and the path of the last header. -/
structure Document where
  root : Draft := ⟨.headed, []⟩
  header : List String := []

namespace Document

/-- A header in single brackets. -/
def openTable (path : List String) (d : Document) : Option Document := do
  let key ← path.getLast?
  let root ← d.root.change false (Draft.openTable key) path.dropLast
  return { root, header := path }

/-- A header in double brackets. -/
def openItem (path : List String) (d : Document) : Option Document := do
  let key ← path.getLast?
  let root ← d.root.change false (Draft.openItem key) path.dropLast
  return { root, header := path }

/-- A key and its value, in the table of the last header. -/
def assign (path : List String) (value : Toml) (d : Document) : Option Document := do
  let key ← path.getLast?
  let root ← d.root.change false (Draft.assign path.dropLast key value) d.header
  return { d with root }

end Document
end DeviceProvisioning.Toml
