import DeviceProvisioning.Json.Parser

/-!
# Reading records

A record of the service is an object whose known members, its fields, each have a reader of
their own; members with other names are passed over.  A known member may stand once.  A
record may also be written as an array of its fields in the order of their declaration, and
trailing fields that need not be present may be missing from it.

A reader that expects a string, an integer or a choice accepts nothing else; `optional`
accepts `null` for an absent value.
-/

namespace DeviceProvisioning.Json

/-- **A known member of a record**: its name, whether it must be present, and what reading it does
to the record read so far. -/
structure Member (σ : Type) where
  name : String
  required : Bool
  read : Reader (σ → σ)

namespace Reader

variable {α β σ : Type}

/-- Reads as `read` does and applies `f`. -/
def map (f : α → β) (read : Reader α) : Reader β := fun depth s =>
  (read depth s).map fun (a, rest) => (f a, rest)

/-- Reads as `read` does, and accepts what `f` accepts. -/
def filterMap (f : α → Option β) (read : Reader α) : Reader β := fun depth s => do
  let (a, rest) ← read depth s
  let b ← f a
  return (b, rest)

/-- Reads a string. -/
def text : Reader String := fun _ s =>
  Json.string (skipBlank s)

/-- Reads a number literal that denotes an integer of sixty-four bits with sign. -/
def integer : Reader Int := fun _ s => do
  let (literal, rest) ← Literal.scan (skipBlank s)
  match literal.value? with
  | some (.int n) => if n < (UInt64.size / 2 : Nat) then some (n, rest) else none
  | _ => none

/-- Reads `null` as absent, and anything else as `read` does. -/
def optional (read : Reader α) : Reader (Option α) := fun depth s =>
  match skipBlank s with
  | some 'n' :: rest => (dropWord "ull" rest).map (none, ·)
  | _ => (read depth s).map fun (a, rest) => (some a, rest)

/-- Reads one of several names, as a string or as an object with that name as its only key
and `null` as its value. -/
def choice (ofName? : String → Option α) : Reader α := fun depth s =>
  match skipBlank s with
  | some '{' :: rest =>
    match depth with
    | 0 => none
    | _ + 1 => do
      let (name, rest) ← Json.string (skipBlank rest)
      let a ← ofName? name
      let rest ← colon rest
      let rest ← dropWord "null" (skipBlank rest)
      match skipBlank rest with
      | some '}' :: after => return (a, after)
      | _ => none
  | s => do
    let (name, rest) ← Json.string s
    let a ← ofName? name
    return (a, rest)

/-- The members of a record from here on, with the closing brace; `seen` are the names of
the fields read so far. -/
def members (fields : List (Member σ)) :
    Nat → Nat → List String → σ → Symbols → Option ((List String × σ) × Symbols)
  | 0, _, _, _, _ => none
  | fuel + 1, depth, seen, r, s => do
    let (key, s) ← Json.string (skipBlank s)
    let (seen, r, s) ←
      match fields.find? (·.name == key) with
      | some field =>
        if key ∈ seen then none
        else do
          let s ← colon s
          let (set, s) ← field.read depth s
          some (key :: seen, set r, s)
      | none => do
        let s ← colon s
        let s ← skip s
        some (seen, r, s)
    match skipBlank s with
    | some ',' :: rest => members fields fuel depth seen r rest
    | some '}' :: rest => return ((seen, r), rest)
    | _ => none

/-- The fields of a record written as an array, from the next item on. -/
def items (depth : Nat) : List (Member σ) → σ → Symbols → Option (σ × Symbols)
  | [], _, _ => none
  | field :: fields, r, s => do
    let (set, s) ← field.read depth s
    match skipBlank s with
    | some ',' :: rest => items depth fields (set r) rest
    | some ']' :: rest => if fields.any (·.required) then none else return (set r, rest)
    | _ => none

/-- **Reads a record,** starting from one with nothing read. -/
def record (fields : List (Member σ)) (blank : σ) : Reader σ := fun depth s =>
  match skipBlank s, depth with
  | some '{' :: rest, depth + 1 => do
    let ((seen, r), rest) ←
      match skipBlank rest with
      | some '}' :: after => some (([], blank), after)
      | _ => members fields (rest.length + 1) depth [] blank rest
    if fields.all fun f => !f.required || f.name ∈ seen then return (r, rest) else none
  | some '[' :: rest, depth + 1 =>
    match skipBlank rest with
    | some ']' :: after => if fields.any (·.required) then none else some (blank, after)
    | _ => items depth fields blank rest
  | _, _ => none

end Reader
end DeviceProvisioning.Json
