import DeviceProvisioning.Toml.Basic

/-!
# Records written in TOML

A record is a table whose known members are its fields; members with other names are passed
over.  It may also be written as an array of its fields in the order of their declaration.
A field with a default may then be missing from the end, a field that is merely optional may
not; and what follows the last field is passed over.

A moment in the place of a record is a table without any known member.
-/

namespace DeviceProvisioning.Toml

/-- **What a record has for one of its fields.** -/
inductive Slot where
  | given (v : Toml)
  /-- The record is a table without the field. -/
  | absent
  /-- The record is an array that ends before the field. -/
  | cut

/-- What a record has for the field with this name and position. -/
def slot? (name : String) (position : Nat) : Toml → Option Slot
  | .table _ members =>
    match members.lookup name with
    | some v => some (.given v)
    | none => some .absent
  | .arr _ items =>
    match items[position]? with
    | some v => some (.given v)
    | none => some .cut
  | .moment _ => some .absent
  | _ => none

namespace Slot

variable {α : Type}

/-- A field that must be there. -/
def required (read : Toml → Option α) : Slot → Option α
  | given v => read v
  | _ => none

/-- A field with a default. -/
def orElse (fallback : α) (read : Toml → Option α) : Slot → Option α
  | given v => read v
  | _ => some fallback

/-- A field that need not be there. -/
def optional (read : Toml → Option α) : Slot → Option (Option α)
  | given v => (read v).map some
  | absent => some none
  | cut => none

end Slot

/-- The text of a string. -/
def text? : Toml → Option String
  | .str s => some s
  | _ => none

/-- The value of an integer that is not negative. -/
def natural? : Toml → Option Nat
  | .int (.ofNat n) => some n
  | _ => none

/-- The value of a truth value. -/
def truth? : Toml → Option Bool
  | .bool b => some b
  | _ => none

end DeviceProvisioning.Toml
