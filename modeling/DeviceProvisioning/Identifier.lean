import DeviceProvisioning.Number.Decimal
import DeviceProvisioning.Text.Utf8

/-!
# Identifiers

The id scope of a tenant and the registration id of a device go into the user name without
being encoded, so their characters are restricted.  An id scope is made of ASCII letters and
digits.  A registration id is made of ASCII lower-case letters, digits, and `-`, `.`, `_` and
`:`, and takes at most 128 octets.
-/

namespace DeviceProvisioning

/-- Which of the two identifiers a complaint is about. -/
inductive Identifier where
  | registrationId
  | idScope
deriving DecidableEq

/-- The name of an identifier in a complaint. -/
def Identifier.name : Identifier → String
  | registrationId => "registration id"
  | idScope => "id scope"

/-- **What is wrong with an identifier.** -/
inductive IdentifierError where
  | empty (what : Identifier)
  | tooLong (what : Identifier) (limit : Nat)
  | invalidChar (what : Identifier) (c : Char)
deriving DecidableEq

/-- The wording of a complaint. -/
def IdentifierError.message : IdentifierError → String
  | empty what => what.name ++ " cannot be empty"
  | tooLong what limit =>
    what.name ++ " is longer than " ++ String.ofList (Number.decimal limit) ++ " characters"
  | invalidChar what c => what.name ++ " contains invalid character: '" ++ c.toString ++ "'"

namespace Identifier

/-- The characters of a registration id. -/
def isRegistrationChar (c : Char) : Bool :=
  c.isLower || c.isDigit || c == '-' || c == '.' || c == '_' || c == ':'

/-- The characters of an id scope. -/
def isScopeChar (c : Char) : Bool :=
  c.isAlphanum

/-- The most octets that a registration id takes. -/
def maxRegistrationIdLength : Nat := 128

/-- **Judges a registration id.** -/
def checkRegistrationId (id : String) : Except IdentifierError Unit :=
  if id.isEmpty then .error (.empty registrationId)
  else if maxRegistrationIdLength < (Text.Utf8.encode id).length then
    .error (.tooLong registrationId maxRegistrationIdLength)
  else match id.toList.find? (!isRegistrationChar ·) with
    | some c => .error (.invalidChar registrationId c)
    | none => .ok ()

/-- **Judges an id scope.** -/
def checkIdScope (scope : String) : Except IdentifierError Unit :=
  if scope.isEmpty then .error (.empty idScope)
  else match scope.toList.find? (!isScopeChar ·) with
    | some c => .error (.invalidChar idScope c)
    | none => .ok ()

/-- No character is complained of exactly if all of them are allowed. -/
theorem find?_not_eq_none_iff {allowed : Char → Bool} {cs : List Char} :
    cs.find? (!allowed ·) = none ↔ ∀ c ∈ cs, allowed c = true := by
  simp

/-- **Which registration ids are accepted.** -/
theorem checkRegistrationId_eq_ok_iff {id : String} :
    checkRegistrationId id = .ok () ↔
      id ≠ "" ∧ (Text.Utf8.encode id).length ≤ maxRegistrationIdLength ∧
        ∀ c ∈ id.toList, isRegistrationChar c = true := by
  unfold checkRegistrationId
  by_cases hempty : id = ""
  · simp [hempty]
  by_cases hlong : maxRegistrationIdLength < (Text.Utf8.encode id).length
  · simp [hempty, hlong, Nat.not_le.2 hlong]
  rw [if_neg (by simpa using hempty), if_neg hlong]
  constructor
  · intro h
    split at h
    · cases h
    · exact ⟨hempty, Nat.le_of_not_lt hlong, find?_not_eq_none_iff.1 ‹_›⟩
  · rintro ⟨-, -, hall⟩
    rw [find?_not_eq_none_iff.2 hall]

/-- **Which id scopes are accepted.** -/
theorem checkIdScope_eq_ok_iff {scope : String} :
    checkIdScope scope = .ok () ↔ scope ≠ "" ∧ ∀ c ∈ scope.toList, isScopeChar c = true := by
  unfold checkIdScope
  by_cases hempty : scope = ""
  · simp [hempty]
  rw [if_neg (by simpa using hempty)]
  constructor
  · intro h
    split at h
    · cases h
    · exact ⟨hempty, find?_not_eq_none_iff.1 ‹_›⟩
  · rintro ⟨-, hall⟩
    rw [find?_not_eq_none_iff.2 hall]

end Identifier
end DeviceProvisioning
