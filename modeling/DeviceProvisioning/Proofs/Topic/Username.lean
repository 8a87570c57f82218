import DeviceProvisioning.Identifier
import DeviceProvisioning.Proofs.Text.FormEncoding
import DeviceProvisioning.Topic.Request
import Mathlib.Data.List.Basic

/-!
# User names

The user name of a device is made of its id scope, its registration id and the version of its
client, between fixed texts and with slashes in between.  Only the version is encoded.  The other
two stand there as they are, so that the user name can be taken apart only because the characters of
which identifiers are made leave the slash out (`Identifier.slash_not_mem_scope`,
`Identifier.slash_not_mem_registrationId`), as does form encoding.

The slashes of a user name are therefore those that its parts are joined with
(`Topic.splitOn_username`), and whoever reads it back finds who the device is and which client it
runs (`Topic.usernames_distinct`).
-/

namespace DeviceProvisioning

open Text

/-! ## Identifiers -/

namespace Identifier

theorem slash_not_mem_scope {scope : String} (h : checkIdScope scope = .ok ()) :
    '/' ∉ scope.toList := by
  intro hmem
  have hslash := (checkIdScope_eq_ok_iff.1 h).2 '/' hmem
  revert hslash
  decide

theorem slash_not_mem_registrationId {id : String} (h : checkRegistrationId id = .ok ()) :
    '/' ∉ id.toList := by
  intro hmem
  have hslash := (checkRegistrationId_eq_ok_iff.1 h).2.2 '/' hmem
  revert hslash
  decide

end Identifier

/-! ## User names -/

namespace Topic

open Identifier

/-- The part of a user name that names the client. -/
def clientPart (version : String) : List Char :=
  "api-version=2019-03-31&ClientVersion=".toList ++ (Form.encode version).toList

/-- The parts of a user name. -/
def usernameParts (scope id version : String) : List (List Char) :=
  [scope.toList, "registrations".toList, id.toList, clientPart version]

variable {scope id version : String}

/-- **A user name is made of four parts,** joined with slashes. -/
theorem toList_username (scope id version : String) :
    (username scope id version).toList = ['/'].intercalate (usernameParts scope id version) := by
  have hmiddle : "/registrations/".toList = '/' :: ("registrations".toList ++ ['/']) := by
    decide +kernel
  have hlast : "/api-version=".toList ++ (apiVersion.toList ++ "&ClientVersion=".toList)
      = '/' :: "api-version=2019-03-31&ClientVersion=".toList := by decide +kernel
  unfold username usernameParts clientPart
  simp only [String.toList_append, List.append_assoc, hmiddle]
  rw [← List.append_assoc apiVersion.toList, ← List.append_assoc "/api-version=".toList, hlast]
  simp only [List.intercalate_cons_cons, List.intercalate_singleton, List.append_assoc,
    List.cons_append, List.nil_append]

/-- No part of a user name holds a slash. -/
theorem slash_not_mem_part (hscope : checkIdScope scope = .ok ())
    (hid : checkRegistrationId id = .ok ()) {part : List Char}
    (h : part ∈ usernameParts scope id version) : '/' ∉ part := by
  have hfixed : '/' ∉ "registrations".toList := by decide
  have hclient : '/' ∉ clientPart version := by
    have hversion : '/' ∉ (Form.encode version).toList := by
      intro hmem
      exact absurd (Form.isWritten_of_mem_encode hmem) (by decide)
    have hstem : '/' ∉ "api-version=2019-03-31&ClientVersion=".toList := by decide +kernel
    intro hmem
    exact (List.mem_append.1 hmem).elim hstem hversion
  simp only [usernameParts, List.mem_cons, List.not_mem_nil, or_false] at h
  rcases h with h | h | h | h <;> rw [h]
  · exact slash_not_mem_scope hscope
  · exact hfixed
  · exact slash_not_mem_registrationId hid
  · exact hclient

/-- **The parts of a user name are found between its slashes.** -/
theorem splitOn_username (hscope : checkIdScope scope = .ok ())
    (hid : checkRegistrationId id = .ok ()) (version : String) :
    (username scope id version).toList.splitOn '/' = usernameParts scope id version := by
  rw [toList_username]
  exact List.splitOn_intercalate '/' (fun _ => slash_not_mem_part hscope hid)
    (List.cons_ne_nil _ _)

/-- There are three slashes in a user name. -/
theorem count_slash_username (hscope : checkIdScope scope = .ok ())
    (hid : checkRegistrationId id = .ok ()) (version : String) :
    (username scope id version).toList.count '/' = 3 := by
  have hpart : ∀ part ∈ usernameParts scope id version, part.count '/' = 0 := by
    intro part h
    exact List.count_eq_zero.2 (slash_not_mem_part hscope hid h)
  rw [toList_username]
  simp only [usernameParts, List.forall_mem_cons] at hpart
  obtain ⟨hscope', hfixed, hid', hclient, -⟩ := hpart
  simp only [usernameParts, List.intercalate_cons_cons, List.intercalate_singleton,
    List.count_append, List.count_singleton_self, hscope', hfixed, hid', hclient]

/-- The parts of a user name tell who the device is and which client it runs. -/
theorem usernameParts_inj {scope' id' version' : String}
    (h : usernameParts scope id version = usernameParts scope' id' version') :
    scope = scope' ∧ id = id' ∧ version = version' := by
  unfold usernameParts at h
  obtain ⟨hscope, h⟩ := List.cons.inj h
  obtain ⟨-, h⟩ := List.cons.inj h
  obtain ⟨hid, h⟩ := List.cons.inj h
  have hversion := List.append_cancel_left (List.cons.inj h).1
  exact ⟨String.toList_inj.1 hscope, String.toList_inj.1 hid,
    Form.encode_injective (String.toList_inj.1 hversion)⟩

/-- **Devices with different identities, or with different clients, have different user names.**  Of
identifiers that are accepted, and whatever the versions, the user names are the same only if the id
scopes, the registration ids and the versions are.  A user name holds the three slashes between its
parts, and no other. -/
theorem usernames_distinct {scope' id' : String} (hscope : checkIdScope scope = .ok ())
    (hid : checkRegistrationId id = .ok ()) (hscope' : checkIdScope scope' = .ok ())
    (hid' : checkRegistrationId id' = .ok ()) (version version' : String) :
    (username scope id version = username scope' id' version' →
      scope = scope' ∧ id = id' ∧ version = version') ∧
    (username scope id version).toList.splitOn '/'
      = [scope.toList, "registrations".toList, id.toList, clientPart version] ∧
    (username scope id version).toList.count '/' = 3 := by
  refine ⟨fun h => ?_, splitOn_username hscope hid version, count_slash_username hscope hid version⟩
  apply usernameParts_inj
  rw [← splitOn_username hscope hid, ← splitOn_username hscope' hid', h]

/-- Two devices whose ids and versions run into each other. -/
theorem usernames_of_neighbours :
    checkIdScope "0ne" = .ok () ∧ checkRegistrationId "a.b" = .ok () ∧
    checkRegistrationId "a" = .ok () ∧
    username "0ne" "a.b" "1/2 &" ≠ username "0ne" "a" ".b/1/2 &" ∧
    (username "0ne" "a.b" "1/2 &").toList.count '/' = 3 := by
  have hscope : checkIdScope "0ne" = .ok () := by decide +kernel
  have hid : checkRegistrationId "a.b" = .ok () := by decide +kernel
  have hid' : checkRegistrationId "a" = .ok () := by decide +kernel
  obtain ⟨hsame, -, hcount⟩ := usernames_distinct hscope hid hscope hid' "1/2 &" ".b/1/2 &"
  refine ⟨hscope, hid, hid', fun h => ?_, hcount⟩
  exact absurd (hsame h).2.1 (by decide)

end Topic
end DeviceProvisioning
