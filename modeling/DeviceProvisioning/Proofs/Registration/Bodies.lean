import DeviceProvisioning.Proofs.Json.Value
import DeviceProvisioning.Registration.Request

/-!
# The bodies of requests

The body of a registration is a JSON object with the name of the device and, if there is one, the
payload of the request, which may be any value.  It is written without regard to the order of its
members, and whoever reads it gets them in order; the payload is one bracket deep in it, and is read
back if what reads it may open one bracket more (`registration_read_back`).

So a body says all that the request does, and different requests have different bodies.
-/

namespace DeviceProvisioning.Registration.Request

open Json (Fits FloatFree ReadsBack maxDepth)

/-- **A request whose payload can be sent**: it holds no floating-point number, its integers are of
sixty-four bits, and its arrays and objects are nested so deep that one more around them can be
read. -/
def Plain (r : Request) : Prop :=
  ∀ payload ∈ r.payload, Fits 126 payload ∧ FloatFree payload

/-- An object that is written is read as what its members put together. -/
theorem parse?_render (members : Json.Members)
    (h : ∀ m ∈ members, ReadsBack 126 m.2) :
    Json.parse? (Text.Utf8.encode (Json.obj members).render) = some (Json.ofMembers members) := by
  refine Json.Reader.run_render ?_
  have hfuel : 2 * (Json.obj members).chars.length
      ≤ Json.enough (Json.taken (Json.obj members).chars) := by
    rw [Json.enough, List.length_map]
    omega
  have hread := Json.object_chars h hfuel []
  rwa [List.append_nil] at hread

theorem readsBack_str (s : String) : ReadsBack 126 (.str s) :=
  Json.readsBack (.str s) (.str s)

/-- **A registration says what the request does.** -/
theorem registration_read_back {r : Request} (h : r.Plain) :
    Json.parse? (Text.Utf8.encode r.registrationBody)
      = some (.ofPresent [("payload", r.payload),
        ("registrationId", some (.str r.registrationId))]) := by
  obtain ⟨id, payload⟩ := r
  cases payload with
  | none =>
    refine (parse?_render [("registrationId", .str id)] ?_).trans rfl
    intro m hm
    rw [List.mem_singleton.1 hm]
    exact readsBack_str id
  | some p =>
    have hp : ReadsBack 126 p := Json.readsBack (h p rfl).1 (h p rfl).2
    refine (parse?_render [("registrationId", .str id), ("payload", p)] ?_).trans ?_
    · intro m hm
      rcases List.mem_cons.1 hm with rfl | hm
      · exact readsBack_str id
      · rw [List.mem_singleton.1 hm]
        exact hp
    · -- the members come in order
      have horder : "payload" < "registrationId" := by decide
      simp [Json.ofMembers, Json.insert, Json.ofPresent, horder]

/-- **The bodies of a request are faithful.**  What asks for a registration is read as an object
with the name of the device and, exactly if the request has one, its payload; what asks for a status
is read as an object with the name alone, whatever the payload.  Requests that have the same
registration body are the same. -/
theorem bodies_read_back (r : Request) :
    (r.Plain → ∃ v, Json.parse? (Text.Utf8.encode r.registrationBody) = some v ∧
      v = .ofPresent [("payload", r.payload), ("registrationId", some (.str r.registrationId))] ∧
      v.get? "registrationId" = some (.str r.registrationId) ∧ v.get? "payload" = r.payload) ∧
    Json.parse? (Text.Utf8.encode r.statusBody)
      = some (.obj [("registrationId", .str r.registrationId)]) ∧
    ∀ r' : Request, r.Plain → r'.Plain → r'.registrationBody = r.registrationBody → r' = r := by
  have hget (r : Request) :
      (Json.ofPresent [("payload", r.payload),
          ("registrationId", some (.str r.registrationId))]).get? "registrationId"
          = some (.str r.registrationId) ∧
        (Json.ofPresent [("payload", r.payload),
          ("registrationId", some (.str r.registrationId))]).get? "payload" = r.payload := by
    cases r.payload <;> exact ⟨rfl, rfl⟩
  refine ⟨fun h => ⟨_, registration_read_back h, rfl, hget r⟩, ?_, fun r' h h' heq => ?_⟩
  · refine (parse?_render [("registrationId", .str r.registrationId)] ?_).trans rfl
    intro m hm
    rw [List.mem_singleton.1 hm]
    exact readsBack_str _
  · have hread := registration_read_back h'
    rw [heq, registration_read_back h] at hread
    have hsame := Option.some.inj hread
    have hid := (hget r).1
    have hpayload := (hget r).2
    rw [hsame, (hget r').1] at hid
    rw [hsame, (hget r').2] at hpayload
    obtain ⟨id, payload⟩ := r
    obtain ⟨id', payload'⟩ := r'
    obtain rfl : payload' = payload := hpayload
    obtain rfl : id' = id := by simpa using hid
    rfl

/-- Two requests of one device, one with integers at the ends of their range and a string that has
to be escaped, the other with a null. -/
theorem bodies_read_back_integers :
    let r : Request :=
      { registrationId := "dev\"1\\",
        payload := some (.obj [("\x01\n", .arr [.int (-9223372036854775808), .arr []]),
          ("max", .int 18446744073709551615), ("n", .null), ("ok", .bool true)]) }
    let r' : Request := { registrationId := "dev\"1\\", payload := some .null }
    r.Plain ∧ r'.Plain ∧
      (∃ v, Json.parse? (Text.Utf8.encode r.registrationBody) = some v ∧
        v.get? "payload" = r.payload) ∧
      r'.registrationBody ≠ r.registrationBody := by
  intro r r'
  have hmin : Json.InRange (-9223372036854775808) := by unfold Json.InRange; decide
  have hmax : Json.InRange 18446744073709551615 := by unfold Json.InRange; decide
  have hr : r.Plain := by
    rintro payload ⟨⟩
    refine ⟨.obj (by decide) ?_, .obj ?_⟩
    · simp only [List.forall_mem_cons]
      refine ⟨.arr ?_, .int hmax, .null, .bool true, nofun⟩
      simp only [List.forall_mem_cons]
      exact ⟨.int hmin, .arr nofun, nofun⟩
    · simp only [List.forall_mem_cons]
      refine ⟨.arr ?_, .int _, .null, .bool true, nofun⟩
      simp only [List.forall_mem_cons]
      exact ⟨.int _, .arr nofun, nofun⟩
  have hr' : r'.Plain := by
    rintro payload ⟨⟩
    exact ⟨.null, .null⟩
  obtain ⟨hread, -, hinjective⟩ := bodies_read_back r
  obtain ⟨v, hv, -, -, hpayload⟩ := hread hr
  refine ⟨hr, hr', ⟨v, hv, hpayload⟩, fun heq => ?_⟩
  have hsame := congrArg Request.payload (hinjective r' hr hr' heq)
  exact nomatch hsame

end DeviceProvisioning.Registration.Request
