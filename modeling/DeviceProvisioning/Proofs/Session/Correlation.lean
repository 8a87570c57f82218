import DeviceProvisioning.Proofs.Session.Move
import DeviceProvisioning.Proofs.Table
import DeviceProvisioning.Proofs.Topic.Response

/-!
# Responses and the operations they belong to

A message that comes in is a response when its topic is one.  It belongs to the operation whose id
its topic bears last, in any of the spellings of an id and amid any other parameters.  That
operation is answered with what the response means, and nothing else changes
(`Session.answers_its_operation_alone`).  Every other message is dropped.
-/

namespace DeviceProvisioning

open Connection (State)
open Topic (Response requestIdKey)
open Topic.Response (IsSegment delayOf? idSegment parse parse_written written)
open Text (Form.pair Form.decode)

namespace Session
variable (manager : State) (s : Session)

/-- A response answers its operation. -/
theorem step_response {topic : String} {response : Response} {id : RequestId} {op : Operation}
    (hr : parse topic = .ok response) (hid : RequestId.parse? response.requestId = some id)
    (h : s.pending.lookup id = some op) (payload : Text.Octets) :
    s.step manager (.notice (.message topic payload))
      = ⟨s.without id, [.count .responseDispatched, .respond op.ticket (Registration.interpret
          op.query response.status response.retryAfter payload s.settings.interval)]⟩ := by
  have hop : Turn.operation? s response = some (id, op) := by
    simp [Turn.operation?, hid, h]
  simp only [step, Turn.notice, Turn.respond, hr, hop]
  rfl

/-- A message that is no response, or none to an outstanding operation, is dropped. -/
theorem step_other_message {topic : String}
    (h : ∀ response id, parse topic = .ok response →
      RequestId.parse? response.requestId = some id → s.pending.lookup id = none)
    (payload : Text.Octets) :
    s.step manager (.notice (.message topic payload)) = ⟨s, [.count .responseDropped]⟩ := by
  cases hr : parse topic with
  | error why =>
    simp only [step, Turn.notice, Turn.respond, hr]
    rfl
  | ok response =>
    have hop : Turn.operation? s response = none := by
      cases hid : RequestId.parse? response.requestId with
      | none => simp [Turn.operation?, hid]
      | some id => simp [Turn.operation?, hid, h response id hr hid]
    simp only [step, Turn.notice, Turn.respond, hr, hop]
    rfl

/-- A text that spells an id is not empty. -/
theorem ne_empty_of_spells {text : String} {id : RequestId}
    (h : RequestId.parse? text = some id) : text ≠ "" := by
  rintro rfl
  simp [RequestId.parse?, RequestId.ofChars?, RequestId.ofGroups?] at h

/-- **A response answers its operation, and changes nothing else.**  Whatever the session, its
manager and the body, a response with the status `status` and the id of an outstanding operation,
in any spelling and amid any parameters of which none after it bears an id, takes this operation
away and answers its caller with what the response means.  All other operations stay, and so does
the rest of the session.  A message that is no response, or whose id is not that of an outstanding
operation, answers nobody and changes nothing. -/
theorem answers_its_operation_alone :
    (∀ (id : RequestId) (op : Operation) (status : Nat) (before after : List (List Char))
        (text : List Char) (payload : Text.Octets),
      s.pending.lookup id = some op → status ≤ 65535 →
      (∀ segment ∈ before ++ after, IsSegment segment) → IsSegment text →
      (∀ segment ∈ after, (Form.pair segment).1 ≠ requestIdKey) →
      RequestId.parse? (Form.decode text) = some id →
      let turn := s.step manager
        (.notice (.message (written status (before ++ idSegment text :: after)) payload))
      turn.session = { s with pending := s.pending.filter (·.1 ≠ id) } ∧
      (∀ other, turn.session.pending.lookup other
        = if other = id then none else s.pending.lookup other) ∧
      turn.effects = [.count .responseDispatched, .respond op.ticket (Registration.interpret
        op.query status (delayOf? (before ++ after)) payload s.settings.interval)]) ∧
    ∀ topic payload,
      (∀ response id, parse topic = .ok response →
        RequestId.parse? response.requestId = some id → s.pending.lookup id = none) →
      s.step manager (.notice (.message topic payload)) = ⟨s, [.count .responseDropped]⟩ := by
  refine ⟨fun id op status before after text payload h hstatus hothers htext hlast hid => ?_,
    fun topic payload h => s.step_other_message manager h payload⟩
  have hread := parse_written hstatus hothers htext hlast (ne_empty_of_spells hid)
  have hstep := s.step_response manager hread hid h payload
  dsimp only
  rw [hstep]
  exact ⟨rfl, Table.lookup_drop s.pending id, rfl⟩

/-- A response in another spelling of an id, in the middle of its query. -/
theorem braced_id_answered :
    ∃ (s : Session) (first second : Operation),
      s.pending = [(.ofNat 1, first), (.ofNat 2, second)] ∧
      let topic := written 202 (["retry-after=5".toList]
        ++ idSegment "%7B00000000-0000-0000-0000-000000000002%7D".toList :: ["note=a+b".toList])
      (s.step .connected (.notice (.message topic []))).session.pending = [(.ofNat 1, first)] := by
  let first : Operation := ⟨.registration, "device-1", "topic", "", 0⟩
  let second : Operation := ⟨.registration, "device-2", "topic", "", 1⟩
  let s : Session :=
    { settings := { idScope := "0ne0001", credential := .signature "token" }
      pending := [(.ofNat 1, first), (.ofNat 2, second)] }
  refine ⟨s, first, second, rfl, ?_⟩
  have hturn := (s.answers_its_operation_alone .connected).1 (.ofNat 2) second 202
    ["retry-after=5".toList] ["note=a+b".toList]
    "%7B00000000-0000-0000-0000-000000000002%7D".toList [] rfl (by decide)
    (by decide +kernel) (by decide +kernel) (by decide +kernel) (by decide +kernel)
  have hrest : s.pending.filter (·.1 ≠ .ofNat 2) = [(.ofNat 1, first)] := rfl
  exact (congrArg Session.pending hturn.1).trans hrest

end Session
end DeviceProvisioning
