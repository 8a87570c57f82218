import DeviceProvisioning.Link.Call
import DeviceProvisioning.Proofs.RequestId
import DeviceProvisioning.Proofs.Session.Correlation
import DeviceProvisioning.Proofs.Topic.RoundTrip

/-!
# The topics of requests, read back and published

A session puts each query on a topic of its own: a path that says what is asked, a question mark,
and a query that names the request and, for a status query, its operation.  The name of an operation
comes from the service and may hold any character.

**Reading.**  The operation is form encoded, so that no mark of a query is left in it, and an id is
written in characters that form encoding leaves alone.  So the query of a topic falls apart where it
was put together (`Topic.pairs_query`), the id is found (`Topic.requestId?_ofQuery`), and whoever
repeats it is understood (`Topic.topics_read_back`).

**Publishing.**  A link publishes on no topic that holds a wildcard.  Form encoding escapes the hash
sign, and it escapes the plus sign, but it writes a space as a plus sign: the topic of a status
query can be published exactly if there is no space in the name of the operation
(`Topic.publishable_unless_spaced`), and a session asks no more of this name than not to be blank
(`Topic.spaced_operation_refused`).
-/

namespace DeviceProvisioning.Topic

open Registration (Query)
open Response (IsSegment idSegment parse parse_written written)
open Session.Turn (message operation?)
open Text

/-! ## The topic of a query -/

/-- **The topic on which a query is put.** -/
def ofQuery (id : RequestId) : Query → String
  | .registration => registration id
  | .operationStatus operationId => operationStatus id operationId

/-- What the topic of a query says: the parameters after its question mark. -/
def asked (id : RequestId) : Query → List (String × String)
  | .registration => [("$rid", id.render)]
  | .operationStatus operationId => [("$rid", id.render), ("operationId", operationId)]

/-- The path of the topics on which registrations are asked for. -/
def registrationPath : List Char :=
  "$dps/registrations/PUT/iotdps-register/".toList

/-- The path of the topics on which the status of operations is asked for. -/
def statusPath : List Char :=
  "$dps/registrations/GET/iotdps-get-operationstatus/".toList

/-- What a topic begins with, which is the same for all queries of a kind. -/
def path : Query → List Char
  | .registration => registrationPath
  | .operationStatus _ => statusPath

/-- The segments of a topic after its question mark. -/
def segments (id : RequestId) : Query → List (List Char)
  | .registration => [idSegment id.chars]
  | .operationStatus operationId =>
    [idSegment id.chars, Form.segment ("operationId", operationId)]

variable {id : RequestId} {query : Query} {operationId : String} {c : Char}

/-- A session puts its queries on their topics. -/
theorem message_fst (request : Registration.Request) :
    (message id request query).1 = ofQuery id query := by
  cases query <;> rfl

theorem toList_render (id : RequestId) : id.render.toList = id.chars :=
  String.toList_ofList

theorem toList_registration (id : RequestId) :
    (registration id).toList = registrationPath ++ '?' :: idSegment id.chars := by
  have hstem : "$dps/registrations/PUT/iotdps-register/?$rid=".toList
      = registrationPath ++ '?' :: (requestIdKey.toList ++ ['=']) := by decide +kernel
  unfold registration
  rw [String.toList_append, toList_render id, hstem, idSegment]
  simp only [List.append_assoc, List.cons_append, List.nil_append]

theorem toList_operationStatus (id : RequestId) (operationId : String) :
    (operationStatus id operationId).toList = statusPath
      ++ '?' :: (idSegment id.chars ++ '&' :: Form.segment ("operationId", operationId)) := by
  have hstem : "$dps/registrations/GET/iotdps-get-operationstatus/?$rid=".toList
      = statusPath ++ '?' :: (requestIdKey.toList ++ ['=']) := by decide +kernel
  have hmark : "&operationId=".toList = '&' :: ((Form.encode "operationId").toList ++ ['=']) := by
    decide +kernel
  unfold operationStatus
  rw [String.toList_append, String.toList_append, String.toList_append, toList_render id, hstem,
    hmark, idSegment, Form.segment]
  simp only [List.append_assoc, List.cons_append, List.nil_append]

/-- **A topic is a path and a query.** -/
theorem toList_ofQuery (id : RequestId) (query : Query) :
    (ofQuery id query).toList = path query ++ '?' :: ['&'].intercalate (segments id query) := by
  cases query with
  | registration =>
    rw [ofQuery, toList_registration, segments, List.intercalate_singleton, path]
  | operationStatus operationId =>
    rw [ofQuery, toList_operationStatus, segments, List.intercalate_cons_cons,
      List.intercalate_singleton, path, List.append_assoc, List.singleton_append]

/-! ## What stands in a topic -/

/-- The spelling of an id is read as the id's text. -/
theorem decode_chars (id : RequestId) : Form.decode id.chars = id.render :=
  Form.decode_plain fun _ hc => (RequestId.plain_of_mem_chars hc).1

theorem isSegment_chars (id : RequestId) : IsSegment id.chars := by
  constructor
  · intro h
    exact (RequestId.plain_of_mem_chars h).2.2.2.1 rfl
  · intro h
    exact (RequestId.plain_of_mem_chars h).2.2.2.2 rfl

theorem not_mem_segments {segment : List Char} (h : segment ∈ segments id query) :
    '&' ∉ segment := by
  have hid : '&' ∉ idSegment id.chars := by
    simpa [idSegment, requestIdKey] using (isSegment_chars id).1
  cases query with
  | registration =>
    rw [List.mem_singleton.1 h]
    exact hid
  | operationStatus operationId =>
    rcases List.mem_pair.1 h with heq | heq
    · rw [heq]
      exact hid
    · rw [heq]
      exact Form.not_mem_segment.1

/-- **The query of a topic is read back.** -/
theorem pairs_query (id : RequestId) (query : Query) :
    Form.pairs (['&'].intercalate (segments id query)) = asked id query := by
  have hid : Form.pair (idSegment id.chars) = ("$rid", id.render) := by
    rw [Response.pair_idSegment, decode_chars, requestIdKey]
  rw [Form.pairs_intercalate fun _ => not_mem_segments]
  cases query with
  | registration =>
    rw [segments, Form.parameters_cons (by simp [idSegment]), hid]
    rfl
  | operationStatus operationId =>
    rw [segments, Form.parameters_cons (by simp [idSegment]), hid,
      Form.parameters_cons (Form.segment_ne_nil _), Form.pair_segment]
    rfl

/-- The first question mark of a topic ends its path. -/
theorem cutAt_ofQuery (id : RequestId) (query : Query) :
    cutAt '?' (ofQuery id query).toList
      = some (path query, ['&'].intercalate (segments id query)) := by
  have hregistration : '?' ∉ registrationPath := by decide +kernel
  have hstatus : '?' ∉ statusPath := by decide +kernel
  refine cutAt_eq_some_iff.2 ⟨toList_ofQuery id query, ?_⟩
  cases query with
  | registration => exact hregistration
  | operationStatus _ => exact hstatus

/-- **The id of a request is found in its topic.** -/
theorem requestId?_ofQuery (id : RequestId) (query : Query) :
    requestId? (ofQuery id query) = some id.render := by
  unfold requestId?
  rw [cutAt_ofQuery]
  show (Form.pairs _).lookup requestIdKey = _
  rw [pairs_query]
  cases query <;> rfl

/-- Different queries, or the same with different ids, have different topics. -/
theorem ofQuery_inj {id' : RequestId} {query' : Query} (h : ofQuery id' query' = ofQuery id query) :
    id' = id ∧ query' = query := by
  have hasked : asked id' query' = asked id query := by
    have hcut := (cutAt_ofQuery id' query').symm.trans ((congrArg _ (congrArg _ h)).trans
      (cutAt_ofQuery id query))
    rw [← pairs_query id' query', ← pairs_query id query]
    exact congrArg Form.pairs (Prod.mk.inj (Option.some.inj hcut)).2
  have hid : id'.render = id.render → id' = id := by
    intro hrender
    have hparse := congrArg RequestId.parse? hrender
    rw [RequestId.parse?_render, RequestId.parse?_render] at hparse
    exact Option.some.inj hparse
  cases query with
  | registration =>
    cases query' with
    | registration => exact ⟨hid (by simpa [asked] using hasked), rfl⟩
    | operationStatus _ => simp [asked] at hasked
  | operationStatus operationId =>
    cases query' with
    | registration => simp [asked] at hasked
    | operationStatus operationId' =>
      have hboth : id'.render = id.render ∧ operationId' = operationId := by
        simpa [asked] using hasked
      exact ⟨hid hboth.1, congrArg Query.operationStatus hboth.2⟩

/-- **The topics of requests are read back.**  The id that is found in the topic of a query is read
as the id it was put with, and what follows the first question mark is read as this id and, for a
status query, its operation, whatever characters that is made of.  No other query has the same
topic, and none with another id.  A response that bears the id found, in whatever spelling is read
as it and amid any parameters of which none after it bears an id, belongs to the operation with this
id that the session has outstanding, and to no other. -/
theorem topics_read_back (id : RequestId) (query : Query) :
    (∃ text, requestId? (ofQuery id query) = some text ∧ RequestId.parse? text = some id) ∧
    (∃ before after, (ofQuery id query).toList = before ++ '?' :: after ∧ '?' ∉ before ∧
      Form.pairs after = asked id query) ∧
    (∀ id' query', ofQuery id' query' = ofQuery id query → id' = id ∧ query' = query) ∧
    ∀ (status : Nat) (before after : List (List Char)) (text : List Char),
      requestId? (ofQuery id query) = some (Form.decode text) → IsSegment text → status ≤ 65535 →
      (∀ segment ∈ before ++ after, IsSegment segment) →
      (∀ segment ∈ after, (Form.pair segment).1 ≠ requestIdKey) →
      ∃ response, parse (written status (before ++ idSegment text :: after)) = .ok response ∧
        response.status = status ∧ RequestId.parse? response.requestId = some id ∧
        ∀ session, operation? session response = (session.pending.lookup id).map (id, ·) := by
  refine ⟨⟨id.render, requestId?_ofQuery id query, RequestId.parse?_render id⟩, ?_, ?_, ?_⟩
  · obtain ⟨hcut, hpath⟩ := cutAt_eq_some_iff.1 (cutAt_ofQuery id query)
    exact ⟨_, _, hcut, hpath, pairs_query id query⟩
  · intro id' query' h
    exact ofQuery_inj h
  · intro status before after text hfound htext hstatus hothers hlast
    have hspelled : Form.decode text = id.render :=
      (Option.some.inj (hfound.symm.trans (requestId?_ofQuery id query)))
    have hparse : RequestId.parse? (Form.decode text) = some id := by
      rw [hspelled, RequestId.parse?_render]
    refine ⟨_, Response.parse_written hstatus hothers htext hlast
      (Session.ne_empty_of_spells hparse), rfl, hparse, fun session => ?_⟩
    simp only [operation?, hparse, Option.bind_eq_bind, Option.bind_some]
    cases session.pending.lookup id <;> rfl

/-- A response to a status query repeats the id of the query as it stands in its topic, behind a
delay.  The name of the operation is full of marks. -/
theorem echoed_id_read_back :
    ∃ (operationId : String) (response : Response),
      operationId = "a&$rid=b?c%2B é😀" ∧
      requestId? (operationStatus (.ofNat 7) operationId) = some (RequestId.ofNat 7).render ∧
      parse (written 202 (["retry-after=3".toList] ++ idSegment (RequestId.ofNat 7).chars :: []))
        = .ok response ∧
      RequestId.parse? response.requestId = some (.ofNat 7) := by
  obtain ⟨-, -, -, hecho⟩ := topics_read_back (.ofNat 7) (.operationStatus "a&$rid=b?c%2B é😀")
  have hfound := requestId?_ofQuery (.ofNat 7) (.operationStatus "a&$rid=b?c%2B é😀")
  obtain ⟨response, hread, -, hid, -⟩ := hecho 202 ["retry-after=3".toList] []
    (RequestId.ofNat 7).chars (by rw [decode_chars, hfound]) (isSegment_chars _) (by decide)
    (by decide +kernel) (by simp)
  exact ⟨_, response, rfl, hfound, hread, hid⟩

/-! ## Publishing on a topic -/

/-- **Whether the name of an operation has a space in it.** -/
def Spaced : Query → Prop
  | .registration => False
  | .operationStatus operationId => ' ' ∈ operationId.toList

instance : DecidablePred Spaced
  | .registration => inferInstanceAs (Decidable False)
  | .operationStatus operationId => inferInstanceAs (Decidable (' ' ∈ operationId.toList))

/-- A wildcard is one of two characters, and neither is written in an id. -/
theorem wildcard_spec (hc : Link.isWildcard c = true) (id : RequestId) :
    (c = '+' ∨ c = '#') ∧ c ∉ id.chars := by
  have heq : c = '+' ∨ c = '#' := by simpa [Link.isWildcard] using hc
  refine ⟨heq, fun hmem => ?_⟩
  rcases heq with rfl | rfl
  · exact (RequestId.plain_of_mem_chars hmem).1.2.2 rfl
  · exact absurd (RequestId.isWritten_of_mem_chars hmem) (by decide)

/-- No wildcard stands where the request is named. -/
theorem wildcard_not_mem_idSegment (hc : Link.isWildcard c = true) (id : RequestId) :
    c ∉ idSegment id.chars := by
  obtain ⟨heq, hid⟩ := wildcard_spec hc id
  intro hmem
  rcases List.mem_append.1 hmem with hkey | hmem
  · rcases heq with rfl | rfl <;> exact absurd hkey (by decide)
  · rcases List.mem_cons.1 hmem with rfl | hmem
    · cases hc
    · exact hid hmem

theorem wildcard_not_mem_registration (hc : Link.isWildcard c = true) (id : RequestId) :
    c ∉ (registration id).toList := by
  rw [toList_registration, List.mem_append, List.mem_cons, not_or, not_or]
  refine ⟨?_, ?_, wildcard_not_mem_idSegment hc id⟩
  · rcases (wildcard_spec hc id).1 with rfl | rfl <;> decide +kernel
  · rintro rfl
    cases hc

/-- A wildcard in the topic of a status query stands where the operation is named. -/
theorem wildcard_mem_operationStatus_iff (hc : Link.isWildcard c = true) (id : RequestId) :
    c ∈ (operationStatus id operationId).toList ↔ c ∈ (Form.encode operationId).toList := by
  have hpath : c ∉ statusPath := by
    rcases (wildcard_spec hc id).1 with rfl | rfl <;> decide +kernel
  have hkey : c ∉ (Form.encode "operationId").toList := by
    rcases (wildcard_spec hc id).1 with rfl | rfl <;> decide +kernel
  have hmark : c ≠ '?' ∧ c ≠ '&' ∧ c ≠ '=' := by
    rcases (wildcard_spec hc id).1 with rfl | rfl <;> decide
  rw [toList_operationStatus, Form.segment]
  simp only [List.mem_append, List.mem_cons, hpath, hkey, hmark, wildcard_not_mem_idSegment hc id,
    false_or]

/-- **Which topics a link refuses**: those in which a wildcard stands. -/
theorem checkTopicName_eq {topic : String} (hne : topic ≠ "") :
    Link.checkTopicName topic =
      if topic.toList.any Link.isWildcard then
        .error (.plain ("Invalid topic " ++ topic))
      else .ok () := by
  unfold Link.checkTopicName
  have hempty : topic.isEmpty = false := by simpa using hne
  rw [hempty, Bool.false_or]

/-- **The wildcards in the topic of a query** are the plus signs that stand for spaces. -/
theorem wildcards_ofQuery (id : RequestId) (query : Query) :
    '#' ∉ (ofQuery id query).toList ∧ ('+' ∈ (ofQuery id query).toList ↔ Spaced query) := by
  cases query with
  | registration =>
    exact ⟨wildcard_not_mem_registration rfl id,
      iff_of_false (wildcard_not_mem_registration rfl id) not_false⟩
  | operationStatus operationId =>
    rw [ofQuery, wildcard_mem_operationStatus_iff rfl, wildcard_mem_operationStatus_iff rfl]
    refine ⟨fun hmem => ?_, Form.plus_mem_encode_iff⟩
    exact absurd (Form.isWritten_of_mem_encode hmem) (by decide)

/-- **A query can be published unless there is a space in the name of its operation.**  Whatever the
id and the query, no hash sign stands in the topic on which a session puts the query, and a plus
sign stands there exactly if a space stands in the name of the operation.  A link refuses the topic then,
and accepts it otherwise. -/
theorem publishable_unless_spaced (id : RequestId) (request : Registration.Request)
    (query : Query) :
    let topic := (message id request query).1
    '#' ∉ topic.toList ∧ ('+' ∈ topic.toList ↔ Spaced query) ∧
      Link.checkTopicName topic =
        if Spaced query then .error (.plain ("Invalid topic " ++ topic)) else .ok () := by
  intro topic
  have htopic : topic = ofQuery id query := message_fst request
  obtain ⟨hhash, hplus⟩ := wildcards_ofQuery id query
  have hmark : '?' ∈ topic.toList := by
    rw [htopic, toList_ofQuery]
    exact List.mem_append_right _ List.mem_cons_self
  have hne : topic ≠ "" := by
    intro hempty
    rw [hempty] at hmark
    cases hmark
  have hwildcard : topic.toList.any Link.isWildcard = true ↔ Spaced query := by
    rw [htopic, ← hplus, List.any_eq_true]
    constructor
    · rintro ⟨c, hmem, hc⟩
      rcases (wildcard_spec hc id).1 with rfl | rfl
      · exact hmem
      · exact absurd hmem hhash
    · intro hmem
      exact ⟨'+', hmem, rfl⟩
  refine ⟨htopic ▸ hhash, htopic ▸ hplus, ?_⟩
  rw [checkTopicName_eq hne]
  simp only [hwildcard]

/-- **An operation with a space in its name cannot be asked about**: the session takes the query,
and the link refuses its topic. -/
theorem spaced_operation_refused :
    (Session.Command.ask { registrationId := "device-1" } (.operationStatus "4 2")).check = .ok () ∧
    Link.checkTopicName (operationStatus (.ofNat 1) "4 2") =
      .error (.plain ("Invalid topic $dps/registrations/GET/iotdps-get-operationstatus/?"
        ++ "$rid=00000000-0000-0000-0000-000000000001&operationId=4+2")) := by
  constructor
  · rfl
  · decide +kernel

end DeviceProvisioning.Topic
