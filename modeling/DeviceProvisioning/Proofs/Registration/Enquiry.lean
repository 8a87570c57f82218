import DeviceProvisioning.Proofs.RequestId
import DeviceProvisioning.Proofs.Session.Correlation
import DeviceProvisioning.Registration.Client

/-!
# Registrations and the replies they get

A run puts its queries to a session, the session publishes them, and the service replies to what it
has received.  An `Enquiry` is a run together with its session.  It takes the replies of a
**script** one after the other (`Enquiry.converse`): each arrives as a message that bears the id of
the query that is out.  Nothing but the service holds such a run up; the session is connected when a
query needs it, and a pause ends by itself.

Between two replies there is little to know of a run: which query is out, or what the run has come
to (`Standing`).  `Enquiry.stands_answered` says how a reply moves a run on, and with it the session
and its messages are out of the way of everything that is proved about scripts.
-/

namespace DeviceProvisioning

open Connection (Ticket)
open Registration (Query Request)
open Text (Form.pair)
open Topic (requestIdKey)
open Topic.Response (IsSegment delayOf? idSegment written)

/-! ## Asking -/

namespace Session
variable {s : Session}

/-- A session that has nothing to do but what it is asked for now, with a connection or without. -/
def Idle (s : Session) : Prop :=
  s.state = .connected ∨ s.state = .disconnected ∧ s.lossInChange = none ∧ s.deferred = []

/-- What a session takes when a query is put to it: the query, and that it has been connected for
it. -/
def askingInputs (s : Session) (ticket : Ticket) (request : Request) (query : Query) : List Input :=
  .order ⟨ticket, .ask request query⟩ ::
    if s.state = .disconnected then [.completion (.connected (.ok ()))] else []

section
variable (ticket : Ticket) (request : Request) (query : Query)

/-- A query waits for the connection that is made for it. -/
theorem step_ask_disconnected (hs : s.state = .disconnected) :
    s.step .connected (.order ⟨ticket, .ask request query⟩)
      = ⟨{ s.asked ticket request query with
          state := .connecting, deferred := s.deferred ++ [.publish s.ids.peek] },
        [.count .operationStarted, .notify (.stateChanged .connecting),
          .connect (s.settings.parameters request.registrationId)]⟩ := by
  have hstate : (s.asked ticket request query).state = .disconnected := hs
  refine (show _ = Turn.perform (.publish s.ids.peek)
    ⟨s.asked ticket request query, [.count .operationStarted]⟩ from rfl).trans ?_
  simp [Turn.perform, hstate, Connection.State.isTransitional, Turn.publish, lookup_asked,
    Turn.emit, Turn.enter, Turn.update, Turn.defer]
  exact ⟨rfl, rfl⟩

end

/-- What has waited for the connection is published then. -/
theorem step_connected_waiting {id : RequestId} {op : Operation} (hs : s.state = .connecting)
    (hloss : s.lossInChange = none) (hdeferred : s.deferred = [.publish id])
    (hlookup : s.pending.lookup id = some op) :
    s.step .connected (.completion (.connected (.ok ())))
      = ⟨{ s with state := .connected, deferred := [] },
        [.notify (.stateChanged .connected), .publish id op.topic op.body]⟩ := by
  simp [step, Turn.connected, Turn.lossOfChange?, hloss, Turn.update, Turn.enter, hs, Turn.emit,
    Turn.replay, hdeferred, Turn.perform, Connection.State.isTransitional, Turn.publish, hlookup]

/-- **A query is published** by a session that is connected, or that is connected for it. -/
theorem run_asking (h : s.Idle) (ticket : Ticket) (request : Request) (query : Query) :
    let turn := Session.run .connected s (s.askingInputs ticket request query)
    turn.session = { s.asked ticket request query with state := .connected } ∧
      ∃ before, turn.effects = before ++
        [.publish s.ids.peek (s.operation ticket request query).topic
          (s.operation ticket request query).body] ∧
        ∀ effect ∈ before, ∀ id topic body, effect ≠ .publish id topic body := by
  rcases h with hs | ⟨hs, hloss, hdeferred⟩
  · have hstate : (s.asked ticket request query).state = .connected := hs
    have hrun : Session.run .connected s (s.askingInputs ticket request query)
        = s.step .connected (.order ⟨ticket, .ask request query⟩) := by
      simp [Session.run, askingInputs, hs]
    rw [hrun, step_ask_connected ticket request query hs]
    exact ⟨by rw [← hstate], [.count .operationStarted], rfl, by simp⟩
  · let waiting : Session := { s.asked ticket request query with
      state := .connecting, deferred := s.deferred ++ [.publish s.ids.peek] }
    have hqueue : waiting.deferred = [.publish s.ids.peek] := by
      show s.deferred ++ _ = _
      rw [hdeferred, List.nil_append]
    have hconnected := step_connected_waiting (s := waiting) rfl hloss hqueue
      (s.lookup_asked ticket request query)
    have hdeferred' : (s.asked ticket request query).deferred = [] := hdeferred
    rw [askingInputs, if_pos hs, Session.run, List.foldl_cons, List.foldl_cons, List.foldl_nil,
      step_ask_disconnected ticket request query hs]
    refine ⟨(congrArg Turn.session hconnected).trans ?_, [.count .operationStarted,
      .notify (.stateChanged .connecting),
      .connect (s.settings.parameters request.registrationId),
      .notify (.stateChanged .connected)], ?_, by simp⟩
    · rw [← hdeferred']
    · exact congrArg (_ ++ ·) (congrArg Turn.effects hconnected)

end Session

namespace Registration

/-! ## Replies -/

/-- **A reply of the service**: its status, the segments of its query before and after the one that
bears an id, and its body. -/
structure Reply where
  status : Nat
  before : List (List Char) := []
  after : List (List Char) := []
  body : Text.Octets
  status_le : status ≤ 65535 := by decide
  segments : ∀ segment ∈ before ++ after, IsSegment segment := by decide
  unnamed : ∀ segment ∈ after, (Form.pair segment).1 ≠ requestIdKey := by decide

namespace Reply
variable (r : Reply)

/-- The topic of the reply to the query with this id. -/
def topic (id : RequestId) : String :=
  written r.status (r.before ++ idSegment id.chars :: r.after)

/-- The delay in seconds that the reply asks for. -/
def retryAfter : Option Nat :=
  delayOf? (r.before ++ r.after)

/-- What the reply says to the one who has put the query; `interval` is the session's own. -/
def answer (interval : Time.Millis) (query : Query) : Except Failure Response :=
  interpret query r.status r.retryAfter r.body interval

/-- **The service was too busy** to look at the query. -/
def Busy : Prop := 429 ≤ r.status

instance : DecidablePred Reply.Busy :=
  fun r => inferInstanceAs (Decidable (429 ≤ r.status))

/-- The topic of a reply is read back. -/
theorem parse_topic (id : RequestId) :
    ∃ response, Topic.Response.parse (r.topic id) = .ok response ∧ response.status = r.status ∧
      response.retryAfter = r.retryAfter ∧ RequestId.parse? response.requestId = some id := by
  have hplain : ∀ c ∈ id.chars, Text.IsPlain c := fun c hc => (RequestId.plain_of_mem_chars hc).1
  have hdecode : Text.Form.decode id.chars = id.render := Text.Form.decode_plain hplain
  have hid : RequestId.parse? (Text.Form.decode id.chars) = some id := by
    rw [hdecode, id.parse?_render]
  have hsegment : IsSegment id.chars :=
    ⟨fun h => (RequestId.plain_of_mem_chars h).2.2.2.1 rfl,
      fun h => (RequestId.plain_of_mem_chars h).2.2.2.2 rfl⟩
  exact ⟨_, Topic.Response.parse_written r.status_le r.segments hsegment r.unnamed
    (Session.ne_empty_of_spells hid), rfl, rfl, hid⟩

end Reply

/-! ## Enquiries -/

/-- **A run and its session**, with the query that is out and the id that it was published with. -/
structure Enquiry where
  request : Request
  ticket : Ticket
  session : Session
  stage : Stage := .ready
  out : Option (RequestId × Query) := none

namespace Enquiry

/-- The id under which the message of a query is published. -/
def publishedAs? (request : Request) (query : Query) (effects : List Session.Effect) :
    Option RequestId :=
  effects.findSome? fun
    | .publish id topic body =>
      if (topic, body) = Session.Turn.message id request query then some id else none
    | _ => none

/-- What a caller is told. -/
def told? (ticket : Ticket) (effects : List Session.Effect) : Option (Except Failure Response) :=
  effects.findSome? fun
    | .respond caller result => if caller = ticket then some result else none
    | _ => none

/-- A query is put to the session; a refusal is an answer too. -/
def put (query : Query) (e : Enquiry) : Enquiry :=
  match (Session.Command.ask e.request query).check with
  | .error why => { e with stage := (e.stage.step (.answered (.error why))).1 }
  | .ok () =>
    let turn := Session.run .connected e.session (e.session.askingInputs e.ticket e.request query)
    { e with
      session := turn.session
      out := (publishedAs? e.request query turn.effects).map (·, query) }

/-- The run takes notice of a signal, and puts the query that it may now have. -/
def take (signal : Signal) (e : Enquiry) : Enquiry :=
  let (stage, actions) := e.stage.step signal
  actions.foldl (fun e action => match action with | .ask query => e.put query | _ => e)
    { e with stage }

/-- A pause ends. -/
def resume (e : Enquiry) : Enquiry :=
  match e.stage with
  | .pausing _ => e.take .resumed
  | _ => e

/-- **A run begins.** -/
def start (request : Request) (ticket : Ticket) (session : Session) : Enquiry :=
  ({ request, ticket, session } : Enquiry).take .started

/-- **A reply arrives** to the query that is out; without one it is no reply to this run. -/
def answered (r : Reply) (e : Enquiry) : Enquiry :=
  match e.out with
  | none => e
  | some (id, _) =>
    let turn := e.session.step .connected (.notice (.message (r.topic id) r.body))
    let e := { e with session := turn.session, out := none }
    match told? e.ticket turn.effects with
    | none => e
    | some result => (e.take (.answered result)).resume

/-- **A run takes a script of replies.**  Every query that goes out is answered with the next reply;
the queries that were answered are recorded with their replies. -/
def converse (e : Enquiry) : List Reply → List (Query × Reply) × Enquiry
  | [] => ([], e)
  | r :: script =>
    match e.out with
    | none => ([], e)
    | some (_, query) =>
      let (exchanges, last) := (e.answered r).converse script
      ((query, r) :: exchanges, last)

/-- The query that is out. -/
def query? (e : Enquiry) : Option Query :=
  e.out.map Prod.snd

end Enquiry

/-! ## Where a run stands -/

/-- **Where a run stands between two replies**: a query is out, or the run has come to its
verdict. -/
inductive Standing where
  | waiting (query : Query)
  | decided (verdict : Verdict)

namespace Standing

/-- The stage that a run is in. -/
def stage : Standing → Stage
  | waiting _ => .asking
  | decided verdict => .leaving verdict

/-- The query that is out. -/
def query? : Standing → Option Query
  | waiting query => some query
  | decided _ => none

/-- Where a run stands that has a query to put. -/
def put (request : Request) (query : Query) : Standing :=
  match (Session.Command.ask request query).check with
  | .error why => decided (.error (.transport why))
  | .ok () => waiting query

/-- **Where a reply takes a run** whose query it answers. -/
def after (request : Request) (interval : Time.Millis) (query : Query) (r : Reply) : Standing :=
  match r.answer interval query with
  | .error why => decided (.error (.transport why))
  | .ok response =>
    if response.outcome.status.isPending then put request response.outcome.nextQuery
    else decided response.outcome.verdict

/-- What a script makes of a standing: the queries that the replies answer, and how it ends. -/
def converse (request : Request) (interval : Time.Millis) :
    Standing → List Reply → List (Query × Reply) × Standing
  | waiting query, r :: script =>
    let (exchanges, last) := (after request interval query r).converse request interval script
    ((query, r) :: exchanges, last)
  | standing, _ => ([], standing)

end Standing

namespace Enquiry
variable {request : Request} {ticket : Ticket} {interval : Time.Millis} {e : Enquiry}

/-- **How a run stands at its session.**  A query that is out is an operation of the session, and
the session is connected. -/
def Stands (request : Request) (interval : Time.Millis) (e : Enquiry) : Standing → Prop
  | .waiting query =>
    e.request = request ∧ e.session.settings.interval = interval ∧
    (Session.Command.ask request query).check = .ok () ∧ e.stage = .asking ∧
    e.session.state = .connected ∧
    ∃ id op, e.out = some (id, query) ∧ e.session.pending.lookup id = some op ∧
      op.query = query ∧ op.ticket = e.ticket
  | .decided verdict => e.stage = .leaving verdict ∧ e.out = none

theorem publishedAs?_append {before : List Session.Effect} {id : RequestId} {query : Query}
    (h : ∀ effect ∈ before, ∀ id topic body, effect ≠ .publish id topic body) :
    publishedAs? request query (before ++ [.publish id (Session.Turn.message id request query).1
      (Session.Turn.message id request query).2]) = some id := by
  have hnone : publishedAs? request query before = none := by
    refine List.findSome?_eq_none_iff.2 fun effect he => ?_
    split
    · exact absurd rfl (h _ he _ _ _)
    · rfl
  rw [publishedAs?, List.findSome?_append, ← publishedAs?, hnone]
  simp

/-- A query that is put goes out, or is refused. -/
theorem stands_put (hreq : e.request = request) (hint : e.session.settings.interval = interval)
    (hs : e.session.Idle) (hstage : e.stage = .asking) (hout : e.out = none) (query : Query) :
    (e.put query).Stands request interval (.put request query) := by
  subst hreq
  unfold put Standing.put
  cases hcheck : (Session.Command.ask e.request query).check with
  | error why => exact ⟨by simp [hstage, Stage.step], hout⟩
  | ok _ =>
    obtain ⟨hsession, before, heffects, hnone⟩ := Session.run_asking hs e.ticket e.request query
    refine ⟨rfl, ?_, hcheck, hstage, ?_, e.session.ids.peek,
      e.session.operation e.ticket e.request query, ?_, ?_, rfl, rfl⟩
    · exact (congrArg (·.settings.interval) hsession).trans hint
    · exact congrArg Session.state hsession
    · dsimp only
      rw [heffects, Session.operation, publishedAs?_append hnone, Option.map_some]
    · dsimp only
      rw [hsession]
      exact e.session.lookup_asked e.ticket e.request query

/-- **A reply moves a run on** as its standing says. -/
theorem stands_answered {query : Query} (h : e.Stands request interval (.waiting query))
    (r : Reply) : (e.answered r).Stands request interval (.after request interval query r) := by
  obtain ⟨hreq, hint, -, hstage, hs, id, op, hout, hlookup, rfl, hticket⟩ := h
  obtain ⟨response, hparse, hstatus, hretry, hid⟩ := r.parse_topic id
  have hstep := e.session.step_response .connected hparse hid hlookup r.body
  have hanswer : Registration.interpret op.query response.status response.retryAfter r.body
      e.session.settings.interval = r.answer interval op.query := by
    rw [hstatus, hretry, hint]
    rfl
  rw [hanswer] at hstep
  have htold : told? e.ticket [.count .responseDispatched,
      .respond op.ticket (r.answer interval op.query)] = some (r.answer interval op.query) := by
    simp [told?, hticket]
  have hanswered : e.answered r = (({ e with session := e.session.without id, out := none }).take
      (.answered (r.answer interval op.query))).resume := by
    simp only [answered, hout, hstep, htold]
  rw [hanswered, Standing.after]
  cases r.answer interval op.query with
  | error why =>
    simp only [take, hstage, Stage.step]
    exact ⟨rfl, rfl⟩
  | ok response =>
    cases hpending : response.outcome.status.isPending with
    | true =>
      simp only [take, hstage, Stage.step, Stage.afterResponse, hpending, resume, if_true]
      let next : Enquiry := { e with session := e.session.without id, stage := .asking, out := none }
      exact stands_put (e := next) hreq hint (.inl hs) rfl rfl _
    | false =>
      simp only [take, hstage, Stage.step, Stage.afterResponse, hpending, resume,
        Bool.false_eq_true, if_false]
      exact ⟨rfl, rfl⟩

/-- A run begins by asking for a registration. -/
theorem stands_start (request : Request) (ticket : Ticket) {session : Session} (h : session.Idle) :
    (start request ticket session).Stands request session.settings.interval
      (.put request .registration) :=
  let first : Enquiry := { request, ticket, session, stage := .asking }
  stands_put (e := first) rfl rfl h rfl rfl .registration

theorem Stands.query?_eq {standing : Standing} (h : e.Stands request interval standing) :
    e.query? = standing.query? := by
  cases standing with
  | waiting query =>
    obtain ⟨-, -, -, -, -, id, op, hout, -⟩ := h
    simp [query?, hout, Standing.query?]
  | decided verdict => simp [query?, h.2, Standing.query?]

theorem Stands.stage_eq {standing : Standing} (h : e.Stands request interval standing) :
    e.stage = standing.stage := by
  cases standing with
  | waiting query => exact h.2.2.2.1
  | decided verdict => exact h.1

/-- **A script makes of a run what it makes of its standing.** -/
theorem stands_converse {standing : Standing} (h : e.Stands request interval standing)
    (script : List Reply) :
    (e.converse script).1 = (standing.converse request interval script).1 ∧
      (e.converse script).2.Stands request interval
        (standing.converse request interval script).2 := by
  induction script generalizing e standing with
  | nil =>
    cases standing with
    | waiting query | decided verdict => exact ⟨rfl, h⟩
  | cons r script ih =>
    cases standing with
    | decided verdict =>
      have hout : e.out = none := h.2
      have hconverse : e.converse (r :: script) = ([], e) := by rw [converse, hout]
      rw [hconverse]
      exact ⟨rfl, h⟩
    | waiting query =>
      obtain ⟨id, op, hout, -⟩ := h.2.2.2.2.2
      obtain ⟨hexchanges, hlast⟩ := ih (stands_answered h r)
      have hconverse : e.converse (r :: script)
          = ((query, r) :: ((e.answered r).converse script).1, ((e.answered r).converse script).2) := by
        rw [converse, hout]
      rw [hconverse]
      exact ⟨congrArg _ hexchanges, hlast⟩

end Enquiry
end Registration
end DeviceProvisioning
