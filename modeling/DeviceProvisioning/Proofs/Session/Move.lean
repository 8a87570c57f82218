import DeviceProvisioning.Proofs.Table
import DeviceProvisioning.Session.Basic

/-!
# What a step of a session comes to

`Session.step` is put together from turns, and this module says once what comes of them.

As with a connection manager, a step has two parts.  It **opens** with what the input itself leads
to (`Session.Opening`), and that may leave work to be done: what was asked for just now, or what was
put off until the change under way had ended.  Then it **does** this work, one piece after the other
(`Session.Doing`).

`Session.opens` and `Turn.doing` say that there is no other way for a step to go, and
`Session.step_induction` is the rule that everything about steps is proved by.
-/

namespace DeviceProvisioning

open Connection (Credential Parameters State Ticket)
open Registration (Query Request)

namespace Session

/-! ## Groups of effects -/

/-- What is told when the session enters a state. -/
def entering (s : Session) (next : State) : List Effect :=
  if s.state = next then [] else [.notify (.stateChanged next)]

/-- The answers to everyone whose operation is outstanding, when all of these have ended. -/
def ending (s : Session) (why : Failure) : List Effect :=
  if s.pending.isEmpty then []
  else .count (.operationsCancelled s.pending.length)
    :: s.pending.map fun p => .respond p.2.ticket (.error why)

/-- The answer to the caller of the change under way. -/
def answering (s : Session) (result : Except Failure Unit) : List Effect :=
  s.waiter.toList.map fun ticket => .answer ticket result

/-- **The loss of the connection.** -/
def losing (s : Session) (why : Failure) : List Effect :=
  s.entering .disconnected ++ s.ending (lossOf why) ++ [.notify (.lost why)]

/-- The answer to a caller whose work nobody will do. -/
def refusing : Work → List Effect
  | .publish _ => []
  | .disconnect ticket | .updateCredential _ ticket => [.answer ticket (.error gone)]

/-! ## Sessions after a change -/

/-- The session when a change has ended that is told of losses. -/
def changed (s : Session) (next : State) : Session :=
  { s with state := next, lossInChange := none, deferred := [] }

/-- The session when its connection has ended by a failure. -/
def fallen (s : Session) : Session :=
  { s with state := .disconnected, lossInChange := none, pending := [], deferred := [] }

/-- The operation that a query becomes. -/
def operation (s : Session) (ticket : Ticket) (request : Request) (query : Query) : Operation where
  query
  registrationId := request.registrationId
  topic := (Turn.message s.ids.peek request query).1
  body := (Turn.message s.ids.peek request query).2
  ticket

/-- The session with one more operation. -/
def asked (s : Session) (ticket : Ticket) (request : Request) (query : Query) : Session :=
  { s with
    ids := s.ids.advance
    pending := s.pending.filter (·.1 ≠ s.ids.peek)
      ++ [(s.ids.peek, s.operation ticket request query)] }

/-- The session without an operation that has been answered. -/
def without (s : Session) (id : RequestId) : Session :=
  { s with pending := s.pending.filter (·.1 ≠ id) }

/-- How an operation ends that could not be published: as lost, if the connection is. -/
def unpublished (manager : State) (s : Session) (why : Failure) : Failure :=
  if s.state = .connected ∧ (why.isNotConnected ∨ manager ≠ .connected) then lossOf why else why

/-- **What the session takes no notice of**: that a message has been published, that it could not
be but its operation has been answered, and what its manager says about states, or about a loss when
there is nothing to lose. -/
def Ignores (s : Session) : Input → Prop
  | .completion (.published _ (.ok ())) => True
  | .completion (.published id (.error _)) => s.pending.lookup id = none
  | .notice (.stateChanged _) => True
  | .notice (.lost _) => s.state = .disconnected ∨ s.state = .disconnecting
  | _ => False

/-! ## Openings -/

/-- **What an input leads to by itself**: the session and the effects, and the work that is now to
be done.  The manager's state is looked at when a change has ended and when a message could not be
published. -/
inductive Opening (manager : State) (s : Session) :
    Input → Session → List Effect → List Work → Prop where
  | asked (ticket : Ticket) (request : Request) (query : Query) :
    Opening manager s (.order ⟨ticket, .ask request query⟩) (s.asked ticket request query)
      [.count .operationStarted] [.publish s.ids.peek]
  | cancelled (ticket : Ticket) :
    Opening manager s (.order ⟨ticket, .cancel⟩) { s with pending := [] }
      (s.ending (.cancelled "operation cancelled by caller") ++ [.answer ticket (.ok ())]) []
  | disconnect (ticket : Ticket) :
    Opening manager s (.order ⟨ticket, .disconnect⟩) { s with pending := [] }
      (s.ending (.cancelled "session disconnected before a response arrived"))
      [.disconnect ticket]
  | updateCredential (ticket : Ticket) (credential : Credential) :
    Opening manager s (.order ⟨ticket, .updateCredential credential⟩) s []
      [.updateCredential credential ticket]
  | connected (h : Turn.lossOfChange? manager s = none) :
    Opening manager s (.completion (.connected (.ok ()))) (s.changed .connected)
      (s.entering .connected) s.deferred
  | lostConnecting (why : Failure) (h : Turn.lossOfChange? manager s = some why) :
    Opening manager s (.completion (.connected (.ok ()))) s.fallen (s.losing why) s.deferred
  | unconnected (why : Failure) :
    Opening manager s (.completion (.connected (.error why))) s.fallen
      (s.entering .disconnected ++ s.ending why) s.deferred
  | reconnected (h : Turn.lossOfChange? manager s = none) :
    Opening manager s (.completion (.reconnected (.ok ())))
      { s.changed .connected with waiter := none }
      (s.entering .connected ++ s.answering (.ok ())) s.deferred
  | lostReconnecting (why : Failure) (h : Turn.lossOfChange? manager s = some why) :
    Opening manager s (.completion (.reconnected (.ok ()))) { s.fallen with waiter := none }
      (s.losing why ++ s.answering (.error why)) s.deferred
  | unreconnected (why : Failure) :
    Opening manager s (.completion (.reconnected (.error why))) { s.fallen with waiter := none }
      (s.entering .disconnected ++ s.ending why ++ s.answering (.error why)) s.deferred
  | disconnected (result : Except Failure Unit) :
    Opening manager s (.completion (.disconnected result))
      { s with state := .disconnected, waiter := none, deferred := [] }
      (s.entering .disconnected ++ s.answering result) s.deferred
  | unpublished (id : RequestId) (why : Failure) (op : Operation)
      (h : s.pending.lookup id = some op) :
    Opening manager s (.completion (.published id (.error why))) (s.without id)
      [.respond op.ticket (.error (unpublished manager s why))] []
  | responded (topic : String) (payload : Text.Octets) (response : Topic.Response)
      (id : RequestId) (op : Operation) (hr : Topic.Response.parse topic = .ok response)
      (h : s.pending.lookup id = some op) (hid : RequestId.parse? response.requestId = some id) :
    Opening manager s (.notice (.message topic payload)) (s.without id)
      [.count .responseDispatched, .respond op.ticket (Registration.interpret op.query
        response.status response.retryAfter payload s.settings.interval)] []
  | dropped (topic : String) (payload : Text.Octets)
      (h : ∀ response, Topic.Response.parse topic = .ok response →
        Turn.operation? s response = none) :
    Opening manager s (.notice (.message topic payload)) s [.count .responseDropped] []
  | lost (why : Failure) (h : s.state = .connected) :
    Opening manager s (.notice (.lost why)) { s with state := .disconnected, pending := [] }
      (s.losing why) []
  | noted (why : Failure) (h : s.state = .connecting ∨ s.state = .reconnecting) :
    Opening manager s (.notice (.lost why)) { s with lossInChange := some why } [] []
  | ignored {input : Input} (h : s.Ignores input) : Opening manager s input s [] []
  | shutDown :
    Opening manager s .shutDown { s with pending := [], waiter := none, deferred := [] }
      (s.ending gone ++ s.answering (.error gone) ++ s.deferred.flatMap refusing) []

/-! ## Work -/

/-- **What the doing of work comes to**: the session and the effects. -/
inductive Doing (s : Session) : Work → Session → List Effect → Prop where
  | deferred (work : Work) (h : s.state.isTransitional) :
    Doing s work { s with deferred := s.deferred ++ [work] } []
  | forgotten (id : RequestId) (hs : s.state.isTransitional = false)
      (h : s.pending.lookup id = none) : Doing s (.publish id) s []
  | connecting (id : RequestId) (op : Operation) (hs : s.state = .disconnected)
      (h : s.pending.lookup id = some op) :
    Doing s (.publish id)
      { s with state := .connecting, deferred := s.deferred ++ [.publish id] }
      [.notify (.stateChanged .connecting), .connect (s.settings.parameters op.registrationId)]
  | publishing (id : RequestId) (op : Operation) (hs : s.state = .connected)
      (h : s.pending.lookup id = some op) :
    Doing s (.publish id) s [.publish id op.topic op.body]
  | closedAlready (ticket : Ticket) (hs : s.state = .disconnected) :
    Doing s (.disconnect ticket) s [.answer ticket (.ok ())]
  | disconnecting (ticket : Ticket) (hs : s.state = .connected) :
    Doing s (.disconnect ticket) { s with state := .disconnecting, waiter := some ticket }
      [.notify (.stateChanged .disconnecting), .disconnect]
  | stored (credential : Credential) (ticket : Ticket) (hs : s.state = .disconnected) :
    Doing s (.updateCredential credential ticket)
      { s with settings := { s.settings with credential } } [.answer ticket (.ok ())]
  | reconnecting (credential : Credential) (ticket : Ticket) (hs : s.state = .connected) :
    Doing s (.updateCredential credential ticket)
      { s with
        settings := { s.settings with credential }
        state := .reconnecting
        waiter := some ticket }
      [.notify (.stateChanged .reconnecting), .reconnect credential]

/-! ## Turns -/

namespace Turn
variable (t : Turn)

theorem enter_eq (next : State) :
    t.enter next = ⟨{ t.session with state := next }, t.effects ++ t.session.entering next⟩ := by
  unfold enter entering
  split
  · rename_i h
    rw [← h, List.append_nil]
  · rfl

theorem answerWaiter_eq (result : Except Failure Unit) :
    t.answerWaiter result
      = ⟨{ t.session with waiter := none }, t.effects ++ t.session.answering result⟩ := by
  obtain ⟨s, effects⟩ := t
  unfold answerWaiter answering
  cases h : s.waiter with
  | none => simp [← h]
  | some ticket => simp [answer, update, emit]

theorem endAll_eq (why : Failure) :
    t.endAll why = ⟨{ t.session with pending := [] }, t.effects ++ t.session.ending why⟩ := by
  have key : ∀ (pending : List (RequestId × Operation)) (s : Session) (effects : List Effect),
      pending.foldl (fun t p => t.emit (.respond p.2.ticket (.error why))) ⟨s, effects⟩
        = (⟨s, effects ++ pending.map fun p => .respond p.2.ticket (.error why)⟩ : Turn) := by
    intro pending
    induction pending with
    | nil => intro s effects; simp
    | cons p pending ih =>
      intro s effects
      rw [List.foldl_cons, emit, ih, List.map_cons]
      simp only [List.append_assoc, List.cons_append, List.nil_append]
  obtain ⟨s, effects⟩ := t
  unfold endAll ending
  split
  · rename_i h
    rw [List.append_nil, ← List.isEmpty_iff.1 h]
  · refine (key _ _ _).trans ?_
    simp only [emit, List.append_assoc, List.cons_append, List.nil_append]

theorem lose_eq (why : Failure) :
    t.lose why = ⟨{ t.session with state := .disconnected, pending := [] },
      t.effects ++ t.session.losing why⟩ := by
  simp only [lose, enter_eq, endAll_eq, emit, losing, ending, List.append_assoc]

theorem refuse_eq (work : Work) :
    t.refuse work = ⟨t.session, t.effects ++ refusing work⟩ := by
  cases work with
  | publish id => simp [refuse, refusing]
  | disconnect ticket | updateCredential credential ticket => rfl

/-- **Work is done in one of the ways of `Doing`.** -/
theorem doing (work : Work) :
    ∃ s es, Doing t.session work s es ∧ t.perform work = ⟨s, t.effects ++ es⟩ := by
  obtain ⟨s, effects⟩ := t
  cases hs : s.state with
  | connecting | disconnecting | reconnecting =>
    refine ⟨_, _, .deferred work (by rw [hs]; rfl), ?_⟩
    simp [perform, hs, State.isTransitional, defer, update]
  | disconnected =>
    cases work with
    | publish id =>
      cases hp : s.pending.lookup id with
      | none =>
        refine ⟨_, _, .forgotten id (by rw [hs]; rfl) hp, ?_⟩
        simp [perform, hs, State.isTransitional, publish, hp]
      | some op =>
        refine ⟨_, _, .connecting id op hs hp, ?_⟩
        simp [perform, hs, State.isTransitional, publish, hp, enter_eq, entering, emit, defer,
          update]
    | disconnect ticket =>
      refine ⟨_, _, .closedAlready ticket hs, ?_⟩
      simp [perform, hs, State.isTransitional, disconnect, answer, emit]
    | updateCredential credential ticket =>
      refine ⟨_, _, .stored credential ticket hs, ?_⟩
      simp [perform, hs, State.isTransitional, updateCredential, answer, emit, update]
  | connected =>
    cases work with
    | publish id =>
      cases hp : s.pending.lookup id with
      | none =>
        refine ⟨_, _, .forgotten id (by rw [hs]; rfl) hp, ?_⟩
        simp [perform, hs, State.isTransitional, publish, hp]
      | some op =>
        refine ⟨_, _, .publishing id op hs hp, ?_⟩
        simp [perform, hs, State.isTransitional, publish, hp, emit]
    | disconnect ticket =>
      refine ⟨_, _, .disconnecting ticket hs, ?_⟩
      simp [perform, hs, State.isTransitional, disconnect, enter_eq, entering, emit, update]
    | updateCredential credential ticket =>
      refine ⟨_, _, .reconnecting credential ticket hs, ?_⟩
      simp [perform, hs, State.isTransitional, updateCredential, enter_eq, entering, emit, update]

end Turn

/-! ## Steps -/

section Steps
variable (manager : State) (s : Session)

/-- A step that opens in one of the ways of `Opening`, and then does work. -/
def Opens (input : Input) : Prop :=
  ∃ s' es queue, Opening manager s input s' es queue ∧
    s.step manager input = queue.foldl (fun t work => t.perform work) ⟨s', es⟩

theorem opens_order (order : Order) : s.Opens manager (.order order) := by
  obtain ⟨ticket, command⟩ := order
  cases command with
  | ask request query => exact ⟨_, _, _, .asked ticket request query, rfl⟩
  | cancel =>
    refine ⟨_, _, _, .cancelled ticket, ?_⟩
    simp only [step, Turn.take, Turn.endAll_eq]
    rfl
  | disconnect =>
    refine ⟨_, _, _, .disconnect ticket, ?_⟩
    simp only [step, Turn.take, Turn.endAll_eq]
    rfl
  | updateCredential credential => exact ⟨_, _, _, .updateCredential ticket credential, rfl⟩

theorem opens_connected (result : Except Failure Unit) :
    s.Opens manager (.completion (.connected result)) := by
  cases result with
  | ok _ =>
    cases h : Turn.lossOfChange? manager s with
    | none =>
      refine ⟨_, _, _, .connected h, ?_⟩
      simp only [step, Turn.connected, h, Turn.enter_eq, Turn.replay]
      rfl
    | some why =>
      refine ⟨_, _, _, .lostConnecting why h, ?_⟩
      simp only [step, Turn.connected, h, Turn.lose_eq, Turn.replay]
      rfl
  | error why =>
    refine ⟨_, _, _, .unconnected why, ?_⟩
    simp only [step, Turn.connected, Turn.enter_eq, Turn.endAll_eq, Turn.replay]
    rfl

theorem opens_reconnected (result : Except Failure Unit) :
    s.Opens manager (.completion (.reconnected result)) := by
  cases result with
  | ok _ =>
    cases h : Turn.lossOfChange? manager s with
    | none =>
      refine ⟨_, _, _, .reconnected h, ?_⟩
      simp only [step, Turn.reconnected, h, Turn.enter_eq, Turn.answerWaiter_eq, Turn.replay]
      rfl
    | some why =>
      refine ⟨_, _, _, .lostReconnecting why h, ?_⟩
      simp only [step, Turn.reconnected, h, Turn.lose_eq, Turn.answerWaiter_eq, Turn.replay]
      rfl
  | error why =>
    refine ⟨_, _, _, .unreconnected why, ?_⟩
    simp only [step, Turn.reconnected, Turn.enter_eq, Turn.endAll_eq, Turn.answerWaiter_eq,
      Turn.replay]
    rfl

theorem opens_disconnected (result : Except Failure Unit) :
    s.Opens manager (.completion (.disconnected result)) := by
  refine ⟨_, _, _, .disconnected result, ?_⟩
  simp only [step, Turn.disconnected, Turn.enter_eq, Turn.answerWaiter_eq, Turn.replay]
  rfl

theorem opens_published (id : RequestId) (result : Except Failure Unit) :
    s.Opens manager (.completion (.published id result)) := by
  cases result with
  | ok _ => exact ⟨_, _, _, .ignored (by trivial), rfl⟩
  | error why =>
    cases h : s.pending.lookup id with
    | none =>
      refine ⟨_, _, _, .ignored (by exact h), ?_⟩
      simp only [step, Turn.published, h]
      rfl
    | some op =>
      refine ⟨_, _, _, .unpublished id why op h, ?_⟩
      simp only [step, Turn.published, h]
      rfl

theorem opens_message (topic : String) (payload : Text.Octets) :
    s.Opens manager (.notice (.message topic payload)) := by
  cases hr : Topic.Response.parse topic with
  | error error =>
    refine ⟨_, _, _, .dropped topic payload fun response hok => ?_, ?_⟩
    · rw [hr] at hok
      cases hok
    · simp only [step, Turn.notice, Turn.respond, hr]
      rfl
  | ok response =>
    cases ho : Turn.operation? s response with
    | none =>
      refine ⟨_, _, _, .dropped topic payload fun response' hok => ?_, ?_⟩
      · rw [hr] at hok
        rwa [← Except.ok.inj hok]
      · simp only [step, Turn.notice, Turn.respond, hr, ho]
        rfl
    | some found =>
      obtain ⟨id, op⟩ := found
      have ⟨hid, hop⟩ : RequestId.parse? response.requestId = some id ∧
          s.pending.lookup id = some op := by
        simp only [Turn.operation?, Option.bind_eq_bind, Option.bind_eq_some_iff,
          Option.pure_def, Option.some.injEq, Prod.mk.injEq] at ho
        obtain ⟨id', hid, op', hop, rfl, rfl⟩ := ho
        exact ⟨hid, hop⟩
      refine ⟨_, _, _, .responded topic payload response id op hr hop hid, ?_⟩
      simp only [step, Turn.notice, Turn.respond, hr, ho]
      rfl

theorem opens_notice (notice : Connection.Notice) : s.Opens manager (.notice notice) := by
  cases notice with
  | message topic payload => exact s.opens_message manager topic payload
  | stateChanged state =>
    exact ⟨_, _, _, .ignored (by trivial), rfl⟩
  | lost why =>
    cases hs : s.state with
    | connected =>
      refine ⟨_, _, _, .lost why hs, ?_⟩
      simp only [step, Turn.notice, hs, Turn.lose_eq]
      rfl
    | connecting | reconnecting =>
      refine ⟨_, _, _, .noted why (by simp [hs]), ?_⟩
      simp only [step, Turn.notice, Turn.update, hs]
      rfl
    | disconnected | disconnecting =>
      refine ⟨_, _, _, .ignored (by simp [Ignores, hs]), ?_⟩
      simp only [step, Turn.notice, hs]
      rfl

theorem opens_shutDown : s.Opens manager .shutDown := by
  have key : ∀ (works : List Work) (s : Session) (es : List Effect),
      works.foldl (fun t work => t.refuse work) ⟨s, es⟩
        = (⟨s, es ++ works.flatMap refusing⟩ : Turn) := by
    intro works
    induction works with
    | nil => intro s es; simp
    | cons work works ih =>
      intro s es
      rw [List.foldl_cons, Turn.refuse_eq, ih, List.flatMap_cons, List.append_assoc]
  refine ⟨_, _, _, .shutDown, ?_⟩
  simp only [step, Turn.shutDown, Turn.endAll_eq, Turn.answerWaiter_eq, Turn.update]
  rw [key]
  rfl

/-- **Every step opens in one of the ways of `Opening`,** and then does work. -/
theorem opens (input : Input) : s.Opens manager input := by
  cases input with
  | order order => exact s.opens_order manager order
  | notice notice => exact s.opens_notice manager notice
  | shutDown => exact s.opens_shutDown manager
  | completion completion =>
    cases completion with
    | connected result => exact s.opens_connected manager result
    | published id result => exact s.opens_published manager id result
    | disconnected result => exact s.opens_disconnected manager result
    | reconnected result => exact s.opens_reconnected manager result

/-- **Induction over a step**: what its opening brings about, and every doing of work keeps, holds
when the step is over and no work is left. -/
theorem step_induction (input : Input) {P : Session → List Effect → List Work → Prop}
    (opening : ∀ s' es queue, Opening manager s input s' es queue → P s' es queue)
    (does : ∀ s₁ es work queue s₂ es', P s₁ es (work :: queue) → Doing s₁ work s₂ es' →
      P s₂ (es ++ es') queue) :
    P (s.step manager input).session (s.step manager input).effects [] := by
  obtain ⟨s', es, queue, hopen, hstep⟩ := s.opens manager input
  have key : ∀ (queue : List Work) (t : Turn), P t.session t.effects queue →
      P (queue.foldl (fun t work => t.perform work) t).session
        (queue.foldl (fun t work => t.perform work) t).effects [] := by
    intro queue
    induction queue with
    | nil => exact fun _ h => h
    | cons work queue ih =>
      intro t h
      obtain ⟨s₂, es', hdo, heq⟩ := t.doing work
      refine ih _ ?_
      show P (t.perform work).session (t.perform work).effects queue
      rw [heq]
      exact does _ _ _ _ _ _ h hdo
  rw [hstep]
  exact key queue ⟨s', es⟩ (opening _ _ _ hopen)

end Steps

/-! ## Queries -/

section Queries
variable (s : Session) (ticket : Ticket) (request : Request) (query : Query)

theorem lookup_asked :
    (s.asked ticket request query).pending.lookup s.ids.peek
      = some (s.operation ticket request query) := by
  have hnone : (s.pending.filter (·.1 ≠ s.ids.peek)).lookup s.ids.peek = none := by
    rw [Table.lookup_drop, if_pos rfl]
  rw [asked, List.lookup_append, hnone]
  simp

variable {s}

/-- **A query is published** by a session that is connected. -/
theorem step_ask_connected {manager : State} (hs : s.state = .connected) :
    s.step manager (.order ⟨ticket, .ask request query⟩)
      = ⟨s.asked ticket request query,
        [.count .operationStarted, .publish s.ids.peek (s.operation ticket request query).topic
          (s.operation ticket request query).body]⟩ := by
  have hstate : (s.asked ticket request query).state = .connected := hs
  refine (show _ = Turn.perform (.publish s.ids.peek)
    ⟨s.asked ticket request query, [.count .operationStarted]⟩ from rfl).trans ?_
  simp [Turn.perform, hstate, Connection.State.isTransitional, Turn.publish, lookup_asked,
    Turn.emit]

end Queries

end Session

end DeviceProvisioning
