import DeviceProvisioning.Connection.Manager

/-!
# What a step of a connection manager comes to

`Manager.step` is put together from turns.  This module says once, for every input, what the
manager is afterwards and what its effects are, so that nothing else has to look inside a turn.

A step has two parts.  It **opens** with what the input itself leads to (`Opening`), and that may
leave orders to be taken up: the one that has come in, or those that were put off until the change
under way had ended.  Then it **takes** these orders one after the other (`Taking`).

`Manager.opens` and `Turn.taking` say that there is no other way for a step to go, and
`Manager.step_induction` is the rule that everything about steps is proved by: what the opening
brings about, and every taking of an order keeps, holds when the step is over.
-/

namespace DeviceProvisioning.Connection

open Time (Millis)

/-- Whether a command is about messages only. -/
def Command.isTraffic : Command → Bool
  | publish .. | subscribe .. | unsubscribe _ => true
  | connect _ | disconnect | updateCredential _ => false

/-! ## Groups of effects -/

/-- The start of a connection attempt. -/
def attempting (generation : Nat) (p : Parameters) : List Effect :=
  [.count .connectionAttempted, .dial generation p]

namespace Manager

/-- What is told when the manager enters a state. -/
def entering (m : Manager) (next : State) : List Effect :=
  if m.state = next then [] else [.notify (.stateChanged next)]

/-- The answers to everyone whose message is in flight, when all of these have failed. -/
def failing (m : Manager) (why : Failure) : List Effect :=
  m.inFlight.flatMap fun p => [.count .publishFailed, .answer p.2 (.error why)]

/-- The answer to the caller of the change under way. -/
def answering (m : Manager) (result : Except Failure Unit) : List Effect :=
  m.waiter.toList.map fun ticket => .answer ticket result

/-- The end of the link, if there is one. -/
def closing (m : Manager) : List Effect :=
  m.link.toList.map .forceClose

/-- Who is told why there is no connection any more. -/
def reporting (m : Manager) (why : Option Failure) : List Effect :=
  match m.waiter, why with
  | some ticket, some why => [.answer ticket (.error why)]
  | some ticket, none => [.answer ticket (.ok ())]
  | none, some why => [.notify (.lost why)]
  | none, none => []

/-- **The end of a connection.** -/
def settling (m : Manager) (why : Option Failure) : List Effect :=
  .count .connectionLost :: (m.entering .disconnected
    ++ m.failing (why.getD (.notConnected "connection closed")) ++ m.reporting why)

/-! ## Managers after a change -/

/-- The parameters of the next connection: a stored credential takes the place of theirs. -/
def prepared (m : Manager) (p : Parameters) : Parameters :=
  match m.storedCredential with
  | some credential => { p with credential := some credential }
  | none => p

/-- The manager when a connection has ended. -/
def settled (m : Manager) : Manager :=
  { m with
    state := .disconnected, link := none, waiter := none, phase := none, deadline := none
    inFlight := [], deferred := [] }

/-- The manager that connects again, with a new credential. -/
def redialled (m : Manager) (p : Parameters) : Manager :=
  { m with
    link := none, phase := some .dialling, deadline := none, inFlight := []
    generation := m.generation + 1, parameters := some p }

/-- The manager with the parameters of its connection, or else its stored credential, changed. -/
def renewed (m : Manager) (credential : Credential) : Manager :=
  match m.parameters with
  | some p => { m with parameters := some { p with credential := some credential } }
  | none => { m with storedCredential := some credential }

section Renewed
variable (m : Manager) (credential : Credential)

/-! A new credential changes nothing but the parameters and what is in store. -/

@[simp] theorem renewed_link : (m.renewed credential).link = m.link := by
  unfold renewed
  cases m.parameters <;> rfl

@[simp] theorem renewed_generation : (m.renewed credential).generation = m.generation := by
  unfold renewed
  cases m.parameters <;> rfl

@[simp] theorem renewed_patience : (m.renewed credential).patience = m.patience := by
  unfold renewed
  cases m.parameters <;> rfl

@[simp] theorem renewed_inFlight : (m.renewed credential).inFlight = m.inFlight := by
  unfold renewed
  cases m.parameters <;> rfl

@[simp] theorem renewed_deferred : (m.renewed credential).deferred = m.deferred := by
  unfold renewed
  cases m.parameters <;> rfl

end Renewed

/-- Whether the manager has begun a rotation and still waits for the old link to close. -/
def Rotating (m : Manager) : Prop :=
  m.state = .reconnecting ∧ m.phase = some .tearingDown

instance (m : Manager) : Decidable m.Rotating :=
  inferInstanceAs (Decidable (_ ∧ _))

/-- **What the manager takes no notice of**: completions that are out of date, and events that it
no longer waits for. -/
def Ignores (m : Manager) : Input → Prop
  | .completion (.dialled generation (.error _)) => generation ≠ m.generation
  | .completion (.tornDown generation _) =>
    generation ≠ m.generation ∨ (m.state ≠ .disconnecting ∧ ¬ m.Rotating)
  | .completion (.published id _) => m.inFlight.lookup id = none
  | .completion (.link generation (.message ..)) => generation ≠ m.generation
  | .completion (.link generation _) => generation ≠ m.generation ∨ m.state ≠ .connected
  | _ => False

end Manager

/-! ## Openings -/

/-- What a rotation has been waiting for, and how the old link is closed then. -/
inductive Release (m : Manager) : Input → List Effect → Prop where
  | tornDown (result : Except LinkError Unit) (h : m.Rotating) :
    Release m (.completion (.tornDown m.generation result)) []
  | expired (h : m.Rotating) : Release m .expired m.closing

/-- Why messages fail whose link is closed by a rotation. -/
def rotationFailure : Failure :=
  .notConnected "connection closed for credential update"

/-- **What an input leads to by itself**: the manager and the effects, and the orders that are now
to be taken. -/
inductive Opening (m : Manager) : Input → Manager → List Effect → List Order → Prop where
  | order (o : Order) : Opening m (.order o) m [] [o]
  | established (link : LinkId) :
    Opening m (.completion (.dialled m.generation (.ok link)))
      { m with
        link := some link, phase := none, state := .connected, waiter := none, deferred := [] }
      (.count .connectionEstablished :: (m.entering .connected ++ m.answering (.ok ())))
      m.deferred
  | refused (error : LinkError) :
    Opening m (.completion (.dialled m.generation (.error error))) m.settled
      (.count .connectionFailed :: m.settling (some (.ofLink error))) m.deferred
  | abandoned (generation : Nat) (link : LinkId) (h : generation ≠ m.generation) :
    Opening m (.completion (.dialled generation (.ok link))) m [.forceClose link] []
  | tornDown (result : Except LinkError Unit) (h : m.state = .disconnecting) :
    Opening m (.completion (.tornDown m.generation result)) m.settled (m.settling none) m.deferred
  | rotated {input : Input} {before : List Effect} (p : Parameters) (h : Release m input before)
      (hp : m.parameters = some p) :
    Opening m input (m.redialled p)
      (before ++ m.failing rotationFailure ++ attempting (m.generation + 1) p) []
  | stranded {input : Input} {before : List Effect} (h : Release m input before)
      (hp : m.parameters = none) :
    Opening m input m.settled
      (before ++ m.failing rotationFailure ++ { m with inFlight := [] }.settling
        (some (.notConnected "no configuration to reconnect with"))) m.deferred
  | lapsed (h : ¬ m.Rotating) : Opening m .expired { m with deadline := none } [] []
  | acknowledged (id : RequestId) (ticket : Ticket) (h : m.inFlight.lookup id = some ticket) :
    Opening m (.completion (.published id (.ok ())))
      { m with inFlight := m.inFlight.filter (·.1 ≠ id) }
      [.count .publishAcknowledged, .answer ticket (.ok ())] []
  | undelivered (id : RequestId) (error : LinkError) (ticket : Ticket)
      (h : m.inFlight.lookup id = some ticket) :
    Opening m (.completion (.published id (.error error)))
      { m with inFlight := m.inFlight.filter (·.1 ≠ id) }
      [.count .publishFailed, .answer ticket (.error (.ofLink error))] []
  | message (topic : String) (payload : Text.Octets) :
    Opening m (.completion (.link m.generation (.message topic payload))) m
      [.count .messageReceived, .notify (.message topic payload)] []
  | closed (h : m.state = .connected) :
    Opening m (.completion (.link m.generation .closed)) m.settled
      (m.settling (some (.notConnected "connection to the server has been closed"))) m.deferred
  | failed (error : LinkError) (h : m.state = .connected) :
    Opening m (.completion (.link m.generation (.failed error))) m.settled
      (.notify (.stateChanged .disconnecting) :: (m.closing
        ++ { m with state := .disconnecting }.settling (some (.ofLink error)))) m.deferred
  | ignored {input : Input} (h : m.Ignores input) : Opening m input m [] []
  | shutDown :
    Opening m .shutDown
      { m with
        link := none, waiter := none, inFlight := [], deferred := []
        state := .disconnected }
      (m.closing ++ m.failing Turn.gone ++ m.answering (.error Turn.gone)
        ++ m.deferred.map fun o => .answer o.ticket (.error Turn.gone)) []

/-! ## Orders -/

/-- **What the taking of an order comes to**: the manager and the effects. -/
inductive Taking (now : Millis) (m : Manager) (o : Order) : Manager → List Effect → Prop where
  | deferred (h : m.state.isTransitional) :
    Taking now m o { m with deferred := m.deferred ++ [o] } []
  | connecting (p : Parameters) (hs : m.state = .disconnected) (hc : o.command = .connect p) :
    Taking now m o
      { m with
        state := .connecting, storedCredential := none, waiter := some o.ticket
        generation := m.generation + 1, parameters := some (m.prepared p) }
      (.notify (.stateChanged .connecting) :: attempting (m.generation + 1) (m.prepared p))
  | closedAlready (hs : m.state = .disconnected) (hc : o.command = .disconnect) :
    Taking now m o m [.answer o.ticket (.ok ())]
  | stored (credential : Credential) (hs : m.state = .disconnected)
      (hc : o.command = .updateCredential credential) :
    Taking now m o { m with storedCredential := some credential } [.answer o.ticket (.ok ())]
  | refused (hs : m.state = .disconnected) (hc : o.command.isTraffic) :
    Taking now m o m [.answer o.ticket (.error (.notConnected "not connected"))]
  | unlinked (hs : m.state = .connected) (hl : m.link = none) :
    Taking now m o m [.answer o.ticket (.error (.notConnected "no open connection"))]
  | openAlready (link : LinkId) (p : Parameters) (hs : m.state = .connected)
      (hl : m.link = some link) (hc : o.command = .connect p) :
    Taking now m o m [.answer o.ticket (.ok ())]
  | disconnecting (link : LinkId) (hs : m.state = .connected) (hl : m.link = some link)
      (hc : o.command = .disconnect) :
    Taking now m o { m with state := .disconnecting, waiter := some o.ticket }
      [.notify (.stateChanged .disconnecting), .tearDown m.generation link]
  | publishing (link : LinkId) (topic : String) (payload : Text.Octets) (delivery : Delivery)
      (hs : m.state = .connected) (hl : m.link = some link)
      (hc : o.command = .publish topic payload delivery) :
    Taking now m o
      { m with
        ids := m.ids.advance
        inFlight := m.inFlight.filter (·.1 ≠ m.ids.peek) ++ [(m.ids.peek, o.ticket)] }
      [.count .publishStarted, .publish link m.ids.peek topic payload delivery]
  | subscribing (link : LinkId) (filter : String) (qos : Link.Qos) (hs : m.state = .connected)
      (hl : m.link = some link) (hc : o.command = .subscribe filter qos) :
    Taking now m o m [.subscribe link filter qos o.ticket]
  | unsubscribing (link : LinkId) (filter : String) (hs : m.state = .connected)
      (hl : m.link = some link) (hc : o.command = .unsubscribe filter) :
    Taking now m o m [.unsubscribe link filter o.ticket]
  | rotating (link : LinkId) (credential : Credential) (hs : m.state = .connected)
      (hl : m.link = some link) (hc : o.command = .updateCredential credential) :
    Taking now m o
      { m.renewed credential with
        state := .reconnecting, waiter := some o.ticket, phase := some .tearingDown
        deadline := some (now + m.patience) }
      [.notify (.stateChanged .reconnecting), .tearDown m.generation link]

/-! ## Turns -/

namespace Turn
variable (now : Millis) (t : Turn)

theorem enter_eq (next : State) :
    t.enter next = ⟨{ t.manager with state := next }, t.effects ++ t.manager.entering next⟩ := by
  unfold enter Manager.entering
  split
  · rename_i h
    rw [← h, List.append_nil]
  · rfl

theorem answerWaiter_eq (result : Except Failure Unit) :
    t.answerWaiter result
      = ⟨{ t.manager with waiter := none }, t.effects ++ t.manager.answering result⟩ := by
  obtain ⟨m, effects⟩ := t
  unfold answerWaiter Manager.answering
  cases h : m.waiter with
  | none => simp [← h]
  | some ticket => simp [answer, update, emit]

theorem failInFlight_eq (why : Failure) :
    t.failInFlight why
      = ⟨{ t.manager with inFlight := [] }, t.effects ++ t.manager.failing why⟩ := by
  have key : ∀ (flights : List (RequestId × Ticket)) (m : Manager) (effects : List Effect),
      flights.foldl
          (fun t p => (t.emit (.count .publishFailed)).answer p.2 (.error why)) ⟨m, effects⟩
        = (⟨m, effects ++ flights.flatMap fun p =>
            [.count .publishFailed, .answer p.2 (.error why)]⟩ : Turn) := by
    intro flights
    induction flights with
    | nil => intro m effects; simp
    | cons p flights ih =>
      intro m effects
      rw [List.foldl_cons, answer, emit, emit, ih, List.flatMap_cons]
      simp only [List.append_assoc, List.cons_append, List.nil_append]
  exact key t.manager.inFlight _ _

theorem forceClose_eq :
    t.forceClose = ⟨{ t.manager with link := none }, t.effects ++ t.manager.closing⟩ := by
  obtain ⟨m, effects⟩ := t
  unfold forceClose Manager.closing
  cases h : m.link with
  | none => simp [← h]
  | some link => simp [update, emit]

theorem report_eq (why : Option Failure) :
    t.report why = ⟨{ t.manager with waiter := none }, t.effects ++ t.manager.reporting why⟩ := by
  obtain ⟨m, effects⟩ := t
  unfold report Manager.reporting
  cases h : m.waiter with
  | none => cases why <;> simp [emit, ← h]
  | some ticket => cases why <;> simp [answerWaiter_eq, Manager.answering, h]

theorem dial_eq (p : Parameters) :
    t.dial p = ⟨{ t.manager with generation := t.manager.generation + 1, parameters := some p },
      t.effects ++ attempting (t.manager.generation + 1) p⟩ := by
  simp [dial, update, emit, attempting]

/-- What is left when a connection has ended is to take up the orders that were put off. -/
theorem settleDisconnected_eq (why : Option Failure) :
    t.settleDisconnected now why = t.manager.deferred.foldl (fun t o => t.take now o)
      ⟨t.manager.settled, t.effects ++ t.manager.settling why⟩ := by
  unfold settleDisconnected replay
  rw [report_eq, failInFlight_eq, enter_eq]
  simp only [update, emit, Manager.settled, Manager.settling, List.append_assoc, List.cons_append,
    List.nil_append]
  rfl

theorem redial_eq (p : Parameters) (hp : t.manager.parameters = some p) :
    t.redial now = ⟨t.manager.redialled p, t.effects ++ t.manager.failing rotationFailure
      ++ attempting (t.manager.generation + 1) p⟩ := by
  unfold redial
  rw [failInFlight_eq]
  simp only [update, hp, dial_eq]
  rfl

theorem redial_stranded (hp : t.manager.parameters = none) :
    t.redial now = t.manager.deferred.foldl (fun t o => t.take now o)
      ⟨t.manager.settled, t.effects ++ t.manager.failing rotationFailure
        ++ { t.manager with inFlight := [] }.settling
          (some (.notConnected "no configuration to reconnect with"))⟩ := by
  unfold redial
  rw [failInFlight_eq]
  simp only [update, hp, settleDisconnected_eq, Manager.settled, Manager.settling]
  rfl

theorem expired_of_rotating (h : t.manager.Rotating) :
    t.expired now = (t.update fun m => { m with deadline := none }).forceClose.redial now :=
  if_pos h

theorem expired_of_not_rotating (h : ¬ t.manager.Rotating) :
    t.expired now = t.update fun m => { m with deadline := none } :=
  if_neg h

/-- **An order is taken in one of the ways of `Taking`.** -/
theorem taking (o : Order) :
    ∃ m es, Taking now t.manager o m es ∧ t.take now o = ⟨m, t.effects ++ es⟩ := by
  obtain ⟨m, effects⟩ := t
  cases hs : m.state with
  | connecting | disconnecting | reconnecting =>
    refine ⟨_, _, .deferred (by rw [hs]; rfl), ?_⟩
    simp [take, hs, defer, update]
  | disconnected =>
    cases hc : o.command with
    | connect p =>
      refine ⟨_, _, .connecting p hs hc, ?_⟩
      simp only [take, hs, whileDisconnected, hc, dial_eq, enter_eq, update, Manager.entering]
      simp only [reduceCtorEq, if_false, List.append_assoc]
      rfl
    | disconnect =>
      refine ⟨_, _, .closedAlready hs hc, ?_⟩
      simp [take, hs, whileDisconnected, hc, answer, emit]
    | updateCredential credential =>
      refine ⟨_, _, .stored credential hs hc, ?_⟩
      simp [take, hs, whileDisconnected, hc, answer, emit, update]
    | publish topic payload delivery | subscribe filter qos | unsubscribe filter =>
      refine ⟨_, _, .refused hs (by rw [hc]; rfl), ?_⟩
      simp [take, hs, whileDisconnected, hc, answer, emit]
  | connected =>
    cases hl : m.link with
    | none =>
      refine ⟨_, _, .unlinked hs hl, ?_⟩
      simp [take, hs, hl, answer, emit]
    | some link =>
      cases hc : o.command with
      | connect p =>
        refine ⟨_, _, .openAlready link p hs hl hc, ?_⟩
        simp [take, hs, hl, whileConnected, hc, answer, emit]
      | disconnect =>
        refine ⟨_, _, .disconnecting link hs hl hc, ?_⟩
        simp [take, hs, hl, whileConnected, hc, enter_eq, Manager.entering, tearDown, emit, update]
      | publish topic payload delivery =>
        refine ⟨_, _, .publishing link topic payload delivery hs hl hc, ?_⟩
        simp [take, hs, hl, whileConnected, hc, emit, update]
      | subscribe filter qos =>
        refine ⟨_, _, .subscribing link filter qos hs hl hc, ?_⟩
        simp [take, hs, hl, whileConnected, hc, emit]
      | unsubscribe filter =>
        refine ⟨_, _, .unsubscribing link filter hs hl hc, ?_⟩
        simp [take, hs, hl, whileConnected, hc, emit]
      | updateCredential credential =>
        refine ⟨_, _, .rotating link credential hs hl hc, ?_⟩
        simp only [take, hs, hl, whileConnected, hc, enter_eq, Manager.entering, tearDown, emit,
          update, Manager.renewed]
        cases m.parameters <;> simp

end Turn

/-! ## Steps -/

namespace Manager
variable (now : Millis) (m : Manager)

/-- A step that opens in one of the ways of `Opening`, and then takes orders. -/
def Opens (input : Input) : Prop :=
  ∃ m' es queue, Opening m input m' es queue ∧
    m.step now input = queue.foldl (fun t o => t.take now o) ⟨m', es⟩

theorem opens_dialled (generation : Nat) (result : Except LinkError LinkId) :
    m.Opens now (.completion (.dialled generation result)) := by
  by_cases h : generation = m.generation
  · subst h
    cases result with
    | ok link =>
      refine ⟨_, _, _, .established link, ?_⟩
      simp only [step, Turn.dialled, if_true, Turn.replay, Turn.answerWaiter_eq, Turn.enter_eq,
        Turn.update, Turn.emit, List.cons_append, List.nil_append]
      rfl
    | error error =>
      refine ⟨_, _, _, .refused error, ?_⟩
      simp only [step, Turn.dialled, if_true, Turn.settleDisconnected_eq, Turn.emit]
      rfl
  · cases result with
    | ok link =>
      refine ⟨_, _, _, .abandoned generation link h, ?_⟩
      simp only [step, Turn.dialled, if_neg h]
      rfl
    | error error =>
      refine ⟨_, _, _, .ignored (by exact h), ?_⟩
      simp only [step, Turn.dialled, if_neg h]
      rfl

theorem opens_tornDown (generation : Nat) (result : Except LinkError Unit) :
    m.Opens now (.completion (.tornDown generation result)) := by
  by_cases h : generation = m.generation
  · subst h
    by_cases hd : m.state = .disconnecting
    · refine ⟨_, _, _, .tornDown result hd, ?_⟩
      simp only [step, Turn.tornDown, if_true, hd, Turn.settleDisconnected_eq]
      rfl
    · by_cases hr : m.Rotating
      · simp only [Opens, step, Turn.tornDown, if_true, hr.1, hr.2]
        cases hp : m.parameters with
        | some p =>
          refine ⟨_, _, _, .rotated p (.tornDown result hr) hp, ?_⟩
          rw [Turn.redial_eq _ _ p hp]
          rfl
        | none =>
          refine ⟨_, _, _, .stranded (.tornDown result hr) hp, ?_⟩
          rw [Turn.redial_stranded _ _ hp]
      · refine ⟨_, _, _, .ignored (.inr ⟨hd, hr⟩), ?_⟩
        simp only [step, Turn.tornDown, if_true]
        split
        · exact absurd ‹_› hd
        · exact absurd ⟨‹_›, ‹_›⟩ hr
        · rfl
  · refine ⟨_, _, _, .ignored (.inl h), ?_⟩
    simp only [step, Turn.tornDown, if_neg h]
    rfl

theorem opens_published (id : RequestId) (result : Except LinkError Unit) :
    m.Opens now (.completion (.published id result)) := by
  cases h : m.inFlight.lookup id with
  | none =>
    refine ⟨_, _, _, .ignored (by exact h), ?_⟩
    simp only [step, Turn.published, h]
    rfl
  | some ticket =>
    cases result with
    | ok _ =>
      refine ⟨_, _, _, .acknowledged id ticket h, ?_⟩
      simp only [step, Turn.published, h, Turn.update, Turn.emit, Turn.answer]
      rfl
    | error error =>
      refine ⟨_, _, _, .undelivered id error ticket h, ?_⟩
      simp only [step, Turn.published, h, Turn.update, Turn.emit, Turn.answer]
      rfl

theorem opens_link (generation : Nat) (event : Link.Event) :
    m.Opens now (.completion (.link generation event)) := by
  by_cases h : generation = m.generation
  · subst h
    cases event with
    | message topic payload =>
      refine ⟨_, _, _, .message topic payload, ?_⟩
      simp only [step, Turn.linkEvent, if_true, Turn.emit]
      rfl
    | closed =>
      by_cases hs : m.state = .connected
      · refine ⟨_, _, _, .closed hs, ?_⟩
        simp only [step, Turn.linkEvent, if_true, hs, Turn.settleDisconnected_eq]
        rfl
      · refine ⟨_, _, _, .ignored (.inr hs), ?_⟩
        simp only [step, Turn.linkEvent, if_true, if_neg hs]
        rfl
    | failed error =>
      by_cases hs : m.state = .connected
      · refine ⟨_, _, _, .failed error hs, ?_⟩
        simp only [step, Turn.linkEvent, if_true, hs, Turn.settleDisconnected_eq,
          Turn.forceClose_eq, Turn.enter_eq, entering, reduceCtorEq, if_false, settled, settling]
        rfl
      · refine ⟨_, _, _, .ignored (.inr hs), ?_⟩
        simp only [step, Turn.linkEvent, if_true, if_neg hs]
        rfl
  · refine ⟨_, _, _, .ignored ?_, ?_⟩
    · cases event with
      | message => exact h
      | closed | failed => exact .inl h
    · simp only [step, Turn.linkEvent, if_neg h]
      rfl

theorem opens_expired : m.Opens now .expired := by
  by_cases h : m.Rotating
  · simp only [Opens, step, Turn.expired_of_rotating now ⟨m, []⟩ h, Turn.forceClose_eq]
    cases hp : m.parameters with
    | some p =>
      refine ⟨_, _, _, .rotated p (.expired h) hp, ?_⟩
      rw [Turn.redial_eq _ _ p hp]
      rfl
    | none =>
      refine ⟨_, _, _, .stranded (.expired h) hp, ?_⟩
      rw [Turn.redial_stranded _ _ hp]
      simp only [settled, settling]
      rfl
  · refine ⟨_, _, _, .lapsed h, ?_⟩
    simp only [step, Turn.expired_of_not_rotating now ⟨m, []⟩ h]
    rfl

theorem opens_shutDown : m.Opens now .shutDown := by
  refine ⟨_, _, _, .shutDown, ?_⟩
  have key : ∀ (orders : List Order) (m : Manager) (es : List Effect),
      orders.foldl (fun t o => t.answer o.ticket (.error Turn.gone)) ⟨m, es⟩
        = (⟨m, es ++ orders.map fun o => .answer o.ticket (.error Turn.gone)⟩ : Turn) := by
    intro orders
    induction orders with
    | nil => intro m es; simp
    | cons o orders ih =>
      intro m es
      rw [List.foldl_cons, Turn.answer, Turn.emit, ih, List.map_cons]
      simp only [List.append_assoc, List.cons_append, List.nil_append]
  simp only [step, Turn.shutDown, Turn.answerWaiter_eq, Turn.failInFlight_eq, Turn.forceClose_eq,
    Turn.update, key]
  rfl

/-- **Every step opens in one of the ways of `Opening`,** and then takes orders. -/
theorem opens (input : Input) : m.Opens now input := by
  cases input with
  | order o => exact ⟨_, _, _, .order o, rfl⟩
  | expired => exact m.opens_expired now
  | shutDown => exact m.opens_shutDown now
  | completion completion =>
    cases completion with
    | dialled generation result => exact m.opens_dialled now generation result
    | tornDown generation result => exact m.opens_tornDown now generation result
    | published id result => exact m.opens_published now id result
    | link generation event => exact m.opens_link now generation event

/-- **Induction over a step**: what its opening brings about, and every taking of an order keeps,
holds when the step is over and no order is left. -/
theorem step_induction (input : Input) {P : Manager → List Effect → List Order → Prop}
    (opens : ∀ m' es queue, Opening m input m' es queue → P m' es queue)
    (takes : ∀ m₁ es o queue m₂ es', P m₁ es (o :: queue) → Taking now m₁ o m₂ es' →
      P m₂ (es ++ es') queue) :
    P (m.step now input).manager (m.step now input).effects [] := by
  obtain ⟨m', es, queue, hopen, hstep⟩ := m.opens now input
  have key : ∀ (queue : List Order) (t : Turn), P t.manager t.effects queue →
      P (queue.foldl (fun t o => t.take now o) t).manager
        (queue.foldl (fun t o => t.take now o) t).effects [] := by
    intro queue
    induction queue with
    | nil => exact fun _ h => h
    | cons o queue ih =>
      intro t h
      obtain ⟨m₂, es', htake, heq⟩ := t.taking now o
      refine ih _ ?_
      show P (t.take now o).manager (t.take now o).effects queue
      rw [heq]
      exact takes _ _ _ _ _ _ h htake
  rw [hstep]
  exact key queue ⟨m', es⟩ (opens _ _ _ hopen)

end Manager

end DeviceProvisioning.Connection
