import DeviceProvisioning.Proofs.Connection.Move

/-!
# Courses of a connection manager

A step of a manager starts things that go on by themselves: connection attempts, the closing of
a link, messages, subscriptions.  A `Course` is a manager together with what it has started and
what has become of it so far, and `Course.Step` is everything that may happen next:

* the manager **takes** an input.  An order may come at any time and bear any command; what was
  started may come back at any time, in any order and with any result; a link of whatever age may
  report anything; the deadline may pass as soon as there is one; and the manager may be shut down.
* what answers its caller by itself — a subscription, or the end of one — does so.
* when the manager is no more, the rest comes back **late**, and nobody takes notice.

Nothing is assumed of the broker.  An order bears a ticket of its own and an attempt yields a link
of its own, because that is what tickets and links are.  The source of ids may hand out an id
while it is still in use, but this is noted (`Course.clashed`).
-/

namespace DeviceProvisioning.Connection

open Time (Millis)

/-! ## What effects start, and whom they answer -/

namespace Effect

/-- Whether an effect starts something that goes on until it comes back. -/
def isLasting : Effect → Bool
  | dial .. | tearDown .. | publish .. | subscribe .. | unsubscribe .. => true
  | answer .. | notify _ | forceClose _ | count _ => false

/-- The caller who is answered by an effect. -/
def answered? : Effect → Option Ticket
  | answer ticket _ => some ticket
  | _ => none

/-- The caller who is answered when what was started comes back. -/
def caller? : Effect → Option Ticket
  | subscribe _ _ _ ticket | unsubscribe _ _ ticket => some ticket
  | _ => none

/-- The id of a message that is published. -/
def messageId? : Effect → Option RequestId
  | publish _ id .. => some id
  | _ => none

/-- What the owner of the manager is told by an effect. -/
def notice? : Effect → Option Notice
  | notify notice => some notice
  | _ => none

end Effect

/-- What effects have started. -/
def lasting (es : List Effect) : List Effect :=
  es.filter Effect.isLasting

/-- The callers who have been answered. -/
def answered (es : List Effect) : List Ticket :=
  es.filterMap Effect.answered?

/-- The callers of what was started, who are answered when it comes back. -/
def asking (es : List Effect) : List Ticket :=
  es.filterMap Effect.caller?

/-- The ids of the messages that are published. -/
def messageIds (es : List Effect) : List RequestId :=
  es.filterMap Effect.messageId?

/-- What the owner of the manager is told. -/
def told (es : List Effect) : List Notice :=
  es.filterMap Effect.notice?

section Views
variable (e : Effect) (es es' : List Effect)

@[simp] theorem lasting_nil : lasting [] = [] := rfl

@[simp] theorem lasting_cons :
    lasting (e :: es) = if e.isLasting then e :: lasting es else lasting es :=
  List.filter_cons

@[simp] theorem lasting_append : lasting (es ++ es') = lasting es ++ lasting es' :=
  List.filter_append ..

@[simp] theorem answered_nil : answered [] = [] := rfl

@[simp] theorem answered_cons : answered (e :: es) = e.answered?.toList ++ answered es := by
  cases h : e.answered? <;> simp [answered, h]

@[simp] theorem answered_append : answered (es ++ es') = answered es ++ answered es' :=
  List.filterMap_append

@[simp] theorem asking_nil : asking [] = [] := rfl

@[simp] theorem asking_cons : asking (e :: es) = e.caller?.toList ++ asking es := by
  cases h : e.caller? <;> simp [asking, h]

@[simp] theorem asking_append : asking (es ++ es') = asking es ++ asking es' :=
  List.filterMap_append

@[simp] theorem messageIds_nil : messageIds [] = [] := rfl

@[simp] theorem messageIds_cons :
    messageIds (e :: es) = e.messageId?.toList ++ messageIds es := by
  cases h : e.messageId? <;> simp [messageIds, h]

@[simp] theorem messageIds_append : messageIds (es ++ es') = messageIds es ++ messageIds es' :=
  List.filterMap_append

@[simp] theorem told_nil : told [] = [] := rfl

@[simp] theorem told_cons : told (e :: es) = e.notice?.toList ++ told es := by
  cases h : e.notice? <;> simp [told, h]

@[simp] theorem told_append : told (es ++ es') = told es ++ told es' :=
  List.filterMap_append

end Views

namespace Manager
variable (m : Manager)

@[simp] theorem lasting_entering (next : State) : lasting (m.entering next) = [] := by
  unfold entering
  split <;> rfl

@[simp] theorem answered_entering (next : State) : answered (m.entering next) = [] := by
  unfold entering
  split <;> rfl

/-- A state that is entered is told of. -/
theorem told_entering {m : Manager} {next : State} (h : m.state ≠ next) :
    told (m.entering next) = [.stateChanged next] := by
  rw [entering, if_neg h]
  rfl

/-- When the messages in flight have failed, their senders are answered. -/
theorem of_mem_failing {m : Manager} {why : Failure} {e : Effect} (h : e ∈ m.failing why) :
    e = .count .publishFailed ∨ ∃ p ∈ m.inFlight, e = .answer p.2 (.error why) := by
  obtain ⟨p, hp, he⟩ := List.mem_flatMap.1 h
  rcases List.mem_cons.1 he with rfl | he
  · exact .inl rfl
  · exact .inr ⟨p, hp, List.mem_singleton.1 he⟩

@[simp] theorem lasting_failing (why : Failure) : lasting (m.failing why) = [] := by
  refine List.filter_eq_nil_iff.2 fun e he => ?_
  obtain rfl | ⟨p, -, rfl⟩ := of_mem_failing he <;> simp [Effect.isLasting]

@[simp] theorem answered_failing (why : Failure) :
    answered (m.failing why) = m.inFlight.map Prod.snd := by
  unfold failing
  induction m.inFlight with
  | nil => rfl
  | cons p flights ih => simpa [Effect.answered?] using ih

@[simp] theorem lasting_answering (result : Except Failure Unit) :
    lasting (m.answering result) = [] := by
  unfold answering
  cases m.waiter <;> rfl

@[simp] theorem answered_answering (result : Except Failure Unit) :
    answered (m.answering result) = m.waiter.toList := by
  unfold answering
  cases m.waiter <;> rfl

@[simp] theorem lasting_closing : lasting m.closing = [] := by
  unfold closing
  cases m.link <;> rfl

@[simp] theorem answered_closing : answered m.closing = [] := by
  unfold closing
  cases m.link <;> rfl

@[simp] theorem lasting_reporting (why : Option Failure) : lasting (m.reporting why) = [] := by
  unfold reporting
  cases m.waiter <;> cases why <;> rfl

@[simp] theorem answered_reporting (why : Option Failure) :
    answered (m.reporting why) = m.waiter.toList := by
  unfold reporting
  cases m.waiter <;> cases why <;> rfl

@[simp] theorem lasting_settling (why : Option Failure) : lasting (m.settling why) = [] := by
  simp [settling, Effect.isLasting]

@[simp] theorem answered_settling (why : Option Failure) :
    answered (m.settling why) = m.inFlight.map Prod.snd ++ m.waiter.toList := by
  simp [settling, Effect.answered?]

end Manager

@[simp] theorem lasting_attempting (generation : Nat) (p : Parameters) :
    lasting (attempting generation p) = [.dial generation p] := rfl

@[simp] theorem answered_attempting (generation : Nat) (p : Parameters) :
    answered (attempting generation p) = [] := rfl

/-! ## Courses -/

/-- **A manager, what it has started, and what has become of it so far.** -/
structure Course where
  manager : Manager
  /-- What was started and has not come back yet. -/
  outstanding : List Effect := []
  /-- The links that the attempts have yielded, each with its generation. -/
  links : List (Nat × LinkId) := []
  /-- The filters that the broker has acknowledged, each with the link it was asked on. -/
  granted : List (LinkId × String) := []
  /-- What the manager has taken so far. -/
  inputs : List Input := []
  /-- All effects so far, and the answers of what answers by itself. -/
  record : List Effect := []
  /-- Whether an id has been handed out while it was in use. -/
  clashed : Bool := false
  /-- Whether the manager has been shut down. -/
  stopped : Bool := false

namespace Input

/-- The caller of an order. -/
def ticket? : Input → Option Ticket
  | order o => some o.ticket
  | _ => none

/-- The link that an attempt has yielded, with its generation. -/
def link? : Input → Option (Nat × LinkId)
  | completion (.dialled generation (.ok link)) => some (generation, link)
  | _ => none

/-- Whether the manager is shut down. -/
def isShutDown : Input → Bool
  | shutDown => true
  | _ => false

theorem eq_shutDown {input : Input} (h : input.isShutDown = true) : input = .shutDown := by
  cases input <;> first | rfl | cases h

/-- **What comes back with an input**, if it is something that was started. -/
inductive Ends : Input → Option Effect → Prop where
  | order (o : Order) : Ends (.order o) none
  | dialled (generation : Nat) (p : Parameters) (result : Except LinkError LinkId) :
    Ends (.completion (.dialled generation result)) (some (.dial generation p))
  | tornDown (generation : Nat) (link : LinkId) (result : Except LinkError Unit) :
    Ends (.completion (.tornDown generation result)) (some (.tearDown generation link))
  | published (link : LinkId) (id : RequestId) (topic : String) (payload : Text.Octets)
      (delivery : Delivery) (result : Except LinkError Unit) :
    Ends (.completion (.published id result)) (some (.publish link id topic payload delivery))
  | event (generation : Nat) (event : Link.Event) : Ends (.completion (.link generation event)) none
  | expired : Ends .expired none
  | shutDown : Ends .shutDown none

section Ends
variable {e : Option Effect}

theorem Ends.of_dialled {generation : Nat} {result : Except LinkError LinkId}
    (h : Ends (.completion (.dialled generation result)) e) :
    ∃ p, e = some (.dial generation p) := by
  cases h with
  | dialled generation p result => exact ⟨p, rfl⟩

theorem Ends.of_tornDown {generation : Nat} {result : Except LinkError Unit}
    (h : Ends (.completion (.tornDown generation result)) e) :
    ∃ link, e = some (.tearDown generation link) := by
  cases h with
  | tornDown generation link result => exact ⟨link, rfl⟩

theorem Ends.of_published {id : RequestId} {result : Except LinkError Unit}
    (h : Ends (.completion (.published id result)) e) :
    ∃ link topic payload delivery, e = some (.publish link id topic payload delivery) := by
  cases h with
  | published link id topic payload delivery result => exact ⟨link, topic, payload, delivery, rfl⟩

end Ends

end Input

/-- **The ids that a step hands out differ** from each other and from those in use. -/
def Manager.Fresh (now : Millis) (m : Manager) (input : Input) : Prop :=
  (m.inFlight.map Prod.fst ++ messageIds (m.step now input).effects).Nodup

instance (now : Millis) (m : Manager) (input : Input) : Decidable (m.Fresh now input) :=
  inferInstanceAs (Decidable (List.Nodup _))

namespace Course

/-- The callers of the orders that the manager has taken. -/
def taken (c : Course) : List Ticket :=
  c.inputs.filterMap Input.ticket?

/-- **What the surroundings can come up with**: a ticket and a link are new, a link that reports
something has been there, and a deadline must be set to pass. -/
def Admits (c : Course) : Input → Prop
  | .order o => o.ticket ∉ c.taken
  | .completion (.dialled _ (.ok link)) => link ∉ c.links.map Prod.snd
  | .completion (.link generation _) => generation ∈ c.links.map Prod.fst
  | .expired => c.manager.deadline.isSome
  | _ => True

instance (c : Course) : (input : Input) → Decidable (c.Admits input)
  | .order o => inferInstanceAs (Decidable (o.ticket ∉ c.taken))
  | .completion (.dialled _ (.ok link)) =>
    inferInstanceAs (Decidable (link ∉ c.links.map Prod.snd))
  | .completion (.dialled _ (.error _)) | .completion (.tornDown ..)
  | .completion (.published ..) | .shutDown => inferInstanceAs (Decidable True)
  | .completion (.link generation _) =>
    inferInstanceAs (Decidable (generation ∈ c.links.map Prod.fst))
  | .expired => inferInstanceAs (Decidable (c.manager.deadline.isSome = true))

/-- The course when the manager has taken an input, where `rest` is what is still to come back. -/
def follow (now : Millis) (input : Input) (rest : List Effect) (c : Course) : Course :=
  let turn := c.manager.step now input
  { c with
    manager := turn.manager
    outstanding := rest ++ lasting turn.effects
    links := c.links ++ input.link?.toList
    inputs := c.inputs ++ [input]
    record := c.record ++ turn.effects
    clashed := c.clashed || !decide (c.manager.Fresh now input)
    stopped := input.isShutDown }

/-- What the broker has acknowledged, when it has answered a subscription. -/
def grants (link : LinkId) (filter : String) (result : Except LinkError Unit) (c : Course) :
    List (LinkId × String) :=
  match result with
  | .ok () => c.granted ++ [(link, filter)]
  | .error _ => c.granted

/-- **What may happen next.** -/
inductive Step (c : Course) : Course → Prop where
  | takes (now : Millis) (input : Input) (e : Option Effect) (before after : List Effect)
      (running : c.stopped = false) (ends : input.Ends e) (admits : c.Admits input)
      (split : c.outstanding = before ++ e.toList ++ after) :
    Step c (c.follow now input (before ++ after))
  | subscribed (link : LinkId) (filter : String) (qos : Link.Qos) (ticket : Ticket)
      (result : Except LinkError Unit) (before after : List Effect)
      (split : c.outstanding = before ++ .subscribe link filter qos ticket :: after) :
    Step c
      { c with
        outstanding := before ++ after
        granted := c.grants link filter result
        record := c.record ++ [.answer ticket (result.mapError .ofLink)] }
  | unsubscribed (link : LinkId) (filter : String) (ticket : Ticket)
      (result : Except LinkError Unit) (before after : List Effect)
      (split : c.outstanding = before ++ .unsubscribe link filter ticket :: after) :
    Step c
      { c with
        outstanding := before ++ after
        record := c.record ++ [.answer ticket (result.mapError .ofLink)] }
  | late (e : Effect) (before after : List Effect) (stopped : c.stopped = true)
      (silent : e.caller? = none) (split : c.outstanding = before ++ e :: after) :
    Step c { c with outstanding := before ++ after }

/-- **The courses of a manager** that begins without a connection, whatever its patience and its
source of ids. -/
inductive Reachable : Course → Prop where
  | start (patience : Millis) (ids : RequestId.Source) :
    Reachable { manager := { patience, ids } }
  | step {c c' : Course} (h : Reachable c) (hs : Step c c') : Reachable c'

/-- **Induction over the courses of a manager that runs**: it begins, it takes an input that is not
its last, and what was started answers its caller by itself. -/
theorem running_induction {P : Course → Prop}
    (start : ∀ patience ids, P { manager := { patience, ids } })
    (takes : ∀ {c : Course} {input : Input} {e : Option Effect} {before after : List Effect}
      (now : Millis), Reachable c → c.stopped = false → P c → input.Ends e → c.Admits input →
      c.outstanding = before ++ e.toList ++ after → input.isShutDown = false →
      P (c.follow now input (before ++ after)))
    (answers : ∀ {c : Course} {e : Effect} {ticket : Ticket} {before after : List Effect}
      (granted : List (LinkId × String)) (result : Except Failure Unit), c.stopped = false → P c →
      e.caller? = some ticket → c.outstanding = before ++ e :: after →
      P { c with
        outstanding := before ++ after, granted
        record := c.record ++ [.answer ticket result] })
    {c : Course} (h : Reachable c) (running : c.stopped = false) : P c := by
  induction h with
  | start patience ids => exact start patience ids
  | @step c c' hr hs ih =>
    cases hs with
    | takes now input e before after hrun ends admits split =>
      exact takes now hr hrun (ih hrun) ends admits split running
    | subscribed link filter qos ticket result before after split =>
      exact answers _ _ running (ih running) rfl split
    | unsubscribed link filter ticket result before after split =>
      exact answers c.granted _ running (ih running) rfl split
    | late e before after stopped silent split =>
      have running : c.stopped = false := running
      rw [running] at stopped
      cases stopped

end Course

end DeviceProvisioning.Connection
