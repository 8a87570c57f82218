import DeviceProvisioning.Proofs.Session.Move

/-!
# Courses of a session

A session has its connection manager called for it: to connect, to disconnect, to connect with a new
credential, and to publish.  A `Session.Course` is a session together with the calls that it has
started and what has become of them so far, and `Course.Step` is everything that may happen next:

* the session **takes** an input.  An order may come at any time and bear any command; a call may
  come back at any time, in any order and with any result; the manager may say anything and be in
  any state; and the session may be shut down.
* when the session is no more, what was started comes back **late**, and nobody takes notice.

Nothing is assumed of the manager but that it tells what the types allow.  An order bears a ticket
of its own, and the source of ids does not hand out the id of an operation that is outstanding
(`Session.Fresh`).
-/

namespace DeviceProvisioning.Session

open Connection (Credential State Ticket)

/-! ## What effects start, and whom they answer -/

namespace Effect

/-- Whether an effect starts something that goes on until it comes back. -/
def isLasting : Effect → Bool
  | connect _ | disconnect | reconnect _ | publish .. => true
  | respond .. | answer .. | notify _ | count _ => false

/-- Whether an effect starts a change. -/
def isChange : Effect → Bool
  | connect _ | disconnect | reconnect _ => true
  | respond .. | answer .. | notify _ | publish .. | count _ => false

/-- The caller who is answered by an effect. -/
def answered? : Effect → Option Ticket
  | respond ticket _ | answer ticket _ => some ticket
  | _ => none

end Effect

/-- What effects have started. -/
def lasting (es : List Effect) : List Effect :=
  es.filter Effect.isLasting

/-- The changes among effects. -/
def changes (es : List Effect) : List Effect :=
  es.filter Effect.isChange

/-- The callers who have been answered. -/
def answered (es : List Effect) : List Ticket :=
  es.filterMap Effect.answered?

/-- The caller of work. -/
def Work.ticket? : Work → Option Ticket
  | publish _ => none
  | disconnect ticket | updateCredential _ ticket => some ticket

/-- The callers of work. -/
def asking (works : List Work) : List Ticket :=
  works.filterMap Work.ticket?

@[simp] theorem asking_nil : asking [] = [] := rfl

@[simp] theorem asking_cons (work : Work) (works : List Work) :
    asking (work :: works) = work.ticket?.toList ++ asking works := by
  cases h : work.ticket? <;> simp [asking, h]

@[simp] theorem asking_append (works works' : List Work) :
    asking (works ++ works') = asking works ++ asking works' :=
  List.filterMap_append

section Views
variable (e : Effect) (es es' : List Effect)

@[simp] theorem lasting_nil : lasting [] = [] := rfl

@[simp] theorem lasting_cons :
    lasting (e :: es) = if e.isLasting then e :: lasting es else lasting es :=
  List.filter_cons

@[simp] theorem lasting_append : lasting (es ++ es') = lasting es ++ lasting es' :=
  List.filter_append ..

@[simp] theorem changes_nil : changes [] = [] := rfl

@[simp] theorem changes_cons :
    changes (e :: es) = if e.isChange then e :: changes es else changes es :=
  List.filter_cons

@[simp] theorem changes_append : changes (es ++ es') = changes es ++ changes es' :=
  List.filter_append ..

@[simp] theorem answered_nil : answered [] = [] := rfl

@[simp] theorem answered_cons : answered (e :: es) = e.answered?.toList ++ answered es := by
  cases h : e.answered? <;> simp [answered, h]

@[simp] theorem answered_append : answered (es ++ es') = answered es ++ answered es' :=
  List.filterMap_append

/-- Changes are among what effects start. -/
@[simp] theorem changes_lasting : changes (lasting es) = changes es := by
  induction es with
  | nil => rfl
  | cons e es ih => cases e <;> simpa [Effect.isLasting, Effect.isChange] using ih

end Views

section Groups
variable (s : Session)

@[simp] theorem lasting_entering (next : State) : lasting (s.entering next) = [] := by
  unfold entering
  split <;> rfl

@[simp] theorem answered_entering (next : State) : answered (s.entering next) = [] := by
  unfold entering
  split <;> rfl

/-- When all operations have ended, their callers are answered. -/
theorem of_mem_ending {s : Session} {why : Failure} {e : Effect} (h : e ∈ s.ending why) :
    (∃ happening, e = .count happening) ∨
      ∃ p ∈ s.pending, e = .respond p.2.ticket (.error why) := by
  unfold ending at h
  split at h
  · cases h
  · rcases List.mem_cons.1 h with rfl | h
    · exact .inl ⟨_, rfl⟩
    · obtain ⟨p, hp, rfl⟩ := List.mem_map.1 h
      exact .inr ⟨p, hp, rfl⟩

@[simp] theorem lasting_ending (why : Failure) : lasting (s.ending why) = [] := by
  refine List.filter_eq_nil_iff.2 fun e he => ?_
  obtain ⟨_, rfl⟩ | ⟨p, -, rfl⟩ := of_mem_ending he <;> simp [Effect.isLasting]

@[simp] theorem answered_ending (why : Failure) :
    answered (s.ending why) = s.pending.map fun p => p.2.ticket := by
  unfold ending
  split
  · rename_i h
    rw [List.isEmpty_iff.1 h]
    rfl
  · induction s.pending with
    | nil => rfl
    | cons p pending ih => simpa [Effect.answered?] using ih

@[simp] theorem lasting_answering (result : Except Failure Unit) :
    lasting (s.answering result) = [] := by
  unfold answering
  cases s.waiter <;> rfl

@[simp] theorem answered_answering (result : Except Failure Unit) :
    answered (s.answering result) = s.waiter.toList := by
  unfold answering
  cases s.waiter <;> rfl

@[simp] theorem lasting_losing (why : Failure) : lasting (s.losing why) = [] := by
  simp [losing, Effect.isLasting]

@[simp] theorem answered_losing (why : Failure) :
    answered (s.losing why) = s.pending.map fun p => p.2.ticket := by
  simp [losing, Effect.answered?]

@[simp] theorem lasting_refusing (works : List Work) : lasting (works.flatMap refusing) = [] := by
  induction works with
  | nil => rfl
  | cons work works ih =>
    rw [List.flatMap_cons, lasting_append, ih, List.append_nil]
    cases work <;> rfl

@[simp] theorem answered_refusing (works : List Work) :
    answered (works.flatMap refusing) = asking works := by
  induction works with
  | nil => rfl
  | cons work works ih =>
    rw [List.flatMap_cons, answered_append, ih]
    cases work <;> rfl

end Groups

/-! ## Courses -/

/-- **A session, the calls it has started, and what has become of them so far.** -/
structure Course where
  session : Session
  /-- What was started and has not come back yet. -/
  outstanding : List Effect := []
  /-- What the session has taken so far. -/
  inputs : List Input := []
  /-- All effects so far. -/
  record : List Effect := []
  /-- Whether the session has been shut down. -/
  stopped : Bool := false

namespace Input

/-- The caller of an order. -/
def ticket? : Input → Option Ticket
  | order o => some o.ticket
  | _ => none

/-- Whether the session is shut down. -/
def isShutDown : Input → Bool
  | shutDown => true
  | _ => false

/-- **What comes back with an input**, if it is something that was started. -/
inductive Ends : Input → Option Effect → Prop where
  | order (o : Order) : Ends (.order o) none
  | connected (parameters : Connection.Parameters) (result : Except Failure Unit) :
    Ends (.completion (.connected result)) (some (.connect parameters))
  | disconnected (result : Except Failure Unit) :
    Ends (.completion (.disconnected result)) (some .disconnect)
  | reconnected (credential : Credential) (result : Except Failure Unit) :
    Ends (.completion (.reconnected result)) (some (.reconnect credential))
  | published (id : RequestId) (topic body : String) (result : Except Failure Unit) :
    Ends (.completion (.published id result)) (some (.publish id topic body))
  | notice (notice : Connection.Notice) : Ends (.notice notice) none
  | shutDown : Ends .shutDown none

end Input

/-- **The id of a new operation** is not that of an outstanding one. -/
def Fresh (s : Session) : Input → Prop
  | .order ⟨_, .ask _ _⟩ => s.ids.peek ∉ s.pending.map Prod.fst
  | _ => True

instance (s : Session) : (input : Input) → Decidable (s.Fresh input)
  | .order ⟨_, .ask _ _⟩ => inferInstanceAs (Decidable (s.ids.peek ∉ s.pending.map Prod.fst))
  | .order ⟨_, .cancel⟩ | .order ⟨_, .disconnect⟩ | .order ⟨_, .updateCredential _⟩
  | .completion _ | .notice _ | .shutDown => inferInstanceAs (Decidable True)

namespace Course

/-- The callers of the orders that the session has taken. -/
def taken (c : Course) : List Ticket :=
  c.inputs.filterMap Input.ticket?

/-- The course when the session has taken an input, where `rest` is what is still to come back. -/
def follow (manager : State) (input : Input) (rest : List Effect) (c : Course) : Course :=
  let turn := c.session.step manager input
  { session := turn.session
    outstanding := rest ++ lasting turn.effects
    inputs := c.inputs ++ [input]
    record := c.record ++ turn.effects
    stopped := input.isShutDown }

/-- **What may happen next.** -/
inductive Step (c : Course) : Course → Prop where
  | takes (manager : State) (input : Input) (e : Option Effect) (before after : List Effect)
      (running : c.stopped = false) (ends : input.Ends e)
      (unused : ∀ ticket ∈ input.ticket?, ticket ∉ c.taken) (fresh : c.session.Fresh input)
      (split : c.outstanding = before ++ e.toList ++ after) :
    Step c (c.follow manager input (before ++ after))
  | late (e : Effect) (before after : List Effect) (stopped : c.stopped = true)
      (split : c.outstanding = before ++ e :: after) :
    Step c { c with outstanding := before ++ after }

/-- **The courses of a session** that begins without a connection, whatever its settings and its
source of ids. -/
inductive Reachable : Course → Prop where
  | start (settings : Settings) (ids : RequestId.Source) :
    Reachable { session := { settings, ids } }
  | step {c c' : Course} (h : Reachable c) (hs : Step c c') : Reachable c'

end Course

end DeviceProvisioning.Session
