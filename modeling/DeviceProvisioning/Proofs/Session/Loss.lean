import DeviceProvisioning.Proofs.Session.Callers

/-!
# How operations end when the connection is lost

A session is told of the loss of its connection by a notice, and until that comes it takes itself
for connected.  Meanwhile the same loss may reach it by another way: a query fails to be published,
with whatever the link has failed with.  And responses that came in before the loss may still be
waiting to be heard.

It makes no difference in which order all this is taken.  While its manager has no connection, the
session ends an operation with its own response or cancels it, and in no other way
(`Taken.weathers`); the notice of the loss cancels all that is left, and is the only thing by which
the owner is told (`Taken.falls`).
-/

namespace DeviceProvisioning.Session

open Connection (State)
open Registration (Response)

/-! ## Answers and losses -/

/-- The loss that the owner is told of. -/
def Effect.loss? : Effect → Option Failure
  | notify (.lost why) => some why
  | _ => none

/-- The losses that the owner is told of. -/
def losses (es : List Effect) : List Failure :=
  es.filterMap Effect.loss?

@[simp] theorem losses_nil : losses [] = [] := rfl

@[simp] theorem losses_cons (e : Effect) (es : List Effect) :
    losses (e :: es) = e.loss?.toList ++ losses es := by
  cases h : e.loss? <;> simp [losses, h]

@[simp] theorem losses_append (es es' : List Effect) :
    losses (es ++ es') = losses es ++ losses es' :=
  List.filterMap_append

section Groups
variable (s : Session)

@[simp] theorem losses_entering (next : State) : losses (s.entering next) = [] := by
  unfold entering
  split <;> rfl

@[simp] theorem losses_ending (why : Failure) : losses (s.ending why) = [] := by
  refine List.filterMap_eq_nil_iff.2 fun e he => ?_
  obtain ⟨_, rfl⟩ | ⟨p, -, rfl⟩ := of_mem_ending he <;> rfl

@[simp] theorem losses_losing (why : Failure) : losses (s.losing why) = [why] := by
  simp [losing, Effect.loss?]

theorem respond_mem_entering (next : State) (ticket : Connection.Ticket)
    (result : Except Failure Response) : .respond ticket result ∉ s.entering next := by
  unfold entering
  split <;> simp

/-- When all operations end, each of them is answered, and nobody else. -/
theorem respond_mem_ending {s : Session} {why : Failure} {ticket : Connection.Ticket}
    {result : Except Failure Response} :
    .respond ticket result ∈ s.ending why ↔
      ∃ p ∈ s.pending, p.2.ticket = ticket ∧ .error why = result := by
  unfold ending
  split
  · rename_i h
    simp [List.isEmpty_iff.1 h]
  · simp

end Groups

/-! ## What a session takes -/

/-- **What comes in while nobody asks for a change,** before the session has heard of a loss: a
query or a cancellation, the end of a call, and anything else that the manager has to say. -/
def Input.isPlain : Input → Bool
  | order ⟨_, .ask ..⟩ | order ⟨_, .cancel⟩ | completion _ | notice (.message ..)
  | notice (.stateChanged _) => true
  | order ⟨_, .disconnect⟩ | order ⟨_, .updateCredential _⟩ | notice (.lost _) | shutDown => false

/-- **An input as a session takes it**: with the session before, and the state of its manager. -/
structure Taken where
  session : Session
  manager : State
  input : Input

namespace Taken

/-- What the session makes of the input. -/
def turn (e : Taken) : Turn :=
  e.session.step e.manager e.input

/-- The operation that is asked for. -/
def asked? (e : Taken) : Option (RequestId × Operation) :=
  match e.input with
  | .order ⟨ticket, .ask request query⟩ =>
    some (e.session.ids.peek, e.session.operation ticket request query)
  | _ => none

/-- Nobody asks for a change, and an operation that is asked for has an id of its own. -/
def Plain (e : Taken) : Prop :=
  e.input.isPlain ∧ e.session.Fresh e.input

instance (e : Taken) : Decidable e.Plain :=
  inferInstanceAs (Decidable (_ ∧ _))

/-- **How an operation may end**: with the response that has come in for it, or by being
cancelled. -/
inductive Outcome (e : Taken) (p : RequestId × Operation) : Except Failure Response → Prop where
  | response (topic : String) (payload : Text.Octets) (response : Topic.Response)
      (comes : e.input = .notice (.message topic payload))
      (parses : Topic.Response.parse topic = .ok response)
      (belongs : RequestId.parse? response.requestId = some p.1) :
    Outcome e p (Registration.interpret p.2.query response.status response.retryAfter payload
      e.session.settings.interval)
  | cancelled (text : String) : Outcome e p (.error (.cancelled text))

/-- **An outstanding operation is answered** in one of the ways in which it may end. -/
def Answers (e : Taken) (p : RequestId × Operation) : Prop :=
  p ∈ e.session.pending ∧ ∃ result, .respond p.2.ticket result ∈ e.turn.effects ∧ e.Outcome p result

/-- **Whoever is answered** has an outstanding operation, and it ends in one of the ways in which it
may end. -/
def Proper (e : Taken) : Prop :=
  ∀ ticket result, .respond ticket result ∈ e.turn.effects →
    ∃ p ∈ e.session.pending, p.2.ticket = ticket ∧ e.Outcome p result

/-- **What a session makes of an input** that does not tell it of the loss. -/
structure Weathers (e : Taken) : Prop where
  connected : e.turn.session.state = .connected
  proper : e.Proper
  silent : losses e.turn.effects = []
  /-- An operation stays outstanding until it is answered. -/
  kept : ∀ p, p ∈ e.session.pending ∨ e.asked? = some p →
    p ∈ e.turn.session.pending ∨ e.Answers p

variable {s : Session} {es : List Effect} {e : Taken}

/-- Nobody is answered, and no operation ends. -/
theorem Weathers.of_quiet (hturn : e.turn = ⟨s, es⟩) (hs : s.state = .connected)
    (hes : ∀ ticket result, .respond ticket result ∉ es) (hlosses : losses es = [])
    (hkept : ∀ p, p ∈ e.session.pending ∨ e.asked? = some p → p ∈ s.pending) : e.Weathers where
  connected := by rw [hturn, hs]
  proper ticket result hmem := by
    rw [hturn] at hmem
    exact absurd hmem (hes ticket result)
  silent := by rw [hturn, hlosses]
  kept p hp := .inl (by rw [hturn]; exact hkept p hp)

/-- One operation ends, and the others stay. -/
theorem Weathers.of_one {id : RequestId} {op : Operation} {result : Except Failure Response}
    (hd : e.session.Distinct) (hs : e.session.state = .connected)
    (hp : e.session.pending.lookup id = some op) (hturn : e.turn = ⟨e.session.without id, es⟩)
    (hes : ∀ ticket result', .respond ticket result' ∈ es ↔ ticket = op.ticket ∧ result' = result)
    (hlosses : losses es = []) (ha : e.asked? = none) (ho : e.Outcome (id, op) result) :
    e.Weathers where
  connected := by rw [hturn]; exact hs
  proper ticket result' hmem := by
    rw [hturn] at hmem
    obtain ⟨rfl, rfl⟩ := (hes ticket result').1 hmem
    exact ⟨(id, op), Table.mem_of_lookup hp, rfl, ho⟩
  silent := by rw [hturn, hlosses]
  kept p hmem := by
    have hmem : p ∈ e.session.pending := hmem.resolve_right (by simp [ha])
    rw [Answers, hturn]
    by_cases hid : p.1 = id
    · -- ids are different, so this is the operation that was looked up
      have hfound := Table.lookup_of_mem hd hmem
      rw [hid, hp] at hfound
      obtain rfl : p = (id, op) := Prod.ext hid (Option.some.inj hfound).symm
      exact .inr ⟨hmem, result, (hes _ _).2 ⟨rfl, rfl⟩, ho⟩
    · exact .inl (List.mem_filter.2 ⟨hmem, decide_eq_true hid⟩)

/-- Every outstanding operation is cancelled. -/
theorem answers_of_ending (why : Failure) {text : String} (hwhy : why = .cancelled text)
    (hes : ∀ ticket result, .respond ticket result ∈ e.turn.effects ↔
      .respond ticket result ∈ e.session.ending why) :
    e.Proper ∧ ∀ p ∈ e.session.pending, e.Answers p := by
  subst hwhy
  refine ⟨fun ticket result hmem => ?_, fun p hp => ⟨hp, _, ?_, .cancelled text⟩⟩
  · obtain ⟨p, hp, hticket, rfl⟩ := respond_mem_ending.1 ((hes ticket result).1 hmem)
    exact ⟨p, hp, hticket, .cancelled text⟩
  · exact (hes _ _).2 (respond_mem_ending.2 ⟨p, hp, rfl, rfl⟩)

/-- All operations are cancelled by a caller. -/
theorem Weathers.of_cancel {ticket : Connection.Ticket} {text : String}
    (hs : e.session.state = .connected) (ha : e.asked? = none)
    (hturn : e.turn = ⟨{ e.session with pending := [] },
      e.session.ending (.cancelled text) ++ [.answer ticket (.ok ())]⟩) : e.Weathers := by
  obtain ⟨hproper, hanswers⟩ := answers_of_ending (e := e) (.cancelled text) rfl
    fun ticket' result => by simp [hturn]
  refine ⟨by rw [hturn]; exact hs, hproper, by simp [hturn, Effect.loss?], fun p hp => .inr ?_⟩
  exact hanswers p (hp.resolve_right (by simp [ha]))

/-- An operation that could not be published on a lost connection is cancelled. -/
theorem unpublished_of_lost {manager : State} (hs : s.state = .connected)
    (hm : manager ≠ .connected) (why : Failure) : unpublished manager s why = lossOf why :=
  if_pos ⟨hs, .inr hm⟩

/-- **While the manager has no connection,** a session that takes itself for connected ends its
operations with their own responses, or cancels them. -/
theorem weathers {before after : List Effect} {returned : Option Effect}
    (ht : e.session.Tended (before ++ returned.toList ++ after)) (hd : e.session.Distinct)
    (ends : e.input.Ends returned) (hs : e.session.state = .connected)
    (hm : e.manager ≠ .connected) (plain : e.Plain) : e.Weathers := by
  obtain ⟨s, manager, input⟩ := e
  obtain ⟨hplain, fresh⟩ := plain
  have hs : s.state = .connected := hs
  obtain ⟨s', es, queue, ho, hstep⟩ := s.opens manager input
  have unchanged : ∀ effect, returned = some effect → effect.isChange = false := by
    rintro effect rfl
    cases hc : effect.isChange with
    | false => rfl
    | true => cases ((ht.only hc).1.of_settled (by rw [hs]; rfl)).1
  cases ho with
  | disconnect | updateCredential | lost | noted | shutDown => cases hplain
  | connected | lostConnecting | unconnected | reconnected | lostReconnecting | unreconnected
  | disconnected =>
    -- nothing that changes the session is under way
    cases ends
    cases unchanged _ rfl
  | asked ticket request query =>
    refine .of_quiet (step_ask_connected ticket request query hs) hs (by simp)
      (by simp [Effect.loss?]) fun p hp => ?_
    show p ∈ s.pending.filter (·.1 ≠ s.ids.peek) ++ _
    rw [Table.drop_unused fresh]
    rcases hp with hold | hnew
    · exact List.mem_append_left _ hold
    · obtain rfl := Option.some.inj hnew
      exact List.mem_append_right _ (List.mem_singleton.2 rfl)
  | cancelled ticket => exact .of_cancel hs rfl hstep
  | unpublished id why op h =>
    rw [unpublished_of_lost hs hm] at hstep
    have ho : Taken.Outcome ⟨s, manager, .completion (.published id (.error why))⟩ (id, op)
        (.error (lossOf why)) := .cancelled _
    exact .of_one hd hs h hstep (by simp) (by simp [Effect.loss?]) rfl ho
  | responded topic payload response id op hr h hid =>
    exact .of_one hd hs h hstep (by simp) (by simp [Effect.loss?]) rfl
      (.response topic payload response rfl hr hid)
  | dropped topic payload h =>
    exact .of_quiet hstep hs (by simp) (by simp [Effect.loss?]) fun p hp =>
      hp.resolve_right (by simp [asked?])
  | ignored hig =>
    refine .of_quiet hstep hs (by simp) rfl fun p hp => hp.resolve_right ?_
    cases input with
    | order order => exact absurd hig id
    | completion | notice | shutDown => simp [asked?]

/-- **The notice of a loss** cancels every operation that is outstanding, and the owner is told of
it once. -/
theorem falls {why : Failure} (hs : e.session.state = .connected)
    (hi : e.input = .notice (.lost why)) :
    e.turn.session = { e.session with state := .disconnected, pending := [] } ∧ e.Proper ∧
      (∀ p ∈ e.session.pending, e.Answers p) ∧ losses e.turn.effects = [why] := by
  have hturn : e.turn = ⟨{ e.session with state := .disconnected, pending := [] },
      e.session.losing why⟩ := by
    rw [turn, hi]
    simp only [step, Turn.notice, hs, Turn.lose_eq]
    rfl
  obtain ⟨hproper, hanswers⟩ := answers_of_ending (e := e) (lossOf why) rfl fun ticket result => by
    simp [hturn, losing, respond_mem_entering]
  exact ⟨by rw [hturn], hproper, hanswers, by rw [hturn, losses_losing]⟩

end Taken
end DeviceProvisioning.Session
