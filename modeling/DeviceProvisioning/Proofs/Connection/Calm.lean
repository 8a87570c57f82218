import DeviceProvisioning.Proofs.Connection.Standing
import DeviceProvisioning.Proofs.Table

/-!
# Calm steps of a manager

A manager without a waiter has settled, and as long as it is not asked for a change it stays where
it is, except that it may lose its connection.  Then it says so.

`Manager.Calm` is what such a step comes to, and `Tended.calm_step` says that there is nothing else.
-/

namespace DeviceProvisioning.Connection

open Time (Millis)

/-- The caller who is told that all went well. -/
def Effect.approved? : Effect → Option Ticket
  | answer ticket (.ok ()) => some ticket
  | _ => none

/-- The callers who are told that all went well. -/
def approved (es : List Effect) : List Ticket :=
  es.filterMap Effect.approved?

@[simp] theorem approved_nil : approved [] = [] := rfl

@[simp] theorem approved_cons (e : Effect) (es : List Effect) :
    approved (e :: es) = e.approved?.toList ++ approved es := by
  cases h : e.approved? <;> simp [approved, h]

@[simp] theorem approved_append (es es' : List Effect) :
    approved (es ++ es') = approved es ++ approved es' :=
  List.filterMap_append

theorem mem_approved {es : List Effect} {ticket : Ticket} :
    ticket ∈ approved es ↔ .answer ticket (.ok ()) ∈ es := by
  refine List.mem_filterMap.trans ⟨fun ⟨e, he, h⟩ => ?_, fun h => ⟨_, h, rfl⟩⟩
  cases e with
  | answer ticket' result =>
    cases result with
    | ok _ =>
      obtain rfl : ticket' = ticket := Option.some.inj h
      exact he
    | error why => cases h
  | _ => cases h

theorem answered_of_approved {es : List Effect} {ticket : Ticket} (h : ticket ∈ approved es) :
    ticket ∈ answered es :=
  List.mem_filterMap.2 ⟨_, mem_approved.1 h, rfl⟩

namespace Manager

/-- Whether the manager has kept its connection or the want of one, or has lost it and said so. -/
def Keeps (m m' : Manager) (es : List Effect) : Prop :=
  m'.state = m.state ∧ m'.link = m.link ∨
    m.state = .connected ∧ m'.state = .disconnected ∧ m'.link = none ∧ ∃ why, .lost why ∈ told es

/-- **What a step comes to that neither begins nor ends a change.** -/
structure Calm (m m' : Manager) (es : List Effect) : Prop where
  waiter : m'.waiter = none
  keeps : Keeps m m' es
  /-- A subscription is made on the link that there is. -/
  subscribes : ∀ link filter qos ticket, .subscribe link filter qos ticket ∈ lasting es →
    m'.state = .connected ∧ m'.link = some link
  /-- Only messages that were in flight have arrived. -/
  grants : ∀ ticket ∈ approved es, ticket ∈ m.inFlight.map Prod.snd

variable {m m' : Manager} {es before after : List Effect}

/-- A manager without a waiter has settled, with nothing put off. -/
theorem Standing.of_unwaited {awaited : List Effect} (h : m.Standing awaited)
    (hw : m.waiter = none) :
    awaited = [] ∧ m.state.isTransitional = false ∧ m.deferred = [] := by
  cases h with
  | disconnected hs hl hw hp hd hf hq => exact ⟨rfl, by rw [hs]; rfl, hq⟩
  | connected link p hs hl hw hp hd hq hc => exact ⟨rfl, by rw [hs]; rfl, hq⟩
  | connecting | disconnecting | tearingDown | dialling => simp_all

/-- A manager that rotates has a waiter. -/
theorem Standing.not_rotating {awaited : List Effect} (h : m.Standing awaited)
    (hw : m.waiter = none) : ¬ m.Rotating := by
  intro hr
  obtain ⟨ticket, -, -, hw', -⟩ := h.of_rotating hr
  rw [hw] at hw'
  cases hw'

@[simp] theorem approved_entering (m : Manager) (next : State) :
    approved (m.entering next) = [] := by
  unfold entering
  split <;> rfl

@[simp] theorem approved_failing (m : Manager) (why : Failure) : approved (m.failing why) = [] := by
  refine List.filterMap_eq_nil_iff.2 fun e he => ?_
  obtain rfl | ⟨p, -, rfl⟩ := of_mem_failing he <;> rfl

@[simp] theorem approved_closing (m : Manager) : approved m.closing = [] := by
  unfold closing
  cases m.link <;> rfl

/-- Without a waiter, it is the owner who is told of a loss. -/
theorem settling_of_unwaited (hw : m.waiter = none) (why : Failure) :
    .lost why ∈ told (m.settling (some why)) ∧ approved (m.settling (some why)) = [] := by
  have hr : m.reporting (some why) = [.notify (.lost why)] := by simp only [reporting, hw]
  constructor
  · simp [settling, hr, Effect.notice?]
  · simp [settling, hr, Effect.approved?]

/-- A manager that stays as it is, and starts nothing. -/
theorem Calm.of_quiet (hw : m'.waiter = none) (hs : m'.state = m.state) (hl : m'.link = m.link)
    (hq : lasting es = []) (hg : ∀ ticket ∈ approved es, ticket ∈ m.inFlight.map Prod.snd) :
    Calm m m' es where
  waiter := hw
  keeps := .inl ⟨hs, hl⟩
  subscribes link filter qos ticket hmem := by
    rw [hq] at hmem
    exact absurd hmem List.not_mem_nil
  grants := hg

/-- **What an input leads to by itself** is calm when nobody waits for a change. -/
theorem Tended.calm_opening {input : Input} {returned : Option Effect} {queue : List Order}
    (h : m.Tended (before ++ returned.toList ++ after)) (he : input.Ends returned)
    (hi : input.isShutDown = false) (hw : m.waiter = none) (ho : Opening m input m' es queue) :
    queue = [] ∧ Calm m m' es ∨ ∃ o, input = .order o ∧ queue = [o] ∧ m' = m ∧ es = [] := by
  obtain ⟨hnone, hsettled, hq⟩ := h.standing.of_unwaited hw
  have waits_not : ∀ e, returned = some e → e.concerns m.generation = false := by
    rintro e rfl
    cases hc : e.concerns m.generation with
    | false => rfl
    | true =>
      have hmem : e ∈ concerning m.generation (before ++ (some e).toList ++ after) :=
        mem_concerning.2 ⟨by simp, hc⟩
      rw [hnone] at hmem
      exact absurd hmem List.not_mem_nil
  cases ho with
  | order o => exact .inr ⟨o, rfl, rfl, rfl, rfl⟩
  | established | refused | abandoned =>
    obtain ⟨p, rfl⟩ := he.of_dialled
    cases waits_not _ rfl
  | tornDown result hs =>
    rw [hs] at hsettled
    cases hsettled
  | rotated p hr | stranded hr =>
    have hrot : m.Rotating := by cases hr <;> assumption
    exact absurd hrot (h.standing.not_rotating hw)
  | acknowledged id ticket hl =>
    refine .inl ⟨rfl, .of_quiet hw rfl rfl rfl fun ticket' hmem => ?_⟩
    obtain rfl : ticket' = ticket := by simpa [Effect.approved?] using hmem
    exact List.mem_map_of_mem (Table.mem_of_lookup hl)
  | undelivered | message | lapsed | ignored =>
    exact .inl ⟨rfl, .of_quiet hw rfl rfl (by simp [Effect.isLasting])
      (by simp [Effect.approved?])⟩
  | closed hs =>
    obtain ⟨htold, happ⟩ := settling_of_unwaited hw
      (.notConnected "connection to the server has been closed")
    refine .inl ⟨hq, rfl, .inr ⟨hs, rfl, rfl, _, htold⟩, ?_, ?_⟩
    · simp
    · simp [happ]
  | failed error hs =>
    obtain ⟨htold, happ⟩ := settling_of_unwaited (m := { m with state := .disconnecting }) hw
      (.ofLink error)
    refine .inl ⟨hq, rfl, .inr ⟨hs, rfl, rfl, .ofLink error, ?_⟩, ?_, ?_⟩
    · simp [htold]
    · simp [Effect.isLasting]
    · simp [happ, Effect.approved?]
  | shutDown => cases hi

/-- **The taking of an order** is calm when it asks for no change. -/
theorem Standing.calm_taking {now : Millis} {o : Order} {awaited : List Effect}
    (h : m.Standing awaited) (hw : m.waiter = none) (ho : o.command.isTraffic)
    (ht : Taking now m o m' es) : Calm m m' es := by
  obtain ⟨-, hsettled, -⟩ := h.of_unwaited hw
  cases ht with
  | deferred htr =>
    rw [htr] at hsettled
    cases hsettled
  | connecting _ _ hc | closedAlready _ hc | stored _ _ hc | openAlready _ _ _ _ hc
  | disconnecting _ _ _ hc | rotating _ _ _ _ hc =>
    rw [hc] at ho
    cases ho
  | refused | unlinked => exact .of_quiet hw rfl rfl rfl (by simp [Effect.approved?])
  | publishing link topic payload delivery hs hl hc =>
    refine ⟨hw, .inl ⟨rfl, rfl⟩, ?_, by simp [Effect.approved?]⟩
    simp [Effect.isLasting]
  | subscribing link filter qos hs hl hc =>
    refine ⟨hw, .inl ⟨rfl, rfl⟩, fun link' filter' qos' ticket hmem => ?_,
      by simp [Effect.approved?]⟩
    obtain ⟨rfl, -⟩ : link' = link ∧ _ := by simpa [Effect.isLasting] using hmem
    exact ⟨hs, hl⟩
  | unsubscribing link filter hs hl hc =>
    refine ⟨hw, .inl ⟨rfl, rfl⟩, ?_, by simp [Effect.approved?]⟩
    simp [Effect.isLasting]

/-- **A step is calm** when nobody waits for a change and none is asked for. -/
theorem Tended.calm_step (now : Millis) {input : Input} {returned : Option Effect}
    (h : m.Tended (before ++ returned.toList ++ after)) (he : input.Ends returned)
    (hi : input.isShutDown = false) (hw : m.waiter = none)
    (ho : ∀ o, input = .order o → o.command.isTraffic) :
    Calm m (m.step now input).manager (m.step now input).effects := by
  obtain ⟨m', es, queue, hopen, hstep⟩ := m.opens now input
  rw [hstep]
  obtain ⟨rfl, hcalm⟩ | ⟨o, rfl, rfl, rfl, rfl⟩ := h.calm_opening he hi hw hopen
  · exact hcalm
  · obtain ⟨m₂, es₂, htake, heq⟩ := Turn.taking now ⟨m', []⟩ o
    rw [List.foldl_cons, List.foldl_nil, heq]
    exact h.standing.calm_taking hw (ho o rfl) htake

end Manager

end DeviceProvisioning.Connection
