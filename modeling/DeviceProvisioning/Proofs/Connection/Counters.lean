import DeviceProvisioning.Proofs.Connection.Closing
import DeviceProvisioning.Proofs.Metrics

/-!
# What the counters of a connection add up to

A manager counts what begins and what ends.  Every message that is published is acknowledged, or
fails, or is still in flight; every attempt to connect is established, or fails, or is the one that
the manager waits for.  So the counters balance, and this is so after every step.

Two things could upset it.  A message that comes back when it has failed already must not be counted
again: it is looked up among those in flight, and it is not there any more.  And an attempt must not
be counted that the manager no longer waits for: there is none, since a manager waits for the only
attempt that is outstanding (`Manager.Tended`).  What a manager counts when it is shut down are the
messages that fail by it; an attempt that is under way then is never counted.
-/

namespace DeviceProvisioning.Connection

open Time (Millis)

/-! ## What effects count -/

/-- What is counted by an effect. -/
def Effect.happening? : Effect → Option Happening
  | count happening => some happening
  | _ => none

/-- What is counted. -/
def happenings (es : List Effect) : List Happening :=
  es.filterMap Effect.happening?

/-- **The counters** when they have begun at zero. -/
def metrics (es : List Effect) : Metrics :=
  (happenings es).foldl Metrics.count {}

section Views
variable (e : Effect) (es es' : List Effect)

@[simp] theorem happenings_nil : happenings [] = [] := rfl

@[simp] theorem happenings_cons :
    happenings (e :: es) = e.happening?.toList ++ happenings es := by
  cases h : e.happening? <;> simp [happenings, h]

@[simp] theorem happenings_append : happenings (es ++ es') = happenings es ++ happenings es' :=
  List.filterMap_append

/-- A counter shows how often its kind has been counted. -/
theorem counter_metrics (kind : Happening) {counter : Metrics → Nat}
    (h : Metrics.counter? kind = some counter) (zero : counter {} = 0) :
    counter (metrics es) = (happenings es).count kind := by
  rw [metrics, Metrics.counter_foldl_count h, zero, Nat.zero_add]

end Views

namespace Manager
variable (m : Manager)

@[simp] theorem happenings_entering (next : State) : happenings (m.entering next) = [] := by
  unfold entering
  split <;> rfl

@[simp] theorem happenings_failing (why : Failure) :
    happenings (m.failing why) = List.replicate m.inFlight.length .publishFailed := by
  unfold failing
  induction m.inFlight with
  | nil => rfl
  | cons p flights ih => simpa [Effect.happening?, List.replicate_succ] using ih

@[simp] theorem happenings_answering (result : Except Failure Unit) :
    happenings (m.answering result) = [] := by
  unfold answering
  cases m.waiter <;> rfl

@[simp] theorem happenings_closing : happenings m.closing = [] := by
  unfold closing
  cases m.link <;> rfl

@[simp] theorem happenings_reporting (why : Option Failure) :
    happenings (m.reporting why) = [] := by
  unfold reporting
  cases m.waiter <;> cases why <;> rfl

@[simp] theorem happenings_settling (why : Option Failure) :
    happenings (m.settling why)
      = .connectionLost :: List.replicate m.inFlight.length .publishFailed := by
  simp [settling, Effect.happening?]

end Manager

@[simp] theorem happenings_attempting (generation : Nat) (p : Parameters) :
    happenings (attempting generation p) = [.connectionAttempted] := rfl

@[simp] theorem happenings_farewell (orders : List Order) (result : Except Failure Unit) :
    happenings (orders.map fun o => Effect.answer o.ticket result) = [] := by
  induction orders with
  | nil => rfl
  | cons o orders ih => simpa [Effect.happening?] using ih

/-! ## Steps -/

namespace Manager

/-- **The number of attempts that the manager waits for**: one while it connects, and while it
connects again for a rotation. -/
def awaited (m : Manager) : Nat :=
  match m.state, m.phase with
  | .connecting, _ => 1
  | .reconnecting, some .dialling => 1
  | _, _ => 0

/-- **The messages balance**: those that were in flight, and those that are published, are
acknowledged, or have failed, or are in flight. -/
def Delivers (m : Manager) (es : List Effect) (m' : Manager) : Prop :=
  m.inFlight.length + (happenings es).count .publishStarted
    = (happenings es).count .publishAcknowledged + (happenings es).count .publishFailed
      + m'.inFlight.length

/-- **The attempts balance**: the one that the manager waited for, and those that are made, are
established, or have failed, or the manager waits for them. -/
def Attempts (m : Manager) (es : List Effect) (m' : Manager) : Prop :=
  m.awaited + (happenings es).count .connectionAttempted
    = (happenings es).count .connectionEstablished + (happenings es).count .connectionFailed
      + m'.awaited

variable {m m₁ m' : Manager} {es es' : List Effect} {input : Input} {queue : List Order}

theorem Delivers.append (h : m.Delivers es m₁) (h' : m₁.Delivers es' m') :
    m.Delivers (es ++ es') m' := by
  simp only [Delivers, happenings_append, List.count_append] at h h' ⊢
  omega

theorem Attempts.append (h : m.Attempts es m₁) (h' : m₁.Attempts es' m') :
    m.Attempts (es ++ es') m' := by
  simp only [Attempts, happenings_append, List.count_append] at h h' ⊢
  omega

/-! ### Messages -/

/-- A message that comes back is one message less in flight. -/
theorem length_inFlight (h : m.Distinct) {id : RequestId} {ticket : Ticket}
    (hl : m.inFlight.lookup id = some ticket) :
    m.inFlight.length = (m.inFlight.filter (·.1 ≠ id)).length + 1 :=
  Table.length_drop h hl

theorem Delivers.opening (h : m.Distinct) (ho : Opening m input m' es queue) :
    m.Delivers es m' := by
  cases ho with
  | acknowledged id ticket hl | undelivered id error ticket hl =>
    simpa [Delivers, Effect.happening?, Nat.add_comm 1] using length_inFlight h hl
  | order | abandoned | ignored | lapsed | message | established =>
    simp [Delivers, Effect.happening?]
  | refused | tornDown | closed | failed | shutDown =>
    simp [Delivers, Effect.happening?, settled, List.count_replicate]
  | rotated p hr | stranded hr =>
    cases hr <;> simp [Delivers, redialled, settled, List.count_replicate]

/-- A message is published under an id that is not in use. -/
theorem Delivers.taking {now : Millis} {o : Order}
    (hf : ∀ id ∈ messageIds es, id ∉ m.inFlight.map Prod.fst) (ht : Taking now m o m' es) :
    m.Delivers es m' := by
  cases ht with
  | publishing =>
    rw [Delivers, Table.drop_unused (hf m.ids.peek (by simp [Effect.messageId?]))]
    simp [Effect.happening?]
  | rotating => simp [Delivers, Effect.happening?]
  | _ => simp [Delivers, Effect.happening?]

/-- **A step lets the messages balance**, as long as no id is handed out while it is in use. -/
theorem Delivers.step (now : Millis) (h : m.Fresh now input) :
    m.Delivers (m.step now input).effects (m.step now input).manager := by
  have key := m.step_induction now input
    (P := fun m' es _ =>
      (m'.inFlight.map Prod.fst).Sublist (m.inFlight.map Prod.fst ++ messageIds es)
      ∧ ((m.inFlight.map Prod.fst ++ messageIds es).Nodup → m.Delivers es m'))
    (fun m' es queue ho => ?_) fun m₁ es o queue m₂ es' ⟨hused, h₁⟩ ht => ?_
  · exact key.2 h
  · exact ⟨(opening_inFlight ho).trans (List.sublist_append_left _ _),
      fun hn => .opening (List.nodup_append.1 hn).1 ho⟩
  · rw [messageIds_append, ← List.append_assoc]
    refine ⟨(taking_inFlight ht).trans (hused.append_right _), fun hn => ?_⟩
    obtain ⟨hn, -, hne⟩ := List.nodup_append.1 hn
    exact (h₁ hn).append
      (.taking (fun id hid hmem => hne id (hused.subset hmem) id hid rfl) ht)

/-! ### Attempts -/

/-- **A manager waits for an attempt exactly if one is outstanding.** -/
theorem Tended.awaited_eq {tasks : List Effect} (h : m.Tended tasks) :
    m.awaited = (attempts tasks).length := by
  have hst := h.standing
  rw [← attempts_concerning m.generation]
  generalize concerning m.generation tasks = awaited at hst ⊢
  cases hst <;> simp_all [Manager.awaited, Effect.attempt?]

/-- An attempt that comes back is the one that the manager has waited for. -/
theorem Tended.awaits_dialled {before after : List Effect} {generation : Nat} {p : Parameters}
    (h : m.Tended (before ++ .dial generation p :: after)) : m.awaited = 1 := by
  have hle := h.attempts_le
  have heq := h.awaited_eq
  simp only [attempts_append, attempts_cons, Effect.attempt?, Option.toList_some,
    List.length_append, List.length_cons, List.length_nil] at hle heq
  omega

theorem Attempts.opening {returned : Option Effect} {before after : List Effect}
    (h : m.Tended (before ++ returned.toList ++ after)) (he : input.Ends returned)
    (hi : input.isShutDown = false) (ho : Opening m input m' es queue) : m.Attempts es m' := by
  cases ho with
  | established | refused =>
    obtain ⟨p, rfl⟩ := he.of_dialled
    rw [Attempts, h.cons_of_some.awaits_dialled]
    simp [awaited, settled, Effect.happening?, List.count_replicate]
  | rotated p hr | stranded hr =>
    have hrot : m.Rotating := by cases hr <;> assumption
    cases hr <;> simp [Attempts, awaited, redialled, settled, hrot.1, hrot.2, List.count_replicate]
  | tornDown result hs | closed hs | failed error hs =>
    simp [Attempts, awaited, settled, hs, Effect.happening?, List.count_replicate]
  | order | abandoned | ignored | lapsed | message | acknowledged | undelivered =>
    simp [Attempts, awaited, Effect.happening?]
  | shutDown => cases hi

theorem Attempts.taking {now : Millis} {o : Order} (ht : Taking now m o m' es) :
    m.Attempts es m' := by
  cases ht with
  | connecting p hs | disconnecting link hs | rotating link credential hs =>
    simp [Attempts, awaited, hs, Effect.happening?]
  | _ => simp [Attempts, awaited, Effect.happening?]

/-- **A step lets the attempts balance**, unless it is the last one. -/
theorem Attempts.step (now : Millis) {returned : Option Effect} {before after : List Effect}
    (h : m.Tended (before ++ returned.toList ++ after)) (he : input.Ends returned)
    (hi : input.isShutDown = false) :
    m.Attempts (m.step now input).effects (m.step now input).manager :=
  m.step_induction now input (P := fun m' es _ => m.Attempts es m')
    (fun _ _ _ ho => .opening h he hi ho) fun _ _ _ _ _ _ h₁ ht => h₁.append (.taking ht)

/-- What the last step counts are the messages that fail by it. -/
theorem happenings_shutDown (now : Millis) (m : Manager) :
    happenings (m.step now .shutDown).effects
      = List.replicate m.inFlight.length .publishFailed := by
  simp [effects_shutDown]

/-- A manager that is no more waits for no attempt. -/
theorem awaited_shutDown (now : Millis) (m : Manager) :
    (m.step now .shutDown).manager.awaited = 0 := by
  obtain ⟨m', es, queue, hopen, hstep⟩ := m.opens now .shutDown
  cases hopen with
  | shutDown =>
    rw [hstep]
    rfl
  | rotated p hr | stranded hr => cases hr
  | ignored hig => exact absurd hig id

end Manager

/-! ## Courses -/

namespace Course
variable {c c' : Course}

/-- An attempt was made and has never come back to the manager. -/
def Missing (c : Course) : Prop :=
  ∃ generation p, .dial generation p ∈ c.record ∧
    ∀ result, .completion (.dialled generation result) ∉ c.inputs

/-- **The counters balance.**  An attempt that was under way when the manager was shut down is
`lost` for them. -/
structure Balanced (c : Course) : Prop where
  messages : c.clashed = false →
    (happenings c.record).count .publishStarted
      = (happenings c.record).count .publishAcknowledged
        + (happenings c.record).count .publishFailed + c.manager.inFlight.length
  attempts : ∃ lost, (happenings c.record).count .connectionAttempted
      = (happenings c.record).count .connectionEstablished
        + (happenings c.record).count .connectionFailed + c.manager.awaited + lost ∧
    (lost = 0 ∨ c.stopped = true ∧ c.Missing)

/-- An answer that comes by itself is not counted, and neither is what comes back late. -/
theorem Balanced.aside (h : c.Balanced) (hm : c'.manager = c.manager)
    (hclashed : c'.clashed = c.clashed) (hstopped : c'.stopped = c.stopped)
    (hinputs : c'.inputs = c.inputs) {es : List Effect} (hrecord : c'.record = c.record ++ es)
    (hes : happenings es = []) : c'.Balanced := by
  have hsame : happenings c'.record = happenings c.record := by
    rw [hrecord, happenings_append, hes, List.append_nil]
  refine ⟨by rw [hsame, hm, hclashed]; exact h.messages, ?_⟩
  obtain ⟨lost, heq, hlost⟩ := h.attempts
  refine ⟨lost, by rw [hsame, hm]; exact heq, hlost.imp_right fun ⟨hstop, g, p, hdial, hnone⟩ => ?_⟩
  exact ⟨hstopped ▸ hstop, g, p, by rw [hrecord]; exact List.mem_append_left _ hdial,
    hinputs ▸ hnone⟩

/-- The attempt that a manager waits for has not come back to it. -/
theorem missing_of_awaited (h : Reachable c) (running : c.stopped = false)
    (hm : c.manager.awaited ≠ 0) : c.Missing := by
  rw [(tended h running).awaited_eq] at hm
  obtain ⟨generation, hg⟩ :=
    List.exists_mem_of_ne_nil _ (List.length_pos_iff.1 (Nat.pos_of_ne_zero hm))
  obtain ⟨p, hdial⟩ := mem_attempts.1 hg
  exact ⟨generation, p, outstanding_recorded h hdial, fun result hi => (returned h hi).2 p hdial⟩

theorem Balanced.takes (hr : Reachable c) (h : c.Balanced) {now : Millis} {input : Input}
    {e : Option Effect} {before after : List Effect} (running : c.stopped = false)
    (ends : input.Ends e) (split : c.outstanding = before ++ e.toList ++ after) :
    (c.follow now input (before ++ after)).Balanced := by
  obtain ⟨lost, hattempts, hlost⟩ := h.attempts
  obtain rfl : lost = 0 := hlost.resolve_right fun ⟨hstop, _⟩ => by simp [running] at hstop
  refine ⟨fun hclash => ?_, ?_⟩
  · obtain ⟨hold, hfresh⟩ := clashed_follow hclash
    have hmessages := h.messages hold
    have hstep := Manager.Delivers.step now hfresh
    simp only [Manager.Delivers, follow, happenings_append, List.count_append] at hstep ⊢
    omega
  · cases hi : input.isShutDown with
    | false =>
      have hstep := Manager.Attempts.step now (split ▸ tended hr running) ends hi
      refine ⟨0, ?_, .inl rfl⟩
      simp only [Manager.Attempts, follow, happenings_append, List.count_append] at hstep ⊢
      omega
    | true =>
      obtain rfl := Input.eq_shutDown hi
      refine ⟨c.manager.awaited, ?_, ?_⟩
      · simp only [follow, happenings_append, Manager.happenings_shutDown,
          Manager.awaited_shutDown, List.count_append, List.count_replicate, beq_iff_eq,
          reduceCtorEq, if_false]
        omega
      · -- what the manager waits for when it is shut down never comes back to it
        refine Decidable.or_iff_not_imp_left.2 fun hm => ⟨rfl, ?_⟩
        obtain ⟨generation, p, hdial, hnone⟩ := missing_of_awaited hr running hm
        refine ⟨generation, p, List.mem_append_left _ hdial, fun result hmem => ?_⟩
        rcases List.mem_append.1 hmem with hold | hnew
        · exact hnone result hold
        · cases List.mem_singleton.1 hnew

theorem balanced (h : Reachable c) : c.Balanced := by
  induction h with
  | start patience ids => exact ⟨fun _ => rfl, 0, rfl, .inl rfl⟩
  | @step c c' hr hs ih =>
    cases hs with
    | takes now input e before after running ends admits split =>
      exact ih.takes hr running ends split
    | subscribed | unsubscribed => exact ih.aside rfl rfl rfl rfl rfl rfl
    | late => exact ih.aside rfl rfl rfl rfl (List.append_nil _).symm rfl

/-- **The counters of a connection balance** at any time in any course, unless ids clash: the
messages that were published are those that were acknowledged, those that failed and those in
flight; and the attempts are those that were established, those that failed, and the one that the
manager waits for.  So it is when the manager has been shut down, provided that every attempt had
come back to it by then. -/
theorem counters_balance (h : Reachable c) (hids : c.clashed = false) :
    (metrics c.record).publishesStarted
        = (metrics c.record).publishesAcknowledged + (metrics c.record).publishFailures
          + c.manager.inFlight.length ∧
    ((c.stopped = true → ∀ generation p, .dial generation p ∈ c.record →
        ∃ result, .completion (.dialled generation result) ∈ c.inputs) →
      (metrics c.record).connectionAttempts
        = (metrics c.record).connectionsEstablished + (metrics c.record).connectionFailures
          + c.manager.awaited) := by
  obtain ⟨hmessages, lost, hattempts, hlost⟩ := balanced h
  rw [counter_metrics c.record .publishStarted rfl rfl,
    counter_metrics c.record .publishAcknowledged rfl rfl,
    counter_metrics c.record .publishFailed rfl rfl,
    counter_metrics c.record .connectionAttempted rfl rfl,
    counter_metrics c.record .connectionEstablished rfl rfl,
    counter_metrics c.record .connectionFailed rfl rfl]
  refine ⟨hmessages hids, fun hreturned => ?_⟩
  rcases hlost with rfl | ⟨hstop, generation, p, hdial, hnone⟩
  · exact hattempts
  · obtain ⟨result, hi⟩ := hreturned hstop generation p hdial
    exact absurd hi (hnone result)

/-- A manager that rotates with a message in flight, fails to connect again, and is shut down.  The
message has failed by the time it comes back, and is counted once. -/
theorem counters_amid_rotation :
    ∃ c : Course, Reachable c ∧ c.clashed = false ∧ c.stopped = true ∧
      (metrics c.record).publishesStarted = 1 ∧ (metrics c.record).publishFailures = 1 ∧
      (metrics c.record).publishesStarted
        = (metrics c.record).publishesAcknowledged + (metrics c.record).publishFailures
          + c.manager.inFlight.length ∧
      (metrics c.record).connectionAttempts = 2 ∧
      (metrics c.record).connectionAttempts
        = (metrics c.record).connectionsEstablished + (metrics c.record).connectionFailures
          + c.manager.awaited := by
  let id := RequestId.ofNat 1
  have connect := (Reachable.start 30000 .sequential).step
    (.takes 0 (.order ⟨0, .connect ⟨"mqtt://broker", "device", "user", none, true, 0, none⟩⟩) none
      [] [] rfl (.order _) (by decide) rfl)
  have dialled := connect.step
    (.takes 0 (.completion (.dialled 1 (.ok 5))) (some _) [] [] rfl (.dialled _ _ _) (by decide)
      rfl)
  have publish := dialled.step
    (.takes 0 (.order ⟨1, .publish "topic" [] {}⟩) none [] [] rfl (.order _) (by decide) rfl)
  have update := publish.step
    (.takes 0 (.order ⟨2, .updateCredential (.signature "token")⟩) none [_] [] rfl (.order _)
      (by decide) rfl)
  have tornDown := update.step
    (.takes 0 (.completion (.tornDown 1 (.ok ()))) (some _) [_] [] rfl (.tornDown _ _ _) trivial
      rfl)
  have published := tornDown.step
    (.takes 0 (.completion (.published id (.ok ()))) (some _) [] [_] rfl
      (.published _ _ _ _ _ _) trivial rfl)
  have refused := published.step
    (.takes 0 (.completion (.dialled 2 (.error (.plain "refused")))) (some _) [] [] rfl
      (.dialled _ _ _) trivial rfl)
  have shutDown := refused.step (.takes 0 .shutDown none [] [] rfl .shutDown trivial rfl)
  obtain ⟨hmessages, hattempts⟩ := counters_balance shutDown (by decide)
  refine ⟨_, shutDown, by decide, rfl, by decide, by decide, hmessages, by decide,
    hattempts fun _ generation p hdial => ?_⟩
  have hg : generation ∈ [1, 2] := mem_attempts.2 ⟨p, hdial⟩
  obtain rfl | rfl : generation = 1 ∨ generation = 2 := by simpa using hg
  · exact ⟨.ok 5, by simp [follow]⟩
  · exact ⟨.error (.plain "refused"), by simp [follow]⟩

end Course

end DeviceProvisioning.Connection
