import DeviceProvisioning.Proofs.Connection.Callers

/-!
# What the owner of a manager is told

The notices of a manager are a stream that its owner may rely on.  The states that it tells of are a
**walk** (`Walk`): each of them may follow the one before it (`State.next`), and the last of them is
the state of the manager.  A loss is told once, when the link of an established connection has
failed or was closed (`Manager.loss?`), and only after the owner has been told that there is no
connection any more.

Any other failure has a caller who waits for it, because somebody asked for the change that has
failed.  That is the idea of the proof: whether a failure is told or answered depends on whether
there is a waiter, and `Manager.Standing` says when there is one.
-/

namespace DeviceProvisioning.Connection

open Time (Millis)

/-! ## Walks -/

/-- The states that a manager may enter from a state. -/
def State.next : State → List State
  | disconnected => [connecting]
  | connecting => [connected, disconnected]
  | connected => [disconnecting, reconnecting, disconnected]
  | disconnecting => [disconnected]
  | reconnecting => [connected, disconnected]

/-- **A walk** from a state to a state, over the states that are entered on the way. -/
inductive Walk : State → List State → State → Prop where
  | stay (s : State) : Walk s [] s
  | enter {s t u : State} {ss : List State} (h : t ∈ s.next) (w : Walk t ss u) : Walk s (t :: ss) u

namespace Walk
variable {s t u : State} {ss ts : List State}

theorem append (w : Walk s ss t) (w' : Walk t ts u) : Walk s (ss ++ ts) u := by
  induction w with
  | stay s => exact w'
  | enter h w ih => exact .enter h (ih w')

/-- A walk of one step. -/
theorem single (h : t ∈ s.next) : Walk s [t] t :=
  .enter h (.stay t)

/-- A walk ends at the last state that is entered. -/
theorem last (w : Walk s ss t) : t = ss.getLastD s := by
  induction w with
  | stay s => rfl
  | @enter s t u ss h w ih =>
    rw [List.getLastD_cons]
    exact ih

end Walk

/-! ## Notices -/

namespace Notice

/-- The state that is told of. -/
def state? : Notice → Option State
  | stateChanged state => some state
  | _ => none

/-- The failure that a loss is told with. -/
def failure? : Notice → Option Failure
  | lost failure => some failure
  | _ => none

end Notice

/-- The states that notices tell of. -/
def visited (notices : List Notice) : List State :=
  notices.filterMap Notice.state?

/-- The losses that notices tell of. -/
def losses (notices : List Notice) : List Failure :=
  notices.filterMap Notice.failure?

theorem losses_append (notices notices' : List Notice) :
    losses (notices ++ notices') = losses notices ++ losses notices' :=
  List.filterMap_append

/-- **Every loss comes right after the end of the connection.** -/
def Announced (notices : List Notice) : Prop :=
  ∀ earlier why later, notices = earlier ++ .lost why :: later →
    [.stateChanged .disconnected] <:+ earlier

namespace Announced
variable {notices notices' : List Notice}

theorem append (h : Announced notices) (h' : Announced notices') :
    Announced (notices ++ notices') := by
  intro earlier why later heq
  rcases Table.split_of_append heq with ⟨later', hfirst⟩ | ⟨middle, rfl, hsecond⟩
  · exact h earlier why later' hfirst
  · exact (h' middle why later hsecond).trans (List.suffix_append _ _)

theorem of_no_loss (h : losses notices = []) : Announced notices := by
  rintro earlier why later rfl
  simp [losses, Notice.failure?] at h

/-- The end of a connection, and its loss. -/
theorem ended (why : Failure) : Announced [.stateChanged .disconnected, .lost why] := by
  intro earlier why' later heq
  match earlier with
  | [] => cases heq
  | [notice] =>
    obtain rfl := (List.cons.inj heq).1
    exact List.suffix_refl _
  | _ :: _ :: earlier => simp at heq

end Announced

namespace Manager

/-- **The loss of a connection**: why there is none any more after an input, although nobody has
asked for that. -/
def loss? (m : Manager) : Input → Option Failure
  | .completion (.link generation .closed) =>
    if generation = m.generation ∧ m.state = .connected then
      some (.notConnected "connection to the server has been closed")
    else none
  | .completion (.link generation (.failed error)) =>
    if generation = m.generation ∧ m.state = .connected then some (.ofLink error) else none
  | _ => none

variable {m m' : Manager} {input : Input} {es es' before after : List Effect} {queue : List Order}

@[simp] theorem told_failing (why : Failure) : told (m.failing why) = [] := by
  refine List.filterMap_eq_nil_iff.2 fun e he => ?_
  obtain rfl | ⟨p, -, rfl⟩ := of_mem_failing he <;> rfl

@[simp] theorem told_answering (result : Except Failure Unit) : told (m.answering result) = [] := by
  unfold answering
  cases m.waiter <;> rfl

@[simp] theorem told_closing : told m.closing = [] := by
  unfold closing
  cases m.link <;> rfl

/-- The end of a connection that somebody waits for is told without a reason. -/
theorem told_settling_of_waiter {ticket : Ticket} (hw : m.waiter = some ticket)
    (hs : m.state ≠ .disconnected) (why : Option Failure) :
    told (m.settling why) = [.stateChanged .disconnected] := by
  have hr : told (m.reporting why) = [] := by
    cases why <;> simp [reporting, hw, Effect.notice?]
  simp [settling, told_entering hs, hr, Effect.notice?]

/-- The end of a connection that nobody waits for is told with its reason. -/
theorem told_settling_of_unwaited (hw : m.waiter = none) (hs : m.state ≠ .disconnected)
    (why : Failure) :
    told (m.settling (some why)) = [.stateChanged .disconnected, .lost why] := by
  have hr : told (m.reporting (some why)) = [.lost why] := by
    simp [reporting, hw, Effect.notice?]
  simp [settling, told_entering hs, hr, Effect.notice?]

/-! ## One step -/

/-- **What is told in the middle of a step.** -/
structure Tells (m : Manager) (input : Input) (m' : Manager) (es : List Effect)
    (queue : List Order) : Prop where
  walk : Walk m.state (visited (told es)) m'.state
  losses : losses (told es) = (m.loss? input).toList
  /-- A loss comes last, right after the end of the connection. -/
  last : ∀ why, m.loss? input = some why →
    queue = [] ∧ ∃ earlier, told es = earlier ++ [.stateChanged .disconnected, .lost why]

/-- Nothing is told, and the state stays as it is. -/
theorem Tells.silent (hs : m'.state = m.state) (htold : told es = [])
    (hi : m.loss? input = none) : m.Tells input m' es queue where
  walk := by
    rw [htold, hs]
    exact .stay _
  losses := by
    rw [htold, hi]
    rfl
  last why hloss := by
    rw [hi] at hloss
    cases hloss

/-- One change is told of. -/
theorem Tells.entered (hs : m'.state ∈ m.state.next) (htold : told es = [.stateChanged m'.state])
    (hi : m.loss? input = none) : m.Tells input m' es queue where
  walk := by
    rw [htold]
    exact .single hs
  losses := by
    rw [htold, hi]
    rfl
  last why hloss := by
    rw [hi] at hloss
    cases hloss

/-- A manager that waits for an attempt connects, and somebody waits for it to. -/
theorem Standing.connects {generation : Nat} {p : Parameters}
    (h : m.Standing [.dial generation p]) :
    (∃ ticket, m.waiter = some ticket) ∧ (m.state = .connecting ∨ m.state = .reconnecting) := by
  cases h with
  | connecting ticket p hs hl hw => exact ⟨⟨ticket, hw⟩, .inl hs⟩
  | dialling ticket p hs hl hw => exact ⟨⟨ticket, hw⟩, .inr hs⟩

/-- Somebody waits for a disconnection. -/
theorem Standing.waiter_of_disconnecting {awaited : List Effect} (h : m.Standing awaited)
    (hs' : m.state = .disconnecting) : ∃ ticket, m.waiter = some ticket := by
  cases h with
  | disconnecting ticket link p hs hl hw => exact ⟨ticket, hw⟩
  | _ => simp_all

/-- Nobody waits while there is a connection, and nothing is put off. -/
theorem Standing.unwaited_of_connected {awaited : List Effect} (h : m.Standing awaited)
    (hs' : m.state = .connected) : m.waiter = none ∧ m.deferred = [] := by
  cases h with
  | connected link p hs hl hw hp hd hq => exact ⟨hw, hq⟩
  | _ => simp_all

/-- What a manager takes no notice of is no loss. -/
theorem loss_of_ignored (h : m.Ignores input) : m.loss? input = none := by
  unfold loss?
  split
  · exact if_neg fun ⟨hgen, hs⟩ => h.elim (absurd hgen) (absurd hs)
  · exact if_neg fun ⟨hgen, hs⟩ => h.elim (absurd hgen) (absurd hs)
  · rfl

/-- **What an input leads to by itself is told.** -/
theorem Tended.tells_opening {returned : Option Effect}
    (h : m.Tended (before ++ returned.toList ++ after)) (he : input.Ends returned)
    (hi : input.isShutDown = false) (ho : Opening m input m' es queue) :
    m.Tells input m' es queue := by
  cases ho with
  | order | abandoned | lapsed | acknowledged | undelivered => exact .silent rfl rfl rfl
  | message topic payload => exact ⟨.stay _, rfl, fun why hloss => by cases hloss⟩
  | established link =>
    obtain ⟨p, rfl⟩ := he.of_dialled
    obtain ⟨-, hs | hs⟩ := (h.cons_of_some.only rfl).1.connects
    all_goals
      have htold : told (m.entering .connected) = [.stateChanged .connected] :=
        told_entering (by simp [hs])
      exact .entered (by simp [hs, State.next]) (by simp [htold, Effect.notice?]) rfl
  | refused error =>
    obtain ⟨p, rfl⟩ := he.of_dialled
    obtain ⟨⟨ticket, hw⟩, hs | hs⟩ := (h.cons_of_some.only rfl).1.connects
    all_goals
      have htold := told_settling_of_waiter hw (by simp [hs]) (some (.ofLink error))
      exact .entered (by simp [hs, State.next, Manager.settled])
        (by simp [htold, Effect.notice?, Manager.settled]) rfl
  | tornDown result hs =>
    obtain ⟨ticket, hw⟩ := h.standing.waiter_of_disconnecting hs
    have htold := told_settling_of_waiter hw (by simp [hs]) none
    exact .entered (by simp [hs, State.next, Manager.settled])
      (by simp [htold, Manager.settled]) rfl
  | rotated p hr hc =>
    cases hr <;> exact .silent rfl (by simp [attempting, Effect.notice?]) rfl
  | stranded hr hc => exact absurd hc (h.standing.not_stranded hr)
  | closed hs =>
    obtain ⟨hw, hq⟩ := h.standing.unwaited_of_connected hs
    have htold := told_settling_of_unwaited hw (by simp [hs])
      (.notConnected "connection to the server has been closed")
    have hloss : m.loss? (.completion (.link m.generation .closed))
        = some (.notConnected "connection to the server has been closed") := by simp [loss?, hs]
    refine ⟨?_, ?_, fun why hwhy => ⟨hq, [], ?_⟩⟩
    · rw [htold, hs]
      exact .single (by decide)
    · rw [htold, hloss]
      rfl
    · obtain rfl := Option.some.inj (hloss.symm.trans hwhy)
      exact htold
  | failed error hs =>
    obtain ⟨hw, hq⟩ := h.standing.unwaited_of_connected hs
    have hsettling := told_settling_of_unwaited (m := { m with state := .disconnecting }) hw
      (by simp) (.ofLink error)
    have htold : told (.notify (.stateChanged .disconnecting) :: (m.closing
          ++ { m with state := .disconnecting }.settling (some (.ofLink error))))
        = [.stateChanged .disconnecting, .stateChanged .disconnected, .lost (.ofLink error)] := by
      simp [hsettling, Effect.notice?]
    have hloss : m.loss? (.completion (.link m.generation (.failed error)))
        = some (.ofLink error) := by simp [loss?, hs]
    refine ⟨?_, ?_, fun why hwhy => ⟨hq, [.stateChanged .disconnecting], ?_⟩⟩
    · rw [htold, hs]
      exact .enter (by decide) (.single (by decide))
    · rw [htold, hloss]
      rfl
    · obtain rfl := Option.some.inj (hloss.symm.trans hwhy)
      exact htold
  | ignored hig => exact .silent rfl rfl (loss_of_ignored hig)
  | shutDown => cases hi

/-- **The taking of an order** tells of a change at most. -/
theorem walk_taking {now : Millis} {o : Order} (ht : Taking now m o m' es) :
    Walk m.state (visited (told es)) m'.state ∧ losses (told es) = [] := by
  cases ht with
  | deferred | closedAlready | stored | refused | unlinked | openAlready | publishing | subscribing
  | unsubscribing => exact ⟨.stay _, rfl⟩
  | connecting p hs hc => exact ⟨.single (by simp [hs, State.next]), rfl⟩
  | disconnecting link hs hl hc => exact ⟨.single (by simp [hs, State.next]), rfl⟩
  | rotating link credential hs hl hc => exact ⟨.single (by simp [hs, State.next]), rfl⟩

theorem Tells.taking {now : Millis} {m₁ : Manager} {o : Order}
    (h : m.Tells input m₁ es (o :: queue)) (ht : Taking now m₁ o m' es') :
    m.Tells input m' (es ++ es') queue where
  walk := by
    rw [told_append, visited, List.filterMap_append]
    exact h.walk.append (walk_taking ht).1
  losses := by
    rw [told_append, losses_append, h.losses, (walk_taking ht).2, List.append_nil]
  last why hloss := absurd (h.last why hloss).1 (List.cons_ne_nil o queue)

/-- **A step tells of every change, and of a loss.** -/
theorem Tended.tells {returned : Option Effect} (now : Millis)
    (h : m.Tended (before ++ returned.toList ++ after)) (he : input.Ends returned)
    (hi : input.isShutDown = false) :
    m.Tells input (m.step now input).manager (m.step now input).effects [] :=
  m.step_induction now input (fun _ _ _ ho => h.tells_opening he hi ho)
    fun _ _ _ _ _ _ h₁ ht => h₁.taking ht

/-- In a step, a loss is told right after the end of the connection. -/
theorem Tells.announced (h : m.Tells input m' es queue) : Announced (told es) := by
  cases hloss : m.loss? input with
  | none => exact .of_no_loss (by rw [h.losses, hloss, Option.toList_none])
  | some why =>
    obtain ⟨-, earlier, htold⟩ := h.last why hloss
    have hlosses := h.losses
    rw [htold, hloss, losses_append] at hlosses
    rw [htold]
    exact (Announced.of_no_loss (List.append_left_eq_self.1 hlosses)).append (.ended why)

/-! ## Attempts that fail -/

/-- **A failed attempt is answered** to the one who waits for it.  Whoever else is answered has an
order that was put off, and does not learn of the failure. -/
def Refuses (m : Manager) (ticket : Ticket) (why : Failure) (es : List Effect) : Prop :=
  ∃ rest, es = [.count .connectionFailed, .count .connectionLost,
      .notify (.stateChanged .disconnected), .answer ticket (.error why)] ++ rest ∧
    ∀ other result, .answer other result ∈ rest → other ∈ m.deferred.map Order.ticket ∧
      (result = .ok () ∨ result = .error (.notConnected "not connected"))

/-- Without a connection, an order is answered with success or because there is none. -/
theorem answer_of_unconnected {now : Millis} {o : Order} (hs : m.state ≠ .connected)
    (ht : Taking now m o m' es) :
    m'.state ≠ .connected ∧ ∀ ticket result, .answer ticket result ∈ es → ticket = o.ticket ∧
      (result = .ok () ∨ result = .error (.notConnected "not connected")) := by
  cases ht with
  | deferred => exact ⟨hs, by simp⟩
  | connecting => exact ⟨by simp, by simp [attempting]⟩
  | closedAlready | stored | refused =>
    refine ⟨hs, fun ticket result hmem => ?_⟩
    obtain ⟨rfl, rfl⟩ := Effect.answer.inj (List.mem_singleton.1 hmem)
    exact ⟨rfl, by simp⟩
  | unlinked hs' | openAlready _ _ hs' | disconnecting _ hs' | publishing _ _ _ _ hs'
  | subscribing _ _ _ hs' | unsubscribing _ _ hs' | rotating _ _ hs' => exact absurd hs' hs

theorem Refuses.taking {now : Millis} {m₁ : Manager} {o : Order} {ticket : Ticket} {why : Failure}
    (h : m.Refuses ticket why es) (ho : o ∈ m.deferred) (hs : m₁.state ≠ .connected)
    (ht : Taking now m₁ o m' es') : m.Refuses ticket why (es ++ es') := by
  obtain ⟨rest, rfl, hrest⟩ := h
  refine ⟨rest ++ es', List.append_assoc .., fun other result hmem => ?_⟩
  rcases List.mem_append.1 hmem with hold | hnew
  · exact hrest other result hold
  · obtain ⟨rfl, hresult⟩ := (answer_of_unconnected hs ht).2 other result hnew
    exact ⟨List.mem_map_of_mem ho, hresult⟩

/-- **An attempt that has failed is answered.** -/
theorem Tended.refuses {returned : Option Effect} (now : Millis) {generation : Nat}
    {error : LinkError} (h : m.Tended (before ++ returned.toList ++ after))
    (he : (Input.completion (.dialled generation (.error error))).Ends returned) :
    ∃ ticket, m.waiter = some ticket ∧ m.Refuses ticket (.ofLink error)
      (m.step now (.completion (.dialled generation (.error error)))).effects := by
  obtain ⟨p, rfl⟩ := he.of_dialled
  have hst := (h.cons_of_some.only rfl).1
  obtain ⟨hgen, -, hf, -⟩ := hst.dial_inv
  obtain ⟨⟨ticket, hw⟩, hs⟩ := hst.connects
  have hne : m.state ≠ .disconnected := by rcases hs with hs | hs <;> simp [hs]
  have key := m.step_induction now (.completion (.dialled generation (.error error)))
    (P := fun m' es queue => m'.state ≠ .connected ∧ queue ⊆ m.deferred ∧
      m.Refuses ticket (.ofLink error) es)
    (fun m' es queue ho => ?_) fun m₁ es o queue m₂ es' ⟨hs₁, hsub, h₁⟩ ht => ?_
  · exact ⟨ticket, hw, key.2.2⟩
  · cases ho with
    | refused =>
      refine ⟨by simp [Manager.settled], List.Subset.refl _, [], ?_, by simp⟩
      simp [settling, entering, failing, reporting, hne, hf, hw]
    | rotated p hr | stranded hr => cases hr
    | ignored hig => exact absurd hgen hig
  · obtain ⟨ho, hqueue⟩ := List.cons_subset.1 hsub
    exact ⟨(answer_of_unconnected hs₁ ht).1, hqueue, h₁.taking ho hs₁ ht⟩

end Manager

/-! ## Courses -/

namespace Course
variable {c : Course}

/-- **The states that a manager has told of are a walk** to the one it is in, and every loss was
told right after the end of the connection. -/
theorem walk_announced (h : Reachable c) (running : c.stopped = false) :
    Walk .disconnected (visited (told c.record)) c.manager.state ∧ Announced (told c.record) := by
  refine running_induction (P := fun c =>
    Walk .disconnected (visited (told c.record)) c.manager.state ∧ Announced (told c.record))
    ?_ ?_ ?_ h running
  · exact fun patience ids => ⟨.stay _, .of_no_loss rfl⟩
  · intro c input e before after now hr hrun ⟨hwalk, hannounced⟩ ends _ split hi
    have htells := (split ▸ tended hr hrun).tells now ends hi
    show Walk _ (visited (told (c.record ++ _))) _ ∧ Announced (told (c.record ++ _))
    rw [told_append, visited, List.filterMap_append]
    exact ⟨hwalk.append htells.walk, hannounced.append htells.announced⟩
  · intro c e ticket before after granted result _ ih _ _
    simpa [Effect.notice?] using ih

/-- The caller of the change under way has no order that was put off. -/
theorem waiter_not_deferred (h : Reachable c) {ticket : Ticket}
    (hw : c.manager.waiter = some ticket) : ticket ∉ c.manager.deferred.map Order.ticket := by
  intro hmem
  have hacc := accounted h
  obtain ⟨lost, hk, -⟩ := hacc.counted ticket
  have hunique := List.nodup_iff_count.1 hacc.unique ticket
  have hpos := List.count_pos_iff.2 hmem
  simp only [Manager.callers, hw, List.count_append, Option.toList_some, List.count_singleton_self]
    at hk
  omega

/-- **What the owner of a manager is told.**  The states are a walk that begins without a
connection, and the last of them is the state of the manager.  A step tells of a loss exactly when
the link of an established connection has failed or was closed, and then it does so once and last.
In the whole stream, a loss always comes right after the end of the connection.  The failure of an
attempt, whether it was asked for or belongs to a rotation, is answered to the caller who waits for
it, and to nobody else. -/
theorem told_of_changes_and_losses (h : Reachable c) (running : c.stopped = false) :
    Walk .disconnected (visited (told c.record)) c.manager.state ∧
    c.manager.state = (visited (told c.record)).getLastD .disconnected ∧
    Announced (told c.record) ∧
    ∀ now input returned before after, input.Ends returned → c.Admits input →
      c.outstanding = before ++ returned.toList ++ after → input.isShutDown = false →
      losses (told (c.manager.step now input).effects) = (c.manager.loss? input).toList ∧
      (∀ why, c.manager.loss? input = some why →
        ∃ earlier, told (c.manager.step now input).effects
          = earlier ++ [.stateChanged .disconnected, .lost why]) ∧
      ∀ generation error, input = .completion (.dialled generation (.error error)) →
        ∃ ticket, c.manager.waiter = some ticket ∧
          ticket ∉ c.manager.deferred.map Order.ticket ∧
          c.manager.Refuses ticket (.ofLink error) (c.manager.step now input).effects := by
  obtain ⟨hwalk, hannounced⟩ := walk_announced h running
  refine ⟨hwalk, hwalk.last, hannounced, fun now input returned before after ends _ split hi => ?_⟩
  have ht := split ▸ tended h running
  have htells := ht.tells now ends hi
  refine ⟨htells.losses, fun why hloss => (htells.last why hloss).2, ?_⟩
  rintro generation error rfl
  obtain ⟨ticket, hw, hrefuses⟩ := ht.refuses now ends
  exact ⟨ticket, hw, waiter_not_deferred h hw, hrefuses⟩

/-- A connection that the broker closes. -/
theorem told_of_a_closed_link :
    ∃ c, Reachable c ∧ visited (told c.record) = [.connecting, .connected] ∧
      Walk .disconnected [.connecting, .connected] c.manager.state ∧
      losses (told (c.manager.step 0 (.completion (.link 1 .closed))).effects)
        = [.notConnected "connection to the server has been closed"] := by
  let p : Parameters := ⟨"mqtt://broker", "device", "user", none, true, 0, none⟩
  have connect := (Reachable.start 30000 .sequential).step
    (.takes 0 (.order ⟨0, .connect p⟩) none [] [] rfl (.order _) (by decide) rfl)
  have dialled := connect.step
    (.takes 0 (.completion (.dialled 1 (.ok 5))) (some _) [] [] rfl (.dialled _ p _) (by decide)
      rfl)
  obtain ⟨hwalk, -, -, hstep⟩ := told_of_changes_and_losses dialled rfl
  exact ⟨_, dialled, rfl, hwalk,
    (hstep 0 (.completion (.link 1 .closed)) none [] [] (.event _ _) (by decide) rfl rfl).1⟩

end Course

end DeviceProvisioning.Connection
