import DeviceProvisioning.Proofs.Connection.Standing
import DeviceProvisioning.Proofs.Table

/-!
# Every caller of a manager is answered once

The ticket of an order passes through several hands.  It may be put off with its order; it may be
the manager's waiter; it may belong to a message in flight; or a subscription may have taken it
along. Whoever holds it is to answer it.

A step only ever moves tickets from one hand to another, or answers them (`Manager.step_callers`):
counted for any one ticket, what a manager holds before a step and takes by it is what it holds
afterwards, has handed on and has answered, and what is lost.  Two things keep a ticket from being
lost: a manager that has settled has no waiter (`Manager.Unwaited`), so that none is overwritten by
the next change, and messages in flight have different ids (`Manager.Distinct`) unless the source of
ids repeats itself.

`Course.accounted` sums this up over a course, and `Course.every_caller_answered_once` says what it
comes to.
-/

namespace DeviceProvisioning.Connection

open Time (Millis)

namespace Manager

/-- The callers whose tickets a manager holds. -/
def callers (m : Manager) : List Ticket :=
  m.deferred.map Order.ticket ++ m.waiter.toList ++ m.inFlight.map Prod.snd

/-- No one waits for a change when none is under way. -/
def Unwaited (m : Manager) : Prop :=
  m.state.isTransitional = false → m.waiter = none

/-- Messages in flight have different ids. -/
def Distinct (m : Manager) : Prop :=
  (m.inFlight.map Prod.fst).Nodup

variable {m m' : Manager} {es : List Effect}

/-! ## What keeps tickets from being lost -/

theorem Unwaited.opening {input : Input} {queue : List Order} (h : m.Unwaited)
    (ho : Opening m input m' es queue) : m'.Unwaited := by
  cases ho with
  | order | abandoned | message | ignored | lapsed | acknowledged | undelivered => exact h
  | established | refused | tornDown | stranded | closed | failed | shutDown => exact fun _ => rfl
  | rotated p hr hc =>
    have hs : m.state = .reconnecting := by cases hr <;> exact And.left ‹_›
    intro hsettled
    have hsettled : m.state.isTransitional = false := hsettled
    rw [hs] at hsettled
    cases hsettled

theorem Unwaited.taking {now : Millis} {o : Order} (h : m.Unwaited) (ht : Taking now m o m' es) :
    m'.Unwaited := by
  cases ht with
  | deferred htr => exact fun hsettled => absurd htr (by simpa using hsettled)
  | connecting | disconnecting | rotating =>
    intro hsettled
    cases hsettled
  | closedAlready | refused | unlinked | openAlready | subscribing | unsubscribing | stored
  | publishing => exact h

/-- Nothing goes into flight by itself. -/
theorem opening_inFlight {input : Input} {queue : List Order} (ho : Opening m input m' es queue) :
    (m'.inFlight.map Prod.fst).Sublist (m.inFlight.map Prod.fst) := by
  cases ho with
  | acknowledged | undelivered => exact List.filter_sublist.map _
  | refused | tornDown | rotated | stranded | closed | failed | shutDown => exact List.nil_sublist _
  | _ => exact List.Sublist.refl _

/-- What is in flight after the taking of an order was so before or has been published. -/
theorem taking_inFlight {now : Millis} {o : Order} (ht : Taking now m o m' es) :
    (m'.inFlight.map Prod.fst).Sublist (m.inFlight.map Prod.fst ++ messageIds es) := by
  cases ht with
  | publishing link topic payload delivery hs hl hc =>
    rw [List.map_append]
    exact (List.filter_sublist.map _).append (by simp [Effect.messageId?])
  | rotating link credential hs hl hc =>
    rw [renewed_inFlight]
    exact List.sublist_append_left _ _
  | _ => exact List.sublist_append_left _ _

/-! ## One step -/

/-- Nobody is answered by what ends the wait for a link to close. -/
theorem release_silent {input : Input} (h : Release m input es) :
    input.ticket? = none ∧ answered es = [] ∧ lasting es = [] := by
  cases h with
  | tornDown => exact ⟨rfl, rfl, rfl⟩
  | expired => exact ⟨rfl, m.answered_closing, m.lasting_closing⟩

/-- The answers of a manager that is no more. -/
theorem goodbye (orders : List Order) :
    answered (orders.map fun o => Effect.answer o.ticket (.error Turn.gone))
        = orders.map Order.ticket ∧
      lasting (orders.map fun o => Effect.answer o.ticket (.error Turn.gone)) = [] := by
  induction orders with
  | nil => exact ⟨rfl, rfl⟩
  | cons o orders ih => simpa [Effect.answered?, Effect.isLasting] using ih

/-- Nothing is started for a caller by itself. -/
theorem asking_opening {input : Input} {queue : List Order} (ho : Opening m input m' es queue) :
    asking (lasting es) = [] := by
  cases ho with
  | rotated p hr | stranded hr => simp [(release_silent hr).2.2, Effect.caller?]
  | shutDown => simp [(goodbye m.deferred).2]
  | _ => simp [Effect.isLasting]

/-- **What an input leads to by itself** moves tickets or answers them. -/
theorem opening_callers {input : Input} {queue : List Order} (ho : Opening m input m' es queue)
    (k : Ticket) :
    ∃ lost, input.ticket?.toList.count k + m.callers.count k
        = (answered es).count k + m'.callers.count k + (queue.map Order.ticket).count k + lost ∧
      (m.Distinct → lost = 0) := by
  cases ho with
  | acknowledged id ticket hl | undelivered id error ticket hl =>
    obtain ⟨lost, heq, hlost⟩ := Table.count_lookup Prod.snd hl k
    refine ⟨lost, ?_, hlost⟩
    simp only [callers, Input.ticket?, Option.toList_none, List.count_nil, Nat.zero_add,
      List.count_append, answered_cons, Effect.answered?, List.nil_append, answered_nil,
      Option.toList_some, List.append_nil, List.map_nil] at heq ⊢
    omega
  | order o =>
    refine ⟨0, ?_, fun _ => rfl⟩
    simp [callers, Input.ticket?]
    omega
  | established | refused | tornDown | closed | failed =>
    refine ⟨0, ?_, fun _ => rfl⟩
    simp [callers, Input.ticket?, settled, Effect.answered?]
    omega
  | rotated p hr hc =>
    obtain ⟨hi, ha, -⟩ := release_silent hr
    refine ⟨0, ?_, fun _ => rfl⟩
    simp [callers, hi, ha, redialled]
    omega
  | stranded hr hc =>
    obtain ⟨hi, ha, -⟩ := release_silent hr
    refine ⟨0, ?_, fun _ => rfl⟩
    simp [callers, hi, ha, settled]
    omega
  | abandoned | message | lapsed =>
    exact ⟨0, by simp [callers, Input.ticket?, Effect.answered?], fun _ => rfl⟩
  | ignored hig =>
    have hi : input.ticket? = none := by
      cases input <;> first | rfl | exact absurd hig id
    exact ⟨0, by simp [hi], fun _ => rfl⟩
  | shutDown =>
    refine ⟨0, ?_, fun _ => rfl⟩
    simp [callers, Input.ticket?, (goodbye m.deferred).1]
    omega

/-- **The taking of an order** moves tickets or answers them. -/
theorem taking_callers {now : Millis} {o : Order} (h : m.Unwaited) (ht : Taking now m o m' es)
    (k : Ticket) :
    ∃ lost, [o.ticket].count k + m.callers.count k
        = (answered es).count k + (asking (lasting es)).count k + m'.callers.count k + lost ∧
      ((∀ id ∈ messageIds es, id ∉ m.inFlight.map Prod.fst) → lost = 0) := by
  cases ht with
  | publishing link topic payload delivery hs hl hc =>
    -- an id that is in use takes the place of its entry, and with it the caller's
    have hle : ((m.inFlight.filter (·.1 ≠ m.ids.peek)).map Prod.snd).count k
        ≤ (m.inFlight.map Prod.snd).count k := (List.filter_sublist.map _).count_le k
    refine ⟨(m.inFlight.map Prod.snd).count k
      - ((m.inFlight.filter (·.1 ≠ m.ids.peek)).map Prod.snd).count k, ?_, fun hf => ?_⟩
    · simp [callers, List.count_cons, Effect.answered?, Effect.isLasting, Effect.caller?] at hle ⊢
      omega
    · rw [Table.drop_unused (hf m.ids.peek (by simp [Effect.messageId?])), Nat.sub_self]
  | deferred htr =>
    refine ⟨0, ?_, fun _ => rfl⟩
    simp [callers, List.count_cons]
    omega
  | connecting p hs hc | disconnecting link hs hl hc =>
    have hw := h (by rw [hs]; rfl)
    refine ⟨0, ?_, fun _ => rfl⟩
    simp [callers, List.count_cons, hw, Effect.answered?, Effect.isLasting, Effect.caller?]
    omega
  | rotating link credential hs hl hc =>
    have hw := h (by rw [hs]; rfl)
    refine ⟨0, ?_, fun _ => rfl⟩
    simp [callers, List.count_cons, hw, Effect.answered?, Effect.isLasting, Effect.caller?]
    omega
  | closedAlready | stored | refused | unlinked | openAlready | subscribing | unsubscribing =>
    refine ⟨0, ?_, fun _ => rfl⟩
    simp [callers, Effect.answered?, Effect.isLasting, Effect.caller?]

/-- What a step comes to for the callers, in the middle of it: nobody waits in vain, no id is used
twice unless one is handed out that was in use, and every ticket is where it should be. -/
structure Moved (m : Manager) (input : Input) (m' : Manager) (es : List Effect)
    (queue : List Order) : Prop where
  unwaited : m'.Unwaited
  used : (m'.inFlight.map Prod.fst).Sublist (m.inFlight.map Prod.fst ++ messageIds es)
  counted : ∀ k, ∃ lost, input.ticket?.toList.count k + m.callers.count k
      = (answered es).count k + (asking (lasting es)).count k + m'.callers.count k
        + (queue.map Order.ticket).count k + lost ∧
    ((m.inFlight.map Prod.fst ++ messageIds es).Nodup → lost = 0)

theorem Moved.taking {now : Millis} {input : Input} {m₁ m₂ : Manager} {es' : List Effect}
    {o : Order} {queue : List Order} (h : Moved m input m₁ es (o :: queue))
    (ht : Taking now m₁ o m₂ es') :
    Moved m input m₂ (es ++ es') queue where
  unwaited := h.unwaited.taking ht
  used := by
    rw [messageIds_append, ← List.append_assoc]
    exact (taking_inFlight ht).trans (h.used.append_right _)
  counted k := by
    obtain ⟨lost, heq, hlost⟩ := h.counted k
    obtain ⟨lost', heq', hlost'⟩ := taking_callers h.unwaited ht k
    refine ⟨lost + lost', ?_, fun hn => ?_⟩
    · simp only [List.map_cons, List.count_cons, List.count_nil, answered_append, lasting_append,
        asking_append, List.count_append] at heq heq' ⊢
      omega
    · -- what was in flight before this taking has been in flight or was published earlier
      rw [messageIds_append, ← List.append_assoc, List.nodup_append] at hn
      have hdis : ∀ id ∈ messageIds es', id ∉ m₁.inFlight.map Prod.fst := fun id hid hmem =>
        hn.2.2 id (h.used.subset hmem) id hid rfl
      rw [hlost hn.1, hlost' hdis]

/-- **A step moves tickets or answers them**: it loses none, as long as ids are not handed out while
they are in use, and none comes from nowhere. -/
theorem step_callers (now : Millis) (input : Input) (h : m.Unwaited) :
    Moved m input (m.step now input).manager (m.step now input).effects [] := by
  refine m.step_induction now input (P := Moved m input)
    (fun m' es queue ho => ⟨h.opening ho, ?_, ?_⟩) fun m₁ es o queue m₂ es' h₁ ht => h₁.taking ht
  · exact (opening_inFlight ho).trans (List.sublist_append_left _ _)
  · intro k
    obtain ⟨lost, heq, hlost⟩ := opening_callers ho k
    refine ⟨lost, ?_, fun hn => hlost (List.nodup_append.1 hn).1⟩
    rw [asking_opening ho]
    exact heq

/-- The last step leaves nobody waiting. -/
theorem callers_shutDown (now : Millis) (m : Manager) :
    (m.step now .shutDown).manager.callers = [] := by
  have key := m.step_induction now .shutDown
    (P := fun m' _ queue => queue = [] ∧ m'.callers = []) (fun m' es queue ho => ?_)
    fun m₁ es o queue m₂ es' h₁ _ => absurd h₁.1 (List.cons_ne_nil o queue)
  · exact key.2
  · cases ho with
    | shutDown => exact ⟨rfl, rfl⟩
    | rotated p hr | stranded hr => cases hr
    | ignored hig => exact absurd hig id

/-- A manager that is tended waits for nobody else than what is outstanding. -/
theorem Tended.callers_eq_nil (h : m.Tended []) : m.callers = [] := by
  have hf : m.inFlight = [] :=
    List.eq_nil_iff_forall_not_mem.2 fun p hp => List.not_mem_nil (h.carried p hp)
  have hst : m.Standing [] := h.standing
  cases hst with
  | disconnected hs hl hw hp hd hf hq => simp [callers, hw, hf, hq]
  | connected link p hs hl hw hp hd hq hc => simp [callers, hw, hf, hq]

end Manager

/-! ## Courses -/

namespace Course
variable {c c' : Course}

/-- **Where the callers are.** -/
structure Accounted (c : Course) : Prop where
  unwaited : c.manager.Unwaited
  distinct : c.clashed = false → c.manager.Distinct
  unique : c.taken.Nodup
  /-- A ticket has been answered, is held by the manager, or was handed on; or else it was lost. -/
  counted : ∀ k, ∃ lost, (answered c.record).count k + c.manager.callers.count k
      + (asking c.outstanding).count k + lost = c.taken.count k ∧
    (c.clashed = false → lost = 0)
  cleared : c.stopped = true → c.manager.callers = []

theorem taken_follow (now : Millis) (input : Input) (rest : List Effect) :
    (c.follow now input rest).taken = c.taken ++ input.ticket?.toList := by
  unfold taken follow
  cases h : input.ticket? <;> simp [List.filterMap_append, h]

/-- What comes back to the manager takes nobody along who waits for an answer. -/
theorem asking_ends {input : Input} {e : Option Effect} (h : input.Ends e) :
    asking e.toList = [] := by
  cases h <;> rfl

/-- An answer that comes by itself goes to the caller it was started for. -/
theorem Accounted.answering {e : Effect} {ticket : Ticket} {result : Except Failure Unit}
    {before after : List Effect} {granted : List (LinkId × String)} (h : c.Accounted)
    (he : e.caller? = some ticket) (split : c.outstanding = before ++ e :: after) :
    Accounted
      { c with
        outstanding := before ++ after, granted
        record := c.record ++ [.answer ticket result] } where
  unwaited := h.unwaited
  distinct := h.distinct
  unique := h.unique
  counted k := by
    obtain ⟨lost, hk, hlost⟩ := h.counted k
    refine ⟨lost, ?_, hlost⟩
    rw [split] at hk
    simp only [asking_append, asking_cons, he, Option.toList_some, List.count_append,
      answered_append, answered_cons, Effect.answered?, answered_nil, List.append_nil] at hk ⊢
    show _ + c.manager.callers.count k + _ + _ = c.taken.count k
    omega
  cleared := h.cleared

/-- An id clashes at once or never. -/
theorem clashed_follow {now : Millis} {input : Input} {rest : List Effect}
    (h : (c.follow now input rest).clashed = false) :
    c.clashed = false ∧ c.manager.Fresh now input := by
  simpa [follow] using h

theorem Accounted.step (h : c.Accounted) (hs : Step c c') : c'.Accounted := by
  cases hs with
  | takes now input e before after running ends admits split =>
    obtain ⟨hw, hused, hcount⟩ := Manager.step_callers now input h.unwaited
    refine ⟨hw, fun hclash => hused.nodup (clashed_follow hclash).2, ?_, fun k => ?_,
      fun hstop => ?_⟩
    · rw [taken_follow]
      cases input with
      | order o =>
        exact List.nodup_append.2 ⟨h.unique, by simp [Input.ticket?], fun a ha b hb heq =>
          admits (by rwa [← List.mem_singleton.1 hb, ← heq])⟩
      | _ => simpa [Input.ticket?] using h.unique
    · obtain ⟨lost, hk, hlost⟩ := h.counted k
      obtain ⟨lost', hstep, hlost'⟩ := hcount k
      refine ⟨lost + lost', ?_, fun hclash => ?_⟩
      · rw [split] at hk
        rw [taken_follow]
        simp only [follow, asking_append, answered_append, List.count_append, asking_ends ends,
          List.count_nil, List.map_nil] at hk hstep ⊢
        omega
      · obtain ⟨hold, hfresh⟩ := clashed_follow hclash
        rw [hlost hold, hlost' hfresh]
    · cases input with
      | shutDown => exact Manager.callers_shutDown now c.manager
      | _ => cases hstop
  | subscribed link filter qos ticket result before after split => exact h.answering rfl split
  | unsubscribed link filter ticket result before after split => exact h.answering rfl split
  | late e before after stopped silent split =>
    refine ⟨h.unwaited, h.distinct, h.unique, fun k => ?_, h.cleared⟩
    obtain ⟨lost, hk, hlost⟩ := h.counted k
    refine ⟨lost, ?_, hlost⟩
    rw [split] at hk
    simp only [asking_append, asking_cons, silent, Option.toList_none, List.nil_append] at hk ⊢
    exact hk

theorem accounted (h : Reachable c) : c.Accounted := by
  induction h with
  | start patience ids =>
    exact ⟨fun _ => rfl, fun _ => List.nodup_nil, List.nodup_nil, fun k => ⟨0, rfl, fun _ => rfl⟩,
      fun hstop => by cases hstop⟩
  | step _ hs ih => exact ih.step hs

/-- Who has been answered stays so. -/
theorem answered_prefix (hs : Step c c') : answered c.record <+: answered c'.record := by
  cases hs with
  | takes | subscribed | unsubscribed =>
    simp only [follow, answered_append]
    exact List.prefix_append _ _
  | late => exact List.prefix_refl _

/-- **Every caller is answered exactly once,** unless ids clash.  At any time in any course, the
tickets that the manager has taken, each of them once, are those that have been answered, those it
holds — in an order that was put off, as its waiter, for a message in flight — and those that a
subscription, or the end of one, has taken along.  Who was answered stays so.  A manager that was
shut down holds nothing, and once all that was started has come back everybody has been answered.
-/
theorem every_caller_answered_once (h : Reachable c) (hids : c.clashed = false) :
    c.taken.Nodup ∧
    (answered c.record ++ c.manager.deferred.map Order.ticket ++ c.manager.waiter.toList
      ++ c.manager.inFlight.map Prod.snd ++ asking c.outstanding).Perm c.taken ∧
    (∀ c', Step c c' → answered c.record <+: answered c'.record) ∧
    (c.stopped = true →
      c.manager.deferred = [] ∧ c.manager.waiter = none ∧ c.manager.inFlight = []) ∧
    (c.outstanding = [] → (answered c.record).Perm c.taken) := by
  have hacc := accounted h
  refine ⟨hacc.unique, List.perm_iff_count.2 fun k => ?_, fun c' => answered_prefix,
    fun hstop => ?_, fun hout => List.perm_iff_count.2 fun k => ?_⟩
  · obtain ⟨lost, hk, hlost⟩ := hacc.counted k
    have hlost := hlost hids
    simp only [Manager.callers, List.count_append] at hk ⊢
    omega
  · simpa [Manager.callers, and_assoc] using hacc.cleared hstop
  · have hnil : c.manager.callers = [] := by
      cases hstop : c.stopped with
      | true => exact hacc.cleared hstop
      | false =>
        have ht := tended h hstop
        rw [hout] at ht
        exact ht.callers_eq_nil
    obtain ⟨lost, hk, hlost⟩ := hacc.counted k
    rw [hnil, hout, hlost hids] at hk
    exact hk

/-- Three callers of a manager that connects, publishes what was put off, subscribes, and is shut
down before the message has arrived. -/
theorem three_callers_answered_once :
    ∃ c : Course, Reachable c ∧ c.stopped = true ∧ c.taken = [0, 1, 2] ∧
      (answered c.record).Perm [0, 1, 2] := by
  let p : Parameters := ⟨"mqtt://broker", "device", "user", none, true, 0, none⟩
  have connect := (Reachable.start 30000 .sequential).step
    (.takes 0 (.order ⟨0, .connect p⟩) none [] [] rfl (.order _) (by decide) rfl)
  have publish := connect.step
    (.takes 0 (.order ⟨1, .publish "topic" [] {}⟩) none [_] [] rfl (.order _) (by decide)
      rfl)
  have dialled := publish.step
    (.takes 0 (.completion (.dialled 1 (.ok 5))) (some _) [] [] rfl (.dialled _ p _) (by decide)
      rfl)
  have subscribe := dialled.step
    (.takes 0 (.order ⟨2, .subscribe "filter" .atLeastOnce⟩) none [_] [] rfl (.order _)
      (by decide) rfl)
  have subscribed := subscribe.step (.subscribed 5 "filter" .atLeastOnce 2 (.ok ()) [_] [] rfl)
  have shutDown := subscribed.step
    (.takes 0 .shutDown none [_] [] rfl .shutDown (by decide) rfl)
  have late := shutDown.step (.late _ [] [] rfl rfl rfl)
  exact ⟨_, late, rfl, rfl, (every_caller_answered_once late (by decide)).2.2.2.2 rfl⟩

end Course

end DeviceProvisioning.Connection
