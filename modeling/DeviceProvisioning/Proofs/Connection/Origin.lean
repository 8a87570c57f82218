import DeviceProvisioning.Proofs.Connection.Callers

/-!
# Where the tickets of a manager come from

Whatever a manager holds, and whatever it has started, it does for an order that it has taken: an
order that was put off is one of them; the waiter has asked for a change; a message in flight was to
be published, a subscription was to be made, and a credential in store was given.  `Course.origin`
says so for every course.
-/

namespace DeviceProvisioning.Connection

open Time (Millis)

/-- The order of an input. -/
def Input.order? : Input → Option Order
  | order o => some o
  | _ => none

/-- Whether a command publishes a message. -/
def Command.isPublish : Command → Bool
  | publish .. => true
  | _ => false

/-- **What a manager holds was ordered.** -/
structure Manager.Ordered (orders : List Order) (m : Manager) : Prop where
  deferred : ∀ o ∈ m.deferred, o ∈ orders
  waiter : ∀ ticket, m.waiter = some ticket →
    ∃ o ∈ orders, o.ticket = ticket ∧ o.command.isTraffic = false
  inFlight : ∀ p ∈ m.inFlight, ∃ o ∈ orders, o.ticket = p.2 ∧ o.command.isPublish
  stored : ∀ c, m.storedCredential = some c → ∃ o ∈ orders, o.command = .updateCredential c

/-- **What was started for a caller was ordered.** -/
structure Asked (orders : List Order) (es : List Effect) : Prop where
  subscribe : ∀ link filter qos ticket, .subscribe link filter qos ticket ∈ es →
    ⟨ticket, .subscribe filter qos⟩ ∈ orders
  unsubscribe : ∀ link filter ticket, .unsubscribe link filter ticket ∈ es →
    ⟨ticket, .unsubscribe filter⟩ ∈ orders

namespace Asked
variable {orders orders' : List Order} {es es' : List Effect}

/-- Nobody is asked for by effects that take no caller along. -/
theorem of_silent (h : asking es = []) : Asked orders es where
  subscribe link filter qos ticket hmem := by
    have : ticket ∈ asking es := List.mem_filterMap.2 ⟨_, hmem, rfl⟩
    rw [h] at this
    exact absurd this List.not_mem_nil
  unsubscribe link filter ticket hmem := by
    have : ticket ∈ asking es := List.mem_filterMap.2 ⟨_, hmem, rfl⟩
    rw [h] at this
    exact absurd this List.not_mem_nil

theorem append (h : Asked orders es) (h' : Asked orders es') : Asked orders (es ++ es') where
  subscribe _ _ _ _ hmem :=
    (List.mem_append.1 hmem).elim (h.subscribe _ _ _ _) (h'.subscribe _ _ _ _)
  unsubscribe _ _ _ hmem :=
    (List.mem_append.1 hmem).elim (h.unsubscribe _ _ _) (h'.unsubscribe _ _ _)

theorem mono (h : Asked orders es) (ho : orders ⊆ orders') (hes : es' ⊆ es) :
    Asked orders' es' where
  subscribe _ _ _ _ hmem := ho (h.subscribe _ _ _ _ (hes hmem))
  unsubscribe _ _ _ hmem := ho (h.unsubscribe _ _ _ (hes hmem))

end Asked

namespace Manager
variable {m m' : Manager} {es : List Effect} {orders : List Order}

theorem Ordered.mono {orders' : List Order} (h : m.Ordered orders) (ho : orders ⊆ orders') :
    m.Ordered orders' where
  deferred o hmem := ho (h.deferred o hmem)
  waiter ticket hw := by
    obtain ⟨o, hmem, ho'⟩ := h.waiter ticket hw
    exact ⟨o, ho hmem, ho'⟩
  inFlight p hp := by
    obtain ⟨o, hmem, ho'⟩ := h.inFlight p hp
    exact ⟨o, ho hmem, ho'⟩
  stored c hc := by
    obtain ⟨o, hmem, ho'⟩ := h.stored c hc
    exact ⟨o, ho hmem, ho'⟩

/-- A manager that holds less still holds only what was ordered. -/
theorem Ordered.fewer (h : m.Ordered orders) (hq : ∀ o ∈ m'.deferred, o ∈ m.deferred)
    (hw : ∀ ticket, m'.waiter = some ticket → m.waiter = some ticket)
    (hf : ∀ p ∈ m'.inFlight, p ∈ m.inFlight) (hs : m'.storedCredential = m.storedCredential) :
    m'.Ordered orders where
  deferred o hmem := h.deferred o (hq o hmem)
  waiter ticket hwait := h.waiter ticket (hw ticket hwait)
  inFlight p hp := h.inFlight p (hf p hp)
  stored c hc := h.stored c (hs ▸ hc)

/-- **What an input leads to by itself** is for orders that were taken. -/
theorem Ordered.opening {input : Input} {queue : List Order} (h : m.Ordered orders)
    (hi : ∀ o, input.order? = some o → o ∈ orders) (ho : Opening m input m' es queue) :
    m'.Ordered orders ∧ (∀ o ∈ queue, o ∈ orders) := by
  cases ho with
  | order o => exact ⟨h, fun o' ho' => by rw [List.mem_singleton.1 ho']; exact hi o rfl⟩
  | established => exact ⟨h.fewer (by simp) (by simp) (by simp) rfl, h.deferred⟩
  | refused | tornDown | stranded | closed | failed =>
    exact ⟨h.fewer (by simp [settled]) (by simp [settled]) (by simp [settled]) rfl, h.deferred⟩
  | rotated =>
    exact ⟨h.fewer (by simp [redialled]) (by simp [redialled]) (by simp [redialled]) rfl, by simp⟩
  | acknowledged | undelivered =>
    exact ⟨h.fewer (by simp) (by simp) (fun p hp => (List.mem_filter.1 hp).1) rfl, by simp⟩
  | shutDown => exact ⟨h.fewer (by simp) (by simp) (by simp) rfl, by simp⟩
  | abandoned | lapsed | message | ignored =>
    exact ⟨⟨h.deferred, h.waiter, h.inFlight, h.stored⟩, by simp⟩

/-- **The taking of an order** is for this order. -/
theorem Ordered.taking {now : Millis} {o : Order} (h : m.Ordered orders) (hmem : o ∈ orders)
    (ht : Taking now m o m' es) : m'.Ordered orders ∧ Asked orders (lasting es) := by
  cases ht with
  | deferred htr =>
    refine ⟨⟨fun o' ho' => ?_, h.waiter, h.inFlight, h.stored⟩, .of_silent rfl⟩
    rcases List.mem_append.1 ho' with hold | hnew
    · exact h.deferred o' hold
    · rwa [List.mem_singleton.1 hnew]
  | connecting p hs hc =>
    refine ⟨⟨h.deferred, fun ticket hw => ?_, h.inFlight, nofun⟩, .of_silent rfl⟩
    exact ⟨o, hmem, Option.some.inj hw, by rw [hc]; rfl⟩
  | disconnecting link hs hl hc =>
    refine ⟨⟨h.deferred, fun ticket hw => ?_, h.inFlight, h.stored⟩, .of_silent rfl⟩
    exact ⟨o, hmem, Option.some.inj hw, by rw [hc]; rfl⟩
  | rotating link credential hs hl hc =>
    have hw : ∀ ticket, some o.ticket = some ticket →
        ∃ o' ∈ orders, o'.ticket = ticket ∧ o'.command.isTraffic = false := fun ticket heq =>
      ⟨o, hmem, Option.some.inj heq, by rw [hc]; rfl⟩
    refine ⟨?_, .of_silent rfl⟩
    unfold renewed
    cases m.parameters with
    | some p => exact ⟨h.deferred, hw, h.inFlight, h.stored⟩
    | none =>
      refine ⟨h.deferred, hw, h.inFlight, fun c heq => ⟨o, hmem, ?_⟩⟩
      rw [hc, show credential = c from Option.some.inj heq]
  | publishing link topic payload delivery hs hl hc =>
    refine ⟨⟨h.deferred, h.waiter, fun p hp => ?_, h.stored⟩, .of_silent rfl⟩
    rcases List.mem_append.1 hp with hold | hnew
    · exact h.inFlight p (List.mem_filter.1 hold).1
    · rw [List.mem_singleton.1 hnew]
      exact ⟨o, hmem, rfl, by rw [hc]; rfl⟩
  | subscribing link filter qos hs hl hc =>
    refine ⟨h, ⟨fun link' filter' qos' ticket hx => ?_, fun link' filter' ticket hx => ?_⟩⟩
    · obtain ⟨-, rfl, rfl, rfl⟩ : _ ∧ _ ∧ _ ∧ _ := by simpa [Effect.isLasting] using hx
      rwa [← hc]
    · simp [Effect.isLasting] at hx
  | unsubscribing link filter hs hl hc =>
    refine ⟨h, ⟨fun link' filter' qos' ticket hx => ?_, fun link' filter' ticket hx => ?_⟩⟩
    · simp [Effect.isLasting] at hx
    · obtain ⟨-, rfl, rfl⟩ : _ ∧ _ ∧ _ := by simpa [Effect.isLasting] using hx
      rwa [← hc]
  | stored credential hs hc =>
    refine ⟨⟨h.deferred, h.waiter, h.inFlight, fun c heq => ⟨o, hmem, ?_⟩⟩, .of_silent rfl⟩
    rw [hc, Option.some.inj heq]
  | closedAlready | refused | unlinked | openAlready =>
    exact ⟨⟨h.deferred, h.waiter, h.inFlight, h.stored⟩, .of_silent rfl⟩

/-- **A step does only what was ordered.** -/
theorem Ordered.step (now : Millis) (input : Input) (h : m.Ordered orders)
    (hi : ∀ o, input.order? = some o → o ∈ orders) :
    (m.step now input).manager.Ordered orders ∧
      Asked orders (lasting (m.step now input).effects) := by
  have key := m.step_induction now input
    (P := fun m' es queue =>
      m'.Ordered orders ∧ (∀ o ∈ queue, o ∈ orders) ∧ Asked orders (lasting es))
    (fun m' es queue ho => ?_) fun m₁ es o queue m₂ es' h₁ ht => ?_
  · exact ⟨key.1, key.2.2⟩
  · obtain ⟨hm, hq⟩ := h.opening hi ho
    exact ⟨hm, hq, .of_silent (asking_opening ho)⟩
  · obtain ⟨hm, hq, ha⟩ := h₁
    obtain ⟨hm', ha'⟩ := hm.taking (hq o List.mem_cons_self) ht
    refine ⟨hm', fun o' ho' => hq o' (List.mem_cons_of_mem _ ho'), ?_⟩
    rw [lasting_append]
    exact ha.append ha'

end Manager

/-! ## Courses -/

namespace Course
variable {c : Course}

/-- The orders that the manager has taken. -/
def orders (c : Course) : List Order :=
  c.inputs.filterMap Input.order?

theorem taken_eq (c : Course) : c.taken = c.orders.map Order.ticket := by
  rw [taken, orders, List.map_filterMap]
  congr 1
  funext input
  cases input <;> rfl

theorem orders_follow (now : Millis) (input : Input) (rest : List Effect) :
    (c.follow now input rest).orders = c.orders ++ input.order?.toList := by
  unfold orders follow
  cases h : input.order? <;> simp [List.filterMap_append, h]

/-- **What a manager holds, and what it has started, was ordered.** -/
theorem origin (h : Reachable c) : c.manager.Ordered c.orders ∧ Asked c.orders c.outstanding := by
  induction h with
  | start patience ids => exact ⟨⟨by simp, by simp, by simp, by simp⟩, .of_silent rfl⟩
  | @step c c' _ hs ih =>
    obtain ⟨hm, ha⟩ := ih
    cases hs with
    | takes now input e before after running ends admits split =>
      rw [orders_follow]
      have hsub : c.orders ⊆ c.orders ++ input.order?.toList := List.subset_append_left _ _
      obtain ⟨hm', ha'⟩ := (hm.mono hsub).step now input fun o ho =>
        List.mem_append_right _ (by simp [ho])
      refine ⟨hm', Asked.append (ha.mono hsub fun e' he' => ?_) ha'⟩
      rw [split]
      rcases List.mem_append.1 he' with hb | hb
      · exact List.mem_append_left _ (List.mem_append_left _ hb)
      · exact List.mem_append_right _ hb
    | subscribed _ _ _ _ _ before after split | unsubscribed _ _ _ _ before after split
    | late _ before after _ _ split =>
      refine ⟨hm, ha.mono (List.Subset.refl _) fun e' he' => ?_⟩
      rw [split]
      rcases List.mem_append.1 he' with hb | hb
      · exact List.mem_append_left _ hb
      · exact List.mem_append_right _ (List.mem_cons_of_mem _ hb)

/-! ### What a course keeps -/

theorem record_prefix {c' : Course} (hs : Step c c') : c.record <+: c'.record := by
  cases hs with
  | takes | subscribed | unsubscribed => exact List.prefix_append _ _
  | late => exact List.prefix_refl _

/-- A step that takes nobody's ticket takes no order. -/
theorem orders_of_own {c' : Course} (hs : Step c c') (own : c'.taken = c.taken) :
    c'.orders = c.orders := by
  cases hs with
  | takes now input e before after running ends admits split =>
    rw [taken_follow] at own
    rw [orders_follow]
    cases input with
    | order o => simp [Input.ticket?] at own
    | _ => exact List.append_nil _
  | _ => rfl

/-- Who has been answered had an order taken. -/
theorem taken_of_answered (h : Reachable c) {ticket : Ticket} (ha : ticket ∈ answered c.record) :
    ticket ∈ c.taken := by
  obtain ⟨lost, hk, -⟩ := (accounted h).counted ticket
  have := List.count_pos_iff.2 ha
  exact List.count_pos_iff.1 (by omega)

theorem order_of_answered (h : Reachable c) {ticket : Ticket} (ha : ticket ∈ answered c.record) :
    ∃ o ∈ c.orders, o.ticket = ticket := by
  have htaken := taken_of_answered h ha
  rwa [taken_eq, List.mem_map] at htaken

/-- Who is held by the manager, or was handed on by it, has not been answered. -/
theorem unanswered_of_held (h : Reachable c) {ticket : Ticket}
    (hheld : ticket ∈ c.manager.callers ∨ ticket ∈ asking c.outstanding) :
    ticket ∉ answered c.record := by
  intro ha
  obtain ⟨lost, hk, -⟩ := (accounted h).counted ticket
  have honce := List.nodup_iff_count.1 (accounted h).unique ticket
  have hans := List.count_pos_iff.2 ha
  rcases hheld with hc | ho
  · have := List.count_pos_iff.2 hc
    omega
  · have := List.count_pos_iff.2 ho
    omega

end Course

end DeviceProvisioning.Connection
