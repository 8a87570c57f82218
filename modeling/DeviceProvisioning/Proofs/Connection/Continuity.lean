import DeviceProvisioning.Proofs.Connection.Purpose

/-!
# What becomes of a connection

A step of a manager takes the orders that wait in the order in which they came, and what it leaves
is the rest of them.  If the manager is connected afterwards, it has been so all along, on one link;
or else it has waited for an attempt, and this has just come back.  So whatever is published or
subscribed goes to the link that there was, unless the step has yielded a new one.

`Manager.Retains` says this of a manager in the middle of a step, and `Course.Continues` of a
course.
-/

namespace DeviceProvisioning.Connection

open Time (Millis)

variable {m m' : Manager} {es tasks before after : List Effect} {queue orders : List Order}

/-! ## The taking of an order -/

/-- A manager that has settled has put nothing off. -/
theorem Manager.Standing.deferred_of_settled {awaited : List Effect} (h : m.Standing awaited)
    (hs : m.state.isTransitional = false) : m.deferred = [] := by
  cases h with
  | disconnected _ _ _ _ _ _ hq | connected _ _ _ _ _ _ _ hq => exact hq
  | connecting | disconnecting | tearingDown | dialling => simp_all [State.isTransitional]

namespace Taking
variable {now : Millis} {o : Order}

/-- No order leads to a connection at once. -/
theorem connected (ht : Taking now m o m' es) (hs : m'.state = .connected) :
    m.state = .connected ∧ m'.link = m.link := by
  cases ht with
  | deferred | closedAlready | refused | unlinked | openAlready | publishing | subscribing
  | unsubscribing | stored => exact ⟨hs, rfl⟩
  | connecting | disconnecting | rotating => cases hs

/-- An order is put off behind the others, or there are no others. -/
theorem waits (ht : Taking now m o m' es) {awaited : List Effect} (h : m.Standing awaited) :
    m'.deferred ++ queue <:+ m.deferred ++ o :: queue := by
  have settled (hs : m.state.isTransitional = false) (hq : m'.deferred = m.deferred) :
      m'.deferred ++ queue <:+ m.deferred ++ o :: queue := by
    rw [hq, h.deferred_of_settled hs]
    exact List.suffix_cons o queue
  cases ht with
  | deferred => simp
  | connecting _ hs | closedAlready hs | stored _ hs | refused hs | unlinked hs
  | openAlready _ _ hs | disconnecting _ hs | publishing _ _ _ _ hs | subscribing _ _ _ hs
  | unsubscribing _ _ hs => exact settled (by rw [hs]; rfl) rfl
  | rotating link credential hs =>
    exact settled (by rw [hs]; rfl) (m.renewed_deferred credential)

/-- Who is answered by a manager that stays connected wanted it to connect. -/
theorem answers (ht : Taking now m o m' es) {awaited : List Effect} (h : m.Standing awaited)
    (hs : m'.state = .connected) {ticket : Ticket} {result : Except Failure Unit}
    (hmem : .answer ticket result ∈ es) :
    o.ticket = ticket ∧ o.command.isEntry = true ∧ result = .ok () := by
  obtain ⟨hc, -⟩ := ht.connected hs
  cases ht with
  | openAlready link p _ _ hcmd =>
    obtain ⟨rfl, rfl⟩ : ticket = o.ticket ∧ result = .ok () := by simpa using hmem
    exact ⟨rfl, by rw [hcmd]; rfl, rfl⟩
  | unlinked _ hl =>
    obtain ⟨link, hlink⟩ := h.link_of_connected hc
    rw [hl] at hlink
    cases hlink
  | closedAlready hd | stored _ hd | refused hd =>
    rw [hd] at hc
    cases hc
  | connecting | disconnecting | rotating => cases hs
  | deferred | publishing | subscribing | unsubscribing => simp at hmem

/-- A subscription is made on the link that there is. -/
theorem subscribes (ht : Taking now m o m' es) {link : LinkId} {filter : String}
    {qos : Link.Qos} {ticket : Ticket} (hmem : .subscribe link filter qos ticket ∈ es) :
    m'.link = some link := by
  cases ht with
  | subscribing link' filter' qos' hs hl hc =>
    obtain ⟨rfl, -⟩ : link = link' ∧ _ := by simpa using hmem
    exact hl
  | _ => simp [attempting] at hmem

/-- A message is published on the link that there is. -/
theorem publishes (ht : Taking now m o m' es) {link : LinkId} {id : RequestId}
    {topic : String} {payload : Text.Octets} {delivery : Delivery}
    (hmem : .publish link id topic payload delivery ∈ es) :
    o.command.isPublish = true ∧ m.state = .connected ∧ m.link = some link := by
  cases ht with
  | publishing link' topic' payload' delivery' hs hl hc =>
    obtain ⟨rfl, -⟩ : link = link' ∧ _ := by simpa using hmem
    exact ⟨by rw [hc]; rfl, hs, hl⟩
  | _ => simp [attempting] at hmem

end Taking

/-! ## In the middle of a step -/

namespace Manager

/-- A manager waits for an attempt. -/
def Attempting (m : Manager) : Prop :=
  ∃ generation p, m.Standing [.dial generation p]

/-- **What has become of a connection** in the middle of a step, where `orders` are those that the
manager has been given. -/
structure Retains (orders : List Order) (m : Manager) (input : Input) (m' : Manager)
    (es : List Effect) (queue : List Order) : Prop where
  /-- The orders that wait are the last of those that have waited. -/
  waits : m'.deferred ++ queue <:+ m.deferred ++ input.order?.toList
  /-- The connection is the one that there was, or a new one. -/
  link : m'.state = .connected → m.state = .connected ∧ m'.link = m.link ∨ m.Attempting
  subscribes : m'.state = .connected → ∀ link filter qos ticket,
    .subscribe link filter qos ticket ∈ es → m'.link = some link
  /-- As long as there is a connection, it is told only who wanted to have one or to publish. -/
  answers : m'.state = .connected → ∀ ticket result, .answer ticket result ∈ es →
    ∃ o ∈ orders, o.ticket = ticket ∧
      (o.command.isEntry = true ∧ result = .ok () ∨ o.command.isPublish = true)
  publishes : ∀ link id topic payload delivery, .publish link id topic payload delivery ∈ es →
    (∃ o ∈ m.deferred ++ input.order?.toList, o.command.isPublish = true) ∧
      (m.state = .connected ∧ m.link = some link ∨ m.Attempting)

namespace Retains
variable {input : Input}

/-- A manager that is not connected has no connection to say anything of. -/
theorem of_disconnected (hs : m'.state ≠ .connected)
    (hw : m'.deferred ++ queue <:+ m.deferred ++ input.order?.toList)
    (hp : ∀ link id topic payload delivery,
      .publish link id topic payload delivery ∉ lasting es) :
    m.Retains orders input m' es queue where
  waits := hw
  link h := absurd h hs
  subscribes h := absurd h hs
  answers h := absurd h hs
  publishes link id topic payload delivery hmem :=
    absurd (List.mem_filter.2 ⟨hmem, rfl⟩) (hp link id topic payload delivery)

/-- A manager that starts nothing, and tells only who wanted to have a connection or to publish. -/
theorem of_silent (hw : m'.deferred ++ queue <:+ m.deferred ++ input.order?.toList)
    (hl : m'.state = .connected → m.state = .connected ∧ m'.link = m.link ∨ m.Attempting)
    (hes : lasting es = [])
    (ha : ∀ ticket result, .answer ticket result ∈ es → ∃ o ∈ orders, o.ticket = ticket ∧
      (o.command.isEntry = true ∧ result = .ok () ∨ o.command.isPublish = true)) :
    m.Retains orders input m' es queue := by
  have silent (e : Effect) (he : e ∈ es) : e.isLasting ≠ true := by
    intro hlasting
    have hmem : e ∈ lasting es := List.mem_filter.2 ⟨he, hlasting⟩
    rw [hes] at hmem
    cases hmem
  refine { waits := hw, link := hl, subscribes := ?_, answers := fun _ => ha, publishes := ?_ }
  · intro _ link filter qos ticket hmem
    exact absurd rfl (silent _ hmem)
  · intro link id topic payload delivery hmem
    exact absurd rfl (silent _ hmem)

/-- **What an input leads to by itself.** -/
theorem opening {returned : Option Effect} (ht : m.Tended (before ++ returned.toList ++ after))
    (he : input.Ends returned) (hp : m.Purpose orders) (ho : m.Ordered orders)
    (hopen : Opening m input m' es queue) : m.Retains orders input m' es queue := by
  -- a manager that stays as it is tells at most the one whose message has come back
  have same (hs : m'.state = m.state) (hl : m'.link = m.link)
      (hw : m'.deferred ++ queue <:+ m.deferred ++ input.order?.toList) (hes : lasting es = [])
      (ha : ∀ ticket result, .answer ticket result ∈ es →
        ∃ id, m.inFlight.lookup id = some ticket) : m.Retains orders input m' es queue := by
    refine of_silent hw (fun h => .inl ⟨hs ▸ h, hl⟩) hes ?_
    intro ticket result hmem
    obtain ⟨id, hlookup⟩ := ha ticket result hmem
    obtain ⟨o, hmem', hticket, hpub⟩ := ho.inFlight (id, ticket) (Table.mem_of_lookup hlookup)
    exact ⟨o, hmem', hticket, .inr hpub⟩
  cases hopen with
  | order o => exact same rfl rfl (List.suffix_refl _) rfl (by simp)
  | established link =>
    obtain ⟨p, rfl⟩ := he.of_dialled
    have hst := (ht.cons_of_some.only rfl).1
    refine of_silent (by simp [Input.order?]) (fun _ => .inr ⟨_, _, hst⟩)
      (by simp [Effect.isLasting]) ?_
    intro ticket result hmem
    -- the one who is answered is the one who wanted to have the connection
    obtain ⟨o, hmem', hw, hentry⟩ := hp.entry hst
    rw [answering, hw] at hmem
    obtain ⟨rfl, rfl⟩ : ticket = o.ticket ∧ result = .ok () := by
      unfold entering at hmem
      split at hmem <;> simpa using hmem
    exact ⟨o, hmem', rfl, .inl ⟨hentry, rfl⟩⟩
  | refused | tornDown | closed | failed =>
    exact of_disconnected (by simp [settled]) (by simp [settled, Input.order?])
      (by simp [Effect.isLasting])
  | stranded hr =>
    have hi : input.order? = none := by cases hr <;> rfl
    exact of_disconnected (by simp [settled]) (by simp [settled, hi])
      (by simp [(release_silent hr).2.2])
  | rotated p hr =>
    have hrot : m.Rotating := by cases hr <;> assumption
    have hi : input.order? = none := by cases hr <;> rfl
    exact of_disconnected (by simp [redialled, hrot.1]) (by simp [redialled, hi])
      (by simp [(release_silent hr).2.2])
  | acknowledged id ticket hl | undelivered id error ticket hl =>
    refine same rfl rfl (by simp [Input.order?]) (by simp [Effect.isLasting]) ?_
    intro ticket' result hmem
    obtain ⟨rfl, -⟩ : ticket' = ticket ∧ _ := by simpa using hmem
    exact ⟨id, hl⟩
  | abandoned | lapsed | message =>
    exact same rfl rfl (by simp [Input.order?]) (by simp [Effect.isLasting]) (by simp)
  | ignored hig =>
    have hi : input.order? = none := by
      cases input <;> first | rfl | exact absurd hig id
    exact same rfl rfl (by simp [hi]) rfl (by simp)
  | shutDown =>
    exact of_disconnected (by simp) (by simp) (by simp [(goodbye m.deferred).2])

/-- **The taking of an order.** -/
theorem taking {now : Millis} {o : Order} {m₁ : Manager} {es' : List Effect}
    (h : m.Retains orders input m₁ es (o :: queue))
    (hsub : ∀ o ∈ m.deferred ++ input.order?.toList, o ∈ orders) (ht : m₁.Tended tasks)
    (htake : Taking now m₁ o m' es') : m.Retains orders input m' (es ++ es') queue := by
  have hmem : o ∈ m.deferred ++ input.order?.toList := h.waits.subset (by simp)
  refine { waits := ?_, link := ?_, subscribes := ?_, answers := ?_, publishes := ?_ }
  · exact (htake.waits ht.standing).trans h.waits
  · intro hs
    obtain ⟨hs₁, hl⟩ := htake.connected hs
    rw [hl]
    exact h.link hs₁
  · intro hs link filter qos ticket he
    obtain ⟨hs₁, hl⟩ := htake.connected hs
    rcases List.mem_append.1 he with hold | hnew
    · rw [hl]
      exact h.subscribes hs₁ link filter qos ticket hold
    · exact htake.subscribes hnew
  · intro hs ticket result he
    rcases List.mem_append.1 he with hold | hnew
    · exact h.answers (htake.connected hs).1 ticket result hold
    · obtain ⟨hticket, hentry, hok⟩ := htake.answers ht.standing hs hnew
      exact ⟨o, hsub o hmem, hticket, .inl ⟨hentry, hok⟩⟩
  · intro link id topic payload delivery he
    rcases List.mem_append.1 he with hold | hnew
    · exact h.publishes link id topic payload delivery hold
    · obtain ⟨hpub, hs₁, hl₁⟩ := htake.publishes hnew
      exact ⟨⟨o, hmem, hpub⟩, (h.link hs₁).imp_left fun ⟨hs, hl⟩ => ⟨hs, hl ▸ hl₁⟩⟩

end Retains

/-- **What a step makes of a connection.** -/
theorem Tended.retains (now : Millis) {input : Input} {returned : Option Effect}
    (ht : m.Tended (before ++ returned.toList ++ after)) (he : input.Ends returned)
    (hp : m.Purpose orders) (ho : m.Ordered orders)
    (hin : ∀ o, input.order? = some o → o ∈ orders) :
    m.Retains orders input (m.step now input).manager (m.step now input).effects [] := by
  have hsub : ∀ o ∈ m.deferred ++ input.order?.toList, o ∈ orders := by
    intro o hmem
    rcases List.mem_append.1 hmem with hold | hnew
    · exact ho.deferred o hold
    · exact hin o (Option.mem_toList.1 hnew)
  cases hi : input.isShutDown with
  | false =>
    exact ht.step_induction now he hi
      (P := fun m' es queue => m.Retains orders input m' es queue)
      (fun m' es queue hopen => .opening ht he hp ho hopen)
      fun m₁ es o queue m₂ es' ht₁ h₁ htake => h₁.taking hsub ht₁ htake
  | true =>
    -- the last step takes no orders
    have key := m.step_induction now input
      (P := fun m' es queue => m.Retains orders input m' es queue ∧ queue = [])
      (fun m' es queue hopen => ⟨.opening ht he hp ho hopen, by
        cases hopen with
        | shutDown | ignored => rfl
        | rotated p hr | stranded hr => cases hr <;> cases hi
        | _ => cases hi⟩)
      fun m₁ es o queue m₂ es' h₁ _ => by cases h₁.2
    exact key.1

end Manager

/-! ## Courses -/

namespace Course
variable {c c' : Course}

/-- What the broker has answered: a subscription, or the end of one. -/
def Replied (c : Course) (ticket : Ticket) (result : Except Failure Unit) (c' : Course) : Prop :=
  (∃ link filter qos, .subscribe link filter qos ticket ∈ c.outstanding ∧
    (result = .ok () → (link, filter) ∈ c'.granted)) ∨
  ∃ link filter, .unsubscribe link filter ticket ∈ c.outstanding

/-- **What a step of a course makes of the connection,** where `new` are the orders that it takes
and `es` is what it adds to the record. -/
structure Continues (c : Course) (new : List Order) (es : List Effect) (c' : Course) : Prop where
  orders : c'.orders = c.orders ++ new
  record : c'.record = c.record ++ es
  granted : c.granted ⊆ c'.granted
  waits : c'.manager.deferred <:+ c.manager.deferred ++ new
  link : c'.manager.state = .connected →
    c.manager.state = .connected ∧ c'.manager.link = c.manager.link ∨
      c.stopped = false ∧ c.manager.Attempting
  subscribes : c'.manager.state = .connected → ∀ link filter qos ticket,
    .subscribe link filter qos ticket ∈ c'.outstanding →
      .subscribe link filter qos ticket ∈ c.outstanding ∨ c'.manager.link = some link
  /-- If there is a connection afterwards, then only one who wanted to have one or to publish has
  been told something, or else the broker has answered. -/
  answers : c'.manager.state = .connected → ∀ ticket result, .answer ticket result ∈ es →
    (∃ o ∈ c'.orders, o.ticket = ticket ∧
      (o.command.isEntry = true ∧ result = .ok () ∨ o.command.isPublish = true)) ∨
    c'.manager = c.manager ∧ c.Replied ticket result c'
  publishes : ∀ link id topic payload delivery, .publish link id topic payload delivery ∈ es →
    (∃ o ∈ c.manager.deferred ++ new, o.command.isPublish = true) ∧
      (c.manager.state = .connected ∧ c.manager.link = some link ∨
        c.stopped = false ∧ c.manager.Attempting)

/-- A step in which the manager does nothing. -/
theorem Continues.of_same {es : List Effect} (hm : c'.manager = c.manager)
    (ho : c'.orders = c.orders) (hr : c'.record = c.record ++ es) (hg : c.granted ⊆ c'.granted)
    (hout : c'.outstanding ⊆ c.outstanding)
    (hp : ∀ link id topic payload delivery, .publish link id topic payload delivery ∉ es)
    (ha : ∀ ticket result, .answer ticket result ∈ es → c.Replied ticket result c') :
    c.Continues [] es c' where
  orders := by rw [ho, List.append_nil]
  record := hr
  granted := hg
  waits := by simp [hm]
  link hs := .inl ⟨hm ▸ hs, by rw [hm]⟩
  subscribes _ _ _ _ _ hmem := .inl (hout hmem)
  answers _ ticket result hmem := .inr ⟨hm, ha ticket result hmem⟩
  publishes link id topic payload delivery hmem := absurd hmem (hp link id topic payload delivery)

/-- **Every step of a course** goes on like this. -/
theorem continues (h : Reachable c) (hs : Step c c') : ∃ new es, c.Continues new es c' := by
  have fewer {e : Effect} {before after : List Effect}
      (split : c.outstanding = before ++ e :: after) : before ++ after ⊆ c.outstanding := by
    rw [split]
    exact ((List.Sublist.refl _).append (List.sublist_cons_self _ _)).subset
  cases hs with
  | takes now input e before after running ends admits split =>
    have ht := tended h running
    rw [split] at ht
    have hsub : c.orders ⊆ c.orders ++ input.order?.toList := List.subset_append_left _ _
    have hr := ht.retains now ends ((purpose h running).mono hsub) ((origin h).1.mono hsub)
      fun o ho => List.mem_append_right _ (by simp [ho])
    refine ⟨input.order?.toList, (c.manager.step now input).effects,
      { orders := orders_follow now input _
        record := rfl
        granted := List.Subset.refl _
        waits := by simpa [follow] using hr.waits
        link := fun hs => (hr.link hs).imp_right fun ha => ⟨running, ha⟩
        subscribes := ?_
        answers := ?_
        publishes := ?_ }⟩
    · intro hs link filter qos ticket hmem
      rcases List.mem_append.1 hmem with hold | hnew
      · left
        rw [split]
        rcases List.mem_append.1 hold with hb | ha
        · exact List.mem_append_left _ (List.mem_append_left _ hb)
        · exact List.mem_append_right _ ha
      · exact .inr (hr.subscribes hs link filter qos ticket (List.mem_filter.1 hnew).1)
    · intro hs ticket result hmem
      left
      rw [orders_follow]
      exact hr.answers hs ticket result hmem
    · intro link id topic payload delivery hmem
      obtain ⟨hpub, hlink⟩ := hr.publishes link id topic payload delivery hmem
      exact ⟨hpub, hlink.imp_right fun ha => ⟨running, ha⟩⟩
  | subscribed link filter qos ticket result before after split =>
    refine ⟨[], _, .of_same rfl rfl rfl ?_ (fewer split) (by simp) ?_⟩
    · cases result <;> simp [grants]
    · intro ticket' result' hmem
      obtain ⟨rfl, rfl⟩ : ticket' = ticket ∧ result' = _ := by simpa using hmem
      refine .inl ⟨link, filter, qos, by rw [split]; simp, ?_⟩
      intro hok
      cases result with
      | ok _ => exact List.mem_append_right _ (List.mem_singleton.2 rfl)
      | error error => cases hok
  | unsubscribed link filter ticket result before after split =>
    refine ⟨[], _, .of_same rfl rfl rfl (List.Subset.refl _) (fewer split) (by simp) ?_⟩
    intro ticket' result' hmem
    obtain ⟨rfl, -⟩ : ticket' = ticket ∧ _ := by simpa using hmem
    exact .inr ⟨link, filter, by rw [split]; simp⟩
  | late e before after stopped silent split =>
    exact ⟨[], [], .of_same rfl rfl (List.append_nil _).symm (List.Subset.refl _) (fewer split)
      (by simp) (by simp)⟩

end Course

end DeviceProvisioning.Connection
