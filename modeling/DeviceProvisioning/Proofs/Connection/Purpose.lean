import DeviceProvisioning.Proofs.Connection.Origin

/-!
# What a manager changes for

Whoever waits for a change has ordered it, and the state says what the order was: a manager that
connects was told to connect, one that disconnects was told to disconnect, and one that reconnects
was given a credential, which is that of its parameters by now (`Manager.Purpose`).

So the credential of an attempt comes from an order, except for one place.  A credential that the
manager was given while it was disconnected is stored, and takes the place of that of the next
order to connect.  `Manager.dials` says so: if the orders that wait and the parameters of a rotation
carry one credential, then every attempt of the step carries it, or the one that is in store.
-/

namespace DeviceProvisioning.Connection

open Time (Millis)

/-- Whether a command enters a connection. -/
def Command.isEntry : Command → Bool
  | connect _ | updateCredential _ => true
  | disconnect | publish .. | subscribe .. | unsubscribe _ => false

/-- Whether a command asks for this credential, if it asks for any. -/
def Command.Carries (credential : Credential) : Command → Prop
  | connect p => p.credential = some credential
  | updateCredential c => c = credential
  | disconnect | publish .. | subscribe .. | unsubscribe _ => True

namespace Manager

/-- **What the change under way is for**: the order of the one who waits. -/
def Purpose (orders : List Order) (m : Manager) : Prop :=
  ∀ ticket, m.waiter = some ticket →
    match m.state with
    | .connecting => ∃ p, ⟨ticket, .connect p⟩ ∈ orders
    | .disconnecting => ⟨ticket, .disconnect⟩ ∈ orders
    | .reconnecting => ∃ credential p, ⟨ticket, .updateCredential credential⟩ ∈ orders ∧
      m.parameters = some p ∧ p.credential = some credential
    | .connected | .disconnected => True

variable {m m' : Manager} {es tasks before after : List Effect} {orders : List Order}

/-! ## Steps -/

theorem Purpose.mono {orders' : List Order} (h : m.Purpose orders) (ho : orders ⊆ orders') :
    m.Purpose orders' := by
  intro ticket hw
  have hold := h ticket hw
  cases hs : m.state <;> simp only [hs] at hold ⊢
  case connecting =>
    obtain ⟨p, hmem⟩ := hold
    exact ⟨p, ho hmem⟩
  case disconnecting => exact ho hold
  case reconnecting =>
    obtain ⟨credential, p, hmem, hp⟩ := hold
    exact ⟨credential, p, ho hmem, hp⟩

/-- **What an input leads to by itself** gives nobody another purpose. -/
theorem Purpose.opening {input : Input} {queue : List Order} (h : m.Purpose orders)
    (ho : Opening m input m' es queue) : m'.Purpose orders := by
  cases ho with
  | order | abandoned | lapsed | acknowledged | undelivered | message | ignored => exact h
  | established | refused | tornDown | stranded | closed | failed | shutDown => exact nofun
  | rotated p hr hp =>
    -- the parameters are what they were
    intro ticket hw
    have hold := h ticket hw
    rw [hp] at hold
    exact hold

/-- **The taking of an order** serves this order. -/
theorem Purpose.taking {now : Millis} {o : Order} (h : m.Purpose orders) (hmem : o ∈ orders)
    (ht : m.Tended tasks) (htake : Taking now m o m' es) : m'.Purpose orders := by
  obtain ⟨k, command⟩ := o
  cases htake with
  | deferred | stored | closedAlready | refused | unlinked | openAlready | publishing | subscribing
  | unsubscribing => exact h
  | connecting p hs hc =>
    intro ticket hw
    obtain rfl : k = ticket := Option.some.inj hw
    obtain rfl : command = .connect p := hc
    exact ⟨p, hmem⟩
  | disconnecting link hs hl hc =>
    intro ticket hw
    obtain rfl : k = ticket := Option.some.inj hw
    obtain rfl : command = .disconnect := hc
    exact hmem
  | rotating link credential hs hl hc =>
    intro ticket hw
    obtain ⟨p, hp⟩ := ht.standing.parameters_of_connected hs
    obtain rfl : k = ticket := Option.some.inj hw
    obtain rfl : command = .updateCredential credential := hc
    exact ⟨credential, { p with credential := some credential }, hmem, by simp [renewed, hp], rfl⟩

/-- **A step serves orders that were given.** -/
theorem Tended.purpose_step (now : Millis) {input : Input} {returned : Option Effect}
    (ht : m.Tended (before ++ returned.toList ++ after)) (he : input.Ends returned)
    (hi : input.isShutDown = false) (h : m.Purpose orders) (hord : m.Ordered orders)
    (hin : ∀ o, input.order? = some o → o ∈ orders) :
    (m.step now input).manager.Purpose orders := by
  have key := ht.step_induction now he hi
    (P := fun m' _ queue => m'.Purpose orders ∧ ∀ o ∈ queue, o ∈ orders)
    (fun m' es queue ho => ⟨h.opening ho, (hord.opening hin ho).2⟩)
    fun m₁ es o queue m₂ es' ht₁ h₁ htake =>
      ⟨h₁.1.taking (h₁.2 o List.mem_cons_self) ht₁ htake,
        fun o' ho' => h₁.2 o' (List.mem_cons_of_mem _ ho')⟩
  exact key.1

/-! ## What a manager is asked for -/

/-- A manager that waits for an attempt serves an order that enters a connection. -/
theorem Purpose.entry (h : m.Purpose orders) {generation : Nat} {p : Parameters}
    (hst : m.Standing [.dial generation p]) :
    ∃ o ∈ orders, m.waiter = some o.ticket ∧ o.command.isEntry = true := by
  cases hst with
  | connecting ticket p hs hl hw =>
    have hold := h ticket hw
    simp only [hs] at hold
    obtain ⟨p, hmem⟩ := hold
    exact ⟨_, hmem, hw, rfl⟩
  | dialling ticket p hs hl hw =>
    have hold := h ticket hw
    simp only [hs] at hold
    obtain ⟨credential, p, hmem, -⟩ := hold
    exact ⟨_, hmem, hw, rfl⟩

/-- A rotation is for a credential that was ordered, and its parameters have it. -/
theorem Purpose.rotation (h : m.Purpose orders) {awaited : List Effect} (hst : m.Standing awaited)
    (hr : m.Rotating) :
    ∃ ticket credential, m.waiter = some ticket ∧ ⟨ticket, .updateCredential credential⟩ ∈ orders ∧
      ∀ p, m.parameters = some p → p.credential = some credential := by
  obtain ⟨ticket, -, p, hw, hp, -⟩ := hst.of_rotating hr
  have hold := h ticket hw
  simp only [hr.1] at hold
  obtain ⟨credential, p', hmem, hp', hc⟩ := hold
  refine ⟨ticket, credential, hw, hmem, fun p'' hp'' => ?_⟩
  obtain rfl : p'' = p' := Option.some.inj (hp''.symm.trans hp')
  exact hc

/-! ## The credential of an attempt -/

/-- **The orders that wait carry a credential**, and so does what is stored, unless it was stored
before. -/
structure Carrying (credential : Credential) (before : Option Credential) (m : Manager)
    (queue : List Order) : Prop where
  ordered : ∀ o ∈ m.deferred ++ queue, o.command.Carries credential
  stored : ∀ c, m.storedCredential = some c → c = credential ∨ before = some c

variable {credential : Credential} {stored : Option Credential} {queue : List Order}

/-- Orders that were put off are taken up, and nothing else is stored. -/
theorem Carrying.opening {input : Input} (h : m.Carrying credential stored input.order?.toList)
    (ho : Opening m input m' es queue) : m'.Carrying credential stored queue := by
  have hold : ∀ o ∈ m.deferred, o.command.Carries credential := fun o hmem =>
    h.ordered o (List.mem_append_left _ hmem)
  cases ho with
  | order o => exact h
  | established | refused | tornDown | stranded | closed | failed =>
    exact ⟨hold, h.stored⟩
  | abandoned | lapsed | acknowledged | undelivered | message | rotated | ignored =>
    refine ⟨fun o hmem => hold o ?_, h.stored⟩
    rw [List.append_nil] at hmem
    exact hmem
  | shutDown => exact ⟨fun o hmem => absurd hmem List.not_mem_nil, h.stored⟩

/-- A credential that is stored now has been ordered. -/
theorem Carrying.taking {now : Millis} {o : Order}
    (h : m.Carrying credential stored (o :: queue)) (ht : Taking now m o m' es) :
    m'.Carrying credential stored queue := by
  have hfewer : ∀ o' ∈ m.deferred ++ queue, o'.command.Carries credential := fun o' hmem => by
    rcases List.mem_append.1 hmem with hold | hnew
    · exact h.ordered o' (List.mem_append_left _ hold)
    · exact h.ordered o' (List.mem_append_right _ (List.mem_cons_of_mem _ hnew))
  have ho : o.command.Carries credential :=
    h.ordered o (List.mem_append_right _ List.mem_cons_self)
  have hnew (c : Credential) (hc : o.command = .updateCredential c) (c' : Credential)
      (hc' : some c = some c') : c' = credential ∨ stored = some c' := by
    rw [hc] at ho
    exact .inl ((Option.some.inj hc').symm.trans ho)
  cases ht with
  | deferred htr => exact ⟨by simpa using h.ordered, h.stored⟩
  | connecting p hs hc => exact ⟨hfewer, nofun⟩
  | stored c hs hc => exact ⟨hfewer, hnew c hc⟩
  | rotating link c hs hl hc =>
    unfold renewed
    cases hp : m.parameters with
    | some p => exact ⟨hfewer, h.stored⟩
    | none => exact ⟨hfewer, hnew c hc⟩
  | closedAlready | refused | unlinked | openAlready | disconnecting | publishing | subscribing
  | unsubscribing => exact ⟨hfewer, h.stored⟩

/-- **Every attempt of a step carries the credential** that is asked for, or the one in store. -/
theorem dials (now : Millis) {input : Input}
    (hordered : ∀ o ∈ m.deferred ++ input.order?.toList, o.command.Carries credential)
    (hrot : m.Rotating → ∀ p, m.parameters = some p → p.credential = some credential)
    {generation : Nat} {p : Parameters}
    (hmem : .dial generation p ∈ lasting (m.step now input).effects) :
    p.credential = some credential ∨
      ∃ c, m.storedCredential = some c ∧ p.credential = some c := by
  have key := m.step_induction now input
    (P := fun m' es queue => m'.Carrying credential m.storedCredential queue ∧
      ∀ generation p, .dial generation p ∈ lasting es → p.credential = some credential ∨
        ∃ c, m.storedCredential = some c ∧ p.credential = some c)
    (fun m' es queue ho =>
      ⟨Carrying.opening ⟨hordered, fun c hc => .inr hc⟩ ho, fun generation p hmem => ?_⟩) ?_
  · exact key.2 generation p hmem
  · -- by itself a manager only dials again when it rotates
    cases ho with
    | rotated p' hr hp =>
      rw [show lasting _ = [.dial (m.generation + 1) p'] by cases hr <;> simp] at hmem
      obtain ⟨-, rfl⟩ : _ ∧ p = p' := by simpa using hmem
      exact .inl (hrot (by cases hr <;> assumption) _ hp)
    | stranded hr hp =>
      rw [show lasting _ = [] by cases hr <;> simp] at hmem
      cases hmem
    | shutDown => simp [(goodbye m.deferred).2] at hmem
    | order | established | refused | abandoned | tornDown | lapsed | acknowledged | undelivered
    | message | closed | failed | ignored => simp [Effect.isLasting] at hmem
  · rintro m₁ es o queue m₂ es' ⟨hcarry, hdial⟩ ht
    refine ⟨hcarry.taking ht, fun generation p hmem => ?_⟩
    rw [lasting_append] at hmem
    rcases List.mem_append.1 hmem with hold | hnew
    · exact hdial generation p hold
    · have ho := hcarry.ordered o (List.mem_append_right _ List.mem_cons_self)
      cases ht with
      | connecting p' hs hc =>
        obtain ⟨-, rfl⟩ : _ ∧ p = m₁.prepared p' := by simpa [Effect.isLasting] using hnew
        rw [hc] at ho
        unfold prepared
        cases hst : m₁.storedCredential with
        | some c =>
          exact (hcarry.stored c hst).imp (fun heq => by rw [heq]) fun hb => ⟨c, hb, rfl⟩
        | none => exact .inl ho
      | _ => simp [Effect.isLasting] at hnew

end Manager

/-! ## Courses -/

namespace Course
variable {c : Course}

/-- **A manager that runs changes for what it was told.** -/
theorem purpose (h : Reachable c) (running : c.stopped = false) :
    c.manager.Purpose c.orders := by
  refine running_induction (P := fun c => c.manager.Purpose c.orders) ?_ ?_ ?_ h running
  · exact fun _ _ => nofun
  · intro c input e before after now hr hrun ih ends _ split hi
    have ht := split ▸ tended hr hrun
    rw [orders_follow]
    have hsub : c.orders ⊆ c.orders ++ input.order?.toList := List.subset_append_left _ _
    refine ht.purpose_step now ends hi (ih.mono hsub) ((origin hr).1.mono hsub) ?_
    exact fun o ho => List.mem_append_right _ (by simp [ho])
  · exact fun _ _ _ ih _ _ => ih

end Course

end DeviceProvisioning.Connection
