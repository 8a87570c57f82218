import DeviceProvisioning.Proofs.Connection.Origin

/-!
# Which parameters an attempt is made with

A manager is given parameters by orders to connect, and they are checked before the order is given.
But an attempt may be made with others.  A credential that is in store takes the place of theirs,
and a rotation replaces it as well.  So the parameters of an attempt are those of an order to
connect, with the credential of some update in them or with their own (`Parameters.Derived`).

An update is checked too, but only for a blank signature.  Nothing keeps a certificate without a
key from being stored or rotated to, although an order to connect with it would be refused.  This
is the only way in which parameters that do not pass their check come to be dialled
(`Course.dialled_parameters_valid`).
-/

namespace DeviceProvisioning.Connection

open Time (Millis)

/-- A certificate that lacks its text or its key. -/
def Credential.Incomplete : Credential → Prop
  | signature _ => False
  | certificate c => c.certificate = [] ∨ c.key = []

instance : DecidablePred Credential.Incomplete
  | .signature _ => inferInstanceAs (Decidable False)
  | .certificate c => inferInstanceAs (Decidable (c.certificate = [] ∨ c.key = []))

/-- What callers learn of a certificate that lacks a part. -/
def incompleteCertificate : Failure :=
  .argument "client certificate and private key must not be empty"

/-! ## Checks -/

namespace Parameters

/-- What is missing from the parameters, the credential apart. -/
def checkUncredentialed (p : Parameters) : Except Failure Unit := do
  if Text.allBlank p.uri then throw (.argument "uri is required")
  let _ ← Address.ofUri p.uri
  if Text.allBlank p.clientId then throw (.argument "client id is required")
  if Text.allBlank p.username then throw (.argument "username is required")

/-- The credential is checked last, and by itself. -/
theorem check_eq (p : Parameters) :
    p.check = p.checkUncredentialed.bind fun _ => checkCredential p.credential := by
  unfold check checkUncredentialed
  cases Text.allBlank p.uri <;> cases Address.ofUri p.uri <;> cases Text.allBlank p.clientId <;>
    cases Text.allBlank p.username <;> rfl

/-- **Parameters that come from orders**: those of an order to connect, and any such parameters with
the credential of an update. -/
inductive Derived (orders : List Order) : Parameters → Prop where
  | ordered {ticket : Ticket} {p : Parameters} (h : ⟨ticket, .connect p⟩ ∈ orders) :
    Derived orders p
  | renewed {ticket : Ticket} {p : Parameters} {credential : Credential} (h : Derived orders p)
      (hu : ⟨ticket, .updateCredential credential⟩ ∈ orders) :
    Derived orders { p with credential := some credential }

theorem Derived.mono {orders orders' : List Order} {p : Parameters} (h : p.Derived orders)
    (ho : orders ⊆ orders') : p.Derived orders' := by
  induction h with
  | ordered h => exact .ordered (ho h)
  | renewed _ hu ih => exact ih.renewed (ho hu)

end Parameters

/-- What a credential that passes for an update comes to among parameters. -/
theorem checkCredential_some {credential : Credential}
    (h : checkSignature credential = .ok ()) :
    Parameters.checkCredential (some credential)
      = if credential.Incomplete then .error incompleteCertificate else .ok () := by
  cases credential with
  | signature text => exact h
  | certificate c => rfl

/-- Orders whose callers were not told at once that something is wrong. -/
def Accepted (orders : List Order) : Prop :=
  ∀ o ∈ orders, o.command.check = .ok ()

/-- A credential that some update brings. -/
def Renews (orders : List Order) (credential : Credential) : Prop :=
  ∃ ticket, ⟨ticket, .updateCredential credential⟩ ∈ orders

namespace Parameters.Derived
variable {orders : List Order} {p : Parameters}

/-- What an update replaces is not looked at by the rest of the check. -/
theorem checkUncredentialed_eq (h : p.Derived orders) (accepted : Accepted orders) :
    p.checkUncredentialed = .ok () := by
  induction h with
  | @ordered ticket p h =>
    have hcheck : p.check = .ok () := accepted _ h
    rw [Parameters.check_eq] at hcheck
    cases hp : p.checkUncredentialed with
    | ok _ => rfl
    | error why => rw [hp] at hcheck; cases hcheck
  | renewed _ _ ih => exact ih

/-- Whatever credential is put in, nothing else is missing. -/
theorem check_eq (h : p.Derived orders) (accepted : Accepted orders) :
    p.check = checkCredential p.credential := by
  rw [Parameters.check_eq, h.checkUncredentialed_eq accepted]
  rfl

/-- **Parameters that come from accepted orders are valid**, unless an update has put an incomplete
certificate into them. -/
theorem check_or (h : p.Derived orders) (accepted : Accepted orders) :
    p.check = .ok () ∨ p.check = .error incompleteCertificate ∧
      ∃ credential, p.credential = some credential ∧ credential.Incomplete ∧
        Renews orders credential := by
  cases h with
  | ordered h => exact .inl (accepted _ h)
  | @renewed ticket p credential hp hu =>
    have hcheck := (hp.renewed hu).check_eq accepted
    rw [checkCredential_some (accepted _ hu)] at hcheck
    by_cases hincomplete : credential.Incomplete
    · rw [if_pos hincomplete] at hcheck
      exact .inr ⟨hcheck, credential, rfl, hincomplete, ticket, hu⟩
    · rw [if_neg hincomplete] at hcheck
      exact .inl hcheck

end Parameters.Derived

/-! ## Steps -/

namespace Manager

/-- **What a manager dials with comes from orders**: the parameters that it has, and those of every
attempt. -/
structure Derives (orders : List Order) (m : Manager) (es : List Effect) : Prop where
  parameters : ∀ p, m.parameters = some p → p.Derived orders
  attempts : ∀ generation p, .dial generation p ∈ es → p.Derived orders

variable {m m' : Manager} {es es' : List Effect} {orders : List Order}

/-- A manager that keeps its parameters makes no attempt with any others. -/
theorem Derives.calm (h : m.Derives orders es) (hp : m'.parameters = m.parameters)
    (hes : ∀ generation p, .dial generation p ∉ lasting es') : m'.Derives orders (es ++ es') where
  parameters p hp' := h.parameters p (hp ▸ hp')
  attempts generation p hmem := by
    rcases List.mem_append.1 hmem with hold | hnew
    · exact h.attempts generation p hold
    · exact absurd (List.mem_filter.2 ⟨hnew, rfl⟩) (hes generation p)

/-- **What an input leads to by itself** is at most an attempt with the parameters there are. -/
theorem Derives.opening {input : Input} {queue : List Order} (h : m.Derives orders [])
    (ho : Opening m input m' es queue) : m'.Derives orders es := by
  rw [← List.nil_append es]
  cases ho with
  | order | abandoned | lapsed | acknowledged | undelivered | message | ignored | established
  | refused | tornDown | closed | failed => exact h.calm rfl (by simp [Effect.isLasting])
  | stranded hr => exact h.calm rfl (by simp [(release_silent hr).2.2])
  | shutDown => exact h.calm rfl (by simp [(goodbye m.deferred).2])
  | rotated p hr hp =>
    constructor
    · intro p' hp'
      obtain rfl : p = p' := Option.some.inj hp'
      exact h.parameters p hp
    · intro generation p' hmem
      have hdial : .dial generation p' ∈ lasting _ := List.mem_filter.2 ⟨hmem, rfl⟩
      obtain ⟨-, rfl⟩ : _ ∧ p' = p := by simpa [(release_silent hr).2.2] using hdial
      exact h.parameters p' hp

/-- **The taking of an order** derives parameters from it, and from the credential in store. -/
theorem Derives.taking {now : Millis} {o : Order} (h : m.Derives orders es)
    (hordered : m.Ordered orders) (hmem : o ∈ orders) (ht : Taking now m o m' es') :
    m'.Derives orders (es ++ es') := by
  obtain ⟨ticket, command⟩ := o
  cases ht with
  | deferred | closedAlready | stored | refused | unlinked | openAlready | disconnecting | publishing
  | subscribing | unsubscribing => exact h.calm rfl (by simp [Effect.isLasting])
  | connecting p hs hc =>
    obtain rfl : command = .connect p := hc
    have hprepared : (m.prepared p).Derived orders := by
      unfold prepared
      cases hstored : m.storedCredential with
      | none => exact .ordered hmem
      | some credential =>
        obtain ⟨⟨ticket', command⟩, hmem', rfl⟩ := hordered.stored credential hstored
        exact (Parameters.Derived.ordered hmem).renewed hmem'
    constructor
    · intro p' hp'
      obtain rfl : m.prepared p = p' := Option.some.inj hp'
      exact hprepared
    · intro generation p' hdial
      rcases List.mem_append.1 hdial with hold | hnew
      · exact h.attempts generation p' hold
      · obtain ⟨-, rfl⟩ : _ ∧ p' = m.prepared p := by simpa [attempting] using hnew
        exact hprepared
  | rotating link credential hs hl hc =>
    obtain rfl : command = .updateCredential credential := hc
    constructor
    · intro p' hp'
      have hp' : (m.renewed credential).parameters = some p' := hp'
      unfold renewed at hp'
      cases hp : m.parameters with
      | none =>
        rw [hp] at hp'
        exact h.parameters p' (hp'.symm ▸ hp)
      | some p =>
        rw [hp] at hp'
        obtain rfl := Option.some.inj hp'
        exact (h.parameters p hp).renewed hmem
    · intro generation p' hdial
      exact h.attempts generation p' (by simpa using hdial)

/-- **A step dials with parameters that come from orders.** -/
theorem Derives.step (now : Millis) (input : Input) (h : m.Derives orders [])
    (hordered : m.Ordered orders) (hi : ∀ o, input.order? = some o → o ∈ orders) :
    (m.step now input).manager.Derives orders (m.step now input).effects := by
  have key := m.step_induction now input
    (P := fun m' es queue =>
      m'.Ordered orders ∧ (∀ o ∈ queue, o ∈ orders) ∧ m'.Derives orders es)
    (fun m' es queue ho => ?_) fun m₁ es o queue m₂ es' h₁ ht => ?_
  · exact key.2.2
  · obtain ⟨hm, hq⟩ := hordered.opening hi ho
    exact ⟨hm, hq, h.opening ho⟩
  · obtain ⟨hm, hq, hd⟩ := h₁
    have ho := hq o List.mem_cons_self
    exact ⟨(hm.taking ho ht).1, fun o' ho' => hq o' (List.mem_cons_of_mem _ ho'),
      hd.taking hm ho ht⟩

end Manager

/-! ## Courses -/

namespace Course
variable {c : Course}

/-- **In every course** the manager dials with parameters that come from the orders it has taken. -/
theorem derives (h : Reachable c) : c.manager.Derives c.orders c.record := by
  induction h with
  | start patience ids => exact ⟨nofun, nofun⟩
  | @step c c' hr hs ih =>
    have hmore (e : Effect) (he : e.isLasting = false) :
        c.manager.Derives c.orders (c.record ++ [e]) := ih.calm rfl (by simp [he])
    cases hs with
    | takes now input e before after running ends admits split =>
      rw [orders_follow]
      have hsub : c.orders ⊆ c.orders ++ input.order?.toList := List.subset_append_left _ _
      have hparameters (p : Parameters) (hp : c.manager.parameters = some p) :
          p.Derived (c.orders ++ input.order?.toList) := (ih.parameters p hp).mono hsub
      have hstep := Manager.Derives.step now input ⟨hparameters, nofun⟩ ((origin hr).1.mono hsub)
        fun o ho => List.mem_append_right _ (by simp [ho])
      refine ⟨hstep.parameters, ?_⟩
      intro generation p hmem
      rcases List.mem_append.1 hmem with hold | hnew
      · exact (ih.attempts generation p hold).mono hsub
      · exact hstep.attempts generation p hnew
    | subscribed | unsubscribed => exact hmore _ rfl
    | late => exact ih

/-- **Valid parameters are dialled, or an incomplete certificate.**  When no order was given whose
caller was told that something is wrong, the parameters of every attempt are valid, whatever the
state in which it is made and whether or not it belongs to a rotation.  The one exception is that
an update has put a certificate without its text or its key into them.  Without such an update all
are valid. -/
theorem dialled_parameters_valid (h : Reachable c) (accepted : Accepted c.orders)
    {generation : Nat} {p : Parameters} (hdial : .dial generation p ∈ c.record) :
    (p.check = .ok () ∨ p.check = .error incompleteCertificate ∧
      ∃ credential, p.credential = some credential ∧ credential.Incomplete ∧
        Renews c.orders credential) ∧
    ((∀ credential, Renews c.orders credential → ¬ credential.Incomplete) → p.check = .ok ()) := by
  have hor := ((derives h).attempts generation p hdial).check_or accepted
  refine ⟨hor, ?_⟩
  intro hcomplete
  rcases hor with hvalid | ⟨-, credential, -, hincomplete, hrenews⟩
  · exact hvalid
  · exact absurd hincomplete (hcomplete credential hrenews)

/-- The parameters of a device with this credential. -/
def deviceParameters (credential : Credential) : Parameters where
  uri := "mqtt://broker"
  clientId := "device"
  username := "user"
  credential := some credential

/-- A rotation to a certificate that has all its parts. -/
theorem valid_certificate_dialled :
    ∃ c p, Reachable c ∧ Accepted c.orders ∧ .dial 2 p ∈ c.record ∧
      p.credential = some (.certificate ⟨[1], [2], none⟩) ∧ p.check = .ok () := by
  have connect := (Reachable.start 30000 .sequential).step
    (.takes 0 (.order ⟨0, .connect (deviceParameters (.signature "token"))⟩) none [] [] rfl
      (.order _) (by decide) rfl)
  have dialled := connect.step
    (.takes 0 (.completion (.dialled 1 (.ok 5))) (some _) [] [] rfl (.dialled _ _ _) (by decide)
      rfl)
  have update := dialled.step
    (.takes 0 (.order ⟨1, .updateCredential (.certificate ⟨[1], [2], none⟩)⟩) none [] [] rfl
      (.order _) (by decide) rfl)
  have closed := update.step
    (.takes 0 (.completion (.tornDown 1 (.ok ()))) (some _) [] [] rfl (.tornDown _ 5 _) (by decide)
      rfl)
  have accepted : Accepted [⟨0, .connect (deviceParameters (.signature "token"))⟩,
      ⟨1, .updateCredential (.certificate ⟨[1], [2], none⟩)⟩] := by
    simp only [Accepted, List.forall_mem_cons]
    exact ⟨rfl, rfl, nofun⟩
  have hvalid := (dialled_parameters_valid closed accepted
    (p := deviceParameters (.certificate ⟨[1], [2], none⟩)) (List.mem_of_getElem? (i := 9) rfl)).2
  refine ⟨_, _, closed, accepted, List.mem_of_getElem? (i := 9) rfl, rfl, hvalid ?_⟩
  rintro credential ⟨ticket, hmem⟩
  obtain rfl : credential = .certificate ⟨[1], [2], none⟩ := by
    rcases List.mem_cons.1 hmem with heq | hmem
    · cases heq
    · cases List.mem_singleton.1 hmem
      rfl
  decide

/-- **An incomplete certificate is dialled with.**  It is given while there is no connection, and
takes the place of the signature that the next order to connect bears. -/
theorem incomplete_certificate_dialled :
    ¬ ∀ c, Reachable c → Accepted c.orders →
      ∀ generation p, .dial generation p ∈ c.record → p.check = .ok () := by
  intro hclaim
  have update := (Reachable.start 30000 .sequential).step
    (.takes 0 (.order ⟨0, .updateCredential (.certificate ⟨[], [2], none⟩)⟩) none [] [] rfl
      (.order _) (by decide) rfl)
  have connect := update.step
    (.takes 0 (.order ⟨1, .connect (deviceParameters (.signature "token"))⟩) none [] [] rfl
      (.order _) (by decide) rfl)
  have accepted : Accepted [⟨0, .updateCredential (.certificate ⟨[], [2], none⟩)⟩,
      ⟨1, .connect (deviceParameters (.signature "token"))⟩] := by
    simp only [Accepted, List.forall_mem_cons]
    exact ⟨rfl, rfl, nofun⟩
  have hcheck := hclaim _ connect accepted 1 (deviceParameters (.certificate ⟨[], [2], none⟩))
    (List.mem_of_getElem? (i := 3) rfl)
  cases hcheck

end Course

end DeviceProvisioning.Connection
