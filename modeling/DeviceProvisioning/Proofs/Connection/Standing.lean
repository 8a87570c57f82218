import DeviceProvisioning.Proofs.Connection.Course

/-!
# How a manager stands with what it has started

A manager that is in the middle of a change waits for one completion, and everything depends on
that completion being on its way.  `Manager.Standing` lists the six points between two steps at
which a manager can be, what its fields are there, and what it waits for; `Manager.Tended` compares
this with what is outstanding:

* what belongs to the latest attempt is exactly what the manager waits for;
* a link that still closes from an earlier time bears an earlier generation;
* every message in flight is still on its way.

A step keeps this: `Tended.opening` for what comes in, and `Tended.taking` for an order.
`Course.tended` is what follows for every course.
-/

namespace DeviceProvisioning.Connection

open Time (Millis)

/-- Whether an effect is what a manager at this generation may wait for: a connection attempt, of
which there is only ever one, or the closing of its link. -/
def Effect.concerns (generation : Nat) : Effect → Bool
  | dial .. => true
  | tearDown g _ => g = generation
  | _ => false

/-- What of the outstanding effects concerns a generation. -/
def concerning (generation : Nat) (tasks : List Effect) : List Effect :=
  tasks.filter (Effect.concerns generation)

namespace Manager

/-- **The points between two steps**: the fields of a manager, and what it waits for. -/
inductive Standing (m : Manager) : List Effect → Prop where
  | disconnected (hs : m.state = .disconnected) (hl : m.link = none) (hw : m.waiter = none)
      (hp : m.phase = none) (hd : m.deadline = none) (hf : m.inFlight = [])
      (hq : m.deferred = []) : Standing m []
  | connecting (ticket : Ticket) (p : Parameters) (hs : m.state = .connecting)
      (hl : m.link = none) (hw : m.waiter = some ticket) (hp : m.phase = none)
      (hd : m.deadline = none) (hf : m.inFlight = []) (hc : m.parameters = some p) :
    Standing m [.dial m.generation p]
  | connected (link : LinkId) (p : Parameters) (hs : m.state = .connected)
      (hl : m.link = some link) (hw : m.waiter = none) (hp : m.phase = none)
      (hd : m.deadline = none) (hq : m.deferred = []) (hc : m.parameters = some p) : Standing m []
  | disconnecting (ticket : Ticket) (link : LinkId) (p : Parameters)
      (hs : m.state = .disconnecting) (hl : m.link = some link) (hw : m.waiter = some ticket)
      (hp : m.phase = none) (hd : m.deadline = none) (hc : m.parameters = some p) :
    Standing m [.tearDown m.generation link]
  | tearingDown (ticket : Ticket) (link : LinkId) (p : Parameters) (deadline : Millis)
      (hs : m.state = .reconnecting) (hl : m.link = some link) (hw : m.waiter = some ticket)
      (hp : m.phase = some .tearingDown) (hd : m.deadline = some deadline)
      (hc : m.parameters = some p) : Standing m [.tearDown m.generation link]
  | dialling (ticket : Ticket) (p : Parameters) (hs : m.state = .reconnecting)
      (hl : m.link = none) (hw : m.waiter = some ticket) (hp : m.phase = some .dialling)
      (hd : m.deadline = none) (hf : m.inFlight = []) (hc : m.parameters = some p) :
    Standing m [.dial m.generation p]

/-- **A manager that stands well with what is outstanding.** -/
structure Tended (m : Manager) (tasks : List Effect) : Prop where
  standing : m.Standing (concerning m.generation tasks)
  former : ∀ generation link, .tearDown generation link ∈ tasks → generation ≤ m.generation
  carried : ∀ p ∈ m.inFlight, p.1 ∈ messageIds tasks

variable {m : Manager} {tasks : List Effect}

/-! ## What a manager waits for -/

@[simp] theorem concerning_append (generation : Nat) (es es' : List Effect) :
    concerning generation (es ++ es') = concerning generation es ++ concerning generation es' :=
  List.filter_append ..

@[simp] theorem concerning_cons (generation : Nat) (e : Effect) (es : List Effect) :
    concerning generation (e :: es)
      = if e.concerns generation then e :: concerning generation es
        else concerning generation es :=
  List.filter_cons

@[simp] theorem concerning_nil (generation : Nat) : concerning generation [] = [] := rfl

/-- A manager waits for one thing at most. -/
theorem Standing.alone {before after : List Effect} {e : Effect}
    (h : m.Standing (before ++ e :: after)) : before = [] ∧ after = [] := by
  have hlen : (before ++ e :: after).length ≤ 1 := by
    cases hx : before ++ e :: after <;> rw [hx] at h <;> cases h <;> simp
  rw [List.length_append, List.length_cons] at hlen
  exact ⟨List.length_eq_zero_iff.1 (by omega), List.length_eq_zero_iff.1 (by omega)⟩

/-- A manager that waits for an attempt waits for its latest one. -/
theorem Standing.dial_inv {generation : Nat} {p : Parameters}
    (h : m.Standing [.dial generation p]) :
    generation = m.generation ∧ m.deadline = none ∧ m.inFlight = [] ∧ m.parameters = some p := by
  cases h with
  | connecting ticket p hs hl hw hp hd hf hc => exact ⟨rfl, hd, hf, hc⟩
  | dialling ticket p hs hl hw hp hd hf hc => exact ⟨rfl, hd, hf, hc⟩

/-- A manager that connects waits for its latest attempt. -/
theorem Standing.dial_of_connecting {awaited : List Effect} (h : m.Standing awaited)
    (hs' : m.state = .connecting) : ∃ p, awaited = [.dial m.generation p] := by
  cases h with
  | connecting ticket p => exact ⟨p, rfl⟩
  | _ => simp_all

/-- A manager that waits for its link to close disconnects or rotates. -/
theorem Standing.tearDown_inv {generation : Nat} {link : LinkId}
    (h : m.Standing [.tearDown generation link]) :
    generation = m.generation ∧ (m.state = .disconnecting ∨ m.Rotating) := by
  cases h with
  | disconnecting ticket link p hs hl hw hp hd hc => exact ⟨rfl, .inl hs⟩
  | tearingDown ticket link p deadline hs hl hw hp hd hc => exact ⟨rfl, .inr ⟨hs, hp⟩⟩

/-- A manager that rotates waits for its link to close, and knows where to connect to then. -/
theorem Standing.of_rotating {awaited : List Effect} (h : m.Standing awaited) (hr : m.Rotating) :
    ∃ ticket link p, m.waiter = some ticket ∧ m.parameters = some p ∧
      awaited = [.tearDown m.generation link] := by
  obtain ⟨hs', hp'⟩ := hr
  cases h with
  | tearingDown ticket link p deadline hs hl hw hp hd hc => exact ⟨ticket, link, p, hw, hc, rfl⟩
  | _ => simp_all

/-- A manager that rotates never lacks the parameters to connect with. -/
theorem Standing.not_stranded {awaited es : List Effect} {input : Input} (h : m.Standing awaited)
    (hr : Release m input es) : m.parameters ≠ none := by
  have hrot : m.Rotating := by cases hr <;> assumption
  obtain ⟨-, -, p, -, hc, -⟩ := h.of_rotating hrot
  simp [hc]

/-- Only a rotation has a deadline. -/
theorem Standing.deadline_none {awaited : List Effect} (h : m.Standing awaited)
    (hr : ¬ m.Rotating) : m.deadline = none := by
  cases h with
  | tearingDown ticket link p deadline hs hl hw hp hd hc => exact absurd ⟨hs, hp⟩ hr
  | _ => assumption

/-- A manager that is connected waits for nothing. -/
theorem Standing.of_connected {awaited : List Effect} (h : m.Standing awaited)
    (hs' : m.state = .connected) : awaited = [] := by
  cases h with
  | connected => rfl
  | disconnected => rfl
  | _ => simp_all

/-- A manager that is connected has a link. -/
theorem Standing.link_of_connected {awaited : List Effect} (h : m.Standing awaited)
    (hs' : m.state = .connected) : ∃ link, m.link = some link := by
  cases h with
  | connected link p hs hl => exact ⟨link, hl⟩
  | _ => simp_all

/-- A manager that is connected knows where to. -/
theorem Standing.parameters_of_connected {awaited : List Effect} (h : m.Standing awaited)
    (hs' : m.state = .connected) : ∃ p, m.parameters = some p := by
  cases h with
  | connected link p hs hl hw hp hd hq hc => exact ⟨p, hc⟩
  | _ => simp_all

/-- Where messages in flight are allowed, there may as well be fewer. -/
theorem Standing.fewer {awaited : List Effect} {flights : List (RequestId × Ticket)}
    (h : m.Standing awaited) (hsub : ∀ p ∈ flights, p ∈ m.inFlight) :
    { m with inFlight := flights }.Standing awaited := by
  have hnil : m.inFlight = [] → flights = [] := fun h0 =>
    List.eq_nil_iff_forall_not_mem.2 fun p hp => by simpa [h0] using hsub p hp
  cases h with
  | disconnected hs hl hw hp hd hf hq => exact .disconnected hs hl hw hp hd (hnil hf) hq
  | connecting ticket p hs hl hw hp hd hf hc =>
    exact .connecting ticket p hs hl hw hp hd (hnil hf) hc
  | connected link p hs hl hw hp hd hq hc => exact .connected link p hs hl hw hp hd hq hc
  | disconnecting ticket link p hs hl hw hp hd hc =>
    exact .disconnecting ticket link p hs hl hw hp hd hc
  | tearingDown ticket link p deadline hs hl hw hp hd hc =>
    exact .tearingDown ticket link p deadline hs hl hw hp hd hc
  | dialling ticket p hs hl hw hp hd hf hc => exact .dialling ticket p hs hl hw hp hd (hnil hf) hc

/-! ## What is outstanding -/

theorem mem_concerning {generation : Nat} {e : Effect} :
    e ∈ concerning generation tasks ↔ e ∈ tasks ∧ e.concerns generation = true :=
  List.mem_filter

/-- Nothing outstanding concerns the next generation, unless it is an attempt. -/
theorem concerning_next (hdial : ∀ generation p, .dial generation p ∉ tasks)
    (hformer : ∀ generation link, .tearDown generation link ∈ tasks → generation ≤ m.generation) :
    concerning (m.generation + 1) tasks = [] := by
  refine List.filter_eq_nil_iff.2 fun e he => ?_
  cases e with
  | dial generation p => exact absurd he (hdial _ _)
  | tearDown generation link =>
    have := hformer _ _ he
    simp only [Effect.concerns, decide_eq_true_eq]
    omega
  | _ => simp [Effect.concerns]

/-- Without an attempt among what concerns a generation, there is none at all. -/
theorem no_dial (g : Nat) (h : ∀ generation p, .dial generation p ∉ concerning g tasks)
    (generation : Nat) (p : Parameters) : .dial generation p ∉ tasks :=
  fun hd => h generation p (mem_concerning.2 ⟨hd, rfl⟩)

namespace Tended
variable {before after : List Effect} {e : Effect}

/-- When what a manager waits for has come back, nothing else concerns it. -/
theorem only (h : m.Tended (before ++ e :: after)) (he : e.concerns m.generation = true) :
    m.Standing [e] ∧ concerning m.generation (before ++ after) = [] := by
  have hst := h.standing
  rw [concerning_append, concerning_cons, if_pos he] at hst
  obtain ⟨hb, ha⟩ := hst.alone
  rw [hb, ha] at hst
  exact ⟨hst, by rw [concerning_append, hb, ha, List.append_nil]⟩

/-- What is older than the latest attempt stays so when something has come back. -/
theorem former_of_split (h : m.Tended (before ++ e :: after)) (generation : Nat) (link : LinkId)
    (hmem : .tearDown generation link ∈ before ++ after) : generation ≤ m.generation := by
  refine h.former generation link ?_
  rcases List.mem_append.1 hmem with hb | ha
  · exact List.mem_append_left _ hb
  · exact List.mem_append_right _ (List.mem_cons_of_mem _ ha)

/-- Something a manager does not wait for has come back, and with it the messages of its id are no
longer in flight. -/
theorem without (h : m.Tended (before ++ e :: after)) (he : e.concerns m.generation = false)
    {flights : List (RequestId × Ticket)}
    (hsub : ∀ p ∈ flights, p ∈ m.inFlight ∧ e.messageId? ≠ some p.1) :
    { m with inFlight := flights }.Tended (before ++ after) where
  standing := by
    have hst := h.standing
    rw [concerning_append, concerning_cons, he] at hst
    rw [concerning_append]
    exact hst.fewer fun p hp => (hsub p hp).1
  former := h.former_of_split
  carried p hp := by
    obtain ⟨hmem, hne⟩ := hsub p hp
    have hc := h.carried p hmem
    rw [messageIds_append, messageIds_cons] at hc
    rw [messageIds_append]
    simp only [List.mem_append, Option.mem_toList] at hc ⊢
    rcases hc with hb | hx | ha
    · exact .inl hb
    · exact absurd hx hne
    · exact .inr ha

theorem cons_of_some (h : m.Tended (before ++ (some e).toList ++ after)) :
    m.Tended (before ++ e :: after) := by
  simpa using h

/-- With some inputs nothing comes back. -/
theorem returning_none (h : m.Tended tasks) :
    m.Tended (tasks ++ (none : Option Effect).toList ++ []) := by
  simpa using h

theorem append_of_none (h : m.Tended (before ++ (none : Option Effect).toList ++ after)) :
    m.Tended (before ++ after) := by
  simpa using h

/-- A connection has ended. -/
theorem settled (hrest : concerning m.generation tasks = [])
    (hformer : ∀ generation link, .tearDown generation link ∈ tasks → generation ≤ m.generation) :
    m.settled.Tended tasks where
  standing := by
    show m.settled.Standing (concerning m.generation tasks)
    rw [hrest]
    exact .disconnected rfl rfl rfl rfl rfl rfl rfl
  former := hformer
  carried p hp := absurd hp List.not_mem_nil

/-- A rotation connects with the new credential. -/
theorem redialled {ticket : Ticket} {p : Parameters} (hs : m.state = .reconnecting)
    (hw : m.waiter = some ticket) (hdial : ∀ generation p, .dial generation p ∉ tasks)
    (hformer : ∀ generation link, .tearDown generation link ∈ tasks → generation ≤ m.generation) :
    (m.redialled p).Tended (tasks ++ [.dial (m.generation + 1) p]) where
  standing := by
    have hnext := concerning_next hdial hformer
    show (m.redialled p).Standing (concerning (m.generation + 1) (tasks ++ _))
    rw [concerning_append, hnext]
    exact .dialling ticket p hs rfl hw rfl rfl rfl rfl
  former generation link hmem := by
    have hmem : .tearDown generation link ∈ tasks := by simpa using hmem
    exact Nat.le_succ_of_le (hformer generation link hmem)
  carried p hp := absurd hp List.not_mem_nil

/-- **What an input leads to by itself** keeps a manager tended. -/
theorem opening {input : Input} {returned : Option Effect} {m' : Manager} {es : List Effect}
    {queue : List Order} (h : m.Tended (before ++ returned.toList ++ after))
    (he : input.Ends returned) (hi : input.isShutDown = false)
    (ho : Opening m input m' es queue) : m'.Tended (before ++ after ++ lasting es) := by
  cases ho with
  | order o =>
    cases he
    simpa using h
  | established link =>
    obtain ⟨p, rfl⟩ := he.of_dialled
    have h := h.cons_of_some
    obtain ⟨hst, hrest⟩ := h.only rfl
    obtain ⟨-, hd, hf, hc⟩ := hst.dial_inv
    rw [show lasting _ = [] by simp [Effect.isLasting], List.append_nil]
    refine ⟨?_, h.former_of_split, fun q hq => ?_⟩
    · rw [hrest]
      exact .connected link p rfl rfl rfl rfl hd rfl hc
    · rw [hf] at hq
      exact absurd hq List.not_mem_nil
  | refused error =>
    obtain ⟨p, rfl⟩ := he.of_dialled
    have h := h.cons_of_some
    rw [show lasting _ = [] by simp [Effect.isLasting], List.append_nil]
    exact settled (h.only rfl).2 h.former_of_split
  | abandoned generation link hne =>
    obtain ⟨p, rfl⟩ := he.of_dialled
    have h := h.cons_of_some
    exact absurd (h.only rfl).1.dial_inv.1 hne
  | tornDown result hs =>
    obtain ⟨link, rfl⟩ := he.of_tornDown
    have h := h.cons_of_some
    rw [lasting_settling, List.append_nil]
    exact settled (h.only (by simp [Effect.concerns])).2 h.former_of_split
  | rotated p hr hc =>
    rw [show lasting _ = [.dial (m.generation + 1) p] by cases hr <;> simp]
    cases hr with
    | tornDown result hrot =>
      obtain ⟨link, rfl⟩ := he.of_tornDown
      have h := h.cons_of_some
      obtain ⟨hst, hrest⟩ := h.only (by simp [Effect.concerns])
      obtain ⟨ticket, _, _, hw, -⟩ := hst.of_rotating hrot
      refine redialled hrot.1 hw (no_dial m.generation fun generation p => ?_) h.former_of_split
      rw [hrest]
      exact List.not_mem_nil
    | expired hrot =>
      -- the old link may close later, but under an earlier generation then
      cases he
      have h := h.append_of_none
      obtain ⟨ticket, link, _, hw, -, haw⟩ := h.standing.of_rotating hrot
      refine redialled hrot.1 hw (no_dial m.generation fun generation p => ?_) h.former
      rw [haw]
      simp
  | stranded hr hc => exact absurd hc (h.standing.not_stranded hr)
  | lapsed hrot =>
    cases he
    rw [← h.standing.deadline_none hrot]
    simpa using h
  | acknowledged id ticket hl | undelivered id error ticket hl =>
    obtain ⟨link, topic, payload, delivery, rfl⟩ := he.of_published
    have h := h.cons_of_some
    rw [show lasting _ = [] by simp [Effect.isLasting], List.append_nil]
    refine h.without rfl fun p hp => ?_
    simp only [ne_eq, decide_not, List.mem_filter, Bool.not_eq_true', decide_eq_false_iff_not] at hp
    exact ⟨hp.1, fun heq => hp.2 (Option.some.inj heq).symm⟩
  | message topic payload =>
    cases he
    simpa [Effect.isLasting] using h
  | closed hs | failed error hs =>
    cases he
    rw [show lasting _ = [] by simp [Effect.isLasting], List.append_nil]
    have h := h.append_of_none
    exact settled (h.standing.of_connected hs) h.former
  | ignored hig =>
    rw [lasting_nil, List.append_nil]
    cases he with
    | order o | expired | shutDown => exact absurd hig id
    | dialled generation p result =>
      have h := h.cons_of_some
      cases result with
      | ok link => exact absurd hig id
      | error error => exact absurd (h.only rfl).1.dial_inv.1 hig
    | tornDown generation link result =>
      have h := h.cons_of_some
      by_cases hg : generation = m.generation
      · obtain hne | ⟨hd, hr⟩ := hig
        · exact absurd hg hne
        · obtain hs | hrot := (h.only (by simp [Effect.concerns, hg])).1.tearDown_inv.2
          · exact absurd hs hd
          · exact absurd hrot hr
      · exact h.without (by simp [Effect.concerns, hg]) fun p hp =>
          ⟨hp, by simp [Effect.messageId?]⟩
    | published link id topic payload delivery result =>
      have h := h.cons_of_some
      refine h.without rfl fun p hp => ⟨hp, fun heq => ?_⟩
      have hid : id = p.1 := Option.some.inj heq
      exact List.lookup_eq_none_iff.1 hig p hp |> fun hne => by simp [hid] at hne
    | event generation event => simpa using h
  | shutDown => cases hi

/-- **The taking of an order** keeps a manager tended. -/
theorem taking {now : Millis} {o : Order} {m' : Manager} {es : List Effect} (h : m.Tended tasks)
    (ht : Taking now m o m' es) : m'.Tended (tasks ++ lasting es) := by
  obtain ⟨hst, hformer, hcarried⟩ := h
  cases ht with
  | deferred htr =>
    rw [lasting_nil, List.append_nil]
    refine ⟨?_, hformer, hcarried⟩
    show Standing _ (concerning m.generation tasks)
    generalize concerning m.generation tasks = awaited at hst ⊢
    cases hst with
    | disconnected hs | connected _ _ hs => simp [hs, State.isTransitional] at htr
    | connecting ticket p hs hl hw hp hd hf hc => exact .connecting ticket p hs hl hw hp hd hf hc
    | disconnecting ticket link p hs hl hw hp hd hc =>
      exact .disconnecting ticket link p hs hl hw hp hd hc
    | tearingDown ticket link p deadline hs hl hw hp hd hc =>
      exact .tearingDown ticket link p deadline hs hl hw hp hd hc
    | dialling ticket p hs hl hw hp hd hf hc => exact .dialling ticket p hs hl hw hp hd hf hc
  | connecting p hs hc =>
    obtain ⟨hl, hp, hd, hf, haw⟩ : m.link = none ∧ m.phase = none ∧ m.deadline = none ∧
        m.inFlight = [] ∧ concerning m.generation tasks = [] := by
      generalize concerning m.generation tasks = awaited at hst ⊢
      cases hst <;> simp_all
    have hnext : concerning (m.generation + 1) tasks = [] :=
      concerning_next (no_dial m.generation fun _ _ => by simp [haw]) hformer
    rw [show lasting _ = [.dial (m.generation + 1) (m.prepared p)] by rfl]
    refine ⟨?_, fun generation link hmem => ?_, fun q hq => ?_⟩
    · rw [concerning_append, hnext]
      exact .connecting o.ticket _ rfl hl rfl hp hd hf rfl
    · have hmem : .tearDown generation link ∈ tasks := by simpa using hmem
      exact Nat.le_succ_of_le (hformer generation link hmem)
    · rw [hf] at hq
      exact absurd hq List.not_mem_nil
  | stored credential hs hc =>
    rw [show lasting _ = [] by rfl, List.append_nil]
    refine ⟨?_, hformer, hcarried⟩
    show Standing _ (concerning m.generation tasks)
    generalize concerning m.generation tasks = awaited at hst ⊢
    cases hst with
    | disconnected hs hl hw hp hd hf hq => exact .disconnected hs hl hw hp hd hf hq
    | _ => simp_all
  | closedAlready hs hc | refused hs hc | unlinked hs hl | openAlready link p hs hl hc =>
    rw [show lasting _ = [] by rfl, List.append_nil]
    exact ⟨hst, hformer, hcarried⟩
  | disconnecting link hs hl hc =>
    have haw := hst.of_connected hs
    obtain ⟨p, hp, hd, hpar⟩ : ∃ p, m.phase = none ∧ m.deadline = none ∧ m.parameters = some p := by
      generalize concerning m.generation tasks = awaited at hst
      cases hst <;> simp_all
    rw [show lasting _ = [.tearDown m.generation link] by rfl]
    refine ⟨?_, fun generation link' hmem => ?_, fun q hq => ?_⟩
    · rw [concerning_append, haw]
      simp only [concerning_cons, Effect.concerns, decide_true, if_true, concerning_nil,
        List.nil_append]
      exact .disconnecting o.ticket link p rfl hl rfl hp hd hpar
    · rcases List.mem_append.1 hmem with hold | hnew
      · exact hformer generation link' hold
      · cases List.mem_singleton.1 hnew
        exact Nat.le_refl _
    · rw [messageIds_append]
      exact List.mem_append_left _ (hcarried q hq)
  | rotating link credential hs hl hc =>
    have haw := hst.of_connected hs
    obtain ⟨p, hpar⟩ := hst.parameters_of_connected hs
    rw [show lasting _ = [.tearDown m.generation link] by rfl]
    simp only [renewed, hpar]
    refine ⟨?_, fun generation link' hmem => ?_, fun q hq => ?_⟩
    · rw [concerning_append, haw]
      simp only [concerning_cons, Effect.concerns, decide_true, if_true, concerning_nil,
        List.nil_append]
      exact .tearingDown o.ticket link _ _ rfl hl rfl rfl rfl rfl
    · rcases List.mem_append.1 hmem with hold | hnew
      · exact hformer generation link' hold
      · cases List.mem_singleton.1 hnew
        exact Nat.le_refl _
    · rw [messageIds_append]
      exact List.mem_append_left _ (hcarried q hq)
  | publishing link topic payload delivery hs hl hc =>
    rw [show lasting _ = [.publish link m.ids.peek topic payload delivery] by rfl]
    refine ⟨?_, fun generation link' hmem => ?_, fun q hq => ?_⟩
    · show Standing _ (concerning m.generation (tasks ++ _))
      rw [concerning_append, hst.of_connected hs]
      obtain ⟨p, hw, hp, hd, hq, hpar⟩ : ∃ p, m.waiter = none ∧ m.phase = none ∧
          m.deadline = none ∧ m.deferred = [] ∧ m.parameters = some p := by
        generalize concerning m.generation tasks = awaited at hst
        cases hst <;> simp_all
      exact .connected link p hs hl hw hp hd hq hpar
    · exact hformer generation link' (by simpa using hmem)
    · rw [messageIds_append]
      rcases List.mem_append.1 hq with hold | hnew
      · exact List.mem_append_left _ (hcarried q (List.mem_filter.1 hold).1)
      · cases List.mem_singleton.1 hnew
        exact List.mem_append_right _ (by simp [Effect.messageId?])
  | subscribing link filter qos hs hl hc | unsubscribing link filter hs hl hc =>
    refine ⟨?_, fun generation link' hmem => ?_, fun q hq => ?_⟩
    · rw [concerning_append]
      simpa [Effect.isLasting, Effect.concerns] using hst
    · exact hformer generation link' (by simpa [Effect.isLasting] using hmem)
    · rw [messageIds_append]
      exact List.mem_append_left _ (hcarried q hq)

/-- **A step keeps a manager tended,** unless it is the last one. -/
theorem step (now : Millis) {input : Input} {returned : Option Effect}
    (h : m.Tended (before ++ returned.toList ++ after)) (he : input.Ends returned)
    (hi : input.isShutDown = false) :
    (m.step now input).manager.Tended
      (before ++ after ++ lasting (m.step now input).effects) := by
  refine m.step_induction now input (P := fun m' es _ => m'.Tended (before ++ after ++ lasting es))
    (fun m' es queue ho => h.opening he hi ho) fun m₁ es o queue m₂ es' h₁ ht => ?_
  have h₂ := h₁.taking ht
  rwa [List.append_assoc, ← lasting_append] at h₂

/-- **Induction over a step of a tended manager**: when an order is taken in the middle of it, the
manager is still tended. -/
theorem step_induction (now : Millis) {input : Input} {returned : Option Effect}
    (h : m.Tended (before ++ returned.toList ++ after)) (he : input.Ends returned)
    (hi : input.isShutDown = false) {P : Manager → List Effect → List Order → Prop}
    (opens : ∀ m' es queue, Opening m input m' es queue → P m' es queue)
    (takes : ∀ m₁ es o queue m₂ es', m₁.Tended (before ++ after ++ lasting es) →
      P m₁ es (o :: queue) → Taking now m₁ o m₂ es' → P m₂ (es ++ es') queue) :
    P (m.step now input).manager (m.step now input).effects [] := by
  have key := m.step_induction now input
    (P := fun m' es queue => m'.Tended (before ++ after ++ lasting es) ∧ P m' es queue)
    (fun m' es queue ho => ⟨h.opening he hi ho, opens m' es queue ho⟩) ?_
  · exact key.2
  · rintro m₁ es o queue m₂ es' ⟨ht, hp⟩ htake
    have ht₂ := ht.taking htake
    rw [List.append_assoc, ← lasting_append] at ht₂
    exact ⟨ht₂, takes m₁ es o queue m₂ es' ht hp htake⟩

end Tended

end Manager

/-! ## Courses -/

/-- What answers its caller by itself is nothing that a manager waits for. -/
theorem Effect.concerns_of_caller {e : Effect} {ticket : Ticket} (h : e.caller? = some ticket)
    (generation : Nat) : e.concerns generation = false ∧ e.messageId? = none := by
  cases e <;> first | exact ⟨rfl, rfl⟩ | cases h

/-- **A manager that runs is always tended.** -/
theorem Course.tended {c : Course} (h : Reachable c) (running : c.stopped = false) :
    c.manager.Tended c.outstanding := by
  refine running_induction (P := fun c => c.manager.Tended c.outstanding) ?_ ?_ ?_ h running
  · exact fun patience ids => ⟨.disconnected rfl rfl rfl rfl rfl rfl rfl, by simp, by simp⟩
  · intro c input e before after now _ _ ih ends _ split hi
    exact (split ▸ ih).step now ends hi
  · -- what leaves by answering its caller is not what the manager waits for
    intro c e ticket before after granted result _ ih he split
    obtain ⟨hc, hm⟩ := Effect.concerns_of_caller he c.manager.generation
    exact (split ▸ ih).without hc fun p hp => ⟨hp, by simp [hm]⟩

end DeviceProvisioning.Connection
