import DeviceProvisioning.Proofs.Connection.Standing

/-!
# A change never gets stuck

A manager whose state is transitional puts off every order, and only the completion of what it has
started brings it out of this state.  If that completion were missing, or if it were taken for one
of an earlier generation, the manager would put off orders for ever.

`Manager.Sound` says, point by point, what the fields of a manager are between two steps and how
many completions of the current generation are on their way.  It is what `Manager.Standing` comes
to when it is read off the two fields that tell the points apart.  `Tended.advances` then says that
the completion on its way brings the manager on (`Manager.Advances`): the change ends and its caller
is told so, or the old link of a rotation is gone and the new attempt begins, which ends the change
in its turn.

A connected manager has a link also in the middle of a step, where orders that were put off are
taken one after the other (`Manager.Meets`).  So no order is ever turned away because a connected
manager has no link.
-/

namespace DeviceProvisioning.Connection

open Time (Millis)

/-! ## Completions of one generation -/

/-- Whether an effect is the connection attempt of a generation. -/
def Effect.dials (generation : Nat) : Effect → Bool
  | dial g _ => g = generation
  | _ => false

/-- Whether an effect is the closing of the link of a generation. -/
def Effect.tearsDown (generation : Nat) : Effect → Bool
  | tearDown g _ => g = generation
  | _ => false

namespace Manager

/-- **What a manager is at each of the six points**: its fields, and the completions of its
generation that are on their way. -/
def Sound (m : Manager) (tasks : List Effect) : Prop :=
  match m.state, m.phase with
  | .disconnected, phase =>
    m.link = none ∧ m.waiter = none ∧ phase = none ∧ m.deadline = none ∧ m.inFlight = [] ∧
      m.deferred = []
  | .connecting, phase =>
    m.waiter.isSome ∧ m.link = none ∧ phase = none ∧ m.deadline = none ∧ m.inFlight = [] ∧
      tasks.countP (Effect.dials m.generation) = 1
  | .connected, phase =>
    m.link.isSome ∧ m.waiter = none ∧ phase = none ∧ m.deadline = none ∧ m.deferred = []
  | .disconnecting, _ =>
    m.waiter.isSome ∧ m.link.isSome ∧ m.deadline = none ∧
      tasks.countP (Effect.tearsDown m.generation) = 1
  | .reconnecting, some .tearingDown =>
    m.waiter.isSome ∧ m.link.isSome ∧ m.deadline.isSome ∧
      tasks.countP (Effect.tearsDown m.generation) = 1
  | .reconnecting, some .dialling =>
    m.waiter.isSome ∧ m.link = none ∧ m.deadline = none ∧ m.inFlight = [] ∧
      tasks.countP (Effect.dials m.generation) = 1
  | .reconnecting, none => False

/-- **A change ends**: a settled state is entered, and the caller of the change is answered. -/
def Concludes (m : Manager) (es : List Effect) : Prop :=
  ∃ next ticket, next.isTransitional = false ∧ .stateChanged next ∈ told es ∧
    m.waiter = some ticket ∧ ticket ∈ answered es

/-- **A rotation goes on**: the old link is gone, and the next attempt begins. -/
def Redials (m m' : Manager) : Prop :=
  m.Rotating ∧ m'.state = .reconnecting ∧ m'.phase = some .dialling ∧
    m'.generation = m.generation + 1

/-- **A change comes on**: it ends, or it is a rotation that goes on. -/
def Advances (m m' : Manager) (es : List Effect) : Prop :=
  m.Concludes es ∨ m.Redials m'

/-- **An order is met** in a step by the manager as it is when the turn comes to the order: after
the opening, and after the orders before this one. -/
def Meets (now : Millis) (m : Manager) (input : Input) (m₁ : Manager) (o : Order) : Prop :=
  ∃ m' es before after, Opening m input m' es (before ++ o :: after) ∧
    m₁ = (before.foldl (fun (t : Turn) o => t.take now o) ⟨m', es⟩).manager

variable {m : Manager} {tasks before after : List Effect}

/-! ## Six points -/

/-- What is counted of a generation concerns it. -/
theorem countP_concerning (tasks : List Effect) {generation : Nat} {p : Effect → Bool}
    (h : ∀ e, p e = true → e.concerns generation = true) :
    tasks.countP p = (concerning generation tasks).countP p := by
  rw [concerning, List.countP_filter]
  refine List.countP_congr fun e _ => ?_
  rw [Bool.and_eq_true]
  exact ⟨fun hp => ⟨hp, h e hp⟩, And.left⟩

theorem concerns_of_dials (generation : Nat) (e : Effect) (h : e.dials generation = true) :
    e.concerns generation = true := by
  cases e with
  | dial => rfl
  | _ => cases h

theorem concerns_of_tearsDown (generation : Nat) (e : Effect)
    (h : e.tearsDown generation = true) : e.concerns generation = true := by
  cases e with
  | tearDown => exact h
  | _ => cases h

/-- **A manager that is tended is sound.** -/
theorem Tended.sound (h : m.Tended tasks) : m.Sound tasks := by
  have hdial := countP_concerning tasks (concerns_of_dials m.generation)
  have htear := countP_concerning tasks (concerns_of_tearsDown m.generation)
  have hst := h.standing
  generalize concerning m.generation tasks = awaited at hdial htear hst
  unfold Sound
  cases hst with
  | disconnected hs hl hw hp hd hf hq =>
    rw [hs]
    exact ⟨hl, hw, hp, hd, hf, hq⟩
  | connecting ticket p hs hl hw hp hd hf hc =>
    rw [hs]
    exact ⟨by rw [hw]; rfl, hl, hp, hd, hf, by simp [hdial, Effect.dials]⟩
  | connected link p hs hl hw hp hd hq hc =>
    rw [hs]
    exact ⟨by rw [hl]; rfl, hw, hp, hd, hq⟩
  | disconnecting ticket link p hs hl hw hp hd hc =>
    rw [hs]
    exact ⟨by rw [hw]; rfl, by rw [hl]; rfl, hd, by simp [htear, Effect.tearsDown]⟩
  | tearingDown ticket link p deadline hs hl hw hp hd hc =>
    rw [hs, hp]
    exact ⟨by rw [hw]; rfl, by rw [hl]; rfl, by rw [hd]; rfl, by simp [htear, Effect.tearsDown]⟩
  | dialling ticket p hs hl hw hp hd hf hc =>
    rw [hs, hp]
    exact ⟨by rw [hw]; rfl, hl, hd, hf, by simp [hdial, Effect.dials]⟩

/-! ## What brings a manager on -/

/-- The end of a connection is told of, and to its waiter. -/
theorem ends_settling {ticket : Ticket} (hs : m.state ≠ .disconnected)
    (hw : m.waiter = some ticket) (why : Option Failure) :
    .stateChanged .disconnected ∈ told (m.settling why) ∧ ticket ∈ answered (m.settling why) := by
  refine ⟨?_, by simp [hw]⟩
  simp [settling, told_entering hs]

/-- An attempt that comes back ends the change. -/
theorem advances_of_dialled {p : Parameters} {result : Except LinkError LinkId} {m' : Manager}
    {es : List Effect} {queue : List Order} (hst : m.Standing [.dial m.generation p])
    (ho : Opening m (.completion (.dialled m.generation result)) m' es queue) :
    m.Concludes es := by
  obtain ⟨ticket, hw, hc, hd⟩ : ∃ ticket, m.waiter = some ticket ∧ m.state ≠ .connected ∧
      m.state ≠ .disconnected := by
    cases hst <;> exact ⟨_, ‹_›, by simp [*], by simp [*]⟩
  cases ho with
  | established link =>
    exact ⟨.connected, ticket, rfl, by simp [told_entering hc], hw, by simp [hw]⟩
  | refused error =>
    obtain ⟨htold, hanswered⟩ := ends_settling hd hw (some (.ofLink error))
    refine ⟨.disconnected, ticket, rfl, ?_, hw, ?_⟩
    · simpa [Effect.notice?] using htold
    · simpa [Effect.answered?] using hanswered
  | abandoned generation link h => exact absurd rfl h
  | rotated p hr hc => cases hr
  | stranded hr hc => cases hr
  | ignored hig =>
    cases result with
    | ok link => exact absurd hig id
    | error error => exact absurd rfl hig

/-- A link that has closed ends the change, or lets a rotation go on. -/
theorem advances_of_tornDown {link : LinkId} {result : Except LinkError Unit} {m' : Manager}
    {es : List Effect} {queue : List Order} (hst : m.Standing [.tearDown m.generation link])
    (ho : Opening m (.completion (.tornDown m.generation result)) m' es queue) :
    m.Concludes es ∨ m.Redials m' ∧ queue = [] := by
  cases ho with
  | tornDown result hs =>
    obtain ⟨ticket, hw⟩ : ∃ ticket, m.waiter = some ticket := by
      cases hst <;> exact ⟨_, ‹_›⟩
    obtain ⟨htold, hanswered⟩ := ends_settling (by simp [hs]) hw none
    exact .inl ⟨.disconnected, ticket, rfl, htold, hw, hanswered⟩
  | rotated p hr hc =>
    cases hr with
    | tornDown _ hrot => exact .inr ⟨⟨hrot, hrot.1, rfl, rfl⟩, rfl⟩
  | stranded hr hc => exact absurd hc (hst.not_stranded hr)
  | ignored hig =>
    obtain hne | ⟨hd, hr⟩ := hig
    · exact absurd rfl hne
    · obtain hs | hrot := hst.tearDown_inv.2
      · exact absurd hs hd
      · exact absurd hrot hr

/-- **What a manager waits for brings it on**, whatever has become of it. -/
theorem Tended.advances {e : Effect} {input : Input} (now : Millis)
    (h : m.Tended (before ++ e :: after)) (he : e.concerns m.generation = true)
    (hends : input.Ends (some e)) :
    m.Advances (m.step now input).manager (m.step now input).effects := by
  obtain ⟨hst, -⟩ := h.only he
  have key := m.step_induction now input
    (P := fun m' es queue => m.Concludes es ∨ m.Redials m' ∧ queue = [])
    (fun m' es queue ho => ?_) fun m₁ es o queue m₂ es' h₁ _ => ?_
  · exact key.imp_right And.left
  · cases hends with
    | dialled generation p result =>
      obtain ⟨rfl, -⟩ := hst.dial_inv
      exact .inl (advances_of_dialled hst ho)
    | tornDown generation link result =>
      obtain ⟨rfl, -⟩ := hst.tearDown_inv
      exact advances_of_tornDown hst ho
    | published => cases he
  · -- what has been told and answered stays so while orders are taken
    obtain ⟨next, ticket, hnext, htold, hw, hanswered⟩ | ⟨-, hnil⟩ := h₁
    · refine .inl ⟨next, ticket, hnext, ?_, hw, ?_⟩
      · rw [told_append]
        exact List.mem_append_left _ htold
      · rw [answered_append]
        exact List.mem_append_left _ hanswered
    · cases hnil

/-- **A manager in the middle of a change waits for something** that is outstanding, and that may
come back at any time. -/
theorem Tended.awaits (h : m.Tended tasks) (hs : m.state.isTransitional = true) :
    ∃ e before after, tasks = before ++ e :: after ∧ e.concerns m.generation = true ∧
      ∃ error : LinkError, (Input.completion (.dialled m.generation (.error error))).Ends (some e) ∨
        (Input.completion (.tornDown m.generation (.error error))).Ends (some e) := by
  have hst := h.standing
  obtain ⟨e, haw, hends⟩ : ∃ e, concerning m.generation tasks = [e] ∧ ∃ error : LinkError,
      (Input.completion (.dialled m.generation (.error error))).Ends (some e) ∨
        (Input.completion (.tornDown m.generation (.error error))).Ends (some e) := by
    generalize concerning m.generation tasks = awaited at hst ⊢
    cases hst with
    | disconnected hs' | connected _ _ hs' => rw [hs'] at hs; cases hs
    | connecting | dialling => exact ⟨_, rfl, .plain "refused", .inl (.dialled ..)⟩
    | disconnecting | tearingDown => exact ⟨_, rfl, .plain "reset", .inr (.tornDown ..)⟩
  obtain ⟨hmem, hc⟩ := mem_concerning.1 (haw ▸ List.mem_singleton_self e)
  obtain ⟨before, after, rfl⟩ := List.append_of_mem hmem
  exact ⟨e, before, after, rfl, hc, hends⟩

/-! ## Orders that a step meets -/

/-- Orders that are taken one after the other keep a manager tended. -/
theorem Tended.takings (now : Millis) (queue : List Order) {t : Turn}
    (h : t.manager.Tended (tasks ++ lasting t.effects)) :
    (queue.foldl (fun t o => t.take now o) t).manager.Tended
      (tasks ++ lasting (queue.foldl (fun t o => t.take now o) t).effects) := by
  induction queue generalizing t with
  | nil => exact h
  | cons o queue ih =>
    obtain ⟨m₂, es', htake, heq⟩ := t.taking now o
    refine ih ?_
    show (t.take now o).manager.Tended (tasks ++ lasting (t.take now o).effects)
    rw [heq, lasting_append, ← List.append_assoc]
    exact h.taking htake

/-- **A manager that meets an order is tended.** -/
theorem Tended.meets {now : Millis} {input : Input} {returned : Option Effect} {m₁ : Manager}
    {o : Order} (h : m.Tended (before ++ returned.toList ++ after)) (he : input.Ends returned)
    (hi : input.isShutDown = false) (hmeets : m.Meets now input m₁ o) :
    ∃ tasks, m₁.Tended tasks := by
  obtain ⟨m', es, earlier, later, ho, rfl⟩ := hmeets
  have hopened : m'.Tended (before ++ after ++ lasting es) := h.opening he hi ho
  exact ⟨_, Tended.takings now earlier hopened⟩

end Manager

/-! ## Courses -/

namespace Course
variable {c : Course}

/-- **A running manager is sound, and no change gets stuck.**  Between two steps its fields are
those of one of the six points, with exactly one completion of its generation on its way at the four
points where it waits for one.  That completion is outstanding, it may come back, and however it
comes back it brings the change on.  No step meets an order with a manager that is connected but has
no link, and no rotation is without parameters to connect with again. -/
theorem sound_and_never_stuck (h : Reachable c) (running : c.stopped = false) :
    c.manager.Sound c.outstanding ∧
    (c.manager.state.isTransitional = true →
      ∃ e before after, c.outstanding = before ++ e :: after ∧
        (∃ input, input.Ends (some e) ∧ c.Admits input) ∧
        ∀ now input, input.Ends (some e) →
          c.manager.Advances (c.manager.step now input).manager
            (c.manager.step now input).effects) ∧
    (∀ now input returned before after m₁ o, input.Ends returned → input ≠ .shutDown →
      c.outstanding = before ++ returned.toList ++ after → c.manager.Meets now input m₁ o →
      m₁.state = .connected → m₁.link ≠ none) ∧
    (c.manager.Rotating → c.manager.parameters ≠ none) := by
  have ht := tended h running
  refine ⟨ht.sound, fun hs => ?_, fun now input returned before after m₁ o hends hi split hmeets
    hs => ?_, fun hr => ?_⟩
  · obtain ⟨e, before, after, split, hc, error, hends⟩ := ht.awaits hs
    refine ⟨e, before, after, split, ?_, fun now input hends => ?_⟩
    · exact hends.elim (fun hends => ⟨_, hends, trivial⟩) fun hends => ⟨_, hends, trivial⟩
    · rw [split] at ht
      exact ht.advances now hc hends
  · rw [split] at ht
    have hi : input.isShutDown = false := by cases input <;> first | rfl | exact absurd rfl hi
    obtain ⟨tasks, hm₁⟩ := ht.meets hends hi hmeets
    obtain ⟨link, hl⟩ := hm₁.standing.link_of_connected hs
    simp [hl]
  · obtain ⟨-, -, p, -, hp, -⟩ := ht.standing.of_rotating hr
    simp [hp]

/-- A manager that rotates while the old link is still there, and another order has been put off. -/
theorem rotating_manager_not_stuck :
    ∃ c : Course, Reachable c ∧ c.manager.Rotating ∧ c.manager.deferred.length = 1 ∧
      c.manager.Sound c.outstanding ∧
      ∃ e ∈ c.outstanding, ∀ now input, input.Ends (some e) →
        c.manager.Advances (c.manager.step now input).manager
          (c.manager.step now input).effects := by
  let p : Parameters := ⟨"mqtt://broker", "device", "user", none, true, 0, none⟩
  have connect := (Reachable.start 30000 .sequential).step
    (.takes 0 (.order ⟨0, .connect p⟩) none [] [] rfl (.order _) (by decide) rfl)
  have dialled := connect.step
    (.takes 0 (.completion (.dialled 1 (.ok 5))) (some _) [] [] rfl (.dialled _ p _) (by decide)
      rfl)
  have update := dialled.step
    (.takes 0 (.order ⟨1, .updateCredential (.signature "token")⟩) none [] [] rfl (.order _)
      (by decide) rfl)
  have publish := update.step
    (.takes 0 (.order ⟨2, .publish "topic" [] {}⟩) none [_] [] rfl (.order _) (by decide) rfl)
  obtain ⟨sound, stuck, -, -⟩ := sound_and_never_stuck publish rfl
  obtain ⟨e, before, after, split, -, advances⟩ := stuck rfl
  refine ⟨_, publish, by decide, rfl, sound, e, ?_, advances⟩
  rw [split]
  exact List.mem_append_right _ (List.mem_cons_self ..)

end Course

end DeviceProvisioning.Connection
