import DeviceProvisioning.Proofs.Session.Course

/-!
# How a session stands with what it has started

A session that is in the middle of a change waits for one call to come back.  `Session.Standing`
lists the five points between two steps at which a session can be, what its fields are there, and
which change it waits for; `Session.Tended` says that this is the only change that is outstanding.

A step keeps this: `Tended.opening` for what comes in, and `Tended.doing` for work.
`Course.tended` is what follows for every course.
-/

namespace DeviceProvisioning.Session

open Connection (Credential Parameters State Ticket)

/-- **The points between two steps**: the fields of a session, and the change it waits for. -/
inductive Standing (s : Session) : List Effect → Prop where
  | disconnected (hs : s.state = .disconnected) (hw : s.waiter = none) (hq : s.deferred = [])
      (hl : s.lossInChange = none) : Standing s []
  | connecting (p : Parameters) (hs : s.state = .connecting) (hw : s.waiter = none) :
    Standing s [.connect p]
  | connected (hs : s.state = .connected) (hw : s.waiter = none) (hq : s.deferred = [])
      (hl : s.lossInChange = none) : Standing s []
  | disconnecting (ticket : Ticket) (hs : s.state = .disconnecting) (hw : s.waiter = some ticket)
      (hl : s.lossInChange = none) : Standing s [.disconnect]
  | reconnecting (ticket : Ticket) (credential : Credential) (hs : s.state = .reconnecting)
      (hw : s.waiter = some ticket) : Standing s [.reconnect credential]

/-- **A session that stands well with what is outstanding.** -/
def Tended (s : Session) (tasks : List Effect) : Prop :=
  s.Standing (changes tasks)

variable {s s' : Session} {es tasks before after : List Effect}

/-- A session waits for one change at most. -/
theorem Standing.alone {e : Effect} (h : s.Standing (before ++ e :: after)) :
    before = [] ∧ after = [] := by
  have hlen : (before ++ e :: after).length ≤ 1 := by
    cases hx : before ++ e :: after <;> rw [hx] at h <;> cases h <;> simp
  rw [List.length_append, List.length_cons] at hlen
  exact ⟨List.length_eq_zero_iff.1 (by omega), List.length_eq_zero_iff.1 (by omega)⟩

/-- A session that has settled waits for nothing, and has nothing put off. -/
theorem Standing.of_settled {awaited : List Effect} (h : s.Standing awaited)
    (hs : s.state.isTransitional = false) :
    awaited = [] ∧ s.waiter = none ∧ s.deferred = [] ∧ s.lossInChange = none := by
  cases h with
  | disconnected _ hw hq hl | connected _ hw hq hl => exact ⟨rfl, hw, hq, hl⟩
  | connecting p hs' | disconnecting ticket hs' | reconnecting ticket credential hs' =>
    rw [hs'] at hs
    cases hs

theorem Standing.congr {awaited : List Effect} (h : s.Standing awaited)
    (hs : s'.state = s.state) (hw : s'.waiter = s.waiter) (hq : s'.deferred = s.deferred)
    (hl : s'.lossInChange = s.lossInChange) : s'.Standing awaited := by
  cases h with
  | disconnected hs' hw' hq' hl' =>
    exact .disconnected (hs.trans hs') (hw.trans hw') (hq.trans hq') (hl.trans hl')
  | connecting p hs' hw' => exact .connecting p (hs.trans hs') (hw.trans hw')
  | connected hs' hw' hq' hl' =>
    exact .connected (hs.trans hs') (hw.trans hw') (hq.trans hq') (hl.trans hl')
  | disconnecting ticket hs' hw' hl' =>
    exact .disconnecting ticket (hs.trans hs') (hw.trans hw') (hl.trans hl')
  | reconnecting ticket credential hs' hw' =>
    exact .reconnecting ticket credential (hs.trans hs') (hw.trans hw')

/-- A change under way does not end by itself when more is put off. -/
theorem Standing.more {awaited : List Effect} {works : List Work} (h : s.Standing awaited)
    (hs : s.state.isTransitional) : { s with deferred := works }.Standing awaited := by
  cases h with
  | disconnected hs' | connected hs' =>
    rw [hs'] at hs
    cases hs
  | connecting p hs hw => exact .connecting p hs hw
  | disconnecting ticket hs hw hl => exact .disconnecting ticket hs hw hl
  | reconnecting ticket credential hs hw => exact .reconnecting ticket credential hs hw

namespace Tended

/-- When the change has come back, there is no other. -/
theorem only {e : Effect} (h : s.Tended (before ++ (some e).toList ++ after))
    (he : e.isChange = true) : s.Standing [e] ∧ changes (before ++ after) = [] := by
  have hst : s.Standing (changes before ++ e :: changes after) := by
    simpa [Tended, he] using h
  obtain ⟨hb, ha⟩ := hst.alone
  rw [hb, ha] at hst
  exact ⟨hst, by rw [changes_append, hb, ha, List.append_nil]⟩

theorem append_of_none (h : s.Tended (before ++ (none : Option Effect).toList ++ after)) :
    s.Tended (before ++ after) := by
  simpa using h

/-- A message that comes back leaves a session as it stands. -/
theorem drop_publish {id : RequestId} {topic body : String}
    (h : s.Tended (before ++ (some (.publish id topic body)).toList ++ after)) :
    s.Tended (before ++ after) := by
  simpa [Tended, Effect.isChange] using h

/-- Only four fields matter. -/
theorem congr (h : s.Tended tasks) (hs : s'.state = s.state) (hw : s'.waiter = s.waiter)
    (hq : s'.deferred = s.deferred) (hl : s'.lossInChange = s.lossInChange) : s'.Tended tasks :=
  Standing.congr h hs hw hq hl

/-- A session whose change has ended, and that has been told so. -/
theorem settled (hrest : changes tasks = []) (hs : s.state = .disconnected ∨ s.state = .connected)
    (hw : s.waiter = none) (hq : s.deferred = []) (hl : s.lossInChange = none) :
    s.Tended tasks := by
  rw [Tended, hrest]
  obtain hs | hs := hs
  · exact .disconnected hs hw hq hl
  · exact .connected hs hw hq hl

/-- **What an input leads to by itself** keeps a session tended. -/
theorem opening {manager : State} {input : Input} {returned : Option Effect}
    {queue : List Work} (h : s.Tended (before ++ returned.toList ++ after))
    (he : input.Ends returned) (hi : input.isShutDown = false)
    (ho : Opening manager s input s' es queue) : s'.Tended (before ++ after ++ lasting es) := by
  cases ho with
  | asked | cancelled | disconnect | updateCredential =>
    cases he
    rw [show lasting _ = [] by simp [Effect.isLasting], List.append_nil]
    exact h.append_of_none.congr rfl rfl rfl rfl
  | connected | lostConnecting | unconnected =>
    cases he with
    | connected p result =>
      obtain ⟨hst, hrest⟩ := h.only rfl
      have hw : s.waiter = none := by cases hst; assumption
      refine settled ?_ (by simp [changed, fallen]) hw rfl rfl
      simpa using hrest
  | reconnected | lostReconnecting | unreconnected =>
    cases he with
    | reconnected credential result =>
      obtain ⟨-, hrest⟩ := h.only rfl
      refine settled ?_ (by simp [changed, fallen]) rfl rfl rfl
      simpa using hrest
  | disconnected result =>
    cases he with
    | disconnected result =>
      obtain ⟨hst, hrest⟩ := h.only rfl
      have hl : s.lossInChange = none := by cases hst; assumption
      refine settled ?_ (.inl rfl) rfl rfl hl
      simpa using hrest
  | unpublished id why op hp =>
    cases he with
    | published id topic body result =>
      rw [show lasting _ = [] by simp [Effect.isLasting], List.append_nil]
      exact h.drop_publish.congr rfl rfl rfl rfl
  | responded | dropped =>
    cases he
    rw [show lasting _ = [] by simp [Effect.isLasting], List.append_nil]
    exact h.append_of_none.congr rfl rfl rfl rfl
  | lost why hs =>
    cases he
    have h := h.append_of_none
    obtain ⟨hrest, hw, hq, hl⟩ := Standing.of_settled h (by rw [hs]; rfl)
    refine settled ?_ (.inl rfl) hw hq hl
    simpa using hrest
  | noted why hs =>
    cases he
    have h := h.append_of_none
    rw [lasting_nil, List.append_nil]
    unfold Tended at h ⊢
    generalize changes (before ++ after) = awaited at h ⊢
    cases h with
    | connecting p hs hw => exact .connecting p hs hw
    | reconnecting ticket credential hs hw => exact .reconnecting ticket credential hs hw
    | disconnected hs' | connected hs' | disconnecting _ hs' => simp [hs'] at hs
  | ignored hig =>
    rw [lasting_nil, List.append_nil]
    cases he with
    | published id topic body result => exact h.drop_publish
    | notice notice => exact h.append_of_none
    | order | connected | disconnected | reconnected | shutDown => exact absurd hig id
  | shutDown => cases hi

/-- **The doing of work** keeps a session tended. -/
theorem doing {work : Work} (h : s.Tended tasks) (hd : Doing s work s' es) :
    s'.Tended (tasks ++ lasting es) := by
  have hst : s.Standing (changes tasks) := h
  unfold Tended
  rw [changes_append, changes_lasting]
  cases hd with
  | deferred work htr => simpa using hst.more htr
  | forgotten | closedAlready | publishing => simpa [Effect.isChange] using hst
  | connecting id op hs hp =>
    obtain ⟨hnone, hw, -⟩ := hst.of_settled (by rw [hs]; rfl)
    rw [hnone]
    exact .connecting _ rfl hw
  | disconnecting ticket hs =>
    obtain ⟨hnone, -, -, hl⟩ := hst.of_settled (by rw [hs]; rfl)
    rw [hnone]
    exact .disconnecting ticket rfl rfl hl
  | stored credential ticket hs =>
    rw [show changes [Effect.answer ticket (.ok ())] = [] by rfl, List.append_nil]
    exact hst.congr rfl rfl rfl rfl
  | reconnecting credential ticket hs =>
    obtain ⟨hnone, -⟩ := hst.of_settled (by rw [hs]; rfl)
    rw [hnone]
    exact .reconnecting ticket credential rfl rfl

theorem doing_append {work : Work} {es₁ : List Effect} (h : s.Tended (tasks ++ lasting es₁))
    (hd : Doing s work s' es) : s'.Tended (tasks ++ lasting (es₁ ++ es)) := by
  have h := h.doing hd
  rwa [List.append_assoc, ← lasting_append] at h

/-- The last step leaves nothing to do; any other keeps a session tended. -/
theorem opening_or_last {manager : State} {input : Input} {returned : Option Effect}
    {queue : List Work} (h : s.Tended (before ++ returned.toList ++ after))
    (he : input.Ends returned) (ho : Opening manager s input s' es queue) :
    input.isShutDown = false ∧ s'.Tended (before ++ after ++ lasting es) ∨ queue = [] := by
  cases hi : input.isShutDown with
  | false => exact .inl ⟨rfl, h.opening he hi ho⟩
  | true =>
    cases ho with
    | shutDown | ignored => exact .inr rfl
    | _ => cases hi

/-- **Induction over a step of a tended session**: when work is done in the middle of it, the
session is still tended. -/
theorem step_induction (manager : State) {input : Input} {returned : Option Effect}
    (h : s.Tended (before ++ returned.toList ++ after)) (he : input.Ends returned)
    {P : Session → List Effect → List Work → Prop}
    (opens : ∀ s' es queue, Opening manager s input s' es queue → P s' es queue)
    (does : ∀ s₁ es work queue s₂ es', s₁.Tended (before ++ after ++ lasting es) →
      P s₁ es (work :: queue) → Doing s₁ work s₂ es' → P s₂ (es ++ es') queue) :
    P (s.step manager input).session (s.step manager input).effects [] := by
  have key := s.step_induction manager input
    (P := fun s' es queue => P s' es queue ∧
      (input.isShutDown = false ∧ s'.Tended (before ++ after ++ lasting es) ∨ queue = []))
    (fun s' es queue ho => ⟨opens s' es queue ho, h.opening_or_last he ho⟩) ?_
  · exact key.1
  · rintro s₁ es work queue s₂ es' ⟨hp, ⟨hi, ht⟩ | hnil⟩ hd
    · exact ⟨does s₁ es work queue s₂ es' ht hp hd, .inl ⟨hi, ht.doing_append hd⟩⟩
    · cases hnil

/-- **A step keeps a session tended,** unless it is the last one. -/
theorem step (manager : State) {input : Input} {returned : Option Effect}
    (h : s.Tended (before ++ returned.toList ++ after)) (he : input.Ends returned)
    (hi : input.isShutDown = false) :
    (s.step manager input).session.Tended
      (before ++ after ++ lasting (s.step manager input).effects) := by
  refine s.step_induction manager input
    (P := fun s' es _ => s'.Tended (before ++ after ++ lasting es))
    (fun s' es queue ho => h.opening he hi ho) fun s₁ es work queue s₂ es' h₁ hd => ?_
  exact h₁.doing_append hd

end Tended

/-! ## How a session comes to be connected -/

/-- **Why a session may be connected** after an input: it has been so, and has not heard of a loss,
or a change has just ended well while its manager was connected. -/
def StaysOrBecomesConnected (s : Session) (manager : State) (input : Input) : Prop :=
  s.state = .connected ∧ (∀ why, input ≠ .notice (.lost why)) ∨
    manager = .connected ∧ (input = .completion (.connected (.ok ())) ∨
      input = .completion (.reconnected (.ok ())))

/-- A change without a loss leaves a manager that is connected. -/
theorem connected_of_no_loss {manager : State} (h : Turn.lossOfChange? manager s = none) :
    manager = .connected := by
  unfold Turn.lossOfChange? at h
  split at h
  · cases h
  · by_cases hm : manager = .connected
    · exact hm
    · rw [if_neg hm] at h
      cases h

/-- **A session is connected** for no other reason. -/
theorem step_connected {manager : State} {input : Input}
    (h : (s.step manager input).session.state = .connected) :
    s.StaysOrBecomesConnected manager input := by
  refine s.step_induction manager input
    (P := fun s' _ _ => s'.state = .connected → s.StaysOrBecomesConnected manager input)
    (fun s' es queue ho => ?_) (fun s₁ es work queue s₂ es' h₁ hd => ?_) h
  · intro hs
    cases ho with
    | connected hnone => exact .inr ⟨connected_of_no_loss hnone, .inl rfl⟩
    | reconnected hnone => exact .inr ⟨connected_of_no_loss hnone, .inr rfl⟩
    | asked | cancelled | disconnect | updateCredential | unpublished | responded | dropped
    | shutDown => exact .inl ⟨hs, fun why heq => by cases heq⟩
    | noted why hst =>
      have hs : s.state = .connected := hs
      simp [hs] at hst
    | ignored hig =>
      refine .inl ⟨hs, fun why heq => ?_⟩
      subst heq
      have hs : s.state = .connected := hs
      simp [Ignores, hs] at hig
    | lostConnecting | unconnected | lostReconnecting | unreconnected | disconnected | lost =>
      cases hs
  · -- work may begin a change, but ends none
    cases hd with
    | connecting | disconnecting | reconnecting =>
      intro hs
      cases hs
    | deferred | forgotten | publishing | closedAlready | stored => exact h₁

/-! ## Courses -/

/-- **A session that runs is always tended.** -/
theorem Course.tended {c : Course} (h : Reachable c) (running : c.stopped = false) :
    c.session.Tended c.outstanding := by
  induction h with
  | start settings ids => exact .disconnected rfl rfl rfl rfl
  | @step c c' _ hs ih =>
    cases hs with
    | takes manager input e before after hrun ends unused fresh split =>
      have hold := ih hrun
      rw [split] at hold
      exact hold.step manager ends running
    | late e before after stopped split =>
      have running : c.stopped = false := running
      rw [running] at stopped
      cases stopped

end DeviceProvisioning.Session
