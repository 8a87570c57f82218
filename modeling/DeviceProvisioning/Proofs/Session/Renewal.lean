import DeviceProvisioning.Proofs.Session.Messages

/-!
# The newest credential of a session

A session carries out updates of its credential in the order in which they came in.  So those that
a step carries out can be read off what waits before and after it (`Session.Executes`): they are the
ones that have waited, or come in, and wait no more.

The credential of the settings is that of the latest update carried out (`Tended.renews`).  And
since a session changes in one way at a time, no call is on its way with which it connects or
reconnects when the credential becomes another one: all calls bear the credential of the settings
(`Effect.Bears`).
-/

namespace DeviceProvisioning.Session

open Connection (Credential Parameters State Ticket)

/-- The credential of an update that waits. -/
def Work.credential? : Work → Option Credential
  | updateCredential credential _ => some credential
  | publish _ | disconnect _ => none

/-- The credential of an update that comes in. -/
def Input.credential? : Input → Option Credential
  | order ⟨_, .updateCredential credential⟩ => some credential
  | _ => none

/-- The credentials of the updates that wait. -/
def renewals (works : List Work) : List Credential :=
  works.filterMap Work.credential?

@[simp] theorem renewals_nil : renewals [] = [] := rfl

@[simp] theorem renewals_cons (work : Work) (works : List Work) :
    renewals (work :: works) = work.credential?.toList ++ renewals works := by
  cases h : work.credential? <;> simp [renewals, h]

@[simp] theorem renewals_append (works works' : List Work) :
    renewals (works ++ works') = renewals works ++ renewals works' :=
  List.filterMap_append

/-- The last of the credentials, or else the one that there was. -/
def latest (credential : Credential) (executed : List Credential) : Credential :=
  executed.getLast?.getD credential

@[simp] theorem latest_nil (credential : Credential) : latest credential [] = credential := rfl

@[simp] theorem latest_append_singleton (credential c : Credential) (executed : List Credential) :
    latest credential (executed ++ [c]) = c := by
  simp [latest]

/-- **The updates that a session carries out** between one step and the next: those that have waited
or come in, and wait no more. -/
def Executes (s : Session) (input : Input) (executed : List Credential) (s' : Session) : Prop :=
  renewals s.deferred ++ input.credential?.toList = executed ++ renewals s'.deferred

/-- What is carried out is determined by what waits. -/
theorem Executes.unique {s s' : Session} {input : Input} {executed executed' : List Credential}
    (h : s.Executes input executed s') (h' : s.Executes input executed' s') :
    executed = executed' :=
  List.append_cancel_right (h.symm.trans h')

/-- Whether an effect enters a connection with this credential, if it enters one at all. -/
def Effect.Bears (credential : Credential) : Effect → Prop
  | connect p => p.credential = some credential
  | reconnect c => c = credential
  | disconnect | publish .. | respond .. | answer .. | notify _ | count _ => True

/-- The updates that have been carried out in the middle of a step, and the credential of the
settings, which every change on its way bears. -/
structure Renewed (s : Session) (input : Input) (tasks : List Effect) (s' : Session)
    (es : List Effect) (queue : List Work) : Prop where
  executed : ∃ executed,
    renewals s.deferred ++ input.credential?.toList = executed ++ renewals (s'.waiting queue) ∧
      s'.settings.credential = latest s.settings.credential executed
  bears : ∀ e ∈ changes (tasks ++ lasting es), e.Bears s'.settings.credential

variable {manager : State} {s s' : Session} {es tasks before after : List Effect}
  {queue : List Work} {input : Input}

/-- Nothing is carried out by itself, and no change begins. -/
theorem opening_renewed (hi : input.isShutDown = false)
    (hbears : ∀ e ∈ changes tasks, e.Bears s.settings.credential)
    (ho : Opening manager s input s' es queue) : s.Renewed input tasks s' es queue := by
  -- the same updates wait, and the settings and the calls are what they were
  have same (hq : renewals (s'.waiting queue) = renewals s.deferred ++ input.credential?.toList)
      (hset : s'.settings = s.settings) (hes : lasting es = []) :
      s.Renewed input tasks s' es queue := by
    refine ⟨⟨[], by rw [hq, List.nil_append], by rw [hset, latest_nil]⟩, ?_⟩
    rw [hes, List.append_nil, hset]
    exact hbears
  cases ho with
  | asked | disconnect | updateCredential | cancelled | connected | lostConnecting | unconnected
  | reconnected | lostReconnecting | unreconnected | disconnected | unpublished | responded
  | dropped | lost | noted =>
    refine same ?_ rfl ?_ <;>
      simp [waiting, asked, changed, fallen, without, Work.credential?, Input.credential?,
        Effect.isLasting]
  | ignored hig =>
    have hnone : input.credential? = none := by
      cases input <;> first | rfl | exact absurd hig id
    exact same (by simp [waiting, hnone]) rfl rfl
  | shutDown => cases hi

/-- **The doing of work** carries out an update, or leaves the credential what it is. -/
theorem Renewed.doing {s₁ : Session} {work : Work} {es₁ : List Effect}
    (h : s.Renewed input tasks s₁ es₁ (work :: queue)) (ht : s₁.Tended (tasks ++ lasting es₁))
    (hd : Doing s₁ work s' es) : s.Renewed input tasks s' (es₁ ++ es) queue := by
  obtain ⟨⟨executed, hsplit, hcred⟩, hbears⟩ := h
  -- a session that has settled has nothing put off, and no change under way
  have hsettled (hs : s₁.state.isTransitional = false) :
      changes (tasks ++ lasting es₁) = [] ∧ s₁.deferred = [] :=
    ⟨(Standing.of_settled ht hs).1, (Standing.of_settled ht hs).2.2.1⟩
  have hadd (e : Effect) : e ∈ changes (tasks ++ lasting (es₁ ++ es)) ↔
      e ∈ changes (tasks ++ lasting es₁) ∨ e ∈ changes es := by
    simp [or_assoc]
  cases hd with
  | deferred work htr =>
    refine ⟨⟨executed, by simpa [waiting] using hsplit, hcred⟩, fun e hmem => ?_⟩
    simpa using hbears e (by simpa using hmem)
  | connecting id op hs hp =>
    refine ⟨⟨executed, by simpa [waiting] using hsplit, hcred⟩, fun e hmem => ?_⟩
    rcases (hadd e).1 hmem with hold | hnew
    · exact hbears e hold
    · obtain rfl : e = .connect (s₁.settings.parameters op.registrationId) := by
        simpa [Effect.isChange] using hnew
      rfl
  | forgotten | publishing | closedAlready =>
    refine ⟨⟨executed, by simpa [waiting, Work.credential?] using hsplit, hcred⟩, fun e hmem => ?_⟩
    refine hbears e (((hadd e).1 hmem).resolve_right ?_)
    simp [Effect.isChange]
  | disconnecting ticket hs =>
    refine ⟨⟨executed, by simpa [waiting, Work.credential?] using hsplit, hcred⟩, fun e hmem => ?_⟩
    rcases (hadd e).1 hmem with hold | hnew
    · exact hbears e hold
    · obtain rfl : e = .disconnect := by simpa [Effect.isChange] using hnew
      trivial
  | stored credential ticket hs =>
    obtain ⟨hnone, hq⟩ := hsettled (by rw [hs]; rfl)
    refine ⟨⟨executed ++ [credential], ?_, by simp⟩, fun e hmem => ?_⟩
    · simpa [waiting, hq, Work.credential?] using hsplit
    · rcases (hadd e).1 hmem with hold | hnew
      · rw [hnone] at hold
        cases hold
      · simp [Effect.isChange] at hnew
  | reconnecting credential ticket hs =>
    obtain ⟨hnone, hq⟩ := hsettled (by rw [hs]; rfl)
    refine ⟨⟨executed ++ [credential], ?_, by simp⟩, fun e hmem => ?_⟩
    · simpa [waiting, hq, Work.credential?] using hsplit
    · rcases (hadd e).1 hmem with hold | hnew
      · rw [hnone] at hold
        cases hold
      · obtain rfl : e = .reconnect credential := by simpa [Effect.isChange] using hnew
        rfl

/-- **A step carries out updates**, the credential of the settings is that of the latest, and every
change on its way bears it. -/
theorem Tended.renews (manager : State) {returned : Option Effect}
    (ht : s.Tended (before ++ returned.toList ++ after)) (he : input.Ends returned)
    (hi : input.isShutDown = false)
    (hbears : ∀ e ∈ changes (before ++ returned.toList ++ after), e.Bears s.settings.credential) :
    (∃ executed, s.Executes input executed (s.step manager input).session ∧
      (s.step manager input).session.settings.credential
        = latest s.settings.credential executed) ∧
    ∀ e ∈ changes (before ++ after ++ lasting (s.step manager input).effects),
      e.Bears (s.step manager input).session.settings.credential := by
  have hfewer : ∀ e ∈ changes (before ++ after), e.Bears s.settings.credential := by
    intro e hmem
    refine hbears e ?_
    simp only [changes_append, List.mem_append] at hmem ⊢
    exact hmem.imp_left .inl
  have key := ht.step_induction manager he
    (P := fun s' es queue => s.Renewed input (before ++ after) s' es queue)
    (fun s' es queue ho => opening_renewed hi hfewer ho)
    fun s₁ es work queue s₂ es' ht₁ h₁ hd => h₁.doing ht₁ hd
  obtain ⟨⟨executed, hsplit, hcred⟩, hb⟩ := key
  exact ⟨⟨executed, by simpa [Executes, waiting] using hsplit, hcred⟩, hb⟩

/-- The last step leaves the settings as they are, and starts nothing. -/
theorem step_shutDown (manager : State) (s : Session) :
    (s.step manager .shutDown).session.settings = s.settings ∧
      lasting (s.step manager .shutDown).effects = [] := by
  have key := s.step_induction manager .shutDown
    (P := fun s' es queue => queue = [] ∧ s'.settings = s.settings ∧ lasting es = [])
    (fun s' es queue ho => ?_)
    fun s₁ es work queue s₂ es' h₁ _ => absurd h₁.1 (List.cons_ne_nil work queue)
  · exact key.2
  · cases ho with
    | shutDown => exact ⟨rfl, rfl, by simp⟩
    | ignored hig => exact absurd hig id

end DeviceProvisioning.Session
