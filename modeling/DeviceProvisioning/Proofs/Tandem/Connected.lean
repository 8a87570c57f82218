import DeviceProvisioning.Proofs.Connection.Calm
import DeviceProvisioning.Proofs.Tandem.Calls

/-!
# A session is not connected over a dead connection

When a session is connected, so is its manager, on a link on which the broker has acknowledged the
subscription to the responses; or else the manager has told of a loss that the session has not heard
of yet.

A connection may be lost at any time while it is set up, and its loss may be told before or after
the call that sets it up is done.  What carries the proof is `Tandem.Secured`: it follows the
subscription from the link that the manager makes it on, through the broker's answer and the
result of the call, to the session.  While a call waits for a change, none of this is going on
(`Linked.secured_of_change`); at all other times the manager takes calm steps only.
-/

namespace DeviceProvisioning

open Connection (Course LinkId Manager Notice Order Ticket)
open Session (Call Duty Stage)

namespace Tandem
variable {t t' : Tandem}

/-- The manager is not connected, or the broker has acknowledged on its link that it sends the
responses. -/
def Subscribed (t : Tandem) : Prop :=
  ∀ link, t.course.manager.state = .connected → t.course.manager.link = some link →
    (link, Topic.responseFilter) ∈ t.course.granted

/-- The manager has told of a loss that the session has not heard of yet. -/
def LossUnheard (t : Tandem) : Prop :=
  ∃ why, .lost why ∈ t.unheard

/-- **What becomes of a subscription.** -/
structure Secured (t : Tandem) : Prop where
  /-- A subscription is made on the link of a manager that is connected. -/
  asked : ∀ link filter qos ticket, .subscribe link filter qos ticket ∈ t.course.outstanding →
    ∀ link', t.course.manager.state = .connected → t.course.manager.link = some link' →
      link' = link
  /-- A call that has subscribed is told so by the broker. -/
  granted : ∀ call ∈ t.calls, ∀ ticket, call.stage = .waiting .subscribing ticket →
    ticket ∈ Connection.approved t.course.record → t.Subscribed
  /-- A call that has set up a connection has subscribed. -/
  done : ∀ call ∈ t.calls, call.stage = .done (.ok ()) →
    (∃ p, call.effect = .connect p) ∨ (∃ credential, call.effect = .reconnect credential) →
      t.Subscribed
  /-- A session that is connected has subscribed, or will hear of a loss. -/
  connected : t.session.state = .connected →
    t.course.manager.state = .connected ∧ t.Subscribed ∨ t.LossUnheard

/-! ## While a call waits for a change -/

/-- **While a call waits for a change,** nobody subscribes and the session is not connected. -/
theorem Linked.secured_of_change (h : t.Linked) (running : t.stopped = false) (hchange : ¬ t.Calm) :
    t.Secured := by
  obtain ⟨call, hcall, duty, ticket, hst, htraffic⟩ : ∃ call ∈ t.calls, ∃ duty ticket,
      call.stage = .waiting duty ticket ∧ duty.command.isTraffic ≠ true := by
    simpa [Calm] using hchange
  have hserves := h.serves hcall hst
  have hpub : duty.command.isPublish = false := by
    cases hc : duty.command with
    | publish => exact absurd (by rw [hc]; rfl) htraffic
    | _ => rfl
  have hc := hserves.isChange hpub
  -- any other call that changes would be this one
  have alone : ∀ call' ∈ t.calls, call'.effect.isChange = true →
      call'.stage = .waiting duty ticket := fun call' hcall' hc' => by
    rw [← h.change_unique running hcall hcall' hc hc', hst]
  refine
    { asked := fun link filter qos ticket' hmem => ?_
      granted := fun call' hcall' ticket' hst' => ?_
      done := fun call' hcall' hst' heff => ?_
      connected := fun hs => ?_ }
  · have horder := (Course.origin h.course).2.subscribe _ _ _ _ hmem
    obtain ⟨call', hcall', duty', hst', hcmd⟩ := h.asking_waits running horder
      (List.mem_filterMap.2 ⟨_, hmem, rfl⟩)
    have hsame := alone call' hcall'
      ((h.serves hcall' hst').isChange (by rw [hcmd]; rfl))
    rw [hst'] at hsame
    obtain ⟨rfl, -⟩ : duty' = duty ∧ _ := by simpa using hsame
    exact absurd (by rw [hcmd]; rfl) htraffic
  · have hsame := alone call' hcall' ((h.serves hcall' hst').isChange rfl)
    rw [hst'] at hsame
    obtain ⟨rfl, -⟩ : Duty.subscribing = duty ∧ _ := by simpa using hsame
    exact absurd rfl htraffic
  · have hsame := alone call' hcall' (by rcases heff with ⟨p, he⟩ | ⟨c, he⟩ <;> rw [he] <;> rfl)
    rw [hst'] at hsame
    cases hsame
  · have hnot := h.no_change running (by rw [hs]; rfl) call hcall
    rw [hc] at hnot
    cases hnot

/-! ## The session -/

section Session
variable {input : Session.Input} {rest : List Call}

/-- The calls of a session that has taken an input are old ones, or are ready. -/
theorem of_mem_advance {call : Call} (hcall : call ∈ (t.advance input rest).calls) :
    call ∈ rest ∨ ∃ duty, call.stage = .ready duty := by
  rcases List.mem_append.1 hcall with hold | hnew
  · exact .inl hold
  · obtain ⟨duty, hst, -⟩ := Call.of_started hnew
    exact .inr ⟨duty, hst⟩

/-- **The session takes an input.**  What has come back with it may be the end of a call that sets
up a connection, and it may hear of a loss. -/
theorem Secured.advance (h : t.Secured) (heard : Nat) (hsub : rest ⊆ t.calls)
    (hback : input = .completion (.connected (.ok ())) ∨
      input = .completion (.reconnected (.ok ())) → t.Subscribed)
    (hloss : ∀ why, .lost why ∈ t.unheard → (∀ why, input ≠ .notice (.lost why)) →
      .lost why ∈ (Connection.told t.course.record).drop heard) :
    Secured { t.advance input rest with heard } where
  asked := h.asked
  granted call hcall ticket hst := by
    rcases of_mem_advance hcall with hold | ⟨duty, hready⟩
    · exact h.granted call (hsub hold) ticket hst
    · rw [hready] at hst
      cases hst
  done call hcall hst := by
    rcases of_mem_advance hcall with hold | ⟨duty, hready⟩
    · exact h.done call (hsub hold) hst
    · rw [hready] at hst
      cases hst
  connected hs := by
    rcases Session.step_connected hs with ⟨hold, hnot⟩ | ⟨hm, hin⟩
    · rcases h.connected hold with hgood | ⟨why, hmem⟩
      · exact .inl hgood
      · exact .inr ⟨why, hloss why hmem hnot⟩
    · exact .inl ⟨hm, hback hin⟩

end Session

/-! ## The calls -/

section Calls
variable {effect : Session.Effect} {duty : Duty} {stage : Stage} {before after : List Call}

/-- **A call goes on.** -/
theorem Secured.goesOn {result : Except Failure Unit} (h : t.Secured)
    (split : t.calls = before ++ ⟨effect, stage⟩ :: after)
    (hdone : duty.next result = .done (.ok ()) →
      (∃ p, effect = .connect p) ∨ (∃ credential, effect = .reconnect credential) →
        t.Subscribed) :
    Secured { t with calls := before ++ ⟨effect, duty.next result⟩ :: after } := by
  refine
    { h with
      granted := fun call hcall ticket hst => ?_
      done := fun call hcall hst heff => ?_ }
  · rcases Linked.old_or_new split hcall with hmem | rfl
    · exact h.granted call hmem ticket hst
    · exact absurd hst (duty.next_ne_waiting _ result ticket)
  · rcases Linked.old_or_new split hcall with hmem | rfl
    · exact h.done call hmem hst heff
    · exact hdone hst heff

/-- **A call gives an order.**  It is new, so nobody has been told anything about it. -/
theorem Secured.asks (h : t.Secured) (hl : t.Linked)
    (split : t.calls = before ++ ⟨effect, .ready duty⟩ :: after) :
    Secured
      { t with
        calls := before ++ ⟨effect, .waiting duty t.given⟩ :: after
        orders := t.orders ++ [⟨t.given, duty.command⟩]
        given := t.given + 1 } := by
  refine
    { h with
      granted := fun call hcall ticket hst hmem => ?_
      done := fun call hcall hst => ?_ }
  · rcases Linked.old_or_new split hcall with hmem' | rfl
    · exact h.granted call hmem' ticket hst hmem
    · obtain ⟨-, rfl⟩ : duty = .subscribing ∧ t.given = ticket := by simpa using hst
      obtain ⟨o, ho, hticket⟩ := Course.order_of_answered hl.course
        (Connection.answered_of_approved hmem)
      exact absurd hticket (Nat.ne_of_lt (hl.below o (List.mem_append_left _ ho)))
  · rcases Linked.old_or_new split hcall with hmem' | rfl
    · exact h.done call hmem' hst
    · cases hst

end Calls

/-! ## The manager -/

section Manager
variable {course : Course} {orders : List Order}

/-- Whoever asks for a subscription to the responses has given no other order. -/
theorem Linked.subscribing (h : t.Linked) {call : Call} {ticket : Ticket} {o : Order}
    (hcall : call ∈ t.calls) (hst : call.stage = .waiting .subscribing ticket)
    (ho : o ∈ t.course.orders) (hticket : o.ticket = ticket) :
    o.command = .subscribe Topic.responseFilter .atLeastOnce := by
  have hasked := h.asked call hcall _ ticket hst
  exact congrArg Order.command (h.order_unique (List.mem_append_left _ ho) hasked hticket)

/-- What the manager has told of is not unsaid. -/
theorem LossUnheard.more (hs : t.course.record <+: course.record) (h : t.LossUnheard)
    (hheard : t.heard ≤ (Connection.told t.course.record).length) :
    LossUnheard { t with course, orders } := by
  obtain ⟨es, hes⟩ := hs
  obtain ⟨why, hmem⟩ := h
  refine ⟨why, ?_⟩
  rw [unheard_more { t with course, orders } hheard hes.symm rfl]
  exact List.mem_append_left _ hmem

/-- **The manager takes a calm step.** -/
theorem Secured.calm {es : List Connection.Effect} (h : t.Secured) (hl : t.Linked)
    (hcalm : Manager.Calm t.course.manager course.manager es)
    (hgranted : course.granted = t.course.granted) (hrecord : course.record = t.course.record ++ es)
    (houtstanding : ∀ e ∈ course.outstanding,
      e ∈ t.course.outstanding ∨ e ∈ Connection.lasting es) :
    Secured { t with course, orders } := by
  have keeps : t.Subscribed → Subscribed { t with course, orders } := fun hsub link hs hlink => by
    show _ ∈ course.granted
    rw [hgranted]
    rcases hcalm.keeps with ⟨hstate, hkept⟩ | ⟨-, hstate, -⟩
    · exact hsub link (hstate ▸ hs) (hkept ▸ hlink)
    · rw [hstate] at hs
      cases hs
  refine
    { asked := fun link filter qos ticket hmem link' hs hlink => ?_
      granted := fun call hcall ticket hst hmem => ?_
      done := fun call hcall hst heff => keeps (h.done call hcall hst heff)
      connected := fun hs => ?_ }
  · rcases houtstanding _ hmem with hold | hnew
    · rcases hcalm.keeps with ⟨hstate, hkept⟩ | ⟨-, hstate, -⟩
      · exact h.asked link filter qos ticket hold link' (hstate ▸ hs) (hkept ▸ hlink)
      · rw [hstate] at hs
        cases hs
    · obtain ⟨-, hown⟩ := hcalm.subscribes link filter qos ticket hnew
      rw [hown] at hlink
      exact (Option.some.inj hlink).symm
  · rw [hrecord, Connection.approved_append, List.mem_append] at hmem
    rcases hmem with hold | hnew
    · exact keeps (h.granted call hcall ticket hst hold)
    · -- a message has arrived, and nobody subscribes with the ticket of a message
      obtain ⟨p, hp, rfl⟩ := List.mem_map.1 (hcalm.grants ticket hnew)
      obtain ⟨o, ho, hticket, hpub⟩ := (Course.origin hl.course).1.inFlight p hp
      rw [hl.subscribing hcall hst ho hticket] at hpub
      cases hpub
  · rcases h.connected hs with ⟨hm, hsub⟩ | hloss
    · rcases hcalm.keeps with ⟨hstate, -⟩ | ⟨-, -, -, why, htold⟩
      · exact .inl ⟨hstate.trans hm, keeps hsub⟩
      · -- the loss has just been told, so it comes after all that was heard
        refine .inr ⟨why, ?_⟩
        rw [unheard_more { t with course, orders } hl.heard hrecord rfl]
        exact List.mem_append_right _ htold
    · exact .inr (hloss.more ⟨es, hrecord.symm⟩ hl.heard)

/-- **The broker answers.**  If it acknowledges a subscription, this was made on the link of the
manager. -/
theorem Secured.told {ticket : Ticket} {result : Except Failure Unit} (h : t.Secured)
    (hl : t.Linked) (hmanager : course.manager = t.course.manager)
    (hgranted : t.course.granted ⊆ course.granted)
    (hrecord : course.record = t.course.record ++ [.answer ticket result])
    (houtstanding : course.outstanding ⊆ t.course.outstanding)
    (hyes : result = .ok () → ∀ call ∈ t.calls,
      call.stage = .waiting .subscribing ticket →
        Subscribed { t with course, orders }) :
    Secured { t with course, orders } := by
  have keeps : t.Subscribed → Subscribed { t with course, orders } := fun hsub link hs hlink =>
    hgranted (hsub link (hmanager ▸ hs) (hmanager ▸ hlink))
  refine
    { asked := fun link filter qos ticket' hmem link' hs hlink =>
        h.asked link filter qos ticket' (houtstanding hmem) link' (hmanager ▸ hs) (hmanager ▸ hlink)
      granted := fun call hcall ticket' hst hmem => ?_
      done := fun call hcall hst heff => keeps (h.done call hcall hst heff)
      connected := fun hs => ?_ }
  · rw [hrecord, Connection.approved_append, List.mem_append] at hmem
    rcases hmem with hold | hnew
    · exact keeps (h.granted call hcall ticket' hst hold)
    · obtain ⟨rfl, rfl⟩ : ticket' = ticket ∧ .ok () = result := by
        simpa using Connection.mem_approved.1 hnew
      exact hyes rfl call hcall hst
  · rcases h.connected hs with ⟨hm, hsub⟩ | hloss
    · refine .inl ⟨?_, keeps hsub⟩
      show course.manager.state = _
      rw [hmanager, hm]
    · exact .inr (hloss.more ⟨_, hrecord.symm⟩ hl.heard)

/-- **The manager takes an input** while no call waits for a change, so it is not asked for one. -/
theorem Secured.follow (h : t.Secured) (hl : t.Linked) (running : t.stopped = false) (calm : t.Calm)
    (now : Time.Millis) (orders : List Order) (before after : List Connection.Effect)
    {input : Connection.Input} {e : Option Connection.Effect} (ends : input.Ends e)
    (split : t.course.outstanding = before ++ e.toList ++ after)
    (hi : input.isShutDown = false) (ho : ∀ o, input = .order o → o.command.isTraffic) :
    Secured { t with course := t.course.follow now input (before ++ after), orders } := by
  have htended := Course.tended hl.course (hl.runs running)
  rw [split] at htended
  have hcalm := htended.calm_step now ends hi (hl.unwaited running calm) ho
  refine h.calm hl hcalm rfl rfl fun e' he' => ?_
  rcases List.mem_append.1 he' with hold | hnew
  · refine .inl ?_
    rw [split]
    rcases List.mem_append.1 hold with hb | ha
    · exact List.mem_append_left _ (List.mem_append_left _ hb)
    · exact List.mem_append_right _ ha
  · exact .inr hnew

/-- **The manager does something by itself.** -/
theorem Secured.own (h : t.Secured) (hl : t.Linked) (running : t.stopped = false) (calm : t.Calm)
    (hs : Course.Step t.course course) (own : course.taken = t.course.taken)
    (held : course.stopped = false) : Secured { t with course } := by
  cases hs with
  | takes now input e before after hrun ends admits split =>
    refine h.follow hl running calm now t.orders before after ends split held fun o ho => ?_
    subst ho
    rw [Connection.Course.taken_follow] at own
    simp [Connection.Input.ticket?] at own
  | subscribed link filter qos ticket result before after split =>
    have hmem : .subscribe link filter qos ticket ∈ t.course.outstanding := by rw [split]; simp
    refine h.told hl rfl ?_ rfl ?_ fun hyes call hcall hst link' hstate hlink => ?_
    · cases result with
      | ok _ => exact List.subset_append_left _ _
      | error error => exact List.Subset.refl _
    · rw [split]
      exact ((List.Sublist.refl _).append (List.sublist_cons_self _ _)).subset
    · -- the broker has answered on the manager's link, and for the filter of the responses
      obtain rfl : link' = link := h.asked link filter qos ticket hmem link' hstate hlink
      have horder := (Course.origin hl.course).2.subscribe _ _ _ _ hmem
      have hcmd := hl.subscribing hcall hst horder rfl
      cases result with
      | error error => cases hyes
      | ok _ =>
        obtain ⟨rfl, -⟩ : filter = Topic.responseFilter ∧ _ := by simpa using hcmd
        exact List.mem_append_right _ (List.mem_singleton.2 rfl)
  | unsubscribed link filter ticket result before after split =>
    have hmem : .unsubscribe link filter ticket ∈ t.course.outstanding := by rw [split]; simp
    refine h.told hl rfl (List.Subset.refl _) rfl ?_ fun hyes call hcall hst => ?_
    · rw [split]
      exact ((List.Sublist.refl _).append (List.sublist_cons_self _ _)).subset
    · have horder := (Course.origin hl.course).2.unsubscribe _ _ _ hmem
      cases hl.subscribing hcall hst horder rfl
  | late e before after stopped silent split =>
    rw [hl.runs running] at stopped
    cases stopped

end Manager

/-! ## Steps -/

/-- A session that has not been shut down was not before. -/
theorem Step.running (hs : Step t t') (running : t'.stopped = false) : t.stopped = false := by
  cases hs with
  | order _ h | hears _ _ h | completes _ _ _ _ _ h | shutDown h => exact h
  | asks | refused | answered | takes | manager => exact running

/-- **A step keeps a tandem secured.**  After a step that leaves a call waiting for a change there
is nothing to be secured; before any other the manager waits for nothing, and is asked for nothing
but traffic. -/
theorem Secured.step (h : t.Secured) (hl : t.Linked) (hl' : t'.Linked) (hs : Step t t')
    (running : t'.stopped = false) : t'.Secured := by
  by_cases calm : t'.Calm
  · cases hs with
    | order order =>
      refine h.advance t.heard (List.Subset.refl _) (fun hin => ?_) fun why hmem _ => hmem
      simp at hin
    | hears notice rest hrun first =>
      refine h.advance (t.heard + 1) (List.Subset.refl _) (fun hin => ?_) fun why hmem hnot => ?_
      · simp at hin
      · rw [(Takes.hears notice rest hrun first).unheard] at hmem
        rcases List.mem_cons.1 hmem with rfl | hrest
        · exact absurd rfl (hnot why)
        · exact hrest
    | completes effect result completion before after _ split comes =>
      refine h.advance t.heard ?_ (fun hin => ?_) fun why hmem _ => hmem
      · rw [split]
        exact ((List.Sublist.refl _).append (List.sublist_cons_self _ _)).subset
      · have hcall : ⟨effect, .done result⟩ ∈ t.calls := by rw [split]; simp
        refine h.done _ hcall ?_ ?_ <;> cases effect <;> cases comes <;> simp_all
    | shutDown => cases running
    | asks effect duty before after split accepted => exact h.asks hl split
    | refused effect duty why before after split rejected =>
      refine h.goesOn split fun hdone => ?_
      cases (Duty.of_next_done hdone).1
    | answered effect duty ticket result before after split answer =>
      refine h.goesOn split fun hdone heff => ?_
      have hcall : ⟨effect, .waiting duty ticket⟩ ∈ t.calls := by rw [split]; simp
      obtain ⟨rfl, rfl | ⟨command, rfl⟩⟩ := Duty.of_next_done hdone
      · exact h.granted _ hcall ticket rfl (Connection.mem_approved.2 answer)
      · exact absurd heff (Duty.Serves.not_single (hl.fits _ hcall))
    | takes now order rest _ first =>
      have hcalls : t.Calm := calm
      have horder : order ∈ t.orders := by rw [first]; exact List.mem_cons_self
      obtain ⟨call, hcall, duty, hst, hcmd⟩ := hl.order_waits running horder
      have hf := h.follow hl running hcalls now rest t.course.outstanding [] (.order order)
        (by simp) rfl fun o ho => by
          obtain rfl : order = o := by simpa using ho
          rw [← hcmd]
          exact hcalls call hcall duty _ hst
      rwa [List.append_nil] at hf
    | manager course step own held => exact h.own hl running calm step own (hl'.runs running)
  · exact hl'.secured_of_change running calm

/-- **In every tandem** whose session has not been shut down, a subscription stays what it is. -/
theorem secured (h : Reachable t) (running : t.stopped = false) : t.Secured := by
  induction h with
  | start settings ids patience messageIds =>
    exact
      { asked := fun _ _ _ _ hmem => absurd hmem List.not_mem_nil
        granted := fun _ hmem => absurd hmem List.not_mem_nil
        done := fun _ hmem => absurd hmem List.not_mem_nil
        connected := fun hs => by cases hs }
  | step h hs ih => exact (ih (hs.running running)).step (linked h) (linked (h.step hs)) hs running

/-! ## The property -/

/-- **A session is not connected over a dead connection.**  Whenever it is connected, its manager is
connected too, and on the manager's link the broker has acknowledged the subscription to the
responses; or else there is a notice of a loss that the session has not heard yet. -/
theorem connected_or_loss_unheard (h : Reachable t) (running : t.stopped = false)
    (hs : t.session.state = .connected) :
    (t.course.manager.state = .connected ∧ ∃ link, t.course.manager.link = some link ∧
      (link, Topic.responseFilter) ∈ t.course.granted) ∨ ∃ why, .lost why ∈ t.unheard := by
  have hl := linked h
  rcases (secured h running).connected hs with ⟨hm, hsub⟩ | hloss
  · have htended := Course.tended hl.course (hl.runs running)
    obtain ⟨link, hlink⟩ := htended.standing.link_of_connected hm
    exact .inl ⟨hm, link, hlink, hsub link hm hlink⟩
  · exact .inr hloss

/-- The settings of a session with a broker of its own. -/
def plainSettings : Session.Settings where
  idScope := "scope"
  credential := .signature "signature"
  brokerUri := some "mqtt://broker"

theorem check_plainSettings :
    Connection.Command.check (.connect (plainSettings.parameters "device")) = .ok () := by
  rfl

theorem registering_device_connected :
    ∃ t : Tandem, Reachable t ∧ t.stopped = false ∧ t.session.state = .connected ∧
      ((t.course.manager.state = .connected ∧ ∃ link, t.course.manager.link = some link ∧
        (link, Topic.responseFilter) ∈ t.course.granted) ∨ ∃ why, .lost why ∈ t.unheard) := by
  let p := plainSettings.parameters "device"
  have request := (Reachable.start plainSettings .sequential 30000 .sequential).step
    (.order ⟨0, .ask ⟨"device", none⟩ .registration⟩ rfl)
  have connect := request.step
    (.asks (.connect p) (.entering (.connect p)) [] [] rfl check_plainSettings)
  have taken := connect.step (.takes 0 ⟨0, .connect p⟩ [] rfl rfl)
  have dialled := taken.step (.manager _
    (.takes 0 (.completion (.dialled 1 (.ok 5))) (some _) [] [] rfl (.dialled _ p _) (by decide)
      rfl) rfl (by simp [Course.follow, Connection.Input.isShutDown]))
  have entered := dialled.step (.answered _ _ 0 (.ok ()) [] [] rfl
    (List.mem_of_getElem? (i := 5) rfl))
  have subscribe := entered.step (.asks (.connect p) .subscribing [] [] rfl rfl)
  have asked := subscribe.step
    (.takes 0 ⟨1, .subscribe Topic.responseFilter .atLeastOnce⟩ [] rfl rfl)
  have subscribed := asked.step (.manager _
    (.subscribed 5 Topic.responseFilter .atLeastOnce 1 (.ok ()) [] [] rfl) rfl
    (by simp [Course.follow, Connection.Input.isShutDown]))
  have answered := subscribed.step (.answered _ _ 1 (.ok ()) [] [] rfl
    (List.mem_of_getElem? (i := 7) rfl))
  have completed := answered.step (.completes (.connect p) (.ok ()) _ [] [] rfl rfl rfl)
  exact ⟨_, completed, rfl, rfl, connected_or_loss_unheard completed rfl rfl⟩

end Tandem

end DeviceProvisioning
