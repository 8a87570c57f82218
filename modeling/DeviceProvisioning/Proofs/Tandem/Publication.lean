import DeviceProvisioning.Proofs.Session.Messages
import DeviceProvisioning.Proofs.Tandem.Play
import DeviceProvisioning.Proofs.Tandem.Subscription

/-!
# On which links a session publishes

A session publishes only while it is connected, so a call that publishes has been started when there
was a subscription.  But it is a call of its own, and may be slow to give its order.  Meanwhile the
session may begin to reconnect, and the order of that call may reach the manager first.  Then the
manager connects before it publishes, and publishes on a new link, where there is no subscription
yet (`published_without_subscription`).

There is no other way for this to happen.  As long as no call **overtakes** a message (`Orderly`),
orders to publish come before any order to enter a connection: this is kept along the orders that
wait at the manager, since it takes them in the order in which they came (`InOrder`).  And while a
call has entered a connection and is not done, there is nothing to be published at all.
-/

namespace DeviceProvisioning

/-- Whether an effect publishes on one of some links. -/
def Connection.Effect.publishesOn (links : LinkId → Bool) : Effect → Bool
  | publish link .. => links link
  | _ => false

open Connection (Course LinkId Order Ticket)
open Session (Call Duty Stage)
open Time (Millis)

namespace Session

/-- Whether a call has still to give its order to publish. -/
def Call.isToPublish (call : Call) : Bool :=
  match call.stage with
  | .ready duty => duty.command.isPublish
  | .waiting .. | .done _ => false

/-- A call that goes on has nothing to publish. -/
theorem Duty.next_not_toPublish (duty : Duty) (result : Except Failure Unit) (effect : Effect) :
    (Call.mk effect (duty.next result)).isToPublish = false := by
  cases duty <;> cases result <;> rfl

/-- Whoever waits for a connection to be entered has ordered it. -/
theorem Duty.Serves.isEntry {effect : Effect} {command : Connection.Command}
    (h : (Duty.entering command).Serves effect) : command.isEntry = true := by
  cases h <;> rfl

/-- A call that has been started is not under way, and if it is to publish then an operation has
been handed over. -/
theorem Call.new_of_started {es : List Effect} {call : Call} (h : call ∈ started es) :
    call.stage.isUnderWay = false ∧ (call.isToPublish = true → ∃ id, id ∈ handed es) := by
  obtain ⟨e, he, hcall⟩ := List.mem_filterMap.1 h
  cases e with
  | connect | disconnect | reconnect =>
    cases hcall
    exact ⟨rfl, nofun⟩
  | publish id topic body =>
    cases hcall
    exact ⟨rfl, fun _ => ⟨id, List.mem_filterMap.2 ⟨_, he, rfl⟩⟩⟩
  | respond | answer | notify | count => cases hcall

end Session

namespace Tandem
variable {t t' : Tandem}

/-! ## Orderly tandems -/

/-- **A step overtakes a message**: an order to enter a connection is given, while a call has still
to give its order to publish. -/
def Overtakes (t t' : Tandem) : Prop :=
  (∃ o ∈ t'.orders.drop t.orders.length, o.command.isEntry = true) ∧
    ∃ call ∈ t.calls, call.isToPublish = true

instance (t t' : Tandem) : Decidable (t.Overtakes t') :=
  inferInstanceAs (Decidable (_ ∧ _))

/-- **The tandems that come about without a message being overtaken.** -/
inductive Orderly : Tandem → Prop where
  | start (settings : Session.Settings) (ids : RequestId.Source) (patience : Millis)
      (messageIds : RequestId.Source) :
    Orderly
      { session := { settings, ids }, course := { manager := { patience, ids := messageIds } } }
  | step {t t' : Tandem} (h : Orderly t) (hs : Step t t') (waits : ¬ t.Overtakes t') : Orderly t'

theorem Orderly.reachable (h : Orderly t) : Reachable t := by
  induction h with
  | start settings ids patience messageIds => exact .start settings ids patience messageIds
  | step h hs waits ih => exact ih.step hs

/-- **Messages keep ahead of connections.** -/
structure InOrder (t : Tandem) : Prop where
  /-- While a call is under way to a connection, no other is to publish. -/
  still : ∀ call ∈ t.calls, call.stage.isUnderWay = true →
    ∀ call' ∈ t.calls, call'.isToPublish = false
  /-- Nothing is to be published behind an order to enter a connection. -/
  behind : t.waiting.Pairwise fun o o' => o.command.isEntry = true → o'.command.isPublish = false
  /-- Nothing is to be published when a connection has been entered. -/
  passed : ∀ call ∈ t.calls, t.Entered call → ∀ o ∈ t.waiting, o.command.isPublish = false

/-- A call that is under way to a connection changes it. -/
theorem Linked.isChange_of_underWay (h : t.Linked) {call : Call} (hcall : call ∈ t.calls)
    (hunder : call.stage.isUnderWay = true) : call.effect.isChange = true := by
  obtain ⟨effect, stage⟩ := call
  have hfits := h.fits _ hcall
  cases stage with
  | ready duty => exact (Duty.Serves.isChange_of_setUp hfits (Duty.isSetUp_of_ready hunder)).1
  | waiting duty ticket =>
    exact (Duty.Serves.isChange_of_setUp hfits (Duty.isSetUp_of_waiting hunder)).1
  | done result => cases hunder

namespace InOrder

/-! ## Steps of the session and of calls -/

/-- **The session has taken an input.**  It starts no call that publishes while there is one that
changes the connection. -/
theorem takes {input : Session.Input} {rest : List Call} (h : t.InOrder) (hl : t.Linked)
    (hgoes : t.Goes input rest t') : t'.InOrder := by
  have hw : t'.waiting = t.waiting := by rw [waiting, waiting, hgoes.course, hgoes.orders]
  have old {call : Call} (hcall : call ∈ t'.calls) (hunder : call.stage.isUnderWay = true) :
      call ∈ rest := by
    rw [hgoes.calls, List.mem_append] at hcall
    refine hcall.resolve_right fun hnew => ?_
    rw [(Call.new_of_started hnew).1] at hunder
    cases hunder
  refine { still := ?_, behind := ?_, passed := ?_ }
  · intro call hcall hunder call' hcall'
    have hrest := old hcall hunder
    rw [hgoes.calls, List.mem_append] at hcall'
    rcases hcall' with hold | hnew
    · exact h.still call (hgoes.sub hrest) hunder call' (hgoes.sub hold)
    · cases hpub : call'.isToPublish with
      | false => rfl
      | true =>
        -- an operation has been handed over, so no change is on its way
        obtain ⟨id, hid⟩ := (Call.new_of_started hnew).2 hpub
        obtain ⟨before, returned, after, hend, -, hcalls, heffects⟩ := hgoes.ends
        have ht := hl.tended hgoes.running
        rw [hcalls] at ht
        have hnone := ht.no_change_of_handed t.course.manager.state hend hid
        have hmem : call.effect ∈ Session.changes (rest.map Call.effect) :=
          List.mem_filter.2 ⟨List.mem_map.2 ⟨call, hrest, rfl⟩,
            hl.isChange_of_underWay (hgoes.sub hrest) hunder⟩
        rw [heffects, hnone] at hmem
        cases hmem
  · rw [hw]
    exact h.behind
  · intro call hcall hentered
    rw [hw]
    rw [Entered, hw] at hentered
    exact h.passed call (hgoes.sub (old hcall hentered.1)) hentered

/-- **One more order has been given** by calls that have come no further otherwise.  If it publishes
then nobody is under way to a connection. -/
theorem more {calls : List Call} {o : Order} (h : t.InOrder) (hl : t.Linked) (ha : t.Attended)
    (hcalls : ∀ call ∈ calls, call.isToPublish = true → call ∈ t.calls)
    (hpub : o.command.isPublish = true → ∃ call ∈ t.calls, call.isToPublish = true)
    (hunder : ∀ call ∈ calls, call.stage.isUnderWay = true →
      (∃ call' ∈ t.calls, call'.stage.isUnderWay = true) ∨
        ∀ call' ∈ t.calls, call'.isToPublish = false)
    (hentered : ∀ call ∈ calls, Entered { t with orders := t.orders ++ [o] } call →
      ∃ call' ∈ t.calls, t.Entered call') :
    InOrder { t with calls, orders := t.orders ++ [o], given := t.given + 1 } := by
  have hw : waiting { t with calls, orders := t.orders ++ [o], given := t.given + 1 }
      = t.waiting ++ [o] := t.waiting_more o
  -- nothing is published behind a call that is under way
  have silent {call : Call} (hcall : call ∈ t.calls) (hst : call.stage.isUnderWay = true) :
      o.command.isPublish = false := by
    cases ho : o.command.isPublish with
    | false => rfl
    | true =>
      obtain ⟨call', hcall', hto⟩ := hpub ho
      rw [h.still call hcall hst call' hcall'] at hto
      cases hto
  refine { still := ?_, behind := ?_, passed := ?_ }
  · intro call hcall hst call' hcall'
    cases hto : call'.isToPublish with
    | false => rfl
    | true =>
      have hmem := hcalls call' hcall' hto
      rcases hunder call hcall hst with ⟨call₀, hcall₀, hst₀⟩ | hnone
      · rw [← hto, h.still call₀ hcall₀ hst₀ call' hmem]
      · rw [← hto, hnone call' hmem]
  · rw [hw, List.pairwise_append]
    refine ⟨h.behind, List.pairwise_singleton _ _, ?_⟩
    intro o₁ ho₁ o₂ ho₂ hentry
    obtain rfl := List.mem_singleton.1 ho₂
    obtain ⟨hissued, hun⟩ := hl.unanswered ho₁
    obtain ⟨call, hcall, hst, -⟩ := ha.entering hl hissued hun hentry
    exact silent hcall (by rw [hst]; rfl)
  · intro call hcall hent o' ho'
    obtain ⟨call', hcall', hent'⟩ := hentered call hcall hent
    rw [hw, List.mem_append] at ho'
    rcases ho' with hold | hnew
    · exact h.passed call' hcall' hent' o' hold
    · rw [List.mem_singleton.1 hnew]
      exact silent hcall' hent'.1

section Calls
variable {effect : Session.Effect} {duty : Duty} {stage : Stage} {before after : List Call}

/-- **A call goes on.** -/
theorem goesOn {result : Except Failure Unit} (h : t.InOrder)
    (split : t.calls = before ++ ⟨effect, stage⟩ :: after)
    (hset : (duty.next result).isUnderWay = true → t.Entered ⟨effect, stage⟩) :
    InOrder { t with calls := before ++ ⟨effect, duty.next result⟩ :: after } := by
  have hcall : ⟨effect, stage⟩ ∈ t.calls := by rw [split]; simp
  refine { still := ?_, behind := h.behind, passed := ?_ }
  · intro call hmem hst call' hmem'
    rcases Linked.old_or_new split hmem' with hold' | rfl
    · rcases Linked.old_or_new split hmem with hold | rfl
      · exact h.still call hold hst call' hold'
      · exact h.still _ hcall (hset hst).1 call' hold'
    · exact duty.next_not_toPublish result effect
  · intro call hmem hent
    rcases Linked.old_or_new split hmem with hold | rfl
    · exact h.passed call hold hent
    · exact h.passed _ hcall (hset hent.1)

/-- **A call gives an order**, and overtakes nobody. -/
theorem asks (h : t.InOrder) (hl : t.Linked) (ha : t.Attended)
    (split : t.calls = before ++ ⟨effect, .ready duty⟩ :: after)
    (waits : duty.command.isEntry = true → ∀ call ∈ t.calls, call.isToPublish = false) :
    InOrder
      { t with
        calls := before ++ ⟨effect, .waiting duty t.given⟩ :: after
        orders := t.orders ++ [⟨t.given, duty.command⟩]
        given := t.given + 1 } := by
  have hcall : ⟨effect, .ready duty⟩ ∈ t.calls := by rw [split]; simp
  have hserves : duty.Serves effect := hl.fits _ hcall
  refine h.more hl ha ?_ (fun hpub => ⟨_, hcall, hpub⟩) ?_ ?_
  · intro call hmem hto
    rcases Linked.old_or_new split hmem with hold | rfl
    · exact hold
    · cases hto
  · intro call hmem hst
    rcases Linked.old_or_new split hmem with hold | rfl
    · exact .inl ⟨call, hold, hst⟩
    · cases duty with
      | entering command => exact .inr (waits hserves.isEntry)
      | subscribing | backingOut => exact .inl ⟨_, hcall, rfl⟩
      | single command => cases hst
  · intro call hmem hent
    rcases Linked.old_or_new split hmem with hold | rfl
    · exact ⟨call, hold, hent.of_more⟩
    · cases duty with
      | entering command =>
        refine absurd ?_ (hent.2 command t.given rfl)
        rw [waiting_more]
        exact List.mem_append_right _ List.mem_cons_self
      | subscribing | backingOut => exact ⟨_, hcall, rfl, nofun⟩
      | single command => cases hent.1

end Calls

/-! ## Steps of the manager -/

/-- **The manager has made a step.**  The orders that it has taken up came before all that wait. -/
theorem courses {course : Course} {orders new : List Order} {es : List Connection.Effect}
    (h : t.InOrder) (hl : t.Linked) (hc : t.course.Continues new es course)
    (hissued : course.orders ++ orders = t.issued) : InOrder { t with course, orders } := by
  obtain ⟨taken, hw⟩ := waiting_suffix hc hissued
  refine { still := h.still, behind := ?_, passed := ?_ }
  · exact h.behind.sublist (waiting_suffix hc hissued).sublist
  intro call hcall hent o ho
  by_cases hold : t.Entered call
  · exact h.passed call hcall hold o (hw ▸ List.mem_append_right _ ho)
  · -- its order has just been taken up
    obtain ⟨command, ticket, hst, hmem⟩ : ∃ command ticket,
        call.stage = .waiting (.entering command) ticket ∧ ⟨ticket, command⟩ ∈ t.waiting := by
      simpa [Entered, hent.1] using hold
    have hbehind := h.behind
    rw [← hw, List.pairwise_append] at hbehind
    rw [← hw, List.mem_append] at hmem
    exact hbehind.2.2 _ (hmem.resolve_right (hent.2 command ticket hst)) o ho
      (hl.serves hcall hst).isEntry

/-- **What the manager publishes** goes to a link with a subscription. -/
theorem publishes {course : Course} {orders new : List Order} {es : List Connection.Effect}
    (h : t.InOrder) (hl : t.Linked) (ha : t.Attended) (hw : t.Watched)
    (hc : t.course.Continues new es course) (hissued : course.orders ++ orders = t.issued)
    {link : LinkId} {id : RequestId} {topic : String} {payload : Text.Octets}
    {delivery : Connection.Delivery} (hmem : .publish link id topic payload delivery ∈ es) :
    (link, Topic.responseFilter) ∈ t.course.granted := by
  obtain ⟨⟨o, ho, hpub⟩, hlink⟩ := hc.publishes link id topic payload delivery hmem
  have howaits : o ∈ t.waiting := by
    rw [waiting, taken_or_waits hc hissued, ← List.append_assoc]
    exact List.mem_append_left _ ho
  have nobody {call : Call} (hcall : call ∈ t.calls) : ¬ t.Entered call := by
    intro hent
    rw [h.passed call hcall hent o howaits] at hpub
    cases hpub
  rcases hlink with ⟨hs, hl⟩ | ⟨running, hatt⟩
  · rcases hw.cared with hgood | ⟨call, hcall, hent⟩
    · exact hgood link hs hl
    · exact absurd hent (nobody hcall)
  · obtain ⟨call, hcall, -, hent, -⟩ := ha.entered_of_attempting hl running hatt
    exact absurd hent (nobody hcall)

end InOrder

/-! ## All steps -/

/-- **A step that overtakes no message** keeps messages ahead. -/
theorem InOrder.step (h : t.InOrder) (hl : t.Linked) (ha : t.Attended) (hs : Step t t')
    (waits : ¬ t.Overtakes t') : t'.InOrder := by
  have takes {input : Session.Input} (htakes : t.Takes input t') : t'.InOrder := by
    obtain ⟨rest, hgoes⟩ := htakes.goes
    exact h.takes hl hgoes
  cases hs with
  | order order running => exact takes (.order order running)
  | hears notice rest running first => exact takes (.hears notice rest running first)
  | completes effect result completion before after running split comes =>
    exact takes (.completes effect result completion before after running split comes)
  | shutDown running =>
    -- nothing is started, and the last order only disconnects
    have hnone :
        Session.started (t.session.step t.course.manager.state .shutDown).effects = [] := by
      rw [← List.map_eq_nil_iff, Call.effects_started]
      exact (Session.step_shutDown _ _).2
    have hmore : InOrder
        { t with
          calls := t.calls ++ Session.started (t.session.step t.course.manager.state
            .shutDown).effects
          orders := t.orders ++ [⟨t.given, .disconnect⟩]
          given := t.given + 1 } := by
      rw [hnone, List.append_nil]
      refine h.more hl ha (fun _ hmem _ => hmem) nofun ?_ ?_
      · intro call hmem hst
        exact .inl ⟨call, hmem, hst⟩
      · intro call hmem hent
        exact ⟨call, hmem, hent.of_more⟩
    exact ⟨hmore.still, hmore.behind, hmore.passed⟩
  | asks effect duty before after split accepted =>
    refine h.asks hl ha split ?_
    intro hentry call hcall
    cases hto : call.isToPublish with
    | false => rfl
    | true =>
      exact absurd ⟨⟨⟨t.given, duty.command⟩, by simp, hentry⟩, call, hcall, hto⟩ waits
  | refused effect duty why before after split rejected =>
    refine h.goesOn split ?_
    intro hunder
    cases duty with
    | subscribing => cases rejected
    | entering | backingOut | single => cases hunder
  | answered effect duty ticket result before after split answer =>
    refine h.goesOn split ?_
    intro hunder
    refine ⟨Duty.isUnderWay_waiting (Duty.isSetUp_of_next hunder) ticket, ?_⟩
    intro command ticket' hst hw
    -- who has been answered waits no more
    obtain ⟨-, rfl⟩ : duty = .entering command ∧ ticket = ticket' := by simpa using hst
    exact (hl.unanswered hw).2 (List.mem_filterMap.2 ⟨_, answer, rfl⟩)
  | takes now order rest running first =>
    obtain ⟨hs, hissued⟩ := hl.takes now running first
    obtain ⟨new, es, hc⟩ := Course.continues hl.course hs
    exact h.courses hl hc hissued
  | manager course step own held =>
    obtain ⟨new, es, hc⟩ := Course.continues hl.course step
    exact h.courses hl hc (issued_of_own step own)

/-- **In every orderly tandem** messages keep ahead of connections. -/
theorem inOrder (h : Orderly t) : t.InOrder := by
  induction h with
  | start settings ids patience messageIds =>
    exact
      { still := fun _ hmem => absurd hmem List.not_mem_nil
        behind := List.Pairwise.nil
        passed := fun _ hmem => absurd hmem List.not_mem_nil }
  | step h hs waits ih => exact ih.step (linked h.reachable) (attended h.reachable) hs waits

/-! ## The property -/

/-- **A session publishes after it has subscribed.**  As long as no call that enters a connection
overtakes one that publishes, every message is published on a link on which the broker has
acknowledged the subscription to the responses before. -/
theorem published_after_subscription (h : Orderly t) (hs : Step t t')
    {es : List Connection.Effect} (hes : t'.course.record = t.course.record ++ es)
    {link : LinkId} {id : RequestId} {topic : String} {payload : Text.Octets}
    {delivery : Connection.Delivery} (hmem : .publish link id topic payload delivery ∈ es) :
    (link, Topic.responseFilter) ∈ t.course.granted := by
  have hl := linked h.reachable
  rcases hl.course_of_step hs with hsame | ⟨hstep, hissued⟩
  · rw [hsame] at hes
    rw [List.append_right_eq_self.1 hes.symm] at hmem
    cases hmem
  · obtain ⟨new, es', hc⟩ := Course.continues hl.course hstep
    rw [hc.record] at hes
    rw [← List.append_cancel_left hes] at hmem
    exact (inOrder h).publishes hl (attended h.reachable) (watched h.reachable) hc hissued hmem

/-- What comes of several moves, none of which overtakes a message. -/
def playsInOrder (t : Tandem) (moves : List Move) : Option Tandem :=
  moves.foldlM (fun t move => (t.play move).filter fun t' => ¬ t.Overtakes t') t

/-- A tandem that is played so stays orderly. -/
theorem orderly_of_plays {moves : List Move} (h : Orderly t) (t' : Tandem)
    (hp : t.playsInOrder moves = some t') : Orderly t' := by
  induction moves generalizing t with
  | nil => exact Option.some.inj hp ▸ h
  | cons move moves ih =>
    obtain ⟨t₁, h₁, hrest⟩ := Option.bind_eq_some_iff.1 hp
    obtain ⟨hplay, hwaits⟩ := Option.filter_eq_some_iff.1 h₁
    exact ih (h.step (step_of_play hplay) (of_decide_eq_true hwaits)) hrest

/-- A session publishes on the link on which it has just subscribed. -/
theorem registration_published_after_subscription :
    ∃ t t' es link id topic payload delivery, Orderly t ∧ Step t t' ∧
      t'.course.record = t.course.record ++ es ∧
      .publish link id topic payload delivery ∈ es ∧
      (link, Topic.responseFilter) ∈ t.course.granted := by
  obtain ⟨t, t', es, e, h, hs, hes, he, hpub⟩ := exists_effect
    (playsInOrder _ (connecting ++ [.asks 0]))
    (orderly_of_plays (.start plainSettings .sequential 30000 .sequential)) (.takes 0)
    (fun _ => Connection.Effect.publishesOn fun _ => true) (by decide +kernel)
  cases e with
  | publish link id topic payload delivery =>
    exact ⟨t, t', es, link, id, topic, payload, delivery, h, hs, hes, he,
      published_after_subscription h hs hes he⟩
  | _ => cases hpub

/-- **A message is published without a subscription.**  The session is given another credential
while a call has still to give its order to publish; the order to reconnect reaches the manager
first, and the message is put off until the manager has a new link. -/
theorem published_without_subscription :
    ∃ t t' es link id topic payload delivery, Reachable t ∧ Step t t' ∧
      t'.course.record = t.course.record ++ es ∧
      .publish link id topic payload delivery ∈ es ∧
      (link, Topic.responseFilter) ∉ t.course.granted := by
  obtain ⟨t, t', es, e, h, hs, hes, he, hpub⟩ := exists_effect
    (plays _ (connecting ++
      [.order ⟨1, .updateCredential (.signature "second")⟩, .asks 1, .takes 0, .asks 0, .takes 0,
        .manager (.takes 0 (.completion (.tornDown 1 (.ok ()))) (some 0))]))
    (reachable_of_plays (.start plainSettings .sequential 30000 .sequential))
    (.manager (.takes 0 (.completion (.dialled 2 (.ok 6))) (some 0)))
    (fun t => Connection.Effect.publishesOn fun link =>
      (link, Topic.responseFilter) ∉ t.course.granted) (by decide +kernel)
  cases e with
  | publish link id topic payload delivery =>
    exact ⟨t, t', es, link, id, topic, payload, delivery, h, hs, hes, he, of_decide_eq_true hpub⟩
  | _ => cases hpub

end Tandem

end DeviceProvisioning
