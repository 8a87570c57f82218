import DeviceProvisioning.Proofs.Connection.Continuity
import DeviceProvisioning.Proofs.Tandem.Attended
import DeviceProvisioning.Proofs.Tandem.Connected

/-!
# Who sees to the subscription of a connection

A manager enters a connection for one call, and this call subscribes on it, or closes it again.  So
a connection without a subscription is always in somebody's care: there is a call whose order to
enter a connection the manager has taken up, and which is not done (`Tandem.Entered`).

`Tandem.watched` says this of every tandem, whether the session runs or has been shut down.  It
rests on what a step makes of a connection (`Connection.Course.Continues`): no link takes the place
of another unless the manager waits for an attempt, and it attempts one for this call only.
-/

namespace DeviceProvisioning

open Connection (Course Order Ticket)
open Session (Call Duty Stage)

namespace Session

/-- Whether a duty is one of those with which a connection is set up. -/
def Duty.isSetUp : Duty → Bool
  | entering _ | subscribing | backingOut _ => true
  | single _ => false

/-- Whether a call has ordered to enter a connection, and is not done. -/
def Stage.isUnderWay : Stage → Bool
  | waiting (.entering _) _ => true
  | ready .subscribing | waiting .subscribing _ => true
  | ready (.backingOut _) | waiting (.backingOut _) _ => true
  | ready (.entering _) | ready (.single _) | waiting (.single _) _ | done _ => false

namespace Duty
variable {effect : Effect} {duty : Duty} {result : Except Failure Unit}

/-- A call that sets up a connection goes on, or is done. -/
theorem next_isUnderWay (h : duty.isSetUp = true) (result : Except Failure Unit) :
    (duty.next result).isUnderWay = true ∨ ∃ result', duty.next result = .done result' := by
  cases duty with
  | entering | subscribing =>
    cases result with
    | ok _ => first | exact .inl rfl | exact .inr ⟨_, rfl⟩
    | error why => first | exact .inl rfl | exact .inr ⟨_, rfl⟩
  | backingOut why => exact .inr ⟨_, rfl⟩
  | single command => cases h

/-- What comes after an answer has begun before. -/
theorem isSetUp_of_next (h : (duty.next result).isUnderWay = true) : duty.isSetUp = true := by
  cases duty with
  | entering | subscribing | backingOut => rfl
  | single command => cases h

/-- A call that is under way has a duty of this kind. -/
theorem isSetUp_of_ready (h : (Stage.ready duty).isUnderWay = true) : duty.isSetUp = true := by
  cases duty <;> first | rfl | cases h

theorem isSetUp_of_waiting {ticket : Ticket} (h : (Stage.waiting duty ticket).isUnderWay = true) :
    duty.isSetUp = true := by
  cases duty <;> first | rfl | cases h

/-- A call that waits with such a duty is under way. -/
theorem isUnderWay_waiting (h : duty.isSetUp = true) (ticket : Ticket) :
    (Stage.waiting duty ticket).isUnderWay = true := by
  cases duty <;> first | rfl | cases h

/-- A duty that is ready while its call is under way is never refused. -/
theorem check_of_ready (h : (Stage.ready duty).isUnderWay = true) :
    duty.command.check = .ok () := by
  cases duty <;> first | rfl | cases h

/-- Whoever sets up a connection changes it, and publishes nothing. -/
theorem Serves.isChange_of_setUp (h : duty.Serves effect) (hs : duty.isSetUp = true) :
    effect.isChange = true ∧ duty.command.isPublish = false := by
  cases h with
  | connecting | reconnecting => exact ⟨rfl, rfl⟩
  | subscribing h | backingOut h => exact ⟨h, rfl⟩
  | disconnecting | publishing => cases hs

/-- Whoever orders a subscription subscribes to the responses. -/
theorem Serves.of_subscribe (h : duty.Serves effect) {filter : String} {qos : Link.Qos}
    (hc : duty.command = .subscribe filter qos) :
    duty = .subscribing ∧ filter = Topic.responseFilter := by
  cases h with
  | subscribing h =>
    cases hc
    exact ⟨rfl, rfl⟩
  | connecting | reconnecting | backingOut | disconnecting | publishing => cases hc

/-- No subscription is ended by a call. -/
theorem Serves.not_unsubscribe (h : duty.Serves effect) (filter : String) :
    duty.command ≠ .unsubscribe filter := by
  cases h <;> exact nofun

end Duty
end Session

namespace Tandem
variable {t t' : Tandem}

/-- **A call has entered a connection**, or has tried to: the manager has taken up its order, and it
is not done. -/
def Entered (t : Tandem) (call : Call) : Prop :=
  call.stage.isUnderWay = true ∧
    ∀ command ticket, call.stage = .waiting (.entering command) ticket →
      ⟨ticket, command⟩ ∉ t.waiting

/-- **A connection without a subscription is seen to.** -/
structure Watched (t : Tandem) : Prop where
  /-- A subscription is made on the link of a manager that is connected. -/
  asked : t.course.manager.state = .connected → ∀ link filter qos ticket,
    .subscribe link filter qos ticket ∈ t.course.outstanding → t.course.manager.link = some link
  /-- A call that sets up a connection is not done unless there is a subscription. -/
  ended : ∀ call ∈ t.calls, ∀ duty ticket result, call.stage = .waiting duty ticket →
    duty.isSetUp = true → .answer ticket result ∈ t.course.record →
      (∃ result', duty.next result = .done result') → t.Subscribed
  cared : t.Subscribed ∨ ∃ call ∈ t.calls, t.Entered call

/-! ## Steps of the session and of calls -/

/-- A call that has entered a connection has done so still when another order is given. -/
theorem Entered.more {call : Call} (h : t.Entered call) (hl : t.Linked) (hcall : call ∈ t.calls)
    (command : Connection.Command) :
    Entered { t with orders := t.orders ++ [⟨t.given, command⟩] } call := by
  refine ⟨h.1, ?_⟩
  intro command' ticket hst hmem
  rw [waiting_more, List.mem_append] at hmem
  rcases hmem with hold | hnew
  · exact h.2 command' ticket hst hold
  · -- the new order bears a ticket that nobody has
    have hbelow := hl.below _ (hl.asked call hcall _ ticket hst)
    obtain ⟨hticket, -⟩ : ticket = t.given ∧ _ := by simpa using hnew
    exact absurd hticket (Nat.ne_of_lt hbelow)

/-- A call that has entered a connection when another order has been given had done so before. -/
theorem Entered.of_more {call : Call} {o : Order}
    (h : Entered { t with orders := t.orders ++ [o] } call) : t.Entered call := by
  refine ⟨h.1, ?_⟩
  intro command ticket hst hmem
  refine h.2 command ticket hst ?_
  rw [waiting_more]
  exact List.mem_append_left _ hmem

namespace Watched

/-- **The session has taken an input**, or has been shut down: calls that have entered a connection
go on. -/
theorem of_calls (h : t.Watched) (hc : t'.course = t.course)
    (hold : ∀ call ∈ t'.calls, call ∈ t.calls ∨ ∃ duty, call.stage = .ready duty)
    (hkept : ∀ call ∈ t.calls, t.Entered call → call ∈ t'.calls ∧ t'.Entered call) :
    t'.Watched := by
  have hsub : t'.Subscribed ↔ t.Subscribed := by rw [Subscribed, Subscribed, hc]
  refine { asked := ?_, ended := ?_, cared := ?_ }
  · rw [hc]
    exact h.asked
  · intro call hcall duty ticket result hst hset hans hdone
    rw [hc] at hans
    rcases hold call hcall with hmem | ⟨duty', hready⟩
    · exact hsub.2 (h.ended call hmem duty ticket result hst hset hans hdone)
    · rw [hst] at hready
      cases hready
  · rcases h.cared with hgood | ⟨call, hcall, hentered⟩
    · exact .inl (hsub.2 hgood)
    · exact .inr ⟨call, hkept call hcall hentered⟩

section Calls
variable {effect : Session.Effect} {duty : Duty} {stage : Stage} {before after : List Call}

/-- **A call goes on**, and if it is done then there is a subscription. -/
theorem goesOn {result : Except Failure Unit} (h : t.Watched)
    (split : t.calls = before ++ ⟨effect, stage⟩ :: after)
    (hset : stage.isUnderWay = true → duty.isSetUp = true)
    (hdone : stage.isUnderWay = true → (∃ result', duty.next result = .done result') →
      t.Subscribed) :
    Watched { t with calls := before ++ ⟨effect, duty.next result⟩ :: after } := by
  refine { asked := h.asked, ended := ?_, cared := ?_ }
  · intro call hcall duty' ticket result' hst
    rcases Linked.old_or_new split hcall with hmem | rfl
    · exact h.ended call hmem duty' ticket result' hst
    · exact absurd hst (duty.next_ne_waiting _ result ticket)
  · rcases h.cared with hgood | ⟨call, hcall, hentered⟩
    · exact .inl hgood
    · rw [split] at hcall
      rcases Linked.mem_split hcall with hmem | rfl
      · exact .inr ⟨call, hmem, hentered⟩
      · rcases duty.next_isUnderWay (hset hentered.1) result with hgoes | hdone'
        · refine .inr ⟨⟨effect, duty.next result⟩, by simp, hgoes, fun command ticket hst => ?_⟩
          exact absurd hst (duty.next_ne_waiting _ result ticket)
        · exact .inl (hdone hentered.1 hdone')

/-- **A call gives an order.**  Nobody has been answered for it yet. -/
theorem asks (h : t.Watched) (hl : t.Linked)
    (split : t.calls = before ++ ⟨effect, .ready duty⟩ :: after) :
    Watched
      { t with
        calls := before ++ ⟨effect, .waiting duty t.given⟩ :: after
        orders := t.orders ++ [⟨t.given, duty.command⟩]
        given := t.given + 1 } := by
  refine { asked := h.asked, ended := ?_, cared := ?_ }
  · intro call hcall duty' ticket result hst hset hans hdone
    rcases Linked.old_or_new split hcall with hmem | rfl
    · exact h.ended call hmem duty' ticket result hst hset hans hdone
    · obtain ⟨-, rfl⟩ : duty = duty' ∧ t.given = ticket := by simpa using hst
      obtain ⟨o, ho, hticket⟩ := Course.order_of_answered hl.course
        (List.mem_filterMap.2 ⟨_, hans, rfl⟩)
      exact absurd hticket (Nat.ne_of_lt (hl.below o (List.mem_append_left _ ho)))
  · rcases h.cared with hgood | ⟨call, hcall, hentered⟩
    · exact .inl hgood
    · have hmore := hentered.more hl hcall duty.command
      rw [split] at hcall
      rcases Linked.mem_split hcall with hmem | rfl
      · exact .inr ⟨call, hmem, hmore⟩
      · have hset := Duty.isSetUp_of_ready hentered.1
        refine .inr ⟨⟨effect, .waiting duty t.given⟩, by simp, Duty.isUnderWay_waiting hset _,
          fun command ticket hst => ?_⟩
        obtain ⟨rfl, -⟩ : duty = .entering command ∧ _ := by simpa using hst
        cases hentered.1

end Calls
end Watched

/-! ## Steps of the manager -/

section Manager
variable {course : Course} {orders new : List Order} {es : List Connection.Effect}

/-- The manager takes orders from the front. -/
theorem taken_or_waits (hc : t.course.Continues new es course)
    (hissued : course.orders ++ orders = t.issued) : t.orders = new ++ orders := by
  rw [issued, hc.orders, List.append_assoc] at hissued
  exact (List.append_cancel_left hissued).symm

/-- The orders that wait after a step of the manager have waited before, and are the last of
them. -/
theorem waiting_suffix (hc : t.course.Continues new es course)
    (hissued : course.orders ++ orders = t.issued) :
    waiting { t with course, orders } <:+ t.waiting := by
  have hsuffix : course.manager.deferred ++ orders <:+
      (t.course.manager.deferred ++ new) ++ orders := by
    obtain ⟨taken, htaken⟩ := hc.waits
    exact ⟨taken, by rw [← List.append_assoc, htaken]⟩
  show course.manager.deferred ++ orders <:+ t.course.manager.deferred ++ t.orders
  rwa [taken_or_waits hc hissued, ← List.append_assoc]

/-- A call that has entered a connection has done so still when fewer orders wait. -/
theorem Entered.fewer {call : Call} (h : t.Entered call)
    (hw : waiting { t with course, orders } <:+ t.waiting) :
    Entered { t with course, orders } call :=
  ⟨h.1, fun command ticket hst hmem => h.2 command ticket hst (hw.subset hmem)⟩

/-- Whom the manager lets wait has no order that waits. -/
theorem Linked.waiter_unqueued (h : t.Linked) {o : Order}
    (hw : t.course.manager.waiter = some o.ticket) : o ∉ t.waiting := by
  intro hmem
  have hacc := Course.accounted h.course
  rcases List.mem_append.1 hmem with hdeferred | hwaits
  · -- a ticket is in one place at a time
    obtain ⟨lost, hk, -⟩ := hacc.counted o.ticket
    have honce := List.nodup_iff_count.1 hacc.unique o.ticket
    have hpos : 0 < (t.course.manager.deferred.map Order.ticket).count o.ticket :=
      List.count_pos_iff.2 (List.mem_map.2 ⟨o, hdeferred, rfl⟩)
    simp only [Connection.Manager.callers, hw, List.count_append, Option.toList_some,
      List.count_singleton_self] at hk
    omega
  · obtain ⟨o', ho', hticket, -⟩ := (Course.origin h.course).1.waiter _ hw
    have hn := h.unique
    rw [issued, List.map_append, List.nodup_append] at hn
    exact hn.2.2 _ (List.mem_map.2 ⟨o', ho', hticket⟩) _ (List.mem_map.2 ⟨o, hwaits, rfl⟩) rfl

/-- **A manager that waits for an attempt** makes it for a call that has entered the connection, and
has not answered it. -/
theorem Attended.entered_of_attempting (h : t.Attended) (hl : t.Linked)
    (running : t.course.stopped = false) (ha : t.course.manager.Attempting) :
    ∃ call ∈ t.calls, call.effect.isChange = true ∧ t.Entered call ∧
      ∃ command ticket, call.stage = .waiting (.entering command) ticket ∧
        ticket ∉ Connection.answered t.course.record := by
  obtain ⟨generation, p, hst⟩ := ha
  obtain ⟨call, hcall, hchange, o, hw, hstage⟩ := h.of_dialling hl running hst
  refine ⟨call, hcall, hchange, ⟨by rw [hstage]; rfl, fun command ticket heq => ?_⟩, o.command,
    o.ticket, hstage, ?_⟩
  · obtain ⟨hcmd, hticket⟩ : o.command = command ∧ o.ticket = ticket := by
      rw [hstage] at heq
      simpa using heq
    rw [← hcmd, ← hticket]
    exact hl.waiter_unqueued hw
  · exact Course.unanswered_of_held hl.course (.inl (by simp [Connection.Manager.callers, hw]))

/-- A call that sets up a connection has a duty that its order tells. -/
theorem Linked.command_of_order (h : t.Linked) {call : Call} {duty : Duty} {ticket : Ticket}
    (hcall : call ∈ t.calls) (hst : call.stage = .waiting duty ticket) {o : Order}
    (ho : o ∈ t.issued) (hticket : o.ticket = ticket) : duty.command = o.command :=
  congrArg Order.command (h.order_unique (h.asked call hcall duty ticket hst) ho hticket.symm)

/-- While a call waits for a connection to be entered, no subscription is on its way. -/
theorem Attended.unasked (h : t.Attended) (hl : t.Linked) {call : Call}
    {command : Connection.Command} {ticket : Ticket} (hcall : call ∈ t.calls)
    (hst : call.stage = .waiting (.entering command) ticket) (hchange : call.effect.isChange = true)
    {link : Connection.LinkId} {filter : String} {qos : Link.Qos} {ticket' : Ticket} :
    .subscribe link filter qos ticket' ∉ t.course.outstanding := by
  intro hmem
  have horder := List.mem_append_left t.orders
    ((Course.origin hl.course).2.subscribe _ _ _ _ hmem)
  have hun := Course.unanswered_of_held hl.course (.inr (List.mem_filterMap.2 ⟨_, hmem, rfl⟩))
  obtain ⟨call', hcall', duty, hst', hcmd⟩ := h.served _ horder hun nofun
  have hserves := hl.serves hcall' hst'
  obtain rfl := h.change_alone hcall hcall' hchange (hserves.isChange (by rw [hcmd]; rfl))
  obtain ⟨rfl, -⟩ : Duty.entering command = duty ∧ _ := by
    rw [hst] at hst'
    simpa using hst'
  cases (hserves.of_subscribe hcmd).1

namespace Watched

/-- **A call has its last answer** in a step of the manager after which there is a connection: it
has subscribed. -/
theorem ended_of_answer (h : t.Watched) (hl : t.Linked) (hc : t.course.Continues new es course)
    (hissued : course.orders ++ orders = t.issued) {call : Call} {duty : Duty} {ticket : Ticket}
    {result : Except Failure Unit} (hcall : call ∈ t.calls)
    (hst : call.stage = .waiting duty ticket) (hset : duty.isSetUp = true)
    (hans : .answer ticket result ∈ es) (hdone : ∃ result', duty.next result = .done result') :
    Subscribed { t with course, orders } := by
  intro link hs hlink
  have hserves := hl.serves hcall hst
  rcases hc.answers hs ticket result hans with ⟨o, ho, hticket, hwhy⟩ |
      ⟨hm, ⟨link', filter, qos, hmem, hgranted⟩ | ⟨link', filter, hmem⟩⟩
  · have hcmd := hl.command_of_order hcall hst (hissued ▸ List.mem_append_left orders ho) hticket
    rcases hwhy with ⟨hentry, rfl⟩ | hpub
    · -- it has only entered the connection
      rw [← hcmd] at hentry
      rw [(hserves.entering hentry).1] at hdone
      obtain ⟨result', hdone⟩ := hdone
      cases hdone
    · rw [← hcmd, (hserves.isChange_of_setUp hset).2] at hpub
      cases hpub
  · have hs : course.manager.state = .connected := hs
    have hlink : course.manager.link = some link := hlink
    rw [hm] at hs hlink
    obtain rfl : link = link' :=
      Option.some.inj (hlink.symm.trans (h.asked hs _ _ _ _ hmem))
    have horder := (Course.origin hl.course).2.subscribe _ _ _ _ hmem
    obtain ⟨rfl, rfl⟩ := hserves.of_subscribe
      (hl.command_of_order hcall hst (List.mem_append_left _ horder) rfl)
    cases result with
    | ok _ => exact hgranted rfl
    | error why =>
      obtain ⟨result', hdone⟩ := hdone
      cases hdone
  · have horder := (Course.origin hl.course).2.unsubscribe _ _ _ hmem
    exact absurd (hl.command_of_order hcall hst (List.mem_append_left _ horder) rfl)
      (hserves.not_unsubscribe filter)

/-- **The manager has made a step.** -/
theorem courses (h : t.Watched) (hl : t.Linked) (ha : t.Attended)
    (hs : Course.Step t.course course) (hissued : course.orders ++ orders = t.issued) :
    Watched { t with course, orders } := by
  obtain ⟨new, es, hc⟩ := Course.continues hl.course hs
  have hw := waiting_suffix hc hissued
  -- a link stays what it is, unless the manager waits for an attempt
  have keeps (hgood : t.Subscribed)
      (hnot : ¬ (t.course.stopped = false ∧ t.course.manager.Attempting)) :
      Subscribed { t with course, orders } := by
    intro link hs hlink
    obtain ⟨hold, hkept⟩ := (hc.link hs).resolve_right hnot
    have hlink : course.manager.link = some link := hlink
    exact hc.granted (hgood link hold (hkept ▸ hlink))
  refine { asked := ?_, ended := ?_, cared := ?_ }
  · intro hs link filter qos ticket hmem
    rcases hc.subscribes hs link filter qos ticket hmem with hold | hnew
    · rcases hc.link hs with ⟨hconn, hkept⟩ | ⟨running, hatt⟩
      · exact hkept.trans (h.asked hconn link filter qos ticket hold)
      · obtain ⟨call, hcall, hchange, -, command, ticket', hst, -⟩ :=
          ha.entered_of_attempting hl running hatt
        exact absurd hold (ha.unasked hl hcall hst hchange)
    · exact hnew
  · intro call hcall duty ticket result hst hset hans hdone
    have hans : .answer ticket result ∈ course.record := hans
    rw [hc.record, List.mem_append] at hans
    rcases hans with hold | hnew
    · refine keeps (h.ended call hcall duty ticket result hst hset hold hdone) ?_
      -- a call that has been answered does not wait for a connection to be entered
      rintro ⟨running, hatt⟩
      obtain ⟨call', hcall', hchange, -, command, ticket', hst', hun⟩ :=
        ha.entered_of_attempting hl running hatt
      have hchange' := ((hl.serves hcall hst).isChange_of_setUp hset).1
      obtain rfl := ha.change_alone hcall hcall' hchange' hchange
      obtain ⟨-, rfl⟩ : duty = .entering command ∧ ticket = ticket' := by
        rw [hst] at hst'
        simpa using hst'
      exact hun (List.mem_filterMap.2 ⟨_, hold, rfl⟩)
    · exact h.ended_of_answer hl hc hissued hcall hst hset hnew hdone
  · rcases h.cared with hgood | ⟨call, hcall, hentered⟩
    · by_cases hatt : t.course.stopped = false ∧ t.course.manager.Attempting
      · obtain ⟨call, hcall, -, hentered, -⟩ := ha.entered_of_attempting hl hatt.1 hatt.2
        exact .inr ⟨call, hcall, hentered.fewer hw⟩
      · exact .inl (keeps hgood hatt)
    · exact .inr ⟨call, hcall, hentered.fewer hw⟩

end Watched
end Manager

/-! ## All steps -/

/-- A call that is under way has not come to its end. -/
theorem Entered.not_done {call : Call} (h : t.Entered call) (result : Except Failure Unit) :
    call.stage ≠ .done result := by
  intro hst
  have hunder := h.1
  rw [hst] at hunder
  cases hunder

/-- **A step keeps a tandem watched.** -/
theorem Watched.step (h : t.Watched) (hl : t.Linked) (ha : t.Attended) (hs : Step t t') :
    t'.Watched := by
  have takes {input : Session.Input} (htakes : t.Takes input t') : t'.Watched := by
    obtain ⟨rest, hgoes⟩ := htakes.goes
    refine h.of_calls hgoes.course ?_ ?_
    · intro call hcall
      rw [hgoes.calls, List.mem_append] at hcall
      rcases hcall with hold | hnew
      · exact .inl (hgoes.sub hold)
      · obtain ⟨duty, hst, -⟩ := Call.of_started hnew
        exact .inr ⟨duty, hst⟩
    · intro call hcall hentered
      rw [hgoes.calls, Entered, waiting, hgoes.course, hgoes.orders]
      exact ⟨List.mem_append_left _ (hgoes.kept call hcall hentered.not_done), hentered⟩
  cases hs with
  | order order running => exact takes (.order order running)
  | hears notice rest running first => exact takes (.hears notice rest running first)
  | completes effect result completion before after running split comes =>
    exact takes (.completes effect result completion before after running split comes)
  | shutDown running =>
    refine h.of_calls rfl ?_ ?_
    · intro call hcall
      rcases List.mem_append.1 hcall with hold | hnew
      · exact .inl hold
      · obtain ⟨duty, hst, -⟩ := Call.of_started hnew
        exact .inr ⟨duty, hst⟩
    · intro call hcall hentered
      exact ⟨List.mem_append_left _ hcall, hentered.more hl hcall .disconnect⟩
  | asks effect duty before after split accepted => exact h.asks hl split
  | refused effect duty why before after split rejected =>
    refine h.goesOn split Duty.isSetUp_of_ready fun hunder _ => ?_
    rw [Duty.check_of_ready hunder] at rejected
    cases rejected
  | answered effect duty ticket result before after split answer =>
    refine h.goesOn split Duty.isSetUp_of_waiting fun hunder hdone => ?_
    exact h.ended ⟨effect, .waiting duty ticket⟩ (by rw [split]; simp) duty ticket result rfl
      (Duty.isSetUp_of_waiting hunder) answer hdone
  | takes now order rest running first =>
    obtain ⟨hs, hissued⟩ := hl.takes now running first
    exact h.courses hl ha hs hissued
  | manager course step own held =>
    exact h.courses hl ha step (issued_of_own step own)

/-- **In every tandem** a connection without a subscription is seen to. -/
theorem watched (h : Reachable t) : t.Watched := by
  induction h with
  | start settings ids patience messageIds =>
    exact
      { asked := fun hs => by cases hs
        ended := fun _ hmem => absurd hmem List.not_mem_nil
        cared := .inl fun link hs => by cases hs }
  | step hr hs ih => exact ih.step (linked hr) (attended hr) hs

end Tandem

end DeviceProvisioning
