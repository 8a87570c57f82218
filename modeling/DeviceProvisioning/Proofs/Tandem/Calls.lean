import DeviceProvisioning.Proofs.Tandem.Basic
import Mathlib.Data.List.Nodup

/-!
# Calls and orders

Every order of the manager comes from a call, and as long as it has not been answered this call
waits for it.  `Tandem.Linked` says this, and what goes with it: that tickets are never given out
twice, that a call does only what its effect was meant for, and that the session and the manager
stand well with what they have started.  `Tandem.linked` says that it holds of every tandem.

It follows that the manager changes only on behalf of the one call with which the session changes
(`Linked.waiter_waits`, `Linked.change_unique`).
-/

namespace DeviceProvisioning

open Connection (Course Order Ticket)
open Session (Call Duty Stage)

namespace Session

/-! ## Duties -/

/-- **The duties of a call** that an effect has started. -/
inductive Duty.Serves : Effect → Duty → Prop where
  | connecting (p : Connection.Parameters) : Serves (.connect p) (.entering (.connect p))
  | reconnecting (credential : Connection.Credential) :
    Serves (.reconnect credential) (.entering (.updateCredential credential))
  | subscribing {effect : Effect} (h : effect.isChange) : Serves effect .subscribing
  | backingOut {effect : Effect} (h : effect.isChange) (why : Failure) :
    Serves effect (.backingOut why)
  | disconnecting : Serves .disconnect (.single .disconnect)
  | publishing (id : RequestId) (topic body : String) :
    Serves (.publish id topic body) (.single (.publish topic (Text.Utf8.encode body) {}))

namespace Duty.Serves
variable {effect : Effect} {duty : Duty}

/-- What is not published serves a change. -/
theorem isChange (h : duty.Serves effect) (hc : duty.command.isPublish = false) :
    effect.isChange = true := by
  cases h with
  | subscribing h | backingOut h => exact h
  | connecting | reconnecting | disconnecting => rfl
  | publishing => cases hc

/-- Who connects or reconnects has more to do than one thing. -/
theorem not_single {command : Connection.Command} (h : (Duty.single command).Serves effect) :
    ¬ ((∃ p, effect = .connect p) ∨ ∃ credential, effect = .reconnect credential) := by
  rintro (⟨p, rfl⟩ | ⟨credential, rfl⟩) <;> cases h

/-- After an answer a call has another duty for the same end, or is done. -/
theorem next (h : duty.Serves effect) (result : Except Failure Unit) :
    (∃ duty', duty.next result = .ready duty' ∧ duty'.Serves effect) ∨
      ∃ result', duty.next result = .done result' := by
  cases h with
  | connecting | reconnecting =>
    cases result with
    | ok _ => exact .inl ⟨_, rfl, .subscribing rfl⟩
    | error why => exact .inr ⟨_, rfl⟩
  | subscribing h =>
    cases result with
    | ok _ => exact .inr ⟨_, rfl⟩
    | error why => exact .inl ⟨_, rfl, .backingOut h why⟩
  | backingOut | disconnecting | publishing => exact .inr ⟨_, rfl⟩

end Duty.Serves

namespace Duty

/-- A call that goes on has still to give its next order. -/
theorem next_ne_waiting (duty duty' : Duty) (result : Except Failure Unit) (ticket : Ticket) :
    duty.next result ≠ .waiting duty' ticket := by
  cases duty <;> cases result <;> simp [next]

/-- A call that comes to a good end has subscribed, or was to do one thing only. -/
theorem of_next_done {duty : Duty} {result : Except Failure Unit}
    (h : duty.next result = .done (.ok ())) :
    result = .ok () ∧ (duty = .subscribing ∨ ∃ command, duty = .single command) := by
  cases duty with
  | subscribing =>
    cases result with
    | ok _ => exact ⟨rfl, .inl rfl⟩
    | error why => cases h
  | single command =>
    cases h
    exact ⟨rfl, .inr ⟨command, rfl⟩⟩
  | entering | backingOut => cases result <;> cases h

end Duty

namespace Call

/-- A call does what its effect was meant for. -/
def Fits (call : Call) : Prop :=
  match call.stage with
  | .ready duty | .waiting duty _ => duty.Serves call.effect
  | .done _ => True

/-- A call waits for the answer to an order. -/
def Awaits (call : Call) (o : Connection.Order) : Prop :=
  ∃ duty, call.stage = .waiting duty o.ticket ∧ duty.command = o.command

/-- A call that has been started is ready to give its first order. -/
theorem of_started {es : List Effect} {call : Call} (h : call ∈ started es) :
    ∃ duty, call.stage = .ready duty ∧ duty.Serves call.effect := by
  obtain ⟨e, -, he⟩ := List.mem_filterMap.1 h
  cases e <;> cases he
  · exact ⟨_, rfl, .connecting _⟩
  · exact ⟨_, rfl, .disconnecting⟩
  · exact ⟨_, rfl, .reconnecting _⟩
  · exact ⟨_, rfl, .publishing _ _ _⟩

/-- What effects start is what is lasting among them. -/
theorem effects_started (es : List Effect) : (started es).map Call.effect = lasting es := by
  induction es with
  | nil => rfl
  | cons e es ih =>
    have hcons : started (e :: es) = (Call.of? e).toList ++ started es := by
      cases h : Call.of? e <;> simp [started, h]
    rw [hcons, List.map_append, ih]
    cases e <;> rfl

end Call

/-- What comes back from a call comes back from its effect. -/
theorem Effect.ends {effect : Effect} {result : Except Failure Unit} {completion : Completion}
    (h : effect.completion? result = some completion) :
    Input.Ends (.completion completion) (some effect) := by
  cases effect <;> cases h
  · exact .connected _ _
  · exact .disconnected _
  · exact .reconnected _ _
  · exact .published _ _ _ _

end Session

namespace Tandem
variable {t t' : Tandem}

/-- The orders that have been given so far. -/
def issued (t : Tandem) : List Order :=
  t.course.orders ++ t.orders

/-- A step of the manager in which it takes no order gives none either. -/
theorem issued_of_own {course : Course} (step : Course.Step t.course course)
    (own : course.taken = t.course.taken) : course.orders ++ t.orders = t.issued := by
  rw [Course.orders_of_own step own, issued]

/-- The orders that wait at the manager: those that it has put off, and those it has not taken. -/
def waiting (t : Tandem) : List Order :=
  t.course.manager.deferred ++ t.orders

theorem waiting_more (t : Tandem) (o : Order) :
    waiting { t with orders := t.orders ++ [o] } = t.waiting ++ [o] :=
  (List.append_assoc ..).symm

/-- One more order has been given. -/
theorem mem_more {o o' : Order} (ho : o ∈ t.course.orders ++ (t.orders ++ [o'])) :
    o ∈ t.issued ∨ o = o' := by
  simpa [issued, or_assoc] using ho

theorem issued_more (t : Tandem) (o : Order) : t.issued ⊆ t.course.orders ++ (t.orders ++ [o]) := by
  rw [← List.append_assoc]
  exact List.subset_append_left _ _

/-- **How calls and orders belong together.** -/
structure Linked (t : Tandem) : Prop where
  course : Course.Reachable t.course
  unique : (t.issued.map Order.ticket).Nodup
  below : ∀ o ∈ t.issued, o.ticket < t.given
  fits : ∀ call ∈ t.calls, call.Fits
  /-- A call waits for an order that it has given. -/
  asked : ∀ call ∈ t.calls, ∀ duty ticket, call.stage = .waiting duty ticket →
    ⟨ticket, duty.command⟩ ∈ t.issued
  /-- An order that has not been answered has a call that waits for it. -/
  served : t.stopped = false → ∀ o ∈ t.issued, o.ticket ∉ Connection.answered t.course.record →
    ∃ call ∈ t.calls, call.Awaits o
  tended : t.stopped = false → t.session.Tended (t.calls.map Call.effect)
  heard : t.heard ≤ (Connection.told t.course.record).length
  runs : t.stopped = false → t.course.stopped = false

namespace Linked

/-! ## Steps -/

/-- The session has taken an input, and a call that has come back with it has left. -/
theorem advance {input : Session.Input} {returned : Option Session.Effect} {rest : List Call}
    (before after : List Session.Effect) (h : t.Linked)
    (hend : input.Ends returned) (hi : input.isShutDown = false)
    (hcalls : t.calls.map Call.effect = before ++ returned.toList ++ after)
    (hrest : rest.map Call.effect = before ++ after) (hsub : rest ⊆ t.calls)
    (hkept : ∀ call ∈ t.calls, ∀ o, call.Awaits o → call ∈ rest) :
    (t.advance input rest).Linked where
  course := h.course
  unique := h.unique
  below := h.below
  fits call hmem := by
    rcases List.mem_append.1 hmem with hold | hnew
    · exact h.fits call (hsub hold)
    · obtain ⟨duty, hs, hd⟩ := Call.of_started hnew
      simpa [Call.Fits, hs] using hd
  asked call hmem duty ticket hs := by
    rcases List.mem_append.1 hmem with hold | hnew
    · exact h.asked call (hsub hold) duty ticket hs
    · obtain ⟨duty', hs', -⟩ := Call.of_started hnew
      rw [hs'] at hs
      cases hs
  served running o ho hun := by
    obtain ⟨call, hmem, hw⟩ := h.served running o ho hun
    exact ⟨call, List.mem_append_left _ (hkept call hmem o hw), hw⟩
  tended running := by
    have hold := h.tended running
    rw [hcalls] at hold
    show Session.Tended _ ((rest ++ Session.started _).map Call.effect)
    rw [List.map_append, hrest, Call.effects_started]
    exact hold.step t.course.manager.state hend hi
  heard := h.heard
  runs := h.runs

/-- The session has taken an input, and all calls go on. -/
theorem advance_all {input : Session.Input} (h : t.Linked) (hend : input.Ends none)
    (hi : input.isShutDown = false) : (t.advance input t.calls).Linked :=
  h.advance (t.calls.map Call.effect) [] hend hi (by simp) (by simp) (List.Subset.refl _)
    fun _ hmem _ _ => hmem

variable {effect : Session.Effect} {duty : Duty} {stage stage' : Stage} {before after : List Call}

/-- A call is another one, or the one in the middle. -/
theorem mem_split {call : Call} (hcall : call ∈ before ++ ⟨effect, stage⟩ :: after) :
    call ∈ before ++ ⟨effect, stage'⟩ :: after ∨ call = ⟨effect, stage⟩ := by
  simp only [List.mem_append, List.mem_cons] at hcall ⊢
  rcases hcall with hb | rfl | ha
  · exact .inl (.inl hb)
  · exact .inr rfl
  · exact .inl (.inr (.inr ha))

/-- When one call has come further, the others are what they were. -/
theorem old_or_new {call : Call} (split : t.calls = before ++ ⟨effect, stage⟩ :: after)
    (hcall : call ∈ before ++ ⟨effect, stage'⟩ :: after) :
    call ∈ t.calls ∨ call = ⟨effect, stage'⟩ := by
  rw [split]
  exact mem_split hcall

/-- What a call waits for serves its effect. -/
theorem serves {call : Call} {ticket : Ticket} (h : t.Linked) (hcall : call ∈ t.calls)
    (hst : call.stage = .waiting duty ticket) : duty.Serves call.effect := by
  have hfits := h.fits call hcall
  rwa [Call.Fits, hst] at hfits

/-- A call goes on after an answer, or after it has been refused. -/
theorem goesOn {result : Except Failure Unit} (h : t.Linked)
    (split : t.calls = before ++ ⟨effect, stage⟩ :: after)
    (hs : stage = .ready duty ∨ ∃ ticket, stage = .waiting duty ticket ∧
      ticket ∈ Connection.answered t.course.record) :
    Linked { t with calls := before ++ ⟨effect, duty.next result⟩ :: after } := by
  have hserves : duty.Serves effect := by
    have hfits := h.fits ⟨effect, stage⟩ (by rw [split]; simp)
    rcases hs with rfl | ⟨ticket, rfl, -⟩ <;> exact hfits
  have hnext := hserves.next result
  exact
    { course := h.course
      unique := h.unique
      below := h.below
      heard := h.heard
      runs := h.runs
      fits := fun call hcall => by
        rcases old_or_new split hcall with hmem | rfl
        · exact h.fits call hmem
        · obtain ⟨duty', hst, hd⟩ | ⟨result', hst⟩ := hnext
          · simpa [Call.Fits, hst] using hd
          · simp [Call.Fits, hst]
      asked := fun call hcall duty' ticket hwait => by
        rcases old_or_new split hcall with hmem | rfl
        · exact h.asked call hmem duty' ticket hwait
        · obtain ⟨duty'', hst, -⟩ | ⟨result', hst⟩ := hnext <;>
            · rw [hst] at hwait
              cases hwait
      served := fun running o ho hun => by
        obtain ⟨call, hcall, hwait⟩ := h.served running o ho hun
        rw [split] at hcall
        rcases mem_split hcall with hmem | rfl
        · exact ⟨call, hmem, hwait⟩
        · -- the call that goes on was waiting for nothing, or has its answer
          obtain ⟨duty', hst, -⟩ := hwait
          rcases hs with rfl | ⟨ticket, rfl, hans⟩
          · cases hst
          · obtain ⟨-, rfl⟩ : duty = duty' ∧ ticket = o.ticket := by simpa using hst
            exact absurd hans hun
      tended := fun running => by
        have htended := h.tended running
        rw [split] at htended
        simpa using htended }

theorem unique_more (h : t.Linked) (command : Connection.Command) :
    ((t.course.orders ++ (t.orders ++ [(⟨t.given, command⟩ : Order)])).map Order.ticket).Nodup := by
  rw [← List.append_assoc, List.map_append, List.nodup_append]
  refine ⟨h.unique, by simp, fun k hk k' hk' heq => ?_⟩
  obtain ⟨o, ho, rfl⟩ := List.mem_map.1 hk
  obtain rfl : k' = t.given := by simpa using hk'
  exact Nat.ne_of_lt (h.below o ho) heq

theorem below_more (h : t.Linked) (command : Connection.Command) (o : Order)
    (ho : o ∈ t.course.orders ++ (t.orders ++ [⟨t.given, command⟩])) : o.ticket < t.given + 1 := by
  rcases mem_more ho with hmem | rfl
  · exact Nat.lt_succ_of_lt (h.below o hmem)
  · exact Nat.lt_succ_self t.given

/-- A call has given an order, with the next ticket. -/
theorem asks (h : t.Linked) (split : t.calls = before ++ ⟨effect, .ready duty⟩ :: after) :
    Linked
      { t with
        calls := before ++ ⟨effect, .waiting duty t.given⟩ :: after
        orders := t.orders ++ [⟨t.given, duty.command⟩]
        given := t.given + 1 } := by
  exact
    { course := h.course
      heard := h.heard
      runs := h.runs
      unique := h.unique_more duty.command
      below := h.below_more duty.command
      fits := fun call hcall => by
        rcases old_or_new split hcall with hmem | rfl
        · exact h.fits call hmem
        · exact h.fits ⟨effect, .ready duty⟩ (by rw [split]; simp)
      asked := fun call hcall duty' ticket hwait => by
        rcases old_or_new split hcall with hmem | rfl
        · exact issued_more t _ (h.asked call hmem duty' ticket hwait)
        · obtain ⟨rfl, rfl⟩ : duty = duty' ∧ t.given = ticket := by simpa using hwait
          exact List.mem_append_right _ (by simp)
      served := fun running o ho hun => by
        rcases mem_more (t := t) ho with hmem | rfl
        · obtain ⟨call, hcall, hwait⟩ := h.served running o hmem hun
          rw [split] at hcall
          rcases mem_split hcall with hkept | rfl
          · exact ⟨call, hkept, hwait⟩
          · obtain ⟨duty', hst, -⟩ := hwait
            cases hst
        · exact ⟨⟨effect, .waiting duty t.given⟩, by simp, duty, rfl, rfl⟩
      tended := fun running => by
        have htended := h.tended running
        rw [split] at htended
        simpa using htended }

/-- The manager has made a step. -/
theorem courses {course : Course} {orders : List Order} (h : t.Linked)
    (hs : Course.Step t.course course) (hissued : course.orders ++ orders = t.issued)
    (hheld : course.stopped = true → t.stopped = true) : Linked { t with course, orders } where
  course := h.course.step hs
  fits := h.fits
  tended := h.tended
  unique := by
    show ((course.orders ++ orders).map Order.ticket).Nodup
    rw [hissued]
    exact h.unique
  below := by
    show ∀ o ∈ course.orders ++ orders, _
    rw [hissued]
    exact h.below
  asked := by
    show ∀ call ∈ t.calls, ∀ duty ticket, _ → _ ∈ course.orders ++ orders
    rw [hissued]
    exact h.asked
  served running o ho hun := by
    refine h.served running o (hissued ▸ ho) fun hans => hun ?_
    exact (Course.answered_prefix hs).subset hans
  heard := by
    obtain ⟨es, hes⟩ := Course.record_prefix hs
    show t.heard ≤ (Connection.told course.record).length
    rw [← hes, Connection.told_append, List.length_append]
    exact Nat.le_add_right_of_le h.heard
  runs running := by
    cases hstop : course.stopped with
    | false => rfl
    | true =>
      have running : t.stopped = false := running
      rw [hheld hstop] at running
      cases running

/-- The manager takes the first order that waits for it. -/
theorem takes {order : Order} {rest : List Order} (h : t.Linked) (now : Time.Millis)
    (running : t.course.stopped = false) (first : t.orders = order :: rest) :
    Course.Step t.course (t.course.follow now (.order order) t.course.outstanding) ∧
      (t.course.follow now (.order order) t.course.outstanding).orders ++ rest = t.issued := by
  constructor
  · have hs : Course.Step t.course
        (t.course.follow now (.order order) (t.course.outstanding ++ [])) := by
      refine .takes now (.order order) none t.course.outstanding [] running (.order order) ?_
        (by simp)
      -- no other order bears its ticket
      have hn := h.unique
      rw [issued, first, List.map_append, List.nodup_append] at hn
      rw [Course.Admits, Course.taken_eq]
      exact fun hmem => hn.2.2 _ hmem order.ticket (by simp) rfl
    rwa [List.append_nil] at hs
  · rw [Course.orders_follow, issued, first]
    simp [Connection.Input.order?]

/-- The session has been shut down, and has the manager disconnect. -/
theorem shutDown (h : t.Linked) :
    Linked
      { t.advance .shutDown t.calls with
        orders := t.orders ++ [⟨t.given, .disconnect⟩]
        given := t.given + 1
        stopped := true } := by
  exact
    { course := h.course
      heard := h.heard
      unique := h.unique_more .disconnect
      below := h.below_more .disconnect
      fits := fun call hmem => by
        rcases List.mem_append.1 hmem with hold | hnew
        · exact h.fits call hold
        · obtain ⟨duty, hs, hd⟩ := Call.of_started hnew
          simpa [Call.Fits, hs] using hd
      asked := fun call hmem duty ticket hs => by
        rcases List.mem_append.1 hmem with hold | hnew
        · exact issued_more t _ (h.asked call hold duty ticket hs)
        · obtain ⟨duty', hs', -⟩ := Call.of_started hnew
          rw [hs'] at hs
          cases hs
      served := fun running => by cases running
      tended := fun running => by cases running
      runs := fun running => by cases running }

end Linked

/-- **A step keeps calls and orders together.** -/
theorem Linked.step (h : t.Linked) (hs : Step t t') : t'.Linked := by
  cases hs with
  | order order running => exact h.advance_all (.order order) rfl
  | hears notice rest running first =>
    have := h.advance_all (.notice notice) rfl
    refine { this with heard := ?_ }
    have hlen : t.unheard.length = rest.length + 1 := by rw [first]; rfl
    rw [unheard, List.length_drop] at hlen
    show t.heard + 1 ≤ (Connection.told t.course.record).length
    omega
  | completes effect result completion before after running split comes =>
    refine h.advance (before.map Call.effect) (after.map Call.effect) (Session.Effect.ends comes)
      rfl (by rw [split]; simp) (by simp) ?_ fun call hcall o hwait => ?_
    · rw [split]
      exact (List.Sublist.refl _).append (List.sublist_cons_self _ _) |>.subset
    · rw [split] at hcall
      simp only [List.mem_append, List.mem_cons] at hcall
      rcases hcall with hb | rfl | ha
      · exact List.mem_append_left _ hb
      · obtain ⟨duty, hst, -⟩ := hwait
        cases hst
      · exact List.mem_append_right _ ha
  | shutDown running => exact h.shutDown
  | asks effect duty before after split accepted => exact h.asks split
  | refused effect duty why before after split rejected => exact h.goesOn split (.inl rfl)
  | answered effect duty ticket result before after split answer =>
    exact h.goesOn split (.inr ⟨ticket, rfl, List.mem_filterMap.2 ⟨_, answer, rfl⟩⟩)
  | takes now order rest running first =>
    obtain ⟨hs, hissued⟩ := h.takes now running first
    exact h.courses hs hissued fun hstop => by cases hstop
  | manager course step own held =>
    exact h.courses step (issued_of_own step own) fun hstop => (held hstop).1

/-- **In every tandem, calls and orders belong together.** -/
theorem linked (h : Reachable t) : t.Linked := by
  induction h with
  | start settings ids patience messageIds =>
    exact
      { course := .start patience messageIds
        unique := List.nodup_nil
        below := fun _ hmem => absurd hmem List.not_mem_nil
        fits := fun _ hmem => absurd hmem List.not_mem_nil
        asked := fun _ hmem => absurd hmem List.not_mem_nil
        served := fun _ _ hmem => absurd hmem List.not_mem_nil
        tended := fun _ => .disconnected rfl rfl rfl rfl
        heard := Nat.le_refl _
        runs := fun _ => rfl }
  | step _ hs ih => exact ih.step hs

/-- **In a step of a tandem** the manager makes a step of its own, which gives no orders, or does
nothing. -/
theorem Linked.course_of_step (h : t.Linked) (hs : Step t t') :
    t'.course = t.course ∨ Course.Step t.course t'.course ∧ t'.issued = t.issued := by
  cases hs with
  | order | hears | completes | shutDown | asks | refused | answered => exact .inl rfl
  | takes now order rest running first => exact .inr (h.takes now running first)
  | manager course step own held => exact .inr ⟨step, issued_of_own step own⟩

/-! ## What the session does with the calls -/

/-- **What the session makes of an input**: `rest` are the calls that go on, and others are
started. -/
structure Goes (t : Tandem) (input : Session.Input) (rest : List Call) (t' : Tandem) : Prop where
  running : t.stopped = false
  ends : ∃ before returned after, input.Ends returned ∧ input.isShutDown = false ∧
    t.calls.map Call.effect = before ++ returned.toList ++ after ∧
    rest.map Call.effect = before ++ after
  sub : rest ⊆ t.calls
  /-- Only a call that is done leaves. -/
  kept : ∀ call ∈ t.calls, (∀ result, call.stage ≠ .done result) → call ∈ rest
  session : t'.session = (t.session.step t.course.manager.state input).session
  calls : t'.calls
    = rest ++ Session.started (t.session.step t.course.manager.state input).effects
  course : t'.course = t.course
  orders : t'.orders = t.orders

/-- Whatever the session takes, it goes on like this. -/
theorem Takes.goes {input : Session.Input} (h : t.Takes input t') :
    ∃ rest, t.Goes input rest t' := by
  cases h with
  | order order running =>
    exact ⟨t.calls, running,
      ⟨t.calls.map Call.effect, none, [], .order order, rfl, by simp, by simp⟩,
      List.Subset.refl _, fun _ hmem _ => hmem, rfl, rfl, rfl, rfl⟩
  | hears notice rest running first =>
    exact ⟨t.calls, running,
      ⟨t.calls.map Call.effect, none, [], .notice notice, rfl, by simp, by simp⟩,
      List.Subset.refl _, fun _ hmem _ => hmem, rfl, rfl, rfl, rfl⟩
  | completes effect result completion before after running split comes =>
    refine ⟨before ++ after, running,
      ⟨_, some effect, _, Session.Effect.ends comes, rfl, by rw [split]; simp, List.map_append⟩,
      ?_, fun call hmem hdone => ?_, rfl, rfl, rfl, rfl⟩
    · rw [split]
      exact ((List.Sublist.refl _).append (List.sublist_cons_self _ _)).subset
    · rw [split, List.mem_append, List.mem_cons] at hmem
      rcases hmem with hb | rfl | ha
      · exact List.mem_append_left _ hb
      · exact absurd rfl (hdone result)
      · exact List.mem_append_right _ ha

/-! ## On whose behalf the manager changes -/

namespace Linked

/-- A ticket belongs to one order only. -/
theorem order_unique (h : t.Linked) {o o' : Order} (ho : o ∈ t.issued) (ho' : o' ∈ t.issued)
    (ht : o.ticket = o'.ticket) : o = o' :=
  List.inj_on_of_nodup_map h.unique ho ho' ht

/-- The session changes with one call only. -/
theorem change_unique (h : t.Linked) (running : t.stopped = false) {call call' : Call}
    (hcall : call ∈ t.calls) (hcall' : call' ∈ t.calls) (hc : call.effect.isChange)
    (hc' : call'.effect.isChange) : call = call' := by
  obtain ⟨before, after, hsplit⟩ := List.append_of_mem hcall
  have ht := h.tended running
  rw [hsplit, List.map_append, List.map_cons, Session.Tended, Session.changes_append,
    Session.changes_cons, if_pos hc] at ht
  -- the session waits for one change only, so there is none on either side of this one
  obtain ⟨hb, ha⟩ := Session.Standing.alone ht
  have hnone : ∀ {calls : List Call}, Session.changes (calls.map Call.effect) = [] →
      call' ∉ calls := fun hnil hmem => by
    have : call'.effect ∈ Session.changes (List.map Call.effect _) :=
      List.mem_filter.2 ⟨List.mem_map.2 ⟨call', hmem, rfl⟩, hc'⟩
    rw [hnil] at this
    exact List.not_mem_nil this
  rw [hsplit, List.mem_append, List.mem_cons] at hcall'
  rcases hcall' with hmem | heq | hmem
  · exact absurd hmem (hnone hb)
  · exact heq.symm
  · exact absurd hmem (hnone ha)

/-- A session that has settled has no call with which it changes. -/
theorem no_change (h : t.Linked) (running : t.stopped = false)
    (hs : t.session.state.isTransitional = false) :
    ∀ call ∈ t.calls, call.effect.isChange = false := by
  intro call hcall
  have hnil := (Session.Standing.of_settled (h.tended running) hs).1
  cases hc : call.effect.isChange with
  | false => rfl
  | true =>
    have : call.effect ∈ Session.changes (t.calls.map Call.effect) :=
      List.mem_filter.2 ⟨List.mem_map.2 ⟨call, hcall, rfl⟩, hc⟩
    rw [hnil] at this
    exact absurd this List.not_mem_nil

/-- **Whom the manager lets wait,** a call waits for: one that changes. -/
theorem waiter_waits (h : t.Linked) (running : t.stopped = false) {ticket : Ticket}
    (hw : t.course.manager.waiter = some ticket) :
    ∃ call ∈ t.calls, ∃ duty, call.stage = .waiting duty ticket ∧
      duty.command.isTraffic = false := by
  obtain ⟨o, ho, rfl, htraffic⟩ := (Course.origin h.course).1.waiter ticket hw
  have hun : o.ticket ∉ Connection.answered t.course.record :=
    Course.unanswered_of_held h.course (.inl (by simp [Connection.Manager.callers, hw]))
  obtain ⟨call, hcall, duty, hst, hcmd⟩ :=
    h.served running o (List.mem_append_left _ ho) hun
  exact ⟨call, hcall, duty, hst, by rw [hcmd, htraffic]⟩

/-- What the manager has started for a caller, a call waits for. -/
theorem asking_waits (h : t.Linked) (running : t.stopped = false) {o : Order}
    (ho : o ∈ t.course.orders) (hasking : o.ticket ∈ Connection.asking t.course.outstanding) :
    ∃ call ∈ t.calls, call.Awaits o :=
  h.served running o (List.mem_append_left _ ho)
    (Course.unanswered_of_held h.course (.inr hasking))

/-- What waits at the manager has not been answered. -/
theorem unanswered (h : t.Linked) {o : Order} (ho : o ∈ t.waiting) :
    o ∈ t.issued ∧ o.ticket ∉ Connection.answered t.course.record := by
  rcases List.mem_append.1 ho with hdeferred | hwaiting
  · refine ⟨List.mem_append_left _ ((Course.origin h.course).1.deferred o hdeferred), ?_⟩
    refine Course.unanswered_of_held h.course (.inl ?_)
    simp only [Connection.Manager.callers, List.mem_append]
    exact .inl (.inl (List.mem_map.2 ⟨o, hdeferred, rfl⟩))
  · refine ⟨List.mem_append_right _ hwaiting, fun hans => ?_⟩
    have htaken := Course.taken_of_answered h.course hans
    have hn := h.unique
    rw [issued, List.map_append, List.nodup_append, ← Course.taken_eq] at hn
    exact hn.2.2 _ htaken _ (List.mem_map.2 ⟨o, hwaiting, rfl⟩) rfl

/-- An order that the manager has not taken, a call waits for. -/
theorem order_waits (h : t.Linked) (running : t.stopped = false) {o : Order} (ho : o ∈ t.orders) :
    ∃ call ∈ t.calls, call.Awaits o :=
  h.served running o (List.mem_append_right _ ho)
    (h.unanswered (List.mem_append_right _ ho)).2

end Linked

/-- No call waits for a change. -/
def Calm (t : Tandem) : Prop :=
  ∀ call ∈ t.calls, ∀ duty ticket, call.stage = .waiting duty ticket → duty.command.isTraffic = true

/-- While no call waits for a change, nobody waits for one at the manager. -/
theorem Linked.unwaited (h : t.Linked) (running : t.stopped = false) (calm : t.Calm) :
    t.course.manager.waiter = none := by
  cases hw : t.course.manager.waiter with
  | none => rfl
  | some ticket =>
    obtain ⟨call, hcall, duty, hst, htraffic⟩ := h.waiter_waits running hw
    rw [calm call hcall duty ticket hst] at htraffic
    cases htraffic

/-- No call waits for a change when the session has settled. -/
theorem Linked.calm_of_settled (h : t.Linked) (running : t.stopped = false)
    (hs : t.session.state.isTransitional = false) : t.Calm := by
  intro call hcall duty ticket hst
  have hchange := h.no_change running hs call hcall
  cases hc : duty.command with
  | publish | subscribe | unsubscribe => rfl
  | connect | disconnect | updateCredential =>
    rw [(h.serves hcall hst).isChange (by rw [hc]; rfl)] at hchange
    cases hchange

end Tandem

end DeviceProvisioning
