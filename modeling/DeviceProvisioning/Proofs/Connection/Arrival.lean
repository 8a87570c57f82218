import DeviceProvisioning.Proofs.Connection.Continuity

/-!
# Orders are carried out as they arrive

While a change is under way a manager puts every order off.  When the change has ended it takes up
what was put off, one order after the other, and any of them may begin the next change.  Those
behind it are put off once more then, and so on, as often as it takes.

`Turn.carriedOut` are the orders that are carried out when a queue is taken, rather than put off.
An order is only put off while a change is under way, and no change ends in the middle of a queue;
so what is carried out is the front of the queue, and what is put off is the rest of it, in the same
order (`Turn.carriedOut_append_deferred`).  Over a whole course, the orders carried out and those
that still wait are all orders that have come in (`Course.carried_out_in_order_of_arrival`).
-/

namespace DeviceProvisioning.Connection

open Time (Millis)

/-! ## Queues -/

namespace Turn

/-- Carries out an order, on the link if there is a connection. -/
def carryOut (now : Millis) (order : Order) (t : Turn) : Turn :=
  match t.manager.state, t.manager.link with
  | .connected, some link => t.whileConnected now link order
  | .connected, none => t.answer order.ticket (.error (.notConnected "no open connection"))
  | _, _ => t.whileDisconnected order

/-- **The orders that are carried out** when a queue is taken, and not put off. -/
def carriedOut (now : Millis) : Turn → List Order → List Order
  | _, [] => []
  | t, o :: queue =>
    if t.manager.state.isTransitional then carriedOut now (t.take now o) queue
    else o :: carriedOut now (t.take now o) queue

variable {now : Millis} {t : Turn}

/-- **An order is put off or carried out.** -/
theorem take_eq (now : Millis) (o : Order) (t : Turn) :
    t.take now o
      = if t.manager.state.isTransitional then t.defer o else t.carryOut now o := by
  unfold take carryOut
  cases t.manager.state with
  | connected => cases t.manager.link <;> rfl
  | _ => rfl

/-- What is carried out is not put off, and nothing else is. -/
theorem deferred_carryOut (o : Order) (hs : t.manager.state.isTransitional = false) :
    (t.carryOut now o).manager.deferred = t.manager.deferred := by
  have heq : t.take now o = t.carryOut now o := by rw [take_eq, hs]; rfl
  obtain ⟨m', es, ht, htake⟩ := t.taking now o
  rw [← heq, htake]
  cases ht with
  | deferred htr =>
    rw [hs] at htr
    cases htr
  | rotating link credential => exact t.manager.renewed_deferred credential
  | _ => rfl

/-- **A queue is carried out from its front**, and the rest of it is put off. -/
theorem carriedOut_append_deferred (now : Millis) (queue : List Order)
    (h : t.manager.state.isTransitional = false → t.manager.deferred = []) :
    t.carriedOut now queue ++ (queue.foldl (fun t o => t.take now o) t).manager.deferred
      = t.manager.deferred ++ queue := by
  induction queue generalizing t with
  | nil => simp [carriedOut]
  | cons o queue ih =>
    rw [List.foldl_cons, carriedOut, take_eq]
    cases hs : t.manager.state.isTransitional with
    | true =>
      -- the order goes behind the others that have been put off, and the change goes on
      have hrest := ih (t := t.defer o) fun hsettled => by
        rw [show (t.defer o).manager.state = t.manager.state from rfl, hs] at hsettled
        cases hsettled
      simp only [if_true]
      rw [hrest]
      simp [defer, update]
    | false =>
      -- nothing has been put off yet, so the order overtakes nobody
      have hnone := h hs
      have hkept : (t.carryOut now o).manager.deferred = t.manager.deferred :=
        deferred_carryOut o hs
      have hrest := ih (t := t.carryOut now o) fun _ => hkept.trans hnone
      simp only [Bool.false_eq_true, if_false, List.cons_append]
      rw [hrest, hkept, hnone]
      rfl

end Turn

/-! ## Steps -/

/-- What has waited or comes in is to be taken after the opening, unless it goes on waiting. -/
theorem Opening.waits {m m' : Manager} {input : Input} {es : List Effect} {queue : List Order}
    {awaited : List Effect} (h : m.Standing awaited) (hi : input.isShutDown = false)
    (ho : Opening m input m' es queue) :
    (m'.state.isTransitional = false → m'.deferred = []) ∧
      m'.deferred ++ queue = m.deferred ++ input.order?.toList := by
  have hd := h.deferred_of_settled
  cases ho with
  | order o => exact ⟨hd, rfl⟩
  | established | refused | tornDown | closed | failed =>
    exact ⟨fun _ => rfl, (List.append_nil _).symm⟩
  | stranded hr =>
    have hnone : input.order? = none := by cases hr <;> rfl
    exact ⟨fun _ => rfl, by rw [hnone]; exact (List.append_nil _).symm⟩
  | rotated p hr =>
    have hnone : input.order? = none := by cases hr <;> rfl
    exact ⟨hd, by rw [hnone]; rfl⟩
  | abandoned | lapsed | acknowledged | undelivered | message => exact ⟨hd, rfl⟩
  | ignored hig =>
    have hnone : input.order? = none := by
      cases input <;> first | rfl | exact absurd hig id
    exact ⟨hd, by rw [hnone]; rfl⟩
  | shutDown => cases hi

namespace Manager
variable {now : Millis} {m : Manager} {input : Input} {done : List Order}

/-- **The orders that a step carries out**: of those that it takes after its opening, the ones that
it does not put off. -/
def CarriesOut (now : Millis) (m : Manager) (input : Input) (done : List Order) : Prop :=
  ∃ m' es queue, Opening m input m' es queue ∧
    m.step now input = queue.foldl (fun t o => t.take now o) ⟨m', es⟩ ∧
    done = Turn.carriedOut now ⟨m', es⟩ queue

/-- Every step carries out some orders, or none. -/
theorem exists_carriesOut (now : Millis) (m : Manager) (input : Input) :
    ∃ done, m.CarriesOut now input done := by
  obtain ⟨m', es, queue, hopen, hstep⟩ := m.opens now input
  exact ⟨_, m', es, queue, hopen, hstep, rfl⟩

/-- **A step carries out the orders that have waited longest**, and leaves the others waiting. -/
theorem CarriesOut.append_deferred {awaited : List Effect} (h : m.CarriesOut now input done)
    (hst : m.Standing awaited) (hi : input.isShutDown = false) :
    done ++ (m.step now input).manager.deferred = m.deferred ++ input.order?.toList := by
  obtain ⟨m', es, queue, hopen, hstep, rfl⟩ := h
  obtain ⟨hsettled, hwaits⟩ := hopen.waits hst hi
  rw [hstep, ← hwaits]
  exact Turn.carriedOut_append_deferred now queue hsettled

/-- **The last step carries out nothing**, and refuses the orders that wait, one after the other. -/
theorem CarriesOut.shutDown (h : m.CarriesOut now .shutDown done) :
    done = [] ∧ ∃ earlier, (m.step now .shutDown).effects
      = earlier ++ m.deferred.map fun o => .answer o.ticket (.error Turn.gone) := by
  obtain ⟨m', es, queue, hopen, hstep, rfl⟩ := h
  cases hopen with
  | shutDown => exact ⟨rfl, _, by rw [hstep]; rfl⟩
  | rotated p hr | stranded hr => cases hr
  | ignored hig => exact absurd hig id

end Manager

/-! ## Courses -/

namespace Course
variable {c c' : Course}

/-- **The orders that have been carried out in a course**, in the order in which this was done. -/
inductive CarriedOut : Course → List Order → Prop where
  | start (patience : Millis) (ids : RequestId.Source) :
    CarriedOut { manager := { patience, ids } } []
  | takes {c : Course} {done new : List Order} {now : Millis} {input : Input} {e : Option Effect}
      {before after : List Effect} (h : CarriedOut c done) (running : c.stopped = false)
      (ends : input.Ends e) (admits : c.Admits input)
      (split : c.outstanding = before ++ e.toList ++ after)
      (carries : c.manager.CarriesOut now input new) :
    CarriedOut (c.follow now input (before ++ after)) (done ++ new)
  | other {c c' : Course} {done : List Order} (h : CarriedOut c done) (step : Step c c')
      (own : c'.inputs = c.inputs) : CarriedOut c' done

/-- In every course some orders have been carried out, or none. -/
theorem exists_carriedOut (h : Reachable c) : ∃ done, c.CarriedOut done := by
  induction h with
  | start patience ids => exact ⟨[], .start patience ids⟩
  | @step c c' hr hs ih =>
    obtain ⟨done, hdone⟩ := ih
    have hother (own : c'.inputs = c.inputs) : ∃ done, c'.CarriedOut done :=
      ⟨done, hdone.other hs own⟩
    cases hs with
    | takes now input e before after running ends admits split =>
      obtain ⟨new, hnew⟩ := c.manager.exists_carriesOut now input
      exact ⟨_, hdone.takes running ends admits split hnew⟩
    | subscribed | unsubscribed | late => exact hother rfl

theorem CarriedOut.reachable {done : List Order} (h : c.CarriedOut done) : Reachable c := by
  induction h with
  | start patience ids => exact .start patience ids
  | takes h running ends admits split carries ih =>
    exact ih.step (.takes _ _ _ _ _ running ends admits split)
  | other h step own ih => exact ih.step step

/-- **The orders that were refused** when the manager was shut down: their answers stand in the
record, one after the other. -/
def Refused (c : Course) (refused : List Order) : Prop :=
  ∃ earlier later, c.record
    = earlier ++ refused.map (fun o => .answer o.ticket (.error Turn.gone)) ++ later

theorem Refused.step {refused : List Order} (h : c.Refused refused) (hs : Step c c') :
    c'.Refused refused := by
  obtain ⟨earlier, later, heq⟩ := h
  obtain ⟨new, hnew⟩ := record_prefix hs
  exact ⟨earlier, later ++ new, by rw [← hnew, heq, List.append_assoc]⟩

/-- What has been carried out, with what waits or has been refused, is what has come in. -/
theorem CarriedOut.orders {done : List Order} (h : c.CarriedOut done) :
    (c.stopped = false → done ++ c.manager.deferred = c.orders) ∧
      (c.stopped = true → ∃ refused, done ++ refused = c.orders ∧ c.Refused refused) := by
  induction h with
  | start patience ids => exact ⟨fun _ => rfl, nofun⟩
  | @takes c done new now input e before after h running ends admits split carries ih =>
    have hold := ih.1 running
    rw [orders_follow, ← hold]
    cases hi : input.isShutDown with
    | false =>
      have hst := (tended h.reachable running).standing
      have hnew := carries.append_deferred hst hi
      refine ⟨fun _ => ?_, fun hstop => ?_⟩
      · show done ++ new ++ (c.manager.step now input).manager.deferred = _
        rw [List.append_assoc, hnew, List.append_assoc]
      · rw [show (c.follow now input (before ++ after)).stopped = false from hi] at hstop
        cases hstop
    | true =>
      obtain rfl := Input.eq_shutDown hi
      obtain ⟨rfl, earlier, heq⟩ := carries.shutDown
      refine ⟨nofun, fun _ => ⟨c.manager.deferred, by simp [Input.order?], ?_⟩⟩
      refine ⟨c.record ++ earlier, [], ?_⟩
      show c.record ++ (c.manager.step now .shutDown).effects = _
      rw [heq, List.append_nil, List.append_assoc]
  | @other c c' done h step own ih =>
    -- the manager takes nothing, and so it stays as it is
    obtain ⟨hm, hstop⟩ : c'.manager = c.manager ∧ c'.stopped = c.stopped := by
      cases step with
      | takes => simp [follow] at own
      | subscribed | unsubscribed | late => exact ⟨rfl, rfl⟩
    have ho : c'.orders = c.orders := by rw [Course.orders, Course.orders, own]
    rw [hm, hstop, ho]
    refine ⟨ih.1, fun hstopped => ?_⟩
    obtain ⟨refused, heq, hrefused⟩ := ih.2 hstopped
    exact ⟨refused, heq, hrefused.step step⟩

/-- **Orders are carried out in the order of their arrival**, and none is lost, repeated or
overtaken.  In every course the orders that have come in are all different.  As long as the manager
runs, they are the orders that have been carried out, one after the other, followed by those that
wait.  When it has been shut down, they are the orders that have been carried out, followed by those
that were refused then. -/
theorem carried_out_in_order_of_arrival (h : Reachable c) :
    (∃ done, c.CarriedOut done) ∧ (c.orders.map Order.ticket).Nodup ∧
    ∀ done, c.CarriedOut done →
      (c.stopped = false → done ++ c.manager.deferred = c.orders) ∧
      (c.stopped = true → ∃ refused, done ++ refused = c.orders ∧ c.Refused refused) := by
  refine ⟨exists_carriedOut h, ?_, fun done hdone => hdone.orders⟩
  rw [← taken_eq]
  exact (accounted h).unique

/-- A change that begins while the orders are taken up that waited for the one before: a manager
connects, and of the three orders that have waited the second is a new credential.  The third goes
on waiting. -/
theorem renewal_amid_waiting_orders :
    ∃ c done waits, Reachable c ∧ c.CarriedOut done ∧ c.manager.state = .reconnecting ∧
      done.map Order.ticket = [0, 1, 2] ∧ c.manager.deferred = [waits] ∧ waits.ticket = 3 ∧
      done ++ c.manager.deferred = c.orders := by
  let p : Parameters := ⟨"mqtt://broker", "device", "user", none, true, 0, none⟩
  have connect := (Reachable.start 30000 .sequential).step
    (.takes 0 (.order ⟨0, .connect p⟩) none [] [] rfl (.order _) (by decide) rfl)
  have publish := connect.step
    (.takes 0 (.order ⟨1, .publish "topic" [] {}⟩) none [_] [] rfl (.order _) (by decide) rfl)
  have update := publish.step
    (.takes 0 (.order ⟨2, .updateCredential (.signature "token")⟩) none [_] [] rfl (.order _)
      (by decide) rfl)
  have subscribe := update.step
    (.takes 0 (.order ⟨3, .subscribe "filter" .atLeastOnce⟩) none [_] [] rfl (.order _)
      (by decide) rfl)
  have dialled := subscribe.step
    (.takes 0 (.completion (.dialled 1 (.ok 5))) (some _) [] [] rfl (.dialled _ p _) (by decide)
      rfl)
  obtain ⟨⟨done, hdone⟩, -, horder⟩ := carried_out_in_order_of_arrival dialled
  have heq := (horder done hdone).1 rfl
  refine ⟨_, done, _, dialled, hdone, rfl, ?_, rfl, rfl, heq⟩
  have htickets := congrArg (List.map Order.ticket) heq
  rw [List.map_append] at htickets
  exact (List.append_left_inj [3]).1 htickets

end Course

end DeviceProvisioning.Connection
