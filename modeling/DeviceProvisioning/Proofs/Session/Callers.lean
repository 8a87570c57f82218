import DeviceProvisioning.Proofs.Session.Standing
import DeviceProvisioning.Proofs.Table

/-!
# Every caller of a session is answered once

The ticket of an order may belong to an outstanding operation, to work that was put off, or to the
session's waiter; whoever holds it is to answer it.  Operations can end in many ways — by a
response, by a failure to publish, by a cancellation, with the connection, with the session — and
these race with each other.

A step only ever moves tickets from one hand to another, or answers them (`step_callers`).  Two
things keep a ticket from being dropped on the way: a session that has settled has no waiter
(`Standing.of_settled`), so that none is overwritten by the next change, and outstanding
operations have different ids (`Session.Distinct`).

`Course.every_request_answered_once` sums this up over a course.
-/

namespace DeviceProvisioning.Session

open Connection (Credential Parameters State Ticket)
open Registration (Query Request)

/-- The callers of the outstanding operations. -/
def operators (s : Session) : List Ticket :=
  s.pending.map fun p => p.2.ticket

/-- The callers whose tickets a session holds. -/
def callers (s : Session) : List Ticket :=
  s.operators ++ asking s.deferred ++ s.waiter.toList

/-- Outstanding operations have different ids. -/
def Distinct (s : Session) : Prop :=
  (s.pending.map Prod.fst).Nodup

variable {manager : State} {s s' : Session} {es : List Effect}

/-! ## One step -/

/-- A new operation has the caller who asked for it. -/
theorem operators_asked {ticket : Ticket} {request : Request} {query : Query}
    (hf : s.ids.peek ∉ s.pending.map Prod.fst) :
    (s.asked ticket request query).operators = s.operators ++ [ticket] := by
  have hkeep : s.pending.filter (·.1 ≠ s.ids.peek) = s.pending := Table.drop_unused hf
  unfold operators asked
  rw [hkeep, List.map_append]
  rfl

/-- An operation that has been answered takes its caller with it, and no other. -/
theorem count_operators {id : RequestId} {op : Operation} (h : s.Distinct)
    (hp : s.pending.lookup id = some op) (k : Ticket) :
    s.operators.count k = [op.ticket].count k + (s.without id).operators.count k := by
  obtain ⟨lost, hk, hlost⟩ :=
    Table.count_lookup (fun p : RequestId × Operation => p.2.ticket) hp k
  rwa [hlost h, Nat.add_zero] at hk

/-- Operations keep different ids: a new one takes the place of any other with its id. -/
theorem Distinct.opening {input : Input} {queue : List Work} (h : s.Distinct)
    (ho : Opening manager s input s' es queue) : s'.Distinct := by
  cases ho with
  | asked ticket request query =>
    unfold Distinct asked
    rw [List.map_append, List.nodup_append]
    refine ⟨Table.distinct_drop h _, by simp, fun id hid id' hid' => ?_⟩
    obtain rfl : id' = s.ids.peek := by simpa using hid'
    obtain ⟨p, hp, rfl⟩ := List.mem_map.1 hid
    exact of_decide_eq_true (List.mem_filter.1 hp).2
  | unpublished | responded => exact Table.distinct_drop h _
  | updateCredential | connected | reconnected | disconnected | dropped | noted | ignored => exact h
  | cancelled | disconnect | lostConnecting | unconnected | lostReconnecting | unreconnected | lost
  | shutDown => exact List.nodup_nil

/-- **What an input leads to by itself** moves tickets or answers them. -/
theorem opening_callers {input : Input} {queue : List Work} (h : s.Distinct)
    (hf : s.Fresh input) (ho : Opening manager s input s' es queue) (k : Ticket) :
    input.ticket?.toList.count k + s.callers.count k
      = (answered es).count k + s'.callers.count k + (asking queue).count k := by
  cases ho with
  | asked ticket request query =>
    rw [callers, callers, operators_asked hf]
    simp [asked, Input.ticket?, Effect.answered?, Work.ticket?, List.count_cons]
    omega
  | cancelled ticket | disconnect ticket | updateCredential ticket =>
    simp [callers, operators, Input.ticket?, Effect.answered?, Work.ticket?]
    try omega
  | connected | lostConnecting | unconnected =>
    simp [callers, operators, Input.ticket?, changed, fallen]
    try omega
  | reconnected | lostReconnecting | unreconnected | disconnected =>
    simp [callers, operators, Input.ticket?, changed, fallen]
    try omega
  | unpublished id why op hp | responded topic payload response id op hr hp =>
    have := count_operators h hp k
    simp only [callers, List.count_append, Input.ticket?, Option.toList_none, List.count_nil,
      answered_cons, Effect.answered?, Option.toList_some, answered_nil, List.append_nil,
      List.nil_append, asking_nil]
    show _ = _ + (_ + (asking s.deferred).count k + s.waiter.toList.count k) + _
    omega
  | dropped | lost | noted =>
    simp [callers, operators, Input.ticket?, Effect.answered?]
    try omega
  | ignored hig =>
    have hi : input.ticket? = none := by
      cases input <;> first | rfl | exact absurd hig id
    simp [hi]
  | shutDown =>
    simp [callers, operators, Input.ticket?]
    omega

/-- Work leaves the outstanding operations alone. -/
theorem doing_pending {work : Work} (hd : Doing s work s' es) : s'.pending = s.pending := by
  cases hd <;> rfl

/-- **Outstanding operations have different ids** after a step as well. -/
theorem Distinct.step (manager : State) (input : Input) (h : s.Distinct) :
    (s.step manager input).session.Distinct :=
  s.step_induction manager input (P := fun s' _ _ => s'.Distinct) (fun _ _ _ ho => h.opening ho)
    fun _ _ _ _ _ _ h₁ hd => by rwa [Distinct, doing_pending hd]

/-- **The doing of work** moves tickets or answers them. -/
theorem doing_callers {work : Work} (hw : s.state.isTransitional = false → s.waiter = none)
    (hd : Doing s work s' es) (k : Ticket) :
    work.ticket?.toList.count k + s.callers.count k
      = (answered es).count k + s'.callers.count k := by
  have hop : s'.operators = s.operators := by rw [operators, operators, doing_pending hd]
  rw [callers, callers, hop]
  cases hd with
  | deferred work htr =>
    simp
    omega
  | forgotten | publishing | closedAlready | stored =>
    simp [Work.ticket?, Effect.answered?]
  | connecting id op hs hp =>
    simp [Work.ticket?, Effect.answered?]
  | disconnecting ticket hs =>
    have hw := hw (by rw [hs]; rfl)
    simp [Work.ticket?, Effect.answered?, hw]
    omega
  | reconnecting credential ticket hs =>
    have hw := hw (by rw [hs]; rfl)
    simp [Work.ticket?, Effect.answered?, hw]
    omega

/-- **A step moves tickets or answers them**: none is dropped, and none comes from nowhere. -/
theorem step_callers (manager : State) {input : Input} {returned : Option Effect}
    {before after : List Effect} (ht : s.Tended (before ++ returned.toList ++ after))
    (he : input.Ends returned) (hn : s.Distinct) (hf : s.Fresh input) :
    (s.step manager input).session.Distinct ∧ ∀ k : Ticket,
      input.ticket?.toList.count k + s.callers.count k
        = (answered (s.step manager input).effects).count k
          + (s.step manager input).session.callers.count k := by
  have key := ht.step_induction manager he
    (P := fun s' es queue => s'.Distinct ∧ ∀ k : Ticket,
      input.ticket?.toList.count k + s.callers.count k
        = (answered es).count k + s'.callers.count k + (asking queue).count k)
    (fun s' es queue ho => ⟨hn.opening ho, opening_callers hn hf ho⟩) ?_
  · exact ⟨key.1, fun k => by simpa using key.2 k⟩
  · rintro s₁ es work queue s₂ es' ht₁ ⟨hn₁, hcount⟩ hd
    refine ⟨by rwa [Distinct, doing_pending hd], fun k => ?_⟩
    have h₁ := hcount k
    have h₂ := doing_callers (fun hs => (Standing.of_settled ht₁ hs).2.1) hd k
    rw [asking_cons, List.count_append] at h₁
    rw [answered_append, List.count_append]
    omega

/-- The last step leaves nobody waiting. -/
theorem callers_shutDown (manager : State) (s : Session) :
    (s.step manager .shutDown).session.callers = [] := by
  have key := s.step_induction manager .shutDown
    (P := fun s' _ queue => queue = [] ∧ s'.callers = []) (fun s' es queue ho => ?_)
    fun s₁ es work queue s₂ es' h₁ _ => absurd h₁.1 (List.cons_ne_nil work queue)
  · exact key.2
  · cases ho with
    | shutDown => exact ⟨rfl, rfl⟩
    | ignored hig => exact absurd hig id

/-- **A waiter is not overwritten**: it stays until it is answered. -/
theorem step_waiter (manager : State) {input : Input} {returned : Option Effect}
    {before after : List Effect} {ticket : Ticket}
    (ht : s.Tended (before ++ returned.toList ++ after)) (he : input.Ends returned)
    (hw : s.waiter = some ticket) :
    (s.step manager input).session.waiter = some ticket ∨
      ticket ∈ answered (s.step manager input).effects := by
  refine ht.step_induction manager he
    (P := fun s' es _ => s'.waiter = some ticket ∨ ticket ∈ answered es)
    (fun s' es queue ho => ?_) fun s₁ es work queue s₂ es' ht₁ h₁ hd => ?_
  · cases ho with
    | reconnected | lostReconnecting | unreconnected | disconnected | shutDown =>
      exact .inr (by simp [hw])
    | _ => exact .inl hw
  · rw [answered_append]
    rcases h₁ with hkept | hdone
    · cases hd with
      | disconnecting _ hs | reconnecting _ _ hs =>
        -- work that takes the waiter's place is not done while somebody waits
        have hnone := (Standing.of_settled ht₁ (by rw [hs]; rfl)).2.1
        rw [hkept] at hnone
        cases hnone
      | _ => exact .inl hkept
    · exact .inr (List.mem_append_left _ hdone)

/-! ## Courses -/

namespace Course
variable {c c' : Course}

/-- **Where the callers are.** -/
structure Accounted (c : Course) : Prop where
  distinct : c.session.Distinct
  unique : c.taken.Nodup
  /-- A ticket has been answered or is held by the session. -/
  counted : ∀ k, (answered c.record).count k + c.session.callers.count k = c.taken.count k
  cleared : c.stopped = true → c.session.callers = []

theorem taken_follow (manager : State) (input : Input) (rest : List Effect) :
    (c.follow manager input rest).taken = c.taken ++ input.ticket?.toList := by
  unfold taken follow
  cases h : input.ticket? <;> simp [List.filterMap_append, h]

theorem Accounted.step (hr : Reachable c) (h : c.Accounted) (hs : Step c c') : c'.Accounted := by
  cases hs with
  | takes manager input e before after running ends unused fresh split =>
    have ht := tended hr running
    rw [split] at ht
    obtain ⟨hn, hcount⟩ := step_callers manager ht ends h.distinct fresh
    refine ⟨hn, ?_, fun k => ?_, fun hstop => ?_⟩
    · rw [taken_follow, List.nodup_append]
      refine ⟨h.unique, by cases input.ticket? <;> simp, fun k hk k' hk' heq => ?_⟩
      exact unused k' (Option.mem_toList.1 hk') (heq ▸ hk)
    · have hk := h.counted k
      have hstep := hcount k
      rw [taken_follow]
      simp only [follow, answered_append, List.count_append]
      omega
    · cases input with
      | shutDown => exact callers_shutDown manager c.session
      | _ => cases hstop
  | late e before after stopped split => exact ⟨h.distinct, h.unique, h.counted, h.cleared⟩

theorem accounted (h : Reachable c) : c.Accounted := by
  induction h with
  | start settings ids =>
    exact ⟨List.nodup_nil, List.nodup_nil, fun _ => rfl, fun hstop => by cases hstop⟩
  | step hr hs ih => exact ih.step hr hs

/-- Who has been answered stays so. -/
theorem answered_prefix (hs : Step c c') : answered c.record <+: answered c'.record := by
  cases hs with
  | takes =>
    simp only [follow, answered_append]
    exact List.prefix_append _ _
  | late => exact List.prefix_refl _

/-- A waiter stays until it is answered. -/
theorem waiter_kept (h : Reachable c) (hs : Step c c') {ticket : Ticket}
    (hw : c.session.waiter = some ticket) :
    c'.session.waiter = some ticket ∨ ticket ∈ answered c'.record := by
  cases hs with
  | takes manager input e before after running ends unused fresh split =>
    have ht := tended h running
    rw [split] at ht
    refine (step_waiter manager ht ends hw).imp_right fun hans => ?_
    simp only [follow, answered_append]
    exact List.mem_append_right _ hans
  | late => exact .inl hw

/-- **Every caller is answered exactly once.**  At any time in any course, the tickets that the
session has taken, each of them once, are those that have been answered and those it holds: of an
outstanding operation, of work that was put off, and of its waiter.  Who was answered stays so,
and then has no outstanding operation any more; a waiter stays until it is answered.  A session
that runs and waits for no call holds outstanding operations only; one that was shut down holds
nothing, and everybody has been answered. -/
theorem every_request_answered_once (h : Reachable c) :
    c.taken.Nodup ∧
    (answered c.record ++ c.session.operators ++ asking c.session.deferred
      ++ c.session.waiter.toList).Perm c.taken ∧
    (∀ c', Step c c' → answered c.record <+: answered c'.record) ∧
    (∀ p ∈ c.session.pending, p.2.ticket ∉ answered c.record) ∧
    (∀ c', Step c c' → ∀ ticket, c.session.waiter = some ticket →
      c'.session.waiter = some ticket ∨ ticket ∈ answered c'.record) ∧
    (c.stopped = false → c.outstanding = [] →
      (answered c.record ++ c.session.operators).Perm c.taken) ∧
    (c.stopped = true → (answered c.record).Perm c.taken) := by
  have hacc := accounted h
  refine ⟨hacc.unique, List.perm_iff_count.2 fun k => ?_, fun c' => answered_prefix,
    fun p hp hans => ?_, fun c' hs ticket => waiter_kept h hs,
    fun hstop hout => List.perm_iff_count.2 fun k => ?_,
    fun hstop => List.perm_iff_count.2 fun k => ?_⟩
  · have hk := hacc.counted k
    simp only [callers, List.count_append] at hk ⊢
    omega
  · have hk := hacc.counted p.2.ticket
    have honce := List.nodup_iff_count.1 hacc.unique p.2.ticket
    have hheld : 0 < c.session.operators.count p.2.ticket :=
      List.count_pos_iff.2 (List.mem_map.2 ⟨p, hp, rfl⟩)
    have hdone := List.count_pos_iff.2 hans
    simp only [callers, List.count_append] at hk
    omega
  · have hst : c.session.Standing [] := by
      have ht := tended h hstop
      rwa [hout] at ht
    have ⟨hw, hq⟩ : c.session.waiter = none ∧ c.session.deferred = [] := by
      cases hst <;> exact ⟨‹_›, ‹_›⟩
    have hk := hacc.counted k
    simpa [callers, hw, hq] using hk
  · have hk := hacc.counted k
    rw [hacc.cleared hstop] at hk
    exact hk

/-- Four callers of a session that connects: the request is cancelled, and what was put off until
the session is connected ends with the session. -/
theorem four_requests_answered_once :
    ∃ c : Course, Reachable c ∧ c.stopped = true ∧ c.taken = [0, 1, 2, 3] ∧
      (answered c.record).Perm [0, 1, 2, 3] := by
  let settings : Settings := { idScope := "scope", credential := .signature "signature" }
  have ask := (Reachable.start settings .sequential).step
    (.takes .disconnected (.order ⟨0, .ask ⟨"device", none⟩ .registration⟩) none [] [] rfl
      (.order _) (by decide) (by decide) rfl)
  have cancel := ask.step
    (.takes .connecting (.order ⟨1, .cancel⟩) none [_] [] rfl (.order _) (by decide) (by decide)
      rfl)
  have disconnect := cancel.step
    (.takes .connecting (.order ⟨2, .disconnect⟩) none [_] [] rfl (.order _) (by decide)
      (by decide) rfl)
  have update := disconnect.step
    (.takes .connecting (.order ⟨3, .updateCredential (.signature "other")⟩) none [_] [] rfl
      (.order _) (by decide) (by decide) rfl)
  have shutDown := update.step
    (.takes .connecting .shutDown none [_] [] rfl .shutDown (by decide) (by decide) rfl)
  exact ⟨_, shutDown, rfl, rfl, (every_request_answered_once shutDown).2.2.2.2.2.2 rfl⟩

end Course

end DeviceProvisioning.Session
