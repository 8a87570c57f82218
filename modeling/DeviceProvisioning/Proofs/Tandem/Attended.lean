import DeviceProvisioning.Proofs.Connection.Purpose
import DeviceProvisioning.Proofs.Session.Renewal
import DeviceProvisioning.Proofs.Tandem.Calls

/-!
# Calls that outlive their session

A session that is shut down leaves its calls behind, and they go on: they still give orders and wait
for answers.  What holds of calls and orders while the session runs (`Tandem.Linked`) mostly holds
afterwards, too: one call at most changes the connection, and every order that has not been answered
has a call that waits for it, except for the last order to disconnect, whose caller is gone.

`Tandem.attended` says this of every tandem.  So a manager that connects does so for the one call
that enters a connection (`Attended.of_dialling`).
-/

namespace DeviceProvisioning

open Connection (Course Order Ticket)
open Session (Call Duty Stage)

namespace Session

/-- A session waits for one change at most. -/
theorem Standing.length_le {s : Session} {awaited : List Effect} (h : s.Standing awaited) :
    awaited.length ≤ 1 := by
  cases h <;> simp

/-- A call with which a connection is entered has been started for it. -/
theorem Duty.Serves.entering {effect : Effect} {duty : Duty} (h : duty.Serves effect)
    (he : duty.command.isEntry = true) :
    duty = .entering duty.command ∧ effect.isChange = true := by
  cases h with
  | connecting | reconnecting => exact ⟨rfl, rfl⟩
  | subscribing | backingOut | disconnecting | publishing => cases he

end Session

namespace Tandem
variable {t t' : Tandem}

/-- **Who stands behind the orders,** whether the session runs or not. -/
structure Attended (t : Tandem) : Prop where
  /-- One call at most changes the connection. -/
  alone : (Session.changes (t.calls.map Call.effect)).length ≤ 1
  /-- An order that has not been answered has a call that waits for it. -/
  served : ∀ o ∈ t.issued, o.ticket ∉ Connection.answered t.course.record →
    o.command ≠ .disconnect → ∃ call ∈ t.calls, call.Awaits o

/-- While the session runs there is nothing new. -/
theorem Linked.attended (h : t.Linked) (running : t.stopped = false) : t.Attended where
  alone := Session.Standing.length_le (h.tended running)
  served o ho hun _ := h.served running o ho hun

namespace Attended

/-! ## Steps -/

section Steps
variable {effect : Session.Effect} {duty : Duty} {stage : Stage} {before after : List Call}

/-- A call goes on after an answer, or after it has been refused. -/
theorem goesOn {result : Except Failure Unit} (h : t.Attended)
    (split : t.calls = before ++ ⟨effect, stage⟩ :: after)
    (hs : stage = .ready duty ∨ ∃ ticket, stage = .waiting duty ticket ∧
      ticket ∈ Connection.answered t.course.record) :
    Attended { t with calls := before ++ ⟨effect, duty.next result⟩ :: after } where
  alone := by
    have halone := h.alone
    rw [split] at halone
    simpa using halone
  served o ho hun hne := by
    obtain ⟨call, hcall, hwait⟩ := h.served o ho hun hne
    rw [split] at hcall
    rcases Linked.mem_split hcall with hmem | rfl
    · exact ⟨call, hmem, hwait⟩
    · -- the call that goes on was waiting for nothing, or has its answer
      obtain ⟨duty', hst, -⟩ := hwait
      rcases hs with rfl | ⟨ticket, rfl, hans⟩
      · cases hst
      · obtain ⟨-, rfl⟩ : duty = duty' ∧ ticket = o.ticket := by simpa using hst
        exact absurd hans hun

/-- A call has given an order. -/
theorem asks (h : t.Attended) (split : t.calls = before ++ ⟨effect, .ready duty⟩ :: after) :
    Attended
      { t with
        calls := before ++ ⟨effect, .waiting duty t.given⟩ :: after
        orders := t.orders ++ [⟨t.given, duty.command⟩]
        given := t.given + 1 } where
  alone := by
    have halone := h.alone
    rw [split] at halone
    simpa using halone
  served o ho hun hne := by
    rcases mem_more (t := t) ho with hmem | rfl
    · obtain ⟨call, hcall, hwait⟩ := h.served o hmem hun hne
      rw [split] at hcall
      rcases Linked.mem_split hcall with hkept | rfl
      · exact ⟨call, hkept, hwait⟩
      · obtain ⟨duty', hst, -⟩ := hwait
        cases hst
    · exact ⟨⟨effect, .waiting duty t.given⟩, by simp, duty, rfl, rfl⟩

/-- The manager has made a step. -/
theorem courses {course : Course} {orders : List Order} (h : t.Attended)
    (hs : Course.Step t.course course) (hissued : course.orders ++ orders = t.issued) :
    Attended { t with course, orders } where
  alone := h.alone
  served o ho hun hne :=
    h.served o (hissued ▸ ho) (fun hans => hun ((Course.answered_prefix hs).subset hans)) hne

/-- The session has been shut down, and has the manager disconnect. -/
theorem shutDown (h : t.Attended) :
    Attended
      { t.advance .shutDown t.calls with
        orders := t.orders ++ [⟨t.given, .disconnect⟩]
        given := t.given + 1
        stopped := true } where
  alone := by
    show (Session.changes ((t.calls ++ Session.started _).map Call.effect)).length ≤ 1
    rw [List.map_append, Call.effects_started, (Session.step_shutDown _ _).2, List.append_nil]
    exact h.alone
  served o ho hun hne := by
    rcases mem_more (t := t) ho with hmem | rfl
    · obtain ⟨call, hcall, hwait⟩ := h.served o hmem hun hne
      exact ⟨call, List.mem_append_left _ hcall, hwait⟩
    · exact absurd rfl hne

end Steps

/-! ## On whose behalf the manager connects -/

/-- The connection is changed with one call only. -/
theorem change_alone (h : t.Attended) {call call' : Call} (hcall : call ∈ t.calls)
    (hcall' : call' ∈ t.calls) (hc : call.effect.isChange) (hc' : call'.effect.isChange) :
    call = call' := by
  obtain ⟨before, after, hsplit⟩ := List.append_of_mem hcall
  have halone := h.alone
  rw [hsplit, List.map_append, List.map_cons, Session.changes_append, Session.changes_cons,
    if_pos hc, List.length_append, List.length_cons] at halone
  have hnone : ∀ {calls : List Call}, (Session.changes (calls.map Call.effect)).length = 0 →
      call' ∉ calls := fun hnil hmem => by
    have hx : call'.effect ∈ Session.changes (List.map Call.effect _) :=
      List.mem_filter.2 ⟨List.mem_map.2 ⟨call', hmem, rfl⟩, hc'⟩
    rw [List.length_eq_zero_iff.1 hnil] at hx
    cases hx
  rw [hsplit, List.mem_append, List.mem_cons] at hcall'
  rcases hcall' with hmem | heq | hmem
  · exact absurd hmem (hnone (by omega))
  · exact heq.symm
  · exact absurd hmem (hnone (by omega))

/-- An order to enter a connection that has not been answered is that of a call which enters one. -/
theorem entering (h : t.Attended) (hl : t.Linked) {o : Order} (ho : o ∈ t.issued)
    (hun : o.ticket ∉ Connection.answered t.course.record) (he : o.command.isEntry = true) :
    ∃ call ∈ t.calls, call.stage = .waiting (.entering o.command) o.ticket ∧
      call.effect.isChange = true := by
  obtain ⟨call, hcall, duty, hst, hcmd⟩ :=
    h.served o ho hun fun heq => by rw [heq] at he; cases he
  obtain ⟨hduty, hchange⟩ := (hl.serves hcall hst).entering (by rw [hcmd, he])
  rw [hduty, hcmd] at hst
  exact ⟨call, hcall, hst, hchange⟩

/-- **A manager that waits for an attempt** makes it for a call that enters a connection. -/
theorem of_dialling (h : t.Attended) (hl : t.Linked) (running : t.course.stopped = false)
    {generation : Nat} {p : Connection.Parameters}
    (hst : t.course.manager.Standing [.dial generation p]) :
    ∃ call ∈ t.calls, call.effect.isChange = true ∧ ∃ o : Order,
      t.course.manager.waiter = some o.ticket ∧
        call.stage = .waiting (.entering o.command) o.ticket := by
  obtain ⟨o, ho, hw, he⟩ := (Course.purpose hl.course running).entry hst
  have hun : o.ticket ∉ Connection.answered t.course.record :=
    Course.unanswered_of_held hl.course (.inl (by simp [Connection.Manager.callers, hw]))
  obtain ⟨call, hcall, hstage, hchange⟩ := h.entering hl (List.mem_append_left _ ho) hun he
  exact ⟨call, hcall, hchange, o, hw, hstage⟩

end Attended

/-- **A step keeps a tandem attended.** -/
theorem Attended.step (h : t.Attended) (hl : t.Linked) (hl' : t'.Linked) (hs : Step t t') :
    t'.Attended := by
  cases hs with
  | order order running => exact hl'.attended running
  | hears notice rest running first => exact hl'.attended running
  | completes effect result completion before after running split comes =>
    exact hl'.attended running
  | shutDown running => exact h.shutDown
  | asks effect duty before after split accepted => exact h.asks split
  | refused effect duty why before after split rejected => exact h.goesOn split (.inl rfl)
  | answered effect duty ticket result before after split answer =>
    exact h.goesOn split (.inr ⟨ticket, rfl, List.mem_filterMap.2 ⟨_, answer, rfl⟩⟩)
  | takes now order rest running first =>
    obtain ⟨hs, hissued⟩ := hl.takes now running first
    exact h.courses hs hissued
  | manager course step own held =>
    exact h.courses step (issued_of_own step own)

/-- **In every tandem** an order that waits is attended to. -/
theorem attended (h : Reachable t) : t.Attended := by
  induction h with
  | start settings ids patience messageIds => exact ⟨Nat.zero_le _, nofun⟩
  | step hr hs ih => exact ih.step (linked hr) (linked (hr.step hs)) hs

end Tandem

end DeviceProvisioning
