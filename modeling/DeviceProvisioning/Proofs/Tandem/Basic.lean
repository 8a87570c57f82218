import DeviceProvisioning.Proofs.Connection.Origin
import DeviceProvisioning.Proofs.Session.Standing
import DeviceProvisioning.Session.Call

/-!
# A session and its connection manager

A `Tandem` is a session and a manager that has no other user.  Between them stand the calls that
the session has started (`Session.Call`); when a call is done its result waits for the session.

`Tandem.Step` is everything that may happen next, in whatever order:

* the session takes an order, a call that is done, or the first notice of the manager that it has
  not heard yet, or it is shut down;
* a call gives its order, is refused at once, or has its answer;
* the manager takes the first order that waits for it, or does anything else that a `Course` of it
  allows.

Each of these is one step: nothing comes between the parts of what the session or the manager does
with one input.
-/

namespace DeviceProvisioning

open Session (Call Duty Stage)
open Time (Millis)

/-- The calls that effects start. -/
def Session.started (es : List Session.Effect) : List Call :=
  es.filterMap Call.of?

/-- The notice of an input. -/
def Session.Input.notice? : Session.Input → Option Connection.Notice
  | notice n => some n
  | _ => none

/-! ## Tandems -/

/-- **A session, its manager, and what goes on between them.** -/
structure Tandem where
  session : Session
  /-- The manager, and what it has started. -/
  course : Connection.Course
  calls : List Call := []
  /-- The orders that the manager has not taken yet. -/
  orders : List Connection.Order := []
  /-- How many tickets have been given out. -/
  given : Nat := 0
  /-- How many notices of the manager the session has heard. -/
  heard : Nat := 0
  /-- Whether the session has been shut down. -/
  stopped : Bool := false

namespace Tandem

/-- The notices of the manager that the session has not heard yet. -/
def unheard (t : Tandem) : List Connection.Notice :=
  (Connection.told t.course.record).drop t.heard

/-- The session takes an input, where `rest` are the calls that go on. -/
def advance (input : Session.Input) (rest : List Call) (t : Tandem) : Tandem :=
  let turn := t.session.step t.course.manager.state input
  { t with session := turn.session, calls := rest ++ Session.started turn.effects }

/-- **What may happen next.** -/
inductive Step (t : Tandem) : Tandem → Prop where
  | order (order : Session.Order) (running : t.stopped = false) :
    Step t (t.advance (.order order) t.calls)
  | hears (notice : Connection.Notice) (rest : List Connection.Notice) (running : t.stopped = false)
      (first : t.unheard = notice :: rest) :
    Step t { t.advance (.notice notice) t.calls with heard := t.heard + 1 }
  | completes (effect : Session.Effect) (result : Except Failure Unit)
      (completion : Session.Completion) (before after : List Call) (running : t.stopped = false)
      (split : t.calls = before ++ ⟨effect, .done result⟩ :: after)
      (comes : effect.completion? result = some completion) :
    Step t (t.advance (.completion completion) (before ++ after))
  | shutDown (running : t.stopped = false) :
    Step t
      { t.advance .shutDown t.calls with
        orders := t.orders ++ [⟨t.given, .disconnect⟩]
        given := t.given + 1
        stopped := true }
  | asks (effect : Session.Effect) (duty : Duty) (before after : List Call)
      (split : t.calls = before ++ ⟨effect, .ready duty⟩ :: after)
      (accepted : duty.command.check = .ok ()) :
    Step t
      { t with
        calls := before ++ ⟨effect, .waiting duty t.given⟩ :: after
        orders := t.orders ++ [⟨t.given, duty.command⟩]
        given := t.given + 1 }
  | refused (effect : Session.Effect) (duty : Duty) (why : Failure) (before after : List Call)
      (split : t.calls = before ++ ⟨effect, .ready duty⟩ :: after)
      (rejected : duty.command.check = .error why) :
    Step t { t with calls := before ++ ⟨effect, duty.next (.error why)⟩ :: after }
  | answered (effect : Session.Effect) (duty : Duty) (ticket : Connection.Ticket)
      (result : Except Failure Unit) (before after : List Call)
      (split : t.calls = before ++ ⟨effect, .waiting duty ticket⟩ :: after)
      (answer : .answer ticket result ∈ t.course.record) :
    Step t { t with calls := before ++ ⟨effect, duty.next result⟩ :: after }
  | takes (now : Millis) (order : Connection.Order) (rest : List Connection.Order)
      (running : t.course.stopped = false) (first : t.orders = order :: rest) :
    Step t
      { t with
        course := t.course.follow now (.order order) t.course.outstanding
        orders := rest }
  | manager (course : Connection.Course) (step : Connection.Course.Step t.course course)
      (own : course.taken = t.course.taken)
      (held : course.stopped = true → t.stopped = true ∧ t.orders = [] ∧
        ∀ call ∈ t.calls, ∃ result, call.stage = .done result) :
    Step t { t with course }

/-- **The session takes an input** in a step. -/
inductive Takes (t : Tandem) : Session.Input → Tandem → Prop where
  | order (order : Session.Order) (running : t.stopped = false) :
    Takes t (.order order) (t.advance (.order order) t.calls)
  | hears (notice : Connection.Notice) (rest : List Connection.Notice) (running : t.stopped = false)
      (first : t.unheard = notice :: rest) :
    Takes t (.notice notice) { t.advance (.notice notice) t.calls with heard := t.heard + 1 }
  | completes (effect : Session.Effect) (result : Except Failure Unit)
      (completion : Session.Completion) (before after : List Call) (running : t.stopped = false)
      (split : t.calls = before ++ ⟨effect, .done result⟩ :: after)
      (comes : effect.completion? result = some completion) :
    Takes t (.completion completion) (t.advance (.completion completion) (before ++ after))

theorem Takes.step {t t' : Tandem} {input : Session.Input} (h : t.Takes input t') : Step t t' := by
  cases h with
  | order order running => exact .order order running
  | hears notice rest running first => exact .hears notice rest running first
  | completes effect result completion before after running split comes =>
    exact .completes effect result completion before after running split comes

/-- What the session has heard, it need not hear again. -/
theorem Takes.unheard {t t' : Tandem} {input : Session.Input} (h : t.Takes input t') :
    t.unheard = input.notice?.toList ++ t'.unheard := by
  cases h with
  | order | completes => rfl
  | hears notice rest running first =>
    show _ = [notice] ++ (Connection.told t.course.record).drop (t.heard + 1)
    rw [first, ← List.drop_drop, show List.drop t.heard _ = notice :: rest from first]
    rfl

/-- What the manager has told is heard after all that it told before. -/
theorem unheard_more {t : Tandem} (t' : Tandem) {es : List Connection.Effect}
    (h : t.heard ≤ (Connection.told t.course.record).length)
    (hrecord : t'.course.record = t.course.record ++ es) (hheard : t'.heard = t.heard) :
    t'.unheard = t.unheard ++ Connection.told es := by
  rw [unheard, hrecord, hheard, Connection.told_append, List.drop_append_of_le_length h]
  rfl

/-- **The tandems of a session and a manager that begin without a connection.** -/
inductive Reachable : Tandem → Prop where
  | start (settings : Session.Settings) (ids : RequestId.Source) (patience : Millis)
      (messageIds : RequestId.Source) :
    Reachable
      { session := { settings, ids }, course := { manager := { patience, ids := messageIds } } }
  | step {t t' : Tandem} (h : Reachable t) (hs : Step t t') : Reachable t'

end Tandem

end DeviceProvisioning
