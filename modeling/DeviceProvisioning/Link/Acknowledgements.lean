import DeviceProvisioning.Link.Packet

/-!
# Acknowledgements

Callers wait until their requests are acknowledged.  A waiter is first **queued**, in the
order in which requests are handed to the client.  When a request of its kind is sent it is
**in flight** under the packet id of that request, and the acknowledgement of that packet id
releases it.  A message that is sent at most once has no acknowledgement: its waiter is
released when it is sent.
-/

namespace DeviceProvisioning.Link

/-- A waiter for a request that has not been sent. -/
structure Queued (W : Type) where
  kind : RequestKind
  qos : Qos
  waiter : W

/-- A waiter for a request with this packet id. -/
structure InFlight (W : Type) where
  kind : RequestKind
  id : Nat
  waiter : W

/-- **Who waits for what.** -/
structure Acknowledgements (W : Type) where
  queued : List (Queued W) := []
  inFlight : List (InFlight W) := []

namespace Acknowledgements

variable {W : Type}

/-- The first element with a property, and the others in their order. -/
def takeFirst {α : Type} (p : α → Bool) : List α → Option (α × List α)
  | [] => none
  | a :: rest =>
    if p a then some (a, rest) else (takeFirst p rest).map fun (b, others) => (b, a :: others)

/-- A waiter for the next request of a kind. -/
def expect (a : Acknowledgements W) (kind : RequestKind) (qos : Qos) (waiter : W) :
    Acknowledgements W :=
  { a with queued := a.queued ++ [{ kind, qos, waiter }] }

/-- Takes back the newest waiter that is queued. -/
def cancelLast (a : Acknowledgements W) : Option W × Acknowledgements W :=
  (a.queued.getLast?.map (·.waiter), { a with queued := a.queued.dropLast })

/-- Whether a waiter is in flight under this kind and packet id. -/
def InFlight.has (f : InFlight W) (kind : RequestKind) (id : Nat) : Bool :=
  f.kind == kind && f.id == id

/-- **A request was sent.**  Its waiter is released if nothing more is to come. -/
def sent (a : Acknowledgements W) (kind : RequestKind) (id : Nat) :
    Option W × Acknowledgements W :=
  match takeFirst (fun q => q.kind == kind) a.queued with
  | none => (none, a)
  | some (q, queued) =>
    if kind = .publish ∧ q.qos = .atMostOnce then (some q.waiter, { a with queued })
    else
      let others := a.inFlight.filter fun f => !InFlight.has f kind id
      (none, { queued, inFlight := others ++ [{ kind, id, waiter := q.waiter }] })

/-- The waiters that make room for the one of a request that is sent: there is one place under each
kind and packet id. -/
def displacedBySent (a : Acknowledgements W) (kind : RequestKind) (id : Nat) : List W :=
  match takeFirst (fun q => q.kind == kind) a.queued with
  | none => []
  | some (q, _) =>
    if kind = .publish ∧ q.qos = .atMostOnce then []
    else (a.inFlight.filter fun f => InFlight.has f kind id).map (·.waiter)

/-- **A request was acknowledged.**  Its waiter is released. -/
def acknowledge (a : Acknowledgements W) (kind : RequestKind) (id : Nat) :
    Option W × Acknowledgements W :=
  match takeFirst (fun f => InFlight.has f kind id) a.inFlight with
  | none => (none, a)
  | some (f, inFlight) => (some f.waiter, { a with inFlight })

/-- Everyone who still waits. -/
def waiters (a : Acknowledgements W) : List W :=
  a.queued.map (·.waiter) ++ a.inFlight.map (·.waiter)

/-- How many still wait. -/
def length (a : Acknowledgements W) : Nat :=
  a.queued.length + a.inFlight.length

/-- Releases everyone. -/
def drain (a : Acknowledgements W) : List W × Acknowledgements W :=
  (a.waiters, {})

theorem length_waiters (a : Acknowledgements W) : a.waiters.length = a.length := by
  simp [waiters, length]

end Acknowledgements
end DeviceProvisioning.Link
