import DeviceProvisioning.Link.Acknowledgements
import DeviceProvisioning.Link.Call

/-!
# The dialogue of callers and client on a link

Callers share a link with the loop that reads and writes its packets.  A `Dialogue` is what
they have in common, and a `Move` is a step of one of them; the moves may follow each other
in any order in which `step?` allows them.

**Callers.**  One caller at a time holds the right to send.  It **registers** a waiter, and
**hands over** its request to the client; then it gives up the right, and waits.  The client can
take a request as long as it is there.  It may also **refuse** one, and is bound to when it is gone;
then the caller **withdraws** its waiter, gives up the right, and goes away with an error.

**The client** writes the requests of each kind in the order in which they were handed over,
each with a packet id.  It keeps a book of them, which is its own: the waiters are found by packet
ids only.  It should not use an id again for a request of the same kind while the first is without
acknowledgement; if it does, the waiter of the first is dropped, and its caller is told that the
link has closed.  An acknowledgement may bear any packet id.

**The loop** ends in three moves.  It releases everyone who waits, signals its end, and lets
go of the client.
-/

namespace DeviceProvisioning.Link

/-- **A request that a caller has made.** -/
structure Request where
  number : Nat
  kind : RequestKind
  qos : Qos
deriving DecidableEq

/-- Whether a request is done as soon as it is written. -/
def Request.isDoneWhenSent (r : Request) : Bool :=
  r.kind == .publish && r.qos == .atMostOnce

/-- How far the holder of the right to send has come. -/
inductive Holder where
  | registered (r : Request)
  /-- The client has not taken the request. -/
  | refused (r : Request)
deriving DecidableEq

/-- The request of the holder. -/
def Holder.request : Holder → Request
  | registered r | refused r => r

/-- How far the loop has come. -/
inductive Phase where
  | running
  | drained
  | signalled
  /-- The client is gone. -/
  | gone
deriving DecidableEq

/-- **With what a waiter is released.** -/
inductive Reply where
  | sent
  | acknowledged (success : Bool)
  | closed
deriving DecidableEq

/-- What a released waiter tells its caller. -/
def Reply.result : Reply → Except LinkError Unit
  | sent => .ok ()
  | acknowledged true => .ok ()
  | acknowledged false => .error (.plain "subscription refused by broker")
  | closed => .error (.plain "premature close")

/-- **What callers, client and loop have in common.** -/
structure Dialogue where
  waiters : Acknowledgements Request := {}
  holder : Option Holder := none
  /-- Handed over, and not yet written. -/
  accepted : List Request := []
  /-- The client's own book: what was written, under which id. -/
  unacknowledged : List (Request × Nat) := []
  /-- Whether the client has used a packet id again that was in use. -/
  reused : Bool := false
  phase : Phase := .running
  /-- The requests that have been made, in their order. -/
  made : List Request := []
  /-- Handed over when the loop had released everyone. -/
  unread : List Request := []
  released : List (Request × Reply) := []
  /-- The requests whose callers have gone away with an error. -/
  turnedAway : List Request := []

/-- **A step of a caller, of the client or of the loop.** -/
inductive Move where
  | register (kind : RequestKind) (qos : Qos)
  | handOver
  | refuse
  | withdraw
  | send (kind : RequestKind) (id : Nat)
  | acknowledge (kind : RequestKind) (id : Nat) (success : Bool)
  | drain
  | signal
  | letGo
deriving DecidableEq

namespace Dialogue

/-- Whether the client waits for the acknowledgement of this packet. -/
def uses (d : Dialogue) (kind : RequestKind) (id : Nat) : Bool :=
  d.unacknowledged.any fun (r, i) => r.kind == kind && i == id

/-- A caller registers its waiter. -/
def register (kind : RequestKind) (qos : Qos) (d : Dialogue) : Dialogue :=
  let r : Request := { number := d.made.length, kind, qos }
  { d with
    waiters := d.waiters.expect kind qos r
    holder := some (.registered r)
    made := d.made ++ [r] }

/-- The client takes the request of a caller. -/
def handOver (r : Request) (d : Dialogue) : Dialogue :=
  { d with
    holder := none
    accepted := d.accepted ++ [r]
    unread := if d.phase = .running then d.unread else d.unread ++ [r] }

/-- The client does not take the request of a caller. -/
def refuse (r : Request) (d : Dialogue) : Dialogue :=
  { d with holder := some (.refused r) }

/-- A caller takes back the newest waiter and goes away. -/
def withdraw (r : Request) (d : Dialogue) : Dialogue :=
  { d with
    waiters := d.waiters.cancelLast.2
    holder := none
    turnedAway := d.turnedAway ++ [r] }

/-- The client writes a request. -/
def send (r : Request) (accepted : List Request) (id : Nat) (d : Dialogue) : Dialogue :=
  let (waiter, waiters) := d.waiters.sent r.kind id
  let dropped := d.waiters.displacedBySent r.kind id
  { d with
    waiters
    accepted
    unacknowledged := d.unacknowledged ++ if r.isDoneWhenSent then [] else [(r, id)]
    reused := d.reused || !r.isDoneWhenSent && d.uses r.kind id
    released := d.released ++ waiter.toList.map (·, .sent) ++ dropped.map (·, .closed) }

/-- The client reads an acknowledgement. -/
def acknowledge (kind : RequestKind) (id : Nat) (success : Bool) (d : Dialogue) : Dialogue :=
  let (waiter, waiters) := d.waiters.acknowledge kind id
  { d with
    waiters
    unacknowledged := d.unacknowledged.filter fun (r, i) => !(r.kind == kind && i == id)
    released := d.released ++ waiter.toList.map (·, .acknowledged success) }

/-- The loop releases everyone. -/
def drain (d : Dialogue) : Dialogue :=
  let (waiting, waiters) := d.waiters.drain
  { d with
    waiters
    phase := .drained
    released := d.released ++ waiting.map (·, .closed) }

/-- **What a move leads to,** if it is possible. -/
def step? (d : Dialogue) : Move → Option Dialogue
  | .register kind qos => if d.holder = none then some (d.register kind qos) else none
  | .handOver =>
    match d.holder with
    | some (.registered r) => if d.phase = .gone then none else some (d.handOver r)
    | _ => none
  | .refuse =>
    match d.holder with
    | some (.registered r) => some (d.refuse r)
    | _ => none
  | .withdraw =>
    match d.holder with
    | some (.refused r) => some (d.withdraw r)
    | _ => none
  | .send kind id =>
    match Acknowledgements.takeFirst (fun r => r.kind == kind) d.accepted with
    | some (r, accepted) => if d.phase = .running then some (d.send r accepted id) else none
    | none => none
  | .acknowledge kind id success =>
    if d.phase = .running then some (d.acknowledge kind id success) else none
  | .drain => if d.phase = .running then some d.drain else none
  | .signal => if d.phase = .drained then some { d with phase := .signalled } else none
  | .letGo => if d.phase = .signalled then some { d with phase := .gone } else none

/-- **What a sequence of moves leads to,** if all of them are possible. -/
def run? (d : Dialogue) (moves : List Move) : Option Dialogue :=
  moves.foldlM step? d

/-- Whether a caller has learnt how its request ended. -/
def HasAnswered (d : Dialogue) (r : Request) : Prop :=
  r ∈ d.released.map (·.1) ∨ r ∈ d.turnedAway

end Dialogue

/-! ## What the loop makes of a packet -/

/-- What the owner of the link is told of a packet. -/
def Route.event? : Route → Option Event
  | message topic payload => some (.message topic payload)
  | disconnected => some .closed
  | _ => none

/-- Whether a packet ends the loop; `closing` is whether the link is being closed. -/
def Route.ends (closing : Bool) : Route → Bool
  | disconnected => true
  | disconnectSent => closing
  | _ => false

/-- What the owner of the link is told when the connection ends: nothing, if it is closing
the link itself. -/
def LoopError.event? (closing : Bool) (e : LoopError) : Option Event :=
  if closing then none else some e.event

end DeviceProvisioning.Link
