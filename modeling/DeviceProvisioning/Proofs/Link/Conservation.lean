import DeviceProvisioning.Link.Acknowledgements
import Mathlib.Data.List.Induction

/-!
# What becomes of waiters

Waiters are registered, move from the queue into flight, and are given back: when their request is
sent or acknowledged, when the newest of them is cancelled, or when all of them are drained.  A
`Ledger` keeps the books of a sequence of such operations, whatever their order, kinds and packet
ids.

There is room for one waiter under each kind and packet id.  When a request is sent under a packet
id that is in use, its waiter takes the place of the one that is in flight there, and nobody is
given the latter: it is **displaced**.  This is the only way to get lost.  Counted for any waiter,
what is held before an operation and what is registered by it are what is given back, displaced, and
held afterwards (`Acknowledgements.count_perform`), and so it is for a whole sequence of operations
(`Acknowledgements.waiters_conserved`).
-/

namespace DeviceProvisioning.Link.Acknowledgements

/-! ## Taking the first of a list -/

section TakeFirst
variable {α : Type} {p : α → Bool} {xs rest : List α} {a : α}

/-- **The first element with a property** stands behind others that do not have it. -/
theorem takeFirst_eq_some_iff :
    takeFirst p xs = some (a, rest) ↔
      ∃ before after, xs = before ++ a :: after ∧ rest = before ++ after ∧ p a = true ∧
        ∀ b ∈ before, p b = false := by
  induction xs generalizing rest with
  | nil => simp [takeFirst]
  | cons x xs ih =>
    rw [takeFirst]
    by_cases hx : p x = true
    · rw [if_pos hx]
      constructor
      · intro h
        obtain ⟨rfl, rfl⟩ : x = a ∧ xs = rest := by simpa using h
        exact ⟨[], xs, rfl, rfl, hx, by simp⟩
      · rintro ⟨before, after, heq, rfl, ha, hbefore⟩
        cases before with
        | nil =>
          obtain ⟨rfl, rfl⟩ : x = a ∧ xs = after := by simpa using heq
          rfl
        | cons b before =>
          obtain ⟨rfl, -⟩ : x = b ∧ xs = before ++ a :: after := by simpa using heq
          simp [hx] at hbefore
    · rw [if_neg hx]
      constructor
      · intro h
        obtain ⟨⟨b, others⟩, htake, heq⟩ := Option.map_eq_some_iff.1 h
        obtain ⟨rfl, rfl⟩ : b = a ∧ x :: others = rest := by simpa using heq
        obtain ⟨before, after, rfl, rfl, ha, hbefore⟩ := ih.1 htake
        refine ⟨x :: before, after, rfl, rfl, ha, fun b hb => ?_⟩
        rcases List.mem_cons.1 hb with rfl | hb
        · simpa using hx
        · exact hbefore b hb
      · rintro ⟨before, after, heq, rfl, ha, hbefore⟩
        cases before with
        | nil =>
          obtain ⟨rfl, -⟩ : x = a ∧ xs = after := by simpa using heq
          exact absurd ha hx
        | cons b before =>
          obtain ⟨rfl, rfl⟩ : x = b ∧ xs = before ++ a :: after := by simpa using heq
          have htake := ih.2 ⟨before, after, rfl, rfl, ha, fun b hb =>
            hbefore b (List.mem_cons_of_mem _ hb)⟩
          simp [htake]

/-- What is taken has the property. -/
theorem of_takeFirst (h : takeFirst p xs = some (a, rest)) : p a = true := by
  obtain ⟨-, -, -, -, ha, -⟩ := takeFirst_eq_some_iff.1 h
  exact ha

/-- Nothing is taken when no element has the property. -/
theorem takeFirst_eq_none_iff : takeFirst p xs = none ↔ ∀ b ∈ xs, p b = false := by
  induction xs with
  | nil => simp [takeFirst]
  | cons x xs ih => by_cases hx : p x = true <;> simp [takeFirst, hx, ih]

/-- What is taken and what is left are the list. -/
theorem takeFirst_perm (h : takeFirst p xs = some (a, rest)) : xs.Perm (a :: rest) := by
  obtain ⟨before, after, rfl, rfl, -, -⟩ := takeFirst_eq_some_iff.1 h
  exact List.perm_middle

/-- An element that alone has a property is filtered out. -/
theorem filter_of_takeFirst (h : takeFirst p xs = some (a, rest))
    (alone : ∀ b ∈ rest, p b = false) : xs.filter p = [a] ∧ xs.filter (fun b => !p b) = rest := by
  obtain ⟨before, after, rfl, rfl, ha, -⟩ := takeFirst_eq_some_iff.1 h
  have hbefore : ∀ b ∈ before, p b = false := fun b hb => alone b (List.mem_append_left _ hb)
  have hafter : ∀ b ∈ after, p b = false := fun b hb => alone b (List.mem_append_right _ hb)
  constructor
  · rw [List.filter_append, List.filter_cons_of_pos ha,
      List.filter_eq_nil_iff.2 fun b hb => by simp [hbefore b hb],
      List.filter_eq_nil_iff.2 fun b hb => by simp [hafter b hb], List.nil_append]
  · rw [List.filter_append, List.filter_cons_of_neg (by simp [ha]),
      List.filter_eq_self.2 fun b hb => by simp [hbefore b hb],
      List.filter_eq_self.2 fun b hb => by simp [hafter b hb]]

end TakeFirst

/-! ## One operation -/

variable {W : Type}

/-- Whether a waiter is in flight under a kind and packet id. -/
def uses (a : Acknowledgements W) (kind : RequestKind) (id : Nat) : Bool :=
  a.inFlight.any fun f => InFlight.has f kind id

/-- Nobody has to make room under a packet id that is not in use. -/
theorem displacedBySent_eq_nil {a : Acknowledgements W} {kind : RequestKind} {id : Nat}
    (h : a.uses kind id = false) : a.displacedBySent kind id = [] := by
  have hnone : (a.inFlight.filter fun f => InFlight.has f kind id) = [] :=
    List.filter_eq_nil_iff.2 (List.any_eq_false.1 h)
  unfold displacedBySent
  split
  · rfl
  · rw [hnone, List.map_nil, ite_self]

/-- **An acknowledgement finds its waiter**, when no two are in flight under one kind and id. -/
theorem acknowledge_of_distinct {a : Acknowledgements W}
    (distinct : (a.inFlight.map fun f => (f.kind, f.id)).Nodup) (kind : RequestKind) (id : Nat) :
    (a.acknowledge kind id).1.toList
        = (a.inFlight.filter fun f => InFlight.has f kind id).map (·.waiter) ∧
      (a.acknowledge kind id).2.inFlight
        = a.inFlight.filter fun f => !InFlight.has f kind id := by
  unfold acknowledge
  cases htake : takeFirst (fun f => InFlight.has f kind id) a.inFlight with
  | none =>
    have hnone := takeFirst_eq_none_iff.1 htake
    rw [List.filter_eq_nil_iff.2 fun f hf => by simp [hnone f hf],
      List.filter_eq_self.2 fun f hf => by simp [hnone f hf]]
    exact ⟨rfl, rfl⟩
  | some found =>
    obtain ⟨f, rest⟩ := found
    have hkeys := ((takeFirst_perm htake).map fun f => (f.kind, f.id)).nodup_iff.1 distinct
    have hf := of_takeFirst htake
    have halone : ∀ g ∈ rest, InFlight.has g kind id = false := by
      intro g hg
      refine Bool.eq_false_iff.2 fun hother => ?_
      have hf' : (f.kind, f.id) = (kind, id) := eq_of_beq hf
      have hg' : (g.kind, g.id) = (kind, id) := eq_of_beq hother
      exact (List.nodup_cons.1 hkeys).1 (List.mem_map.2 ⟨g, hg, hg'.trans hf'.symm⟩)
    obtain ⟨hfound, hrest⟩ := filter_of_takeFirst htake halone
    rw [hfound, hrest]
    exact ⟨rfl, rfl⟩

section Sent
variable {a : Acknowledgements W} {q : Queued W} {queued : List (Queued W)} {kind : RequestKind}

/-- What is done when it is sent releases its waiter and displaces nobody. -/
theorem sent_done (h : takeFirst (fun q => q.kind == kind) a.queued = some (q, queued))
    (done : kind = .publish ∧ q.qos = .atMostOnce) (id : Nat) :
    a.sent kind id = (some q.waiter, { a with queued }) ∧ a.displacedBySent kind id = [] := by
  rw [sent, displacedBySent, h]
  exact ⟨if_pos done, if_pos done⟩

/-- The waiter of anything else goes into flight, beside the others if its place is free. -/
theorem sent_awaiting (h : takeFirst (fun q => q.kind == kind) a.queued = some (q, queued))
    (awaiting : ¬ (kind = .publish ∧ q.qos = .atMostOnce)) {id : Nat}
    (free : a.uses kind id = false) :
    a.sent kind id
        = (none, { queued, inFlight := a.inFlight ++ [{ kind, id, waiter := q.waiter }] }) ∧
      a.displacedBySent kind id = [] := by
  refine ⟨?_, displacedBySent_eq_nil free⟩
  have hothers : (a.inFlight.filter fun f => !InFlight.has f kind id) = a.inFlight := by
    refine List.filter_eq_self.2 fun f hf => ?_
    simpa using List.any_eq_false.1 free f hf
  rw [sent, h]
  show (ite _ _ _ : Option W × Acknowledgements W) = _
  rw [if_neg awaiting, hothers]

/-- What is sent is no longer queued. -/
theorem queued_sent (h : takeFirst (fun q => q.kind == kind) a.queued = some (q, queued))
    (id : Nat) : (a.sent kind id).2.queued = queued := by
  rw [sent, h]
  show (ite _ _ _ : Option W × Acknowledgements W).2.queued = queued
  split <;> rfl

end Sent

/-- An acknowledgement concerns nobody who is queued. -/
theorem queued_acknowledge (a : Acknowledgements W) (kind : RequestKind) (id : Nat) :
    (a.acknowledge kind id).2.queued = a.queued := by
  unfold acknowledge
  split <;> rfl

section Counts
variable [DecidableEq W] (a : Acknowledgements W) (w : W)

theorem count_waiters :
    a.waiters.count w = (a.queued.map (·.waiter)).count w + (a.inFlight.map (·.waiter)).count w :=
  List.count_append

theorem count_expect (kind : RequestKind) (qos : Qos) (waiter : W) :
    (a.expect kind qos waiter).waiters.count w = a.waiters.count w + [waiter].count w := by
  simp only [count_waiters, expect, List.map_append, List.map_cons, List.map_nil, List.count_append]
  omega

theorem count_sent (kind : RequestKind) (id : Nat) :
    a.waiters.count w
      = (a.sent kind id).1.toList.count w + (a.displacedBySent kind id).count w
        + (a.sent kind id).2.waiters.count w := by
  unfold sent displacedBySent
  cases htake : takeFirst (fun q => q.kind == kind) a.queued with
  | none => simp
  | some found =>
    obtain ⟨q, queued⟩ := found
    have hqueued := ((takeFirst_perm htake).map (·.waiter)).count_eq w
    have hflight := ((List.filter_append_perm (fun f => InFlight.has f kind id) a.inFlight).map
      (·.waiter)).count_eq w
    simp only [List.map_cons, List.count_cons, List.map_append, List.count_append]
      at hqueued hflight
    by_cases hdone : kind = .publish ∧ q.qos = .atMostOnce
    · simp only [if_pos hdone, count_waiters, hqueued, Option.toList_some, List.count_cons,
        List.count_nil]
      omega
    · simp only [if_neg hdone, count_waiters, hqueued, Option.toList_none, List.count_nil,
        List.map_append, List.map_cons, List.map_nil, List.count_append, List.count_cons]
      omega

theorem count_acknowledge (kind : RequestKind) (id : Nat) :
    a.waiters.count w
      = (a.acknowledge kind id).1.toList.count w + (a.acknowledge kind id).2.waiters.count w := by
  unfold acknowledge
  cases htake : takeFirst (fun f => InFlight.has f kind id) a.inFlight with
  | none => simp
  | some found =>
    obtain ⟨f, inFlight⟩ := found
    have hflight := ((takeFirst_perm htake).map (·.waiter)).count_eq w
    simp only [List.map_cons, List.count_cons] at hflight
    simp only [count_waiters, hflight, Option.toList_some, List.count_cons, List.count_nil]
    omega

theorem count_cancelLast :
    a.waiters.count w = a.cancelLast.1.toList.count w + a.cancelLast.2.waiters.count w := by
  have hqueued : a.queued.map (·.waiter)
      = a.queued.dropLast.map (·.waiter) ++ (a.queued.getLast?.map (·.waiter)).toList := by
    rcases List.eq_nil_or_concat a.queued with h | ⟨queued, q, h⟩ <;> simp [h]
  simp only [count_waiters, cancelLast, hqueued, List.count_append]
  omega

end Counts

/-- **What is done to acknowledgements.** -/
inductive Operation (W : Type) where
  | expect (kind : RequestKind) (qos : Qos) (waiter : W)
  | sent (kind : RequestKind) (id : Nat)
  | acknowledge (kind : RequestKind) (id : Nat)
  | cancelLast
  | drain

/-- The waiter that an operation registers. -/
@[simp]
def Operation.registered : Operation W → List W
  | expect _ _ waiter => [waiter]
  | _ => []

/-- **Does an operation**: the waiters that it gives back, and what is left. -/
@[simp]
def perform (a : Acknowledgements W) : Operation W → List W × Acknowledgements W
  | .expect kind qos waiter => ([], a.expect kind qos waiter)
  | .sent kind id => ((a.sent kind id).1.toList, (a.sent kind id).2)
  | .acknowledge kind id => ((a.acknowledge kind id).1.toList, (a.acknowledge kind id).2)
  | .cancelLast => (a.cancelLast.1.toList, a.cancelLast.2)
  | .drain => a.drain

/-- The waiters that an operation loses. -/
@[simp]
def displaced (a : Acknowledgements W) : Operation W → List W
  | .sent kind id => a.displacedBySent kind id
  | _ => []

/-- Whether an operation uses a packet id that is in use. -/
def reuses (a : Acknowledgements W) : Operation W → Bool
  | .sent kind id => a.uses kind id
  | _ => false

/-- An operation loses a waiter only by using a packet id again. -/
theorem displaced_eq_nil {a : Acknowledgements W} {op : Operation W} (h : a.reuses op = false) :
    a.displaced op = [] := by
  cases op with
  | sent kind id => exact displacedBySent_eq_nil h
  | _ => rfl

/-- **An operation keeps, gives back or displaces every waiter**, as often as it is there. -/
theorem count_perform [DecidableEq W] (a : Acknowledgements W) (op : Operation W) (w : W) :
    a.waiters.count w + op.registered.count w
      = (a.perform op).1.count w + (a.displaced op).count w + (a.perform op).2.waiters.count w := by
  cases op with
  | expect kind qos waiter => simp [count_expect]
  | sent kind id => simp [← count_sent]
  | acknowledge kind id => simp [← count_acknowledge]
  | cancelLast => simp [← count_cancelLast]
  | drain => simp [drain, waiters]

/-- The same as a rearrangement of lists. -/
theorem perform_perm (a : Acknowledgements W) (op : Operation W) :
    (a.waiters ++ op.registered).Perm
      ((a.perform op).1 ++ a.displaced op ++ (a.perform op).2.waiters) := by
  classical
  exact List.perm_iff_count.2 fun w => by simpa only [List.count_append] using a.count_perform op w

theorem expect_perm (a : Acknowledgements W) (kind : RequestKind) (qos : Qos) (waiter : W) :
    (a.waiters ++ [waiter]).Perm (a.expect kind qos waiter).waiters := by
  simpa using a.perform_perm (.expect kind qos waiter)

theorem sent_perm (a : Acknowledgements W) (kind : RequestKind) (id : Nat) :
    a.waiters.Perm
      ((a.sent kind id).1.toList ++ a.displacedBySent kind id ++ (a.sent kind id).2.waiters) := by
  simpa using a.perform_perm (.sent kind id)

theorem acknowledge_perm (a : Acknowledgements W) (kind : RequestKind) (id : Nat) :
    a.waiters.Perm ((a.acknowledge kind id).1.toList ++ (a.acknowledge kind id).2.waiters) := by
  simpa using a.perform_perm (.acknowledge kind id)

theorem cancelLast_perm (a : Acknowledgements W) :
    a.waiters.Perm (a.cancelLast.1.toList ++ a.cancelLast.2.waiters) := by
  simpa using a.perform_perm .cancelLast

/-! ## Sequences of operations -/

/-- **The books of a sequence of operations.** -/
structure Ledger (W : Type) where
  acknowledgements : Acknowledgements W := {}
  registered : List W := []
  returned : List W := []
  displaced : List W := []
  /-- Whether a packet id has been used while it was in use. -/
  reused : Bool := false

namespace Ledger

/-- The waiters that are held. -/
def held (l : Ledger W) : List W :=
  l.acknowledgements.waiters

/-- Enters an operation. -/
def enter (l : Ledger W) (op : Operation W) : Ledger W where
  acknowledgements := (l.acknowledgements.perform op).2
  registered := l.registered ++ op.registered
  returned := l.returned ++ (l.acknowledgements.perform op).1
  displaced := l.displaced ++ l.acknowledgements.displaced op
  reused := l.reused || l.acknowledgements.reuses op

/-- **The books after a sequence of operations** that begins with no waiter. -/
def ofOperations (ops : List (Operation W)) : Ledger W :=
  ops.foldl enter {}

theorem ofOperations_concat (ops : List (Operation W)) (op : Operation W) :
    ofOperations (ops ++ [op]) = (ofOperations ops).enter op := by
  simp [ofOperations]

/-- The books balance. -/
theorem count_ofOperations [DecidableEq W] (ops : List (Operation W)) (w : W) :
    (ofOperations ops).registered.count w
      = (ofOperations ops).returned.count w + (ofOperations ops).displaced.count w
        + (ofOperations ops).held.count w := by
  induction ops using List.reverseRecOn with
  | nil => rfl
  | append_singleton ops op ih =>
    have hstep := count_perform (ofOperations ops).acknowledgements op w
    rw [ofOperations_concat]
    simp only [enter, held, List.count_append] at ih ⊢
    omega

/-- Nobody is lost unless a packet id is used again. -/
theorem displaced_ofOperations (ops : List (Operation W)) (h : (ofOperations ops).reused = false) :
    (ofOperations ops).displaced = [] := by
  induction ops using List.reverseRecOn with
  | nil => rfl
  | append_singleton ops op ih =>
    rw [ofOperations_concat] at h ⊢
    obtain ⟨hold, hnew⟩ := Bool.or_eq_false_iff.1 h
    show _ ++ _ = []
    rw [ih hold, displaced_eq_nil hnew, List.append_nil]

/-- Nobody is held when everybody has been drained. -/
theorem held_drained (ops : List (Operation W)) : (ofOperations (ops ++ [.drain])).held = [] := by
  rw [ofOperations_concat]
  rfl

/-- **Waiters are conserved** by every sequence of operations, whatever their order, kinds and
packet ids: those that were registered are those that have been given back, those that are held and
those that were displaced, each of them once.  The length is how many are held.  Nobody is displaced
unless a packet id is used again while it is in use.  When everybody has been drained nobody is
held. -/
theorem waiters_conserved (ops : List (Operation W)) :
    (ofOperations ops).registered.Perm
      ((ofOperations ops).returned ++ (ofOperations ops).held ++ (ofOperations ops).displaced) ∧
    (ofOperations ops).acknowledgements.length = (ofOperations ops).held.length ∧
    ((ofOperations ops).reused = false →
      (ofOperations ops).registered.Perm
        ((ofOperations ops).returned ++ (ofOperations ops).held)) ∧
    (ofOperations (ops ++ [.drain])).held = [] := by
  classical
  have hperm : (ofOperations ops).registered.Perm
      ((ofOperations ops).returned ++ (ofOperations ops).held ++ (ofOperations ops).displaced) := by
    refine List.perm_iff_count.2 fun w => ?_
    have hcount := count_ofOperations ops w
    simp only [List.count_append]
    omega
  refine ⟨hperm, (length_waiters _).symm, fun hreused => ?_, held_drained ops⟩
  rwa [displaced_ofOperations ops hreused, List.append_nil] at hperm

/-- Four requests of three kinds under one packet id, one of them cancelled and one drained: every
waiter is given back. -/
theorem four_waiters_conserved :
    let ops : List (Operation Nat) :=
      [.expect .subscribe .atLeastOnce 0, .expect .publish .atLeastOnce 1,
        .expect .unsubscribe .atLeastOnce 2, .sent .publish 7, .sent .subscribe 7,
        .acknowledge .subscribe 7, .expect .publish .atMostOnce 3, .cancelLast, .drain]
    (ofOperations ops).reused = false ∧ (ofOperations ops).returned = [0, 3, 2, 1] ∧
      (ofOperations ops).registered.Perm
        ((ofOperations ops).returned ++ (ofOperations ops).held) :=
  ⟨by decide, by decide, (waiters_conserved _).2.2.1 (by decide)⟩

/-- **A waiter is lost**: a second message is sent under the packet id of one that is not yet
acknowledged. -/
theorem waiter_displaced :
    ¬ ∀ ops : List (Operation Nat),
      (ofOperations ops).registered.Perm
        ((ofOperations ops).returned ++ (ofOperations ops).held) := by
  intro hclaim
  have hperm := hclaim
    [.expect .publish .atLeastOnce 1, .expect .publish .atLeastOnce 2, .sent .publish 7,
      .sent .publish 7, .drain]
  exact absurd hperm.length_eq (by decide)

end Ledger

end DeviceProvisioning.Link.Acknowledgements
