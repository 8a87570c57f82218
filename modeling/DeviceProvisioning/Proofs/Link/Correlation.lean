import DeviceProvisioning.Proofs.Link.Standing

/-!
# Whose acknowledgement is whose

Waiters bear no packet id, and requests of all kinds wait in one queue.  The client keeps a book of
its own: which requests it has not written, and which it has written under which id.
`Dialogue.due` reads off this book whom a move should answer, and
`Dialogue.answers_whom_the_book_names` says that it answers them and nobody else, as long as the
client does not use an id again that is in use.

What carries the proof is that the queue and the book never part (`Dialogue.Booked`).  The queue is
the line of the requests in their order (`Dialogue.Lined`), so that the first waiter of a kind is
that of the first request of this kind; it goes into flight under the id under which the client
enters the request.
-/

namespace DeviceProvisioning.Link

/-- A request is done as soon as it is written if it is a message that is sent at most once. -/
theorem Request.isDoneWhenSent_iff (r : Request) :
    r.isDoneWhenSent = true ↔ r.kind = .publish ∧ r.qos = .atMostOnce := by
  simp [isDoneWhenSent]

/-- The waiter of a request that was written under an id. -/
def Request.inFlight : Request × Nat → InFlight Request
  | (r, id) => { kind := r.kind, id, waiter := r }

namespace Dialogue

open Acknowledgements (takeFirst)

variable {d d' : Dialogue} {move : Move} {drained late rest : List Request} {r : Request} {id : Nat}

/-! ## The client's book -/

/-- **Whom a move answers, and how**, by what the client knows: who writes a message that is sent at
most once answers it, an acknowledgement answers the request that was written under its id, and the
end of the loop answers everyone. -/
def due (d : Dialogue) : Move → List (Request × Reply)
  | .send kind _ =>
    ((d.accepted.find? (·.kind == kind)).filter Request.isDoneWhenSent).toList.map (·, .sent)
  | .acknowledge kind id success =>
    (d.unacknowledged.filter fun (r, i) => r.kind == kind && i == id).map
      fun (r, _) => (r, .acknowledged success)
  | .drain =>
    (d.accepted ++ d.held ++ d.unacknowledged.map (·.1)).map (·, .closed)
  | _ => []

/-- **How the book and the waiters in flight agree.** -/
structure Booked (d : Dialogue) : Prop where
  inFlight_eq : d.phase = .running → d.waiters.inFlight = d.unacknowledged.map Request.inFlight
  /-- One request at most is written under each kind and id. -/
  distinct : (d.unacknowledged.map fun (r, id) => (r.kind, id)).Nodup

namespace Booked

/-- The same ids are in use. -/
theorem uses_eq (h : d.Booked) (running : d.phase = .running) (kind : RequestKind) (id : Nat) :
    d.waiters.uses kind id = d.uses kind id := by
  rw [Acknowledgements.uses, h.inFlight_eq running, List.any_map]
  rfl

theorem distinct_inFlight (h : d.Booked) (running : d.phase = .running) :
    (d.waiters.inFlight.map fun f => (f.kind, f.id)).Nodup := by
  rw [h.inFlight_eq running, List.map_map]
  exact h.distinct

/-- **An acknowledgement finds the waiter of the request that was written under its id.** -/
theorem acknowledge_eq (h : d.Booked) (running : d.phase = .running) (kind : RequestKind)
    (id : Nat) :
    (d.waiters.acknowledge kind id).1.toList
        = (d.unacknowledged.filter fun (r, i) => r.kind == kind && i == id).map (fun (r, _) => r) ∧
      (d.waiters.acknowledge kind id).2.inFlight
        = (d.unacknowledged.filter fun (r, i) => !(r.kind == kind && i == id)).map
          Request.inFlight := by
  obtain ⟨hfound, hothers⟩ :=
    Acknowledgements.acknowledge_of_distinct (h.distinct_inFlight running) kind id
  rw [hfound, hothers, h.inFlight_eq running, List.filter_map, List.filter_map, List.map_map]
  exact ⟨rfl, rfl⟩

end Booked

/-! ## What a move does to the book -/

/-- An id that is used for the first time is not in use. -/
theorem unused_of_send (awaiting : r.isDoneWhenSent = false)
    (fresh : (d.send r rest id).reused = false) : d.uses r.kind id = false := by
  simpa [awaiting] using (Bool.or_eq_false_iff.1 fresh).2

/-- No request in the book bears an id that is not in use. -/
theorem not_mem_of_unused {kind : RequestKind} (unused : d.uses kind id = false) :
    (kind, id) ∉ d.unacknowledged.map fun (r, i) => (r.kind, i) := by
  intro hmem
  obtain ⟨⟨x, i⟩, hx, hkey⟩ := List.mem_map.1 hmem
  obtain ⟨hkind, hid⟩ : x.kind = kind ∧ i = id := by simpa using hkey
  simpa [hkind, hid] using List.any_eq_false.1 unused (x, i) hx

/-- **What is written**: a message that is sent at most once is answered, and the waiter of any
other request goes into flight under its id. -/
theorem send_eq (hl : d.Lined drained late) (hb : d.Booked) (running : d.phase = .running)
    (first : takeFirst (fun x => x.kind == r.kind) d.accepted = some (r, rest))
    (fresh : (d.send r rest id).reused = false) :
    (d.send r rest id).released
        = d.released ++ (if r.isDoneWhenSent then [(r, .sent)] else []) ∧
      (d.send r rest id).waiters.inFlight
        = d.waiters.inFlight ++ (if r.isDoneWhenSent then [] else [Request.inFlight (r, id)]) := by
  have htake := hl.takeFirst_queued running first
  cases hdone : r.isDoneWhenSent with
  | true =>
    obtain ⟨hsent, hnobody⟩ := Acknowledgements.sent_done htake (r.isDoneWhenSent_iff.1 hdone) id
    simp [send, hsent, hnobody, Request.queued]
  | false =>
    have hnot : ¬ (r.kind = .publish ∧ r.queued.qos = .atMostOnce) := by
      intro hd
      rw [r.isDoneWhenSent_iff.2 hd] at hdone
      cases hdone
    have hfree : d.waiters.uses r.kind id = false := by
      rw [hb.uses_eq running]
      exact unused_of_send hdone fresh
    obtain ⟨hsent, hnobody⟩ := Acknowledgements.sent_awaiting htake hnot hfree
    simp [send, hsent, hnobody, Request.queued, Request.inFlight]

theorem reused_of_makes (hm : d.Makes move d') (fresh : d'.reused = false) : d.reused = false := by
  cases hm with
  | send id r rest running first => exact (Bool.or_eq_false_iff.1 fresh).1
  | _ => exact fresh

/-- **A move keeps the book and the waiters in agreement**, unless an id is used again. -/
theorem Booked.makes (hb : d.Booked) (hl : d.Lined drained late) (hm : d.Makes move d')
    (fresh : d'.reused = false) : d'.Booked := by
  cases hm with
  | send id r rest running first =>
    obtain ⟨-, hinFlight⟩ := send_eq hl hb running first fresh
    constructor
    · intro _
      rw [hinFlight, hb.inFlight_eq running]
      show _ = (d.unacknowledged ++ ite _ _ _).map Request.inFlight
      split <;> simp
    · show ((d.unacknowledged ++ ite _ _ _).map fun (r, i) => (r.kind, i)).Nodup
      cases hdone : r.isDoneWhenSent with
      | true => simpa using hb.distinct
      | false =>
        have hnew := not_mem_of_unused (unused_of_send hdone fresh)
        rw [if_neg Bool.false_ne_true, List.map_append]
        refine List.nodup_append.2 ⟨hb.distinct, by simp, ?_⟩
        rintro key hkey _ hother rfl
        rw [List.map_singleton, List.mem_singleton] at hother
        subst hother
        exact hnew hkey
  | acknowledge kind id success running =>
    refine ⟨fun _ => (hb.acknowledge_eq running kind id).2, ?_⟩
    exact hb.distinct.sublist ((List.filter_sublist).map _)
  | drain running => exact ⟨nofun, hb.distinct⟩
  | signal hp => exact ⟨nofun, hb.distinct⟩
  | letGo hp => exact ⟨nofun, hb.distinct⟩
  | _ => exact ⟨hb.inFlight_eq, hb.distinct⟩

/-- **The book of all that is reachable**, as long as no id has been used again. -/
theorem Reachable.booked (h : d.Reachable) (fresh : d.reused = false) : d.Booked := by
  refine h.induction (P := fun d => d.reused = false → d.Booked) ?_ ?_ fresh
  · exact fun _ => ⟨fun _ => rfl, .nil⟩
  · intro d move d' h hb hm fresh
    obtain ⟨⟨drained, late, hl⟩, -⟩ := h.stands
    exact (hb (reused_of_makes hm fresh)).makes hl hm fresh

/-! ## Whom a move answers -/

/-- **A move answers those whom the book names.** -/
theorem released_of_makes (hl : d.Lined drained late) (hb : d.Booked) (hm : d.Makes move d')
    (fresh : d'.reused = false) : d'.released = d.released ++ d.due move := by
  cases hm with
  | send id r rest running first =>
    obtain ⟨before, after, haccepted, -, hkind, hbefore⟩ :=
      Acknowledgements.takeFirst_eq_some_iff.1 first
    have hfind : d.accepted.find? (·.kind == r.kind) = some r := by
      refine List.find?_eq_some_iff_append.2 ⟨hkind, before, after, haccepted, fun b hb => ?_⟩
      simp [hbefore b hb]
    rw [(send_eq hl hb running first fresh).1, due, hfind, Option.filter_some]
    split <;> rfl
  | acknowledge kind id success running =>
    show d.released ++ (d.waiters.acknowledge kind id).1.toList.map _ = _
    rw [(hb.acknowledge_eq running kind id).1, List.map_map]
    rfl
  | drain running =>
    have hwaiting : d.waiters.waiters = d.accepted ++ d.held ++ d.unacknowledged.map (·.1) := by
      rw [Acknowledgements.waiters, hl.queued_running running, hb.inFlight_eq running,
        List.map_map, List.map_map]
      simp [Function.comp_def, Request.queued, Request.inFlight]
    show d.released ++ d.waiters.waiters.map _ = _
    rw [hwaiting]
    rfl
  | _ => exact (List.append_nil _).symm

/-- **Requests and acknowledgements correlate.**  Whatever callers, client and loop have done, as
long as the client has used no packet id again that was in use: a move answers whom the client's
book names, that is the sender of a message that is sent at most once when it is written, anyone
else when his own request is acknowledged, and everyone who is left when the loop ends.  The book
names one request under each kind and packet id, and nobody is answered twice.  Who withdraws takes
back his own waiter, or none if he has been released, and every other waiter stays. -/
theorem answers_whom_the_book_names (h : d.Reachable) (hm : d.step? move = some d')
    (fresh : d'.reused = false) :
    d'.released = d.released ++ d.due move ∧
    (d.unacknowledged.map fun (r, id) => (r.kind, id)).Nodup ∧
    (d'.released.map (·.1)).Nodup ∧
    (∀ r, d.holder = some (.refused r) → move = .withdraw →
      (d.waiters.cancelLast.1 = some r ∨
        d.waiters.cancelLast.1 = none ∧ (r, .closed) ∈ d.released) ∧
      ∀ other, other ∈ d'.waiters.waiters ↔ other ∈ d.waiters.waiters ∧ other ≠ r) := by
  have hmakes := makes_of_step hm
  obtain ⟨⟨drained, late, hl⟩, ha⟩ := h.stands
  have hb := h.booked (reused_of_makes hmakes fresh)
  refine ⟨released_of_makes hl hb hmakes fresh, hb.distinct, ?_, ?_⟩
  · exact (List.nodup_append.1 (h.next hm).stands.2.nodup).2.1
  · rintro r holds rfl
    have hlast := hl.cancelLast_eq holds
    cases hmakes with
    | withdraw r' holds' =>
      obtain rfl : r = r' := by simpa [holds] using holds'
      exact ⟨hlast, ha.mem_withdraw hlast⟩

/-- A subscription and three messages: one is sent at most once, and two are acknowledged in the
other order, under an id that the subscription has too.  A fourth message is refused amid the
others, and its waiter is the one that is taken back. -/
theorem three_messages_correlate :
    let before : List Move :=
      [.register .subscribe .atLeastOnce, .handOver, .register .publish .atLeastOnce, .handOver,
        .register .publish .atMostOnce, .handOver, .send .subscribe 7,
        .register .publish .atLeastOnce, .refuse]
    let after : List Move :=
      [.withdraw, .register .publish .atLeastOnce, .send .publish 7, .handOver, .send .publish 0,
        .send .publish 8, .acknowledge .publish 8 true]
    (∃ d d', ({} : Dialogue).run? before = some d ∧ d.step? .withdraw = some d' ∧
      d.waiters.cancelLast.1 = some ⟨3, .publish, .atLeastOnce⟩ ∧
      ∀ other, other ∈ d'.waiters.waiters ↔
        other ∈ d.waiters.waiters ∧ other ≠ ⟨3, .publish, .atLeastOnce⟩) ∧
    (∃ d d', ({} : Dialogue).run? (before ++ after) = some d ∧
      d.step? (.acknowledge .publish 7 true) = some d' ∧
      d.unacknowledged = [(⟨0, .subscribe, .atLeastOnce⟩, 7), (⟨1, .publish, .atLeastOnce⟩, 7)] ∧
      d'.released = d.released ++ [(⟨1, .publish, .atLeastOnce⟩, .acknowledged true)]) := by
  intro before after
  constructor
  · refine ⟨_, _, rfl, rfl, rfl, ?_⟩
    exact ((answers_whom_the_book_names ⟨before, rfl⟩ rfl rfl).2.2.2 _ rfl rfl).2
  · have hreleased (d d' : Dialogue) (hrun : ({} : Dialogue).run? (before ++ after) = some d)
        (hm : d.step? (.acknowledge .publish 7 true) = some d') (fresh : d'.reused = false) :
        d'.released = d.released ++ d.due (.acknowledge .publish 7 true) :=
      (answers_whom_the_book_names ⟨_, hrun⟩ hm fresh).1
    exact ⟨_, _, rfl, rfl, rfl, hreleased _ _ rfl rfl rfl⟩

end Dialogue

end DeviceProvisioning.Link
