import DeviceProvisioning.Link.Dialogue
import DeviceProvisioning.Proofs.Link.Conservation

/-!
# How a dialogue stands with its requests

`Dialogue.Makes` lists the moves, each with what it takes and what comes of it, and everything that
a dialogue can come to is `Dialogue.Reachable`.  Two facts hold of all that is reachable.

**Who is in line.**  One caller at a time has the right to send, from the registration of its waiter
until it has handed its request over or has taken its waiter back.  So the waiters that are queued
are in the order in which the client takes the requests, and the holder's is the last of them
(`Dialogue.Lined`).  When the loop releases everyone the line may have its holder still in it;
nobody who comes later stands before him, so the waiters that are queued then are the end of the
line.

**Who has been answered.**  A request that was made has its waiter, or its caller has learnt how it
ended, and not both (`Dialogue.Accounted`).
-/

namespace DeviceProvisioning.Link

/-- The waiter of a request that has not been sent. -/
def Request.queued (r : Request) : Queued Request where
  kind := r.kind
  qos := r.qos
  waiter := r

namespace Dialogue

open Acknowledgements (takeFirst)

variable {d d' : Dialogue} {move : Move} {moves : List Move} {r : Request}

/-! ## Moves -/

/-- **The moves**: when each is possible, and what it leads to. -/
inductive Makes (d : Dialogue) : Move → Dialogue → Prop where
  | register (kind : RequestKind) (qos : Qos) (free : d.holder = none) :
    Makes d (.register kind qos) (d.register kind qos)
  | handOver (r : Request) (holds : d.holder = some (.registered r)) (there : d.phase ≠ .gone) :
    Makes d .handOver (d.handOver r)
  | refuse (r : Request) (holds : d.holder = some (.registered r)) :
    Makes d .refuse (d.refuse r)
  | withdraw (r : Request) (holds : d.holder = some (.refused r)) :
    Makes d .withdraw (d.withdraw r)
  | send (id : Nat) (r : Request) (rest : List Request) (running : d.phase = .running)
      (first : takeFirst (fun x => x.kind == r.kind) d.accepted = some (r, rest)) :
    Makes d (.send r.kind id) (d.send r rest id)
  | acknowledge (kind : RequestKind) (id : Nat) (success : Bool) (running : d.phase = .running) :
    Makes d (.acknowledge kind id success) (d.acknowledge kind id success)
  | drain (running : d.phase = .running) : Makes d .drain d.drain
  | signal (drained : d.phase = .drained) : Makes d .signal { d with phase := .signalled }
  | letGo (signalled : d.phase = .signalled) : Makes d .letGo { d with phase := .gone }

/-- There are no other moves. -/
theorem makes_of_step (h : d.step? move = some d') : d.Makes move d' := by
  cases move with
  | register kind qos =>
    obtain ⟨free, rfl⟩ : d.holder = none ∧ d.register kind qos = d' := by simpa [step?] using h
    exact .register kind qos free
  | handOver =>
    cases holds : d.holder with
    | none => simp [step?, holds] at h
    | some holder =>
      cases holder with
      | refused r => simp [step?, holds] at h
      | registered r =>
        obtain ⟨there, rfl⟩ : d.phase ≠ .gone ∧ d.handOver r = d' := by simpa [step?, holds] using h
        exact .handOver r holds there
  | refuse =>
    cases holds : d.holder with
    | none => simp [step?, holds] at h
    | some holder =>
      cases holder with
      | refused r => simp [step?, holds] at h
      | registered r =>
        obtain rfl : d.refuse r = d' := by simpa [step?, holds] using h
        exact .refuse r holds
  | withdraw =>
    cases holds : d.holder with
    | none => simp [step?, holds] at h
    | some holder =>
      cases holder with
      | registered r => simp [step?, holds] at h
      | refused r =>
        obtain rfl : d.withdraw r = d' := by simpa [step?, holds] using h
        exact .withdraw r holds
  | send kind id =>
    cases first : takeFirst (fun r => r.kind == kind) d.accepted with
    | none => simp [step?, first] at h
    | some found =>
      obtain ⟨r, rest⟩ := found
      obtain ⟨running, rfl⟩ : d.phase = .running ∧ d.send r rest id = d' := by
        simpa [step?, first] using h
      have hkind := Acknowledgements.of_takeFirst first
      obtain rfl : r.kind = kind := eq_of_beq hkind
      exact .send id r rest running first
  | acknowledge kind id success =>
    obtain ⟨running, rfl⟩ : d.phase = .running ∧ d.acknowledge kind id success = d' := by
      simpa [step?] using h
    exact .acknowledge kind id success running
  | drain =>
    obtain ⟨running, rfl⟩ : d.phase = .running ∧ d.drain = d' := by simpa [step?] using h
    exact .drain running
  | signal =>
    obtain ⟨drained, rfl⟩ : d.phase = .drained ∧ { d with phase := .signalled } = d' := by
      simpa [step?] using h
    exact .signal drained
  | letGo =>
    obtain ⟨signalled, rfl⟩ : d.phase = .signalled ∧ { d with phase := .gone } = d' := by
      simpa [step?] using h
    exact .letGo signalled

/-- **What a dialogue that begins with nothing can come to.** -/
def Reachable (d : Dialogue) : Prop :=
  ∃ moves, ({} : Dialogue).run? moves = some d

theorem run?_concat (d : Dialogue) (moves : List Move) (move : Move) :
    d.run? (moves ++ [move]) = (d.run? moves).bind fun d => d.step? move := by
  simp only [run?, List.foldlM_append, List.foldlM_cons, List.foldlM_nil, bind_pure]
  rfl

theorem Reachable.next (h : d.Reachable) (hm : d.step? move = some d') : d'.Reachable := by
  obtain ⟨moves, hmoves⟩ := h
  exact ⟨moves ++ [move], by rw [run?_concat, hmoves, Option.bind_some, hm]⟩

/-- **What holds at first, and is kept by every move, holds in the end.** -/
theorem Reachable.run_induction {P : Dialogue → Prop} (h : d.Reachable) (start : P d)
    (step : ∀ {d move d'}, d.Reachable → P d → d.Makes move d' → P d')
    (hrun : d.run? moves = some d') : d'.Reachable ∧ P d' := by
  induction moves using List.reverseRecOn generalizing d' with
  | nil =>
    obtain rfl : d = d' := by simpa [run?] using hrun
    exact ⟨h, start⟩
  | append_singleton moves move ih =>
    rw [run?_concat] at hrun
    obtain ⟨d₁, hmoves, hmove⟩ := Option.bind_eq_some_iff.1 hrun
    obtain ⟨hreach, hd₁⟩ := ih hmoves
    exact ⟨hreach.next hmove, step hreach hd₁ (makes_of_step hmove)⟩

/-- What holds of a fresh dialogue, and is kept by every move, holds of all that is reachable. -/
theorem Reachable.induction {P : Dialogue → Prop} (h : d.Reachable) (start : P {})
    (step : ∀ {d move d'}, d.Reachable → P d → d.Makes move d' → P d') : P d := by
  obtain ⟨moves, hmoves⟩ := h
  exact (Reachable.run_induction ⟨[], rfl⟩ start step hmoves).2

/-! ## The line -/

/-- The requests that the client has been handed: while the loop runs those that are not yet
written, and when it has ended those that came too late. -/
def handed (d : Dialogue) : List Request :=
  match d.phase with
  | .running => d.accepted
  | _ => d.unread

/-- The request of the holder. -/
def held (d : Dialogue) : List Request :=
  d.holder.toList.map Holder.request

/-- **The requests in line**: those that the client has been handed, and last the holder's. -/
def line (d : Dialogue) : List Request :=
  d.handed ++ d.held

theorem handed_running (running : d.phase = .running) : d.handed = d.accepted := by
  simp [handed, running]

theorem handed_ended (ended : d.phase ≠ .running) : d.handed = d.unread := by
  cases hp : d.phase with
  | running => exact absurd hp ended
  | _ => simp [handed, hp]

theorem handed_handOver (r : Request) : (d.handOver r).handed = d.handed ++ [r] := by
  cases hp : d.phase <;> simp [handed, handOver, hp]

theorem line_register (free : d.holder = none) (kind : RequestKind) (qos : Qos) :
    (d.register kind qos).line = d.line ++ [{ number := d.made.length, kind, qos }] := by
  have hline : d.line = d.handed := by simp [line, held, free]
  rw [hline]
  rfl

theorem line_handOver (h : d.holder = some (.registered r)) : (d.handOver r).line = d.line := by
  simp only [line, handed_handOver, held, h]
  simp [handOver, Holder.request]

theorem line_refuse (h : d.holder = some (.registered r)) : (d.refuse r).line = d.line := by
  simp only [line, held, h]
  rfl

theorem line_withdraw (h : d.holder = some (.refused r)) :
    d.line = (d.withdraw r).line ++ [r] := by
  have hline : (d.withdraw r).line = d.handed := List.append_nil _
  rw [hline, line, held, h]
  rfl

/-- **How the line and the queue agree**: those in line who have been drained are in front, and
those who are queued come after them. -/
structure Lined (d : Dialogue) (drained late : List Request) : Prop where
  line_eq : d.line = drained ++ late
  queued_eq : d.waiters.queued = late.map Request.queued
  closed : ∀ r ∈ drained, (r, .closed) ∈ d.released
  /-- While the loop runs nobody has been drained. -/
  running : d.phase = .running → drained = [] ∧ d.unread = []
  inFlight_eq : d.phase ≠ .running → d.waiters.inFlight = []

namespace Lined

variable {drained late : List Request}

/-- While the loop runs everybody in line is queued. -/
theorem queued_running (h : d.Lined drained late) (running : d.phase = .running) :
    d.waiters.queued
      = (d.accepted ++ d.held).map Request.queued := by
  obtain ⟨rfl, -⟩ := h.running running
  rw [h.queued_eq, ← handed_running running, ← line, h.line_eq, List.nil_append]

/-- **The first waiter of a kind is that of the first request of this kind.** -/
theorem takeFirst_queued (h : d.Lined drained late) (running : d.phase = .running)
    {kind : RequestKind} {rest : List Request}
    (first : takeFirst (fun r => r.kind == kind) d.accepted = some (r, rest)) :
    takeFirst (fun q => q.kind == kind) d.waiters.queued
      = some (r.queued, (rest ++ d.held).map Request.queued) := by
  obtain ⟨before, after, haccepted, rfl, hkind, hbefore⟩ :=
    Acknowledgements.takeFirst_eq_some_iff.1 first
  rw [h.queued_running running, haccepted]
  refine Acknowledgements.takeFirst_eq_some_iff.2 ⟨before.map Request.queued,
    (after ++ d.held).map Request.queued, ?_, ?_, hkind, ?_⟩
  · simp
  · simp
  · intro q hq
    obtain ⟨b, hb, rfl⟩ := List.mem_map.1 hq
    exact hbefore b hb

/-- Who is in line waits or has been drained. -/
theorem mem_line (h : d.Lined drained late) (hr : r ∈ d.line) :
    r ∈ d.waiters.waiters ∨ (r, .closed) ∈ d.released := by
  rw [h.line_eq] at hr
  rcases List.mem_append.1 hr with hr | hr
  · exact .inr (h.closed r hr)
  · refine .inl (List.mem_append_left _ (List.mem_map.2 ⟨r.queued, ?_, rfl⟩))
    rw [h.queued_eq]
    exact List.mem_map_of_mem hr

/-- **Who withdraws is the last in line**: the last of those who are queued, or the last who was
drained, and then nobody is queued. -/
theorem last (h : d.Lined drained late) (holds : d.holder = some (.refused r)) :
    late = [] ∧ drained = (d.withdraw r).line ++ [r] ∨
      ∃ others, late = others ++ [r] ∧ (d.withdraw r).line = drained ++ others := by
  have hline : (d.withdraw r).line ++ [r] = drained ++ late := by
    rw [← line_withdraw holds, h.line_eq]
  rcases List.eq_nil_or_concat late with rfl | ⟨others, last, rfl⟩
  · exact .inl ⟨rfl, by rw [hline, List.append_nil]⟩
  · rw [List.concat_eq_append, ← List.append_assoc] at hline
    obtain ⟨hfront, hlast⟩ := List.append_inj' hline rfl
    obtain rfl : r = last := by simpa using hlast
    exact .inr ⟨others, List.concat_eq_append, hfront⟩

/-- **The newest waiter that is queued is the holder's**, unless this one has been drained. -/
theorem cancelLast_eq (h : d.Lined drained late) (holds : d.holder = some (.refused r)) :
    d.waiters.cancelLast.1 = some r ∨
      d.waiters.cancelLast.1 = none ∧ (r, .closed) ∈ d.released := by
  rcases h.last holds with ⟨rfl, hdrained⟩ | ⟨others, rfl, -⟩
  · refine .inr ⟨?_, h.closed r ?_⟩
    · simp [Acknowledgements.cancelLast, h.queued_eq]
    · simp [hdrained]
  · left
    simp [Acknowledgements.cancelLast, h.queued_eq, Request.queued]

/-- The loop goes on to its end. -/
theorem goOn (h : d.Lined drained late) (ended : d.phase ≠ .running) {phase : Phase}
    (hp : phase ≠ .running) : ({ d with phase } : Dialogue).Lined drained late := by
  refine ⟨?_, h.queued_eq, h.closed, fun running => absurd running hp,
    fun _ => h.inFlight_eq ended⟩
  rw [← h.line_eq, line, line, handed_ended ended, handed_ended hp]
  rfl

/-- **A move keeps the line and the queue in agreement.** -/
theorem makes (h : d.Lined drained late) (hm : d.Makes move d') :
    ∃ drained' late', d'.Lined drained' late' := by
  cases hm with
  | register kind qos free =>
    -- The new waiter is the last of the queue, and its request the last of the line.
    let r : Request := { number := d.made.length, kind, qos }
    refine ⟨drained, late ++ [r], ?_, ?_, h.closed, h.running, h.inFlight_eq⟩
    · rw [line_register free, h.line_eq, List.append_assoc]
    · rw [List.map_append, ← h.queued_eq]
      rfl
  | handOver r holds there =>
    refine ⟨drained, late, ?_, h.queued_eq, h.closed, ?_, h.inFlight_eq⟩
    · rw [line_handOver holds, h.line_eq]
    · intro running
      obtain ⟨hdrained, hunread⟩ := h.running running
      exact ⟨hdrained, (if_pos running).trans hunread⟩
  | refuse r holds =>
    exact ⟨drained, late, (line_refuse holds).trans h.line_eq, h.queued_eq, h.closed, h.running,
      h.inFlight_eq⟩
  | withdraw r holds =>
    have hqueued : (d.withdraw r).waiters.queued = late.dropLast.map Request.queued := by
      rw [List.map_dropLast, ← h.queued_eq]
      rfl
    rcases h.last holds with ⟨rfl, hdrained⟩ | ⟨others, rfl, hfront⟩
    · refine ⟨(d.withdraw r).line, [], (List.append_nil _).symm, hqueued, ?_, ?_, h.inFlight_eq⟩
      · intro x hx
        exact h.closed x (hdrained ▸ List.mem_append_left _ hx)
      · intro running
        obtain ⟨hnone, -⟩ := h.running running
        simp [hnone] at hdrained
    · refine ⟨drained, others, hfront, ?_, h.closed, h.running, h.inFlight_eq⟩
      simpa using hqueued
  | send id r rest running first =>
    obtain ⟨rfl, hunread⟩ := h.running running
    refine ⟨[], rest ++ d.held, ?_, ?_, by simp, fun _ => ⟨rfl, hunread⟩, absurd running⟩
    · show (d.send r rest id).handed ++ d.held = rest ++ d.held
      rw [handed_running (d := d.send r rest id) running]
      rfl
    · exact Acknowledgements.queued_sent (h.takeFirst_queued running first) id
  | acknowledge kind id success running =>
    obtain ⟨rfl, hunread⟩ := h.running running
    refine ⟨[], late, h.line_eq, ?_, by simp, fun _ => ⟨rfl, hunread⟩, absurd running⟩
    exact (Acknowledgements.queued_acknowledge _ kind id).trans h.queued_eq
  | drain running =>
    -- Nobody has handed a request over since the loop ended, so that only the holder is in line.
    obtain ⟨rfl, hunread⟩ := h.running running
    refine ⟨d.held, [], ?_, rfl, ?_, nofun, fun _ => rfl⟩
    · show d.unread ++ d.held = d.held ++ []
      rw [hunread, List.nil_append, List.append_nil]
    · intro r hr
      rcases h.mem_line (List.mem_append_right _ hr) with hwaits | hreleased
      · exact List.mem_append_right _ (List.mem_map_of_mem hwaits)
      · exact List.mem_append_left _ hreleased
  | signal hp => exact ⟨drained, late, h.goOn (by simp [hp]) nofun⟩
  | letGo hp => exact ⟨drained, late, h.goOn (by simp [hp]) nofun⟩

end Lined

/-! ## The accounts -/

/-- **The accounts of a dialogue**: requests have numbers of their own, and each has either its
waiter or an answer. -/
structure Accounted (d : Dialogue) : Prop where
  number_lt : ∀ r ∈ d.made, r.number < d.made.length
  mem_made : ∀ r, r ∈ d.made ↔ r ∈ d.waiters.waiters ∨ d.HasAnswered r
  /-- Nobody waits twice, is released twice, or waits when he has been released. -/
  nodup : (d.waiters.waiters ++ d.released.map (·.1)).Nodup
  away : ∀ r ∈ d.turnedAway, r ∉ d.waiters.waiters

namespace Accounted

/-- Who waits has had no answer. -/
theorem unanswered (h : d.Accounted) (hr : r ∈ d.waiters.waiters) : ¬ d.HasAnswered r := by
  rintro (hreleased | haway)
  · exact (List.nodup_append.1 h.nodup).2.2 r hr r hreleased rfl
  · exact h.away r haway hr

/-- **To wait is to have had no answer.** -/
theorem mem_waiters_iff (h : d.Accounted) :
    r ∈ d.waiters.waiters ↔ r ∈ d.made ∧ ¬ d.HasAnswered r := by
  constructor
  · intro hr
    exact ⟨(h.mem_made r).2 (.inl hr), h.unanswered hr⟩
  · rintro ⟨hmade, hnone⟩
    exact ((h.mem_made r).1 hmade).resolve_right hnone

/-- **To release some of those who wait keeps the accounts.** -/
theorem release {out : List Request} (h : d.Accounted) (hmade : d'.made = d.made)
    (haway : d'.turnedAway = d.turnedAway)
    (hwaiters : d.waiters.waiters.Perm (out ++ d'.waiters.waiters))
    (hreleased : d'.released.map (·.1) = d.released.map (·.1) ++ out) : d'.Accounted := by
  refine ⟨?_, fun r => ?_, ?_, fun r hr => ?_⟩
  · rw [hmade]
    exact h.number_lt
  · rw [hmade, h.mem_made, hwaiters.mem_iff, HasAnswered, HasAnswered, hreleased, haway]
    simp only [List.mem_append]
    tauto
  · have hperm : (d.waiters.waiters ++ d.released.map (·.1)).Perm
        (d'.waiters.waiters ++ d'.released.map (·.1)) := by
      rw [hreleased, ← List.append_assoc]
      refine (hwaiters.append_right _).trans ?_
      rw [List.append_assoc]
      exact List.perm_append_comm
    exact hperm.nodup_iff.1 h.nodup
  · rw [haway] at hr
    exact fun hw => h.away r hr (hwaiters.mem_iff.2 (List.mem_append_right _ hw))

/-- **A new request waits.** -/
theorem register (h : d.Accounted) (kind : RequestKind) (qos : Qos) :
    (d.register kind qos).Accounted := by
  let r : Request := { number := d.made.length, kind, qos }
  have hnew : r ∉ d.made := fun hr => Nat.lt_irrefl _ (h.number_lt r hr)
  have hwaiters : (d.waiters.waiters ++ [r]).Perm (d.register kind qos).waiters.waiters :=
    d.waiters.expect_perm kind qos r
  have hnone : r ∉ d.waiters.waiters ∧ ¬ d.HasAnswered r := by
    rw [← not_or, ← h.mem_made]
    exact hnew
  refine ⟨fun x hx => ?_, fun x => ?_, ?_, fun x hx => ?_⟩
  · have hlen : (d.register kind qos).made.length = d.made.length + 1 := List.length_append
    rw [hlen]
    rcases List.mem_append.1 hx with hx | hx
    · exact Nat.lt_succ_of_lt (h.number_lt x hx)
    · obtain rfl : x = r := by simpa using hx
      exact Nat.lt_succ_self _
  · show x ∈ d.made ++ [r] ↔ x ∈ (d.register kind qos).waiters.waiters ∨ d.HasAnswered x
    rw [← hwaiters.mem_iff, List.mem_append, List.mem_append, h.mem_made]
    tauto
  · have hperm : (r :: (d.waiters.waiters ++ d.released.map (·.1))).Perm
        ((d.register kind qos).waiters.waiters ++ d.released.map (·.1)) :=
      ((List.perm_append_singleton r _).symm.trans hwaiters).append_right _
    refine hperm.nodup_iff.1 (List.nodup_cons.2 ⟨fun hr => ?_, h.nodup⟩)
    rcases List.mem_append.1 hr with hr | hr
    · exact hnone.1 hr
    · exact hnone.2 (.inl hr)
  · intro hw
    rcases List.mem_append.1 (hwaiters.mem_iff.2 hw) with hw | hw
    · exact h.away x hx hw
    · obtain rfl : x = r := by simpa using hw
      exact hnone.2 (.inr hx)

/-- **Who withdraws takes his own waiter with him**, and no other. -/
theorem mem_withdraw (h : d.Accounted)
    (hlast : d.waiters.cancelLast.1 = some r ∨
      d.waiters.cancelLast.1 = none ∧ (r, .closed) ∈ d.released) (other : Request) :
    other ∈ (d.withdraw r).waiters.waiters ↔ other ∈ d.waiters.waiters ∧ other ≠ r := by
  have hperm : d.waiters.waiters.Perm
      (d.waiters.cancelLast.1.toList ++ (d.withdraw r).waiters.waiters) :=
    d.waiters.cancelLast_perm
  have hnodup : d.waiters.waiters.Nodup := (List.nodup_append.1 h.nodup).1
  rcases hlast with hlast | ⟨hlast, hreleased⟩
  · rw [hlast] at hperm
    have hcons : (r :: (d.withdraw r).waiters.waiters).Nodup := hperm.nodup_iff.1 hnodup
    rw [hperm.mem_iff]
    constructor
    · intro ho
      refine ⟨List.mem_cons_of_mem _ ho, ?_⟩
      rintro rfl
      exact (List.nodup_cons.1 hcons).1 ho
    · rintro ⟨ho, hne⟩
      exact (List.mem_cons.1 ho).resolve_left hne
  · rw [hlast] at hperm
    rw [hperm.mem_iff]
    refine ⟨fun ho => ⟨ho, ?_⟩, And.left⟩
    rintro rfl
    have hanswered : d.HasAnswered other := .inl (List.mem_map.2 ⟨_, hreleased, rfl⟩)
    exact h.unanswered (hperm.mem_iff.2 ho) hanswered

theorem withdraw (h : d.Accounted)
    (hlast : d.waiters.cancelLast.1 = some r ∨
      d.waiters.cancelLast.1 = none ∧ (r, .closed) ∈ d.released) : (d.withdraw r).Accounted := by
  have hmem := h.mem_withdraw hlast
  have hmade : r ∈ d.made := by
    rcases hlast with hlast | ⟨-, hreleased⟩
    · exact (h.mem_made r).2 (.inl (d.waiters.cancelLast_perm.mem_iff.2 (by simp [hlast])))
    · exact (h.mem_made r).2 (.inr (.inl (List.mem_map.2 ⟨_, hreleased, rfl⟩)))
  have hanswered (x : Request) : (d.withdraw r).HasAnswered x ↔ d.HasAnswered x ∨ x = r := by
    simp [HasAnswered, Dialogue.withdraw, or_assoc]
  have hsub : (d.withdraw r).waiters.waiters.Sublist d.waiters.waiters :=
    ((List.dropLast_sublist _).map _).append_right _
  refine ⟨h.number_lt, fun x => ?_, h.nodup.sublist (hsub.append_right _), fun x hx => ?_⟩
  · show x ∈ d.made ↔ _
    rw [hmem, hanswered]
    by_cases hx : x = r
    · simp [hx, hmade]
    · simp [hx, h.mem_made]
  · rw [hmem]
    rintro ⟨hw, hne⟩
    rcases List.mem_append.1 hx with hx | hx
    · exact h.away x hx hw
    · exact hne (by simpa using hx)

/-- **A move keeps the accounts.** -/
theorem makes {drained late : List Request} (h : d.Accounted) (hl : d.Lined drained late)
    (hm : d.Makes move d') : d'.Accounted := by
  cases hm with
  | register kind qos free => exact h.register kind qos
  | handOver r holds there => exact ⟨h.number_lt, h.mem_made, h.nodup, h.away⟩
  | refuse r holds => exact ⟨h.number_lt, h.mem_made, h.nodup, h.away⟩
  | withdraw r holds => exact h.withdraw (hl.cancelLast_eq holds)
  | send id r rest running first =>
    refine h.release rfl rfl (d.waiters.sent_perm r.kind id) ?_
    simp [send, Function.comp_def]
  | acknowledge kind id success running =>
    refine h.release rfl rfl (d.waiters.acknowledge_perm kind id) ?_
    simp [Dialogue.acknowledge, Function.comp_def]
  | drain running =>
    have hall : d.waiters.waiters.Perm (d.waiters.waiters ++ d.drain.waiters.waiters) :=
      .of_eq (List.append_nil _).symm
    refine h.release rfl rfl hall ?_
    simp [Dialogue.drain, Acknowledgements.drain, Function.comp_def]
  | signal hp => exact ⟨h.number_lt, h.mem_made, h.nodup, h.away⟩
  | letGo hp => exact ⟨h.number_lt, h.mem_made, h.nodup, h.away⟩

end Accounted

/-- **Everything that is reachable stands well**: the line and the queue agree, and the accounts are
in order. -/
theorem Reachable.stands (h : d.Reachable) :
    (∃ drained late, d.Lined drained late) ∧ d.Accounted := by
  refine h.induction (P := fun d => (∃ drained late, d.Lined drained late) ∧ d.Accounted)
    ⟨⟨[], [], ?_⟩, ?_⟩ ?_
  · exact ⟨rfl, rfl, by simp, fun _ => ⟨rfl, rfl⟩, fun _ => rfl⟩
  · exact ⟨by simp, by simp [Acknowledgements.waiters, HasAnswered], .nil, by simp⟩
  · rintro d move d' - ⟨⟨drained, late, hl⟩, ha⟩ hm
    exact ⟨hl.makes hm, ha.makes hl hm⟩

end Dialogue

end DeviceProvisioning.Link
