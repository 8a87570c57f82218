import DeviceProvisioning.Proofs.Link.Standing

/-!
# What is left when the loop ends

The loop releases everyone, signals its end, and lets go of the client.  These are three moves, and
until the last of them the client takes requests.  A request that was registered after the release
and handed over before the client is gone will not be written, and nobody will release its waiter:
the loop has done so already, and its caller does not withdraw because the client has taken the
request (`Dialogue.subscription_left_behind`).

There are no others (`Dialogue.left_behind_were_unread`).  Whoever made his request while the loop
ran has been answered, and so has everyone if no request was handed over between the release and the
end of the client.
-/

namespace DeviceProvisioning.Link.Dialogue

variable {d d' : Dialogue} {move : Move} {moves : List Move} {r : Request}

/-- Who has been released stays so. -/
theorem released_grows (hm : d.Makes move d') : d.released <+: d'.released := by
  cases hm with
  | send i x rest running first => exact (List.prefix_append _ _).trans (List.prefix_append _ _)
  | acknowledge kind i success running => exact List.prefix_append _ _
  | drain running => exact List.prefix_append _ _
  | _ => exact List.prefix_rfl

/-- Who has gone away stays so. -/
theorem turnedAway_grows (hm : d.Makes move d') : d.turnedAway <+: d'.turnedAway := by
  cases hm with
  | withdraw x holds => exact List.prefix_append _ _
  | _ => exact List.prefix_rfl

/-- An answer stays given. -/
theorem HasAnswered.makes (h : d.HasAnswered r) (hm : d.Makes move d') : d'.HasAnswered r := by
  rcases h with hreleased | haway
  · exact .inl (((released_grows hm).map _).subset hreleased)
  · exact .inr ((turnedAway_grows hm).subset haway)

/-- A request stays made. -/
theorem made_of_makes (hr : r ∈ d.made) (hm : d.Makes move d') : r ∈ d'.made := by
  cases hm with
  | register kind qos free => exact List.mem_append_left _ hr
  | _ => exact hr

/-! ## The release -/

/-- **When the loop has released everyone nobody waits.** -/
theorem Accounted.drain (h : d.drain.Accounted) (hr : r ∈ d.made) : d.drain.HasAnswered r := by
  refine ((h.mem_made r).1 hr).resolve_left ?_
  show r ∉ []
  exact List.not_mem_nil

/-- What a move that ends the loop, or finds it ended, leaves answered. -/
theorem answered_of_makes (h : d.Reachable) (hr : r ∈ d.made)
    (ha : d.phase ≠ .running → d.HasAnswered r) (hm : d.Makes move d')
    (ended : d'.phase ≠ .running) : d'.HasAnswered r := by
  by_cases hp : d.phase = .running
  · -- The loop has just ended, and it has released everyone.
    obtain ⟨⟨drained, late, hl⟩, haccounts⟩ := h.stands
    cases hm with
    | drain running => exact (haccounts.makes hl (.drain running)).drain hr
    | signal drained => simp [hp] at drained
    | letGo signalled => simp [hp] at signalled
    | _ => exact absurd hp ended
  · exact (ha hp).makes hm

/-- **Who made his request while the loop ran has been answered when it has ended.** -/
theorem Reachable.answered (h : d.Reachable) (hr : r ∈ d.made) (running : d.phase = .running)
    (hrun : d.run? moves = some d') (ended : d'.phase ≠ .running) : d'.HasAnswered r := by
  obtain ⟨-, -, hanswered⟩ := h.run_induction
    (P := fun d => r ∈ d.made ∧ (d.phase ≠ .running → d.HasAnswered r)) ⟨hr, absurd running⟩
    (fun h hP hm => ⟨made_of_makes hP.1 hm, answered_of_makes h hP.1 hP.2 hm⟩) hrun
  exact hanswered ended

/-! ## The end -/

/-- When the client is gone a waiter stays, unless its own caller withdraws. -/
theorem waits_of_makes (h : d.Reachable) (gone : d.phase = .gone) (hw : r ∈ d.waiters.waiters)
    (hr : r ∉ d.held) (hm : d.Makes move d') :
    d'.phase = .gone ∧ r ∈ d'.waiters.waiters ∧ r ∉ d'.held := by
  obtain ⟨⟨drained, late, hl⟩, ha⟩ := h.stands
  cases hm with
  | register kind qos free =>
    have hmade : r ∈ d.made := (ha.mem_made r).2 (.inl hw)
    refine ⟨gone, (d.waiters.expect_perm kind qos _).mem_iff.1 (List.mem_append_left _ hw), ?_⟩
    intro hself
    obtain rfl : r = { number := d.made.length, kind, qos } := List.mem_singleton.1 hself
    exact Nat.lt_irrefl _ (ha.number_lt _ hmade)
  | handOver x holds there => exact absurd gone there
  | refuse x holds =>
    have hsame : (d.refuse x).held = d.held := by simp [held, refuse, holds, Holder.request]
    exact ⟨gone, hw, by rwa [hsame]⟩
  | withdraw x holds =>
    have hne : r ≠ x := by
      rintro rfl
      exact hr (by simp [held, holds, Holder.request])
    exact ⟨gone, (ha.mem_withdraw (hl.cancelLast_eq holds) r).2 ⟨hw, hne⟩, List.not_mem_nil⟩
  | send i x rest running first => simp [gone] at running
  | acknowledge kind i success running => simp [gone] at running
  | drain running => simp [gone] at running
  | signal drained => simp [gone] at drained
  | letGo signalled => simp [gone] at signalled

/-- **Who waits when the client is gone, and has not the right to send, is never answered.** -/
theorem Reachable.left_behind (h : d.Reachable) (gone : d.phase = .gone)
    (hw : r ∈ d.waiters.waiters) (hr : r ∉ d.held) (hrun : d.run? moves = some d') :
    ¬ d'.HasAnswered r := by
  obtain ⟨hreach, -, hwaits, -⟩ := h.run_induction
    (P := fun d => d.phase = .gone ∧ r ∈ d.waiters.waiters ∧ r ∉ d.held) ⟨gone, hw, hr⟩
    (fun h hP hm => waits_of_makes h hP.1 hP.2.1 hP.2.2 hm) hrun
  exact hreach.stands.2.unanswered hwaits

/-- **Who is left when the client is gone and nobody has the right to send.**  To be left is to have
had no answer, and to have none whatever comes.  Whoever is left handed his request over when the
loop had released everyone, and had made it after that too: whoever made his request while the loop
ran has been answered.  If no request was handed over so late, nobody is left. -/
theorem left_behind_were_unread (h : d.Reachable) (gone : d.phase = .gone)
    (free : d.holder = none) :
    (∀ r ∈ d.made, d.HasAnswered r ↔ r ∉ d.waiters.waiters) ∧
    (∀ r ∈ d.waiters.waiters, r ∈ d.unread ∧
      ∀ moves d', d.run? moves = some d' → ¬ d'.HasAnswered r) ∧
    (∀ (d₀ : Dialogue) (moves : List Move), d₀.Reachable → d₀.phase = .running →
      d₀.run? moves = some d → ∀ r ∈ d₀.made, d.HasAnswered r) ∧
    (d.unread = [] → d.waiters.waiters = [] ∧ ∀ r ∈ d.made, d.HasAnswered r) := by
  obtain ⟨⟨drained, late, hl⟩, ha⟩ := h.stands
  have ended : d.phase ≠ .running := by simp [gone]
  have hfree : d.held = [] := by simp [held, free]
  have hanswered : ∀ r ∈ d.made, d.HasAnswered r ↔ r ∉ d.waiters.waiters := by
    intro r hr
    rw [ha.mem_waiters_iff, not_and, not_not]
    exact ⟨fun h _ => h, fun h => h hr⟩
  have hunread : ∀ r ∈ d.waiters.waiters, r ∈ d.unread := by
    intro r hw
    have hlate : r ∈ late := by
      simpa [Acknowledgements.waiters, hl.inFlight_eq ended, hl.queued_eq, Request.queued] using hw
    have hline : d.unread = drained ++ late := by
      rw [← hl.line_eq, line, handed_ended ended, hfree, List.append_nil]
    rw [hline]
    exact List.mem_append_right _ hlate
  refine ⟨hanswered, fun r hw => ⟨hunread r hw, fun moves d' hrun => ?_⟩, ?_, fun hnone => ?_⟩
  · exact h.left_behind gone hw (by simp [hfree]) hrun
  · intro d₀ moves h₀ running hrun r hr
    exact h₀.answered hr running hrun ended
  · have hempty : d.waiters.waiters = [] :=
      List.eq_nil_iff_forall_not_mem.2 fun r hw => by simpa [hnone] using hunread r hw
    exact ⟨hempty, fun r hr => (hanswered r hr).2 (by simp [hempty])⟩

/-- A subscription that is in flight when the loop ends, a message that is registered then, and a
subscription that is handed over too late: only the last of them is left. -/
theorem late_subscription_unread :
    let moves : List Move :=
      [.register .subscribe .atLeastOnce, .handOver, .send .subscribe 1,
        .register .publish .atLeastOnce, .drain, .handOver, .register .subscribe .atLeastOnce,
        .signal, .handOver, .letGo, .register .publish .atMostOnce, .refuse, .withdraw]
    ∃ d, ({} : Dialogue).run? moves = some d ∧
      d.phase = .gone ∧ d.holder = none ∧
      d.waiters.waiters = [⟨2, .subscribe, .atLeastOnce⟩] ∧
      ∀ moves d', d.run? moves = some d' → ¬ d'.HasAnswered ⟨2, .subscribe, .atLeastOnce⟩ := by
  intro moves
  refine ⟨_, rfl, rfl, rfl, rfl, ?_⟩
  exact ((left_behind_were_unread ⟨moves, rfl⟩ rfl rfl).2.1 _ (List.mem_singleton_self _)).2

/-- **A request is left behind**: a subscription that is registered when the loop has released
everyone, and handed over before the client is gone. -/
theorem subscription_left_behind :
    ¬ ∀ d : Dialogue, d.Reachable → d.phase = .gone → d.holder = none →
      d.waiters.waiters = [] ∧ ∀ r ∈ d.made, d.HasAnswered r := by
  intro hclaim
  have hnone := hclaim _
    ⟨[.drain, .register .subscribe .atLeastOnce, .handOver, .signal, .letGo], rfl⟩ rfl rfl
  exact absurd hnone.1 (by decide)

end DeviceProvisioning.Link.Dialogue
