import DeviceProvisioning.Proofs.Connection.Notices
import DeviceProvisioning.Proofs.Session.Loss
import DeviceProvisioning.Proofs.Tandem.Connected
import DeviceProvisioning.Proofs.Tandem.Play

/-!
# A loss is handled alike in whatever order it is heard of

When the manager loses the connection it fails the messages in flight and tells of the loss, all in
one step.  The session learns of it bit by bit: the failures come back with the calls that were to
publish, the notice waits behind whatever the manager has told before, and callers ask on.

As long as the notice has not been heard, the tandem is in one situation (`Tandem.Losing`): the
session takes itself for connected, the manager is not, and one loss is still to be heard.  No step
leaves this situation but the hearing of the notice: a session that takes itself for connected
starts no change, so the manager is not asked for one.  In this situation operations end with their
responses or are cancelled (`Session.Taken.weathers`), and that is why the order does not matter.
-/

namespace DeviceProvisioning

open Connection (Course Manager)
open Session (Call)
open Time (Millis)

/-! ## The manager -/

namespace Connection.Manager.Tended
variable {m : Manager} {input : Input} {returned : Option Effect} {before after : List Effect}

/-- **A manager that loses its connection** is without one, and has told of it. -/
theorem loses {why : Failure} (now : Millis)
    (h : m.Tended (before ++ returned.toList ++ after)) (he : input.Ends returned)
    (hi : input.isShutDown = false) (hloss : m.loss? input = some why) :
    (m.step now input).manager.state = .disconnected ∧
      losses (told (m.step now input).effects) = [why] := by
  have htells := h.tells now he hi
  obtain ⟨-, earlier, htold⟩ := htells.last why hloss
  have hlast := htells.walk.last
  have hvisited : visited [.stateChanged .disconnected, .lost why] = [.disconnected] := rfl
  rw [htold, visited, List.filterMap_append, ← visited, ← visited, hvisited,
    List.getLastD_concat] at hlast
  exact ⟨hlast, by rw [htells.losses, hloss, Option.toList_some]⟩

/-- A manager without a connection stays so, and has nothing to lose, when it is not asked for a
change. -/
theorem idles (now : Millis) (h : m.Tended (before ++ returned.toList ++ after))
    (he : input.Ends returned) (hi : input.isShutDown = false) (hw : m.waiter = none)
    (ho : ∀ o, input = .order o → o.command.isTraffic) (hm : m.state ≠ .connected) :
    (m.step now input).manager.state = m.state ∧
      losses (told (m.step now input).effects) = [] := by
  have hnone : m.loss? input = none := by
    unfold loss?
    split
    · exact if_neg fun hc => hm hc.2
    · exact if_neg fun hc => hm hc.2
    · rfl
  refine ⟨?_, by rw [(h.tells now he hi).losses, hnone, Option.toList_none]⟩
  exact (h.calm_step now he hi hw ho).keeps.elim And.left fun hlost => absurd hlost.1 hm

end Connection.Manager.Tended

/-! ## What the session takes -/

/-- What is plain tells of no loss. -/
theorem Session.Input.losses_of_isPlain {input : Session.Input} (h : input.isPlain) :
    Connection.losses input.notice?.toList = [] := by
  cases input with
  | notice n =>
    cases n with
    | lost why => cases h
    | message | stateChanged => rfl
  | order | completion | shutDown => rfl

namespace Tandem
variable {t t' t₁ t₂ : Tandem} {input : Session.Input} {move : Move} {moves : List Move}
  {why : Failure}

/-- An input as the session would take it now. -/
def taken (t : Tandem) (input : Session.Input) : Session.Taken :=
  ⟨t.session, t.course.manager.state, input⟩

/-- **What the session takes** while moves are made. -/
def log : Tandem → List Move → List Session.Taken
  | _, [] => []
  | t, move :: moves =>
    ((t.input? move).map t.taken).toList ++
      match t.play move with
      | some t' => t'.log moves
      | none => []

theorem log_cons (h : t.play move = some t') (moves : List Move) :
    t.log (move :: moves) = ((t.input? move).map t.taken).toList ++ t'.log moves := by
  rw [log, h]

/-! ## While a loss is still to be heard -/

/-- **A loss that the session has still to hear of**: it takes itself for connected, and the manager
is not. -/
structure Losing (t : Tandem) (why : Failure) : Prop where
  reachable : Reachable t
  running : t.stopped = false
  session : t.session.state = .connected
  manager : t.course.manager.state = .disconnected
  unheard : Connection.losses t.unheard = [why]

/-- In every tandem the outstanding operations have different ids. -/
theorem distinct (h : Reachable t) : t.session.Distinct := by
  induction h with
  | start => exact List.nodup_nil
  | step _ hs ih =>
    cases hs with
    | order | hears | completes | shutDown => exact ih.step _ _
    | asks | refused | answered | takes | manager => exact ih

/-- **The manager goes on** without a connection when no call waits for a change. -/
theorem Linked.idles (h : t.Linked) (running : t.stopped = false) (calm : t.Calm)
    (hm : t.course.manager.state ≠ .connected) (hs : Step t t')
    (running' : t'.course.stopped = false) :
    t'.course.manager.state = t.course.manager.state ∧
      ∃ es, t'.course.record = t.course.record ++ es ∧
        Connection.losses (Connection.told es) = [] := by
  have htended := Course.tended h.course (h.runs running)
  have hw := h.unwaited running calm
  cases hs with
  | order | hears | completes | shutDown | asks | refused | answered =>
    exact ⟨rfl, [], (List.append_nil _).symm, rfl⟩
  | takes now order rest hrun first =>
    obtain ⟨call, hcall, duty, hst, hcmd⟩ :=
      h.order_waits running (o := order) (by rw [first]; exact List.mem_cons_self)
    have htraffic := calm call hcall duty _ hst
    rw [hcmd] at htraffic
    obtain ⟨hstate, hlosses⟩ := htended.returning_none.idles now (.order order) rfl hw
      (fun o ho => by cases ho; exact htraffic) hm
    exact ⟨hstate, _, rfl, hlosses⟩
  | manager course step own held =>
    cases step with
    | takes now input e before after hrun ends admits split =>
      rw [split] at htended
      obtain ⟨hstate, hlosses⟩ := htended.idles now ends running' hw (fun o ho => by
        subst ho
        rw [Course.taken_follow] at own
        simp [Connection.Input.ticket?] at own) hm
      exact ⟨hstate, _, rfl, hlosses⟩
    | subscribed | unsubscribed => exact ⟨rfl, _, rfl, rfl⟩
    | late => exact ⟨rfl, [], (List.append_nil _).symm, rfl⟩

namespace Losing

/-- **What happens beside the session** does not make a loss heard. -/
theorem aside (h : t.Losing why) (hs : Step t t') (hsession : t'.session = t.session)
    (hheard : t'.heard = t.heard) (hstopped : t'.stopped = t.stopped) : t'.Losing why := by
  have hl := linked h.reachable
  have hr := h.reachable.step hs
  have running : t'.stopped = false := hstopped.trans h.running
  obtain ⟨hstate, es, hrecord, hlosses⟩ := hl.idles h.running
    (hl.calm_of_settled h.running (by rw [h.session]; rfl)) (by rw [h.manager]; simp) hs
    ((linked hr).runs running)
  refine ⟨hr, running, by rw [hsession, h.session], by rw [hstate, h.manager], ?_⟩
  rw [unheard_more _ hl.heard hrecord hheard, Connection.losses_append, h.unheard, hlosses,
    List.append_nil]

/-- The session ends its operations with their responses, or cancels them. -/
theorem weathers (h : t.Losing why) (ht : t.Takes input t') (plain : (t.taken input).Plain) :
    (t.taken input).Weathers := by
  obtain ⟨rest, hgoes⟩ := ht.goes
  obtain ⟨before, returned, after, ends, -, hcalls, -⟩ := hgoes.ends
  have htended := (linked h.reachable).tended h.running
  rw [hcalls] at htended
  exact Session.Taken.weathers htended (distinct h.reachable) ends h.session
    (by simp [taken, h.manager]) plain

/-- **The session takes an input** that does not tell it of the loss. -/
theorem takes (h : t.Losing why) (ht : t.Takes input t') (plain : (t.taken input).Plain) :
    t'.Losing why ∧ t'.session = (t.taken input).turn.session := by
  obtain ⟨rest, hgoes⟩ := ht.goes
  have hsession : t'.session = (t.taken input).turn.session := hgoes.session
  refine ⟨⟨h.reachable.step ht.step, ?_, ?_, by rw [hgoes.course, h.manager], ?_⟩, hsession⟩
  · cases ht <;> exact h.running
  · rw [hsession, (h.weathers ht plain).connected]
  · have hold := h.unheard
    have hinput : Connection.losses input.notice?.toList = [] :=
      Session.Input.losses_of_isPlain plain.1
    rwa [ht.unheard, Connection.losses_append, hinput] at hold

/-- **Whatever moves are made,** the loss is still to be heard, and every operation is still
outstanding or has been answered. -/
theorem plays (h : t.Losing why) (hp : t.plays moves = some t₂)
    (plain : ∀ e ∈ t.log moves, e.Plain) :
    t₂.Losing why ∧ (∀ e ∈ t.log moves, e.Weathers) ∧
      ∀ p, p ∈ t.session.pending ∨ (∃ e ∈ t.log moves, e.asked? = some p) →
        p ∈ t₂.session.pending ∨ ∃ e ∈ t.log moves, e.Answers p := by
  induction moves generalizing t with
  | nil =>
    obtain rfl := Option.some.inj hp
    exact ⟨h, by simp [log], fun p hp => .inl (hp.resolve_right (by simp [log]))⟩
  | cons move moves ih =>
    obtain ⟨t₁, h₁, hrest⟩ := Option.bind_eq_some_iff.1 hp
    rw [log_cons h₁] at plain ⊢
    cases hm : move.isTaking with
    | true =>
      obtain ⟨input, hinput, ht⟩ := takes_of_play h₁ hm
      simp only [hinput, Option.map_some, Option.toList_some, List.singleton_append,
        List.forall_mem_cons, List.exists_mem_cons_iff] at plain ⊢
      have hw := h.weathers ht plain.1
      obtain ⟨hlosing, hsession⟩ := h.takes ht plain.1
      obtain ⟨h₂, hall, hkept⟩ := ih hlosing hrest plain.2
      rw [hsession] at hkept
      refine ⟨h₂, ⟨hw, hall⟩, fun p hp => ?_⟩
      rw [← or_assoc] at hp
      rcases hp with hold | hlater
      · rcases hw.kept p hold with hstays | hanswered
        · exact (hkept p (.inl hstays)).imp_right .inr
        · exact .inr (.inl hanswered)
      · exact (hkept p (.inr hlater)).imp_right .inr
    | false =>
      have hne : move ≠ .shutDown := by
        rintro rfl
        cases (plain _ (List.mem_append_left _ (List.mem_singleton.2 rfl))).1
      obtain ⟨hnone, hsession, hheard, hstopped⟩ := aside_of_play h₁ hm hne
      simp only [hnone, Option.map_none, Option.toList_none, List.nil_append] at plain ⊢
      rw [← hsession]
      exact ih (h.aside (step_of_play h₁) hsession hheard hstopped) hrest plain

/-- **When the session hears of the loss** it is without a connection, has cancelled every operation
and has told its owner. -/
theorem falls {why' : Failure} (h : t.Losing why) (ht : t.Takes (.notice (.lost why')) t') :
    let last := t.taken (.notice (.lost why))
    why' = why ∧ t'.session.state = .disconnected ∧ t'.session.pending = [] ∧
      Connection.losses t'.unheard = [] ∧ last.Proper ∧
      (∀ p ∈ t.session.pending, last.Answers p) ∧ Session.losses last.turn.effects = [why] := by
  have hold := h.unheard
  rw [ht.unheard] at hold
  obtain ⟨rfl, hrest⟩ : why' = why ∧ Connection.losses t'.unheard = [] := by
    simpa [Connection.losses, Connection.Notice.failure?, Session.Input.notice?] using hold
  obtain ⟨rest, hgoes⟩ := ht.goes
  obtain ⟨hsession, hproper, hanswers, hlosses⟩ :=
    Session.Taken.falls (e := t.taken (.notice (.lost why'))) h.session rfl
  have hsession : t'.session = _ := hgoes.session.trans hsession
  exact ⟨rfl, by rw [hsession], by rw [hsession], hrest, hproper, hanswers, hlosses⟩

/-- **The manager loses its connection,** and the session has no other loss to hear of. -/
theorem begins {input : Connection.Input} {now : Millis} (h : Reachable t)
    (running : t.stopped = false) (hs : t.session.state = .connected)
    (hnone : Connection.losses t.unheard = []) (hloss : t.course.manager.loss? input = some why)
    (hp : t.play (.manager (.takes now input none)) = some t₁) :
    t₁.Losing why ∧ t₁.session = t.session := by
  have hl := linked h
  have hr := h.step (step_of_play hp)
  have hi : input.isShutDown = false := by
    cases input with
    | shutDown => cases hloss
    | order | completion | expired => rfl
  simp only [play] at hp
  split at hp
  · rename_i course hc
    obtain ⟨-, rfl⟩ := of_guarded hp
    obtain ⟨⟨-, hend, -⟩, rfl⟩ := of_guarded hc
    have htended := Course.tended hl.course (hl.runs running)
    obtain ⟨hstate, hlosses⟩ :=
      htended.returning_none.loses now (Connection.Input.isEnd_iff.1 hend) hi hloss
    have hunheard :
        Tandem.unheard { t with course := t.course.follow now input t.course.outstanding }
          = t.unheard ++ Connection.told (t.course.manager.step now input).effects :=
      unheard_more _ hl.heard rfl rfl
    refine ⟨⟨hr, running, hs, hstate, ?_⟩, rfl⟩
    rw [hunheard, Connection.losses_append, hnone, hlosses, List.nil_append]
  · cases hp

end Losing

/-! ## The property -/

/-- **A loss is handled alike in whatever order it is heard of.**  Session and manager are both
connected, no loss is to be heard, and the manager's link closes or fails, whatever the error.
Let any moves be made then, as long as nobody asks for a disconnection or for a change of the
credential, new operations have ids of their own and the session does not hear of the loss.

All this time the session takes itself for connected, its owner is told of no loss, and whoever is
answered gets the response to his operation or learns that it has been cancelled.  Every operation
that was outstanding at the loss, or has been asked for since, has been answered so or is still
outstanding.  When the session hears of the loss, which is the one that the manager has had, it is
without a connection, every operation that is left has been cancelled, and the owner is told of the
loss once. -/
theorem loss_handled_in_any_order (h : Reachable t) (running : t.stopped = false)
    (hs : t.session.state = .connected) (hm : t.course.manager.state = .connected)
    (hnone : Connection.losses t.unheard = []) {event : Link.Event}
    (hevent : event = .closed ∨ ∃ error, event = .failed error) {now : Millis}
    (hlose : t.play (.manager (.takes now
      (.completion (.link t.course.manager.generation event)) none)) = some t₁)
    (hplays : t₁.plays moves = some t₂) (plain : ∀ e ∈ t₁.log moves, e.Plain) :
    ∃ why, t.course.manager.loss? (.completion (.link t.course.manager.generation event))
        = some why ∧
      t₂.session.state = .connected ∧ Connection.losses t₂.unheard = [why] ∧
      (∀ e ∈ t₁.log moves, e.Proper ∧ Session.losses e.turn.effects = []) ∧
      (∀ p, p ∈ t.session.pending ∨ (∃ e ∈ t₁.log moves, e.asked? = some p) →
        p ∈ t₂.session.pending ∨ ∃ e ∈ t₁.log moves, e.Answers p) ∧
      ∀ why' t₃, t₂.Takes (.notice (.lost why')) t₃ →
        let last := t₂.taken (.notice (.lost why))
        why' = why ∧ t₃.session.state = .disconnected ∧ t₃.session.pending = [] ∧
          Connection.losses t₃.unheard = [] ∧ last.Proper ∧
          (∀ p ∈ t₂.session.pending, last.Answers p) ∧
          Session.losses last.turn.effects = [why] := by
  obtain ⟨why, hloss⟩ : ∃ why, t.course.manager.loss?
      (.completion (.link t.course.manager.generation event)) = some why := by
    rcases hevent with rfl | ⟨error, rfl⟩ <;> exact ⟨_, if_pos ⟨rfl, hm⟩⟩
  obtain ⟨h₁, hsession⟩ := Losing.begins h running hs hnone hloss hlose
  obtain ⟨h₂, hweathers, hkept⟩ := h₁.plays hplays plain
  rw [hsession] at hkept
  exact ⟨why, hloss, h₂.session, h₂.unheard, fun e he => ⟨(hweathers e he).proper,
    (hweathers e he).silent⟩, hkept, fun why' t₃ ht => h₂.falls ht⟩

/-- Another query is put, the failure of the first one comes back, and all is heard but the loss. -/
def aftermath : List Move :=
  [.order ⟨1, .ask ⟨"other", none⟩ .registration⟩, .answered 0 15, .completes 0, .hears, .hears,
    .hears, .hears]

/-- A link that fails while a query is being published, with an error that does not say that there
is no connection: this query is cancelled before the loss is heard of, and the next one then. -/
theorem loss_handled_amid_publication :
    ∃ (t t₁ t₂ t₃ : Tandem) (why : Failure) (p p' : RequestId × Session.Operation),
      Reachable t ∧ t.session.pending = [p] ∧ t₁.plays aftermath = some t₂ ∧
      (∃ e ∈ t₁.log aftermath, e.Answers p) ∧ t₂.session.pending = [p'] ∧
      t₂.Takes (.notice (.lost why)) t₃ ∧ (t₂.taken (.notice (.lost why))).Answers p' ∧
      Session.losses (t₂.taken (.notice (.lost why))).turn.effects = [why] ∧
      t₃.session.state = .disconnected := by
  let error := LinkError.plain "timed out"
  have run : (plays
      { session := { settings := plainSettings, ids := .sequential }
        course := { manager := { patience := 30000, ids := .sequential } } }
      (connecting ++ [.asks 0, .takes 0])).any (fun t =>
        decide (t.stopped = false ∧ t.session.state = .connected ∧
          t.course.manager.state = .connected ∧ Connection.losses t.unheard = []) &&
        (t.play (.manager (.takes 0
            (.completion (.link t.course.manager.generation (.failed error))) none))).any fun t₁ =>
          decide (∀ e ∈ t₁.log aftermath, e.Plain) &&
          (t₁.plays aftermath).any fun t₂ =>
            decide (t₂.stopped = false ∧ t₂.unheard = [.lost (.ofLink error)] ∧
              t.session.pending.map Prod.fst = [.ofNat 1] ∧
              t₂.session.pending.map Prod.fst = [.ofNat 2])) = true := by
    decide +kernel
  obtain ⟨t, ht, run⟩ := (Option.any_eq_true ..).1 run
  obtain ⟨hfirst, run⟩ := Bool.and_eq_true_iff.1 run
  obtain ⟨t₁, hlose, run⟩ := (Option.any_eq_true ..).1 run
  obtain ⟨plain, run⟩ := Bool.and_eq_true_iff.1 run
  obtain ⟨t₂, hplays, hlast⟩ := (Option.any_eq_true ..).1 run
  obtain ⟨running, hs, hm, hnone⟩ := of_decide_eq_true hfirst
  obtain ⟨running₂, hunheard, hids, hids₂⟩ := of_decide_eq_true hlast
  have hr := reachable_of_plays (.start plainSettings .sequential 30000 .sequential) t ht
  obtain ⟨why, -, -, hlosses, -, hkept, hfalls⟩ := loss_handled_in_any_order hr running hs hm hnone
    (.inr ⟨error, rfl⟩) hlose hplays (of_decide_eq_true plain)
  obtain rfl : Failure.ofLink error = why := by
    rw [hunheard] at hlosses
    exact (List.cons.inj hlosses).1
  obtain ⟨p, hp, hid⟩ := List.map_eq_singleton_iff.1 hids
  obtain ⟨p', hp', hid'⟩ := List.map_eq_singleton_iff.1 hids₂
  have htakes := Takes.hears (t := t₂) _ [] running₂ hunheard
  obtain ⟨-, hstate, -, -, -, hanswers, htold⟩ := hfalls _ _ htakes
  refine ⟨t, t₁, t₂, _, _, p, p', hr, hp, hplays, ?_, hp', htakes, hanswers p' (by simp [hp']),
    htold, hstate⟩
  refine (hkept p (.inl (by simp [hp]))).resolve_left fun hmem => ?_
  -- the first query is not outstanding any more, because the second one alone is
  rw [hp', List.mem_singleton] at hmem
  rw [hmem, hid'] at hid
  cases hid

end Tandem
end DeviceProvisioning
