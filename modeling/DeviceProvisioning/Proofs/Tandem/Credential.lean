import DeviceProvisioning.Proofs.Tandem.Attended
import DeviceProvisioning.Proofs.Tandem.Connected
import DeviceProvisioning.Proofs.Tandem.Play

/-!
# Which credential a connection is entered with

The credential of a session is kept in three places: in its settings, in the parameters of the
manager's connection, and in the manager's store.  Each is written at other times than the rest.

A call that enters a connection bears the credential of the settings as long as it goes on, since
the session carries out no update in the middle of a change (`Tandem.bearing`).  So do the orders of
this call, and the attempts that the manager makes for them.

The store is another matter.  A credential gets there when the manager is given it after its
connection has been lost; the call fails then, because there is nothing to subscribe on.  The
session knows the credential anyway, and its next connection may bear a newer one.  But the store
takes precedence.  So an attempt bears the newest credential or the one in store
(`newest_or_stored_credential_dialled`), and the one in store may be out of date.
-/

namespace DeviceProvisioning

/-- Whether an effect is an attempt with this credential. -/
def Connection.Effect.dialsWith (credential : Credential) : Effect → Bool
  | dial _ p => p.credential = some credential
  | _ => false

open Connection (Course Credential Order)
open Session (Call Duty Stage)
open Time (Millis)

namespace Tandem
variable {t t' : Tandem} {input : Session.Input}

/-! ## The newest credential -/

/-- **The newest credential**: that of the most recent update that the session has carried out, or
else that of its settings at the start. -/
inductive Newest : Tandem → Credential → Prop where
  | start (settings : Session.Settings) (ids : RequestId.Source) (patience : Millis)
      (messageIds : RequestId.Source) :
    Newest
      { session := { settings, ids }, course := { manager := { patience, ids := messageIds } } }
      settings.credential
  | takes {t t' : Tandem} {credential : Credential} {input : Session.Input}
      {executed : List Credential} (h : Newest t credential) (takes : t.Takes input t')
      (executes : t.session.Executes input executed t'.session) :
    Newest t' (Session.latest credential executed)
  | other {t t' : Tandem} {credential : Credential} (h : Newest t credential) (step : Step t t')
      (silent : t'.session = t.session ∨ t'.stopped = true) : Newest t' credential

/-- Every call that changes the connection bears the credential of the settings. -/
def Bearing (t : Tandem) : Prop :=
  ∀ e ∈ Session.changes (t.calls.map Call.effect), e.Bears t.session.settings.credential

/-- **The session takes an input**: it carries out updates, and its calls bear the credential that
comes of it. -/
theorem Takes.renews (h : t.Takes input t') (hl : t.Linked) (hb : t.Bearing) :
    t'.Bearing ∧ ∃ executed, t.session.Executes input executed t'.session ∧
      t'.session.settings.credential
        = Session.latest t.session.settings.credential executed := by
  obtain ⟨rest, hgoes⟩ := h.goes
  obtain ⟨before, returned, after, hend, hi, hcalls, hrest⟩ := hgoes.ends
  have ht := hl.tended hgoes.running
  have hb' := hb
  unfold Bearing at hb'
  rw [hcalls] at ht hb'
  obtain ⟨hexecuted, hbears⟩ := ht.renews t.course.manager.state hend hi hb'
  unfold Bearing
  rw [hgoes.session, hgoes.calls, List.map_append, hrest, Call.effects_started]
  exact ⟨hbears, hexecuted⟩

/-- A step is one of the session, or it leaves the settings and the calls' effects as they are. -/
theorem Step.takes_or_other (hs : Step t t') :
    (∃ input, t.Takes input t') ∨
      (t'.session = t.session ∨ t'.stopped = true) ∧
        t'.session.settings = t.session.settings ∧
        t'.calls.map Call.effect = t.calls.map Call.effect := by
  cases hs with
  | order order running => exact .inl ⟨_, .order order running⟩
  | hears notice rest running first => exact .inl ⟨_, .hears notice rest running first⟩
  | completes effect result completion before after running split comes =>
    exact .inl ⟨_, .completes effect result completion before after running split comes⟩
  | shutDown running =>
    obtain ⟨hset, hnone⟩ := Session.step_shutDown t.course.manager.state t.session
    refine .inr ⟨.inr rfl, hset, ?_⟩
    show (t.calls ++ Session.started _).map Call.effect = _
    rw [List.map_append, Call.effects_started, hnone, List.append_nil]
  | asks effect duty before after split | refused effect duty _ before after split
  | answered effect duty ticket result before after split =>
    refine .inr ⟨.inl rfl, rfl, ?_⟩
    simp [split]
  | takes | manager => exact .inr ⟨.inl rfl, rfl, rfl⟩

/-- **In every tandem** the calls bear the credential of the settings. -/
theorem bearing (h : Reachable t) : t.Bearing := by
  induction h with
  | start settings ids patience messageIds => exact fun _ hmem => absurd hmem List.not_mem_nil
  | @step t t' hr hs ih =>
    obtain ⟨input, htakes⟩ | ⟨-, hset, hcalls⟩ := hs.takes_or_other
    · exact (htakes.renews (linked hr) ih).1
    · unfold Bearing
      rw [hset, hcalls]
      exact ih

/-- A tandem with a newest credential has come about by steps. -/
theorem Newest.reachable {credential : Credential} (h : t.Newest credential) : Reachable t := by
  induction h with
  | start settings ids patience messageIds => exact .start settings ids patience messageIds
  | takes h takes executes ih => exact ih.step takes.step
  | other h step silent ih => exact ih.step step

/-- A session that has been shut down takes no input. -/
theorem Step.settings_of_silent (hs : Step t t')
    (silent : t'.session = t.session ∨ t'.stopped = true) :
    t'.session.settings = t.session.settings := by
  obtain ⟨input, htakes⟩ | ⟨-, hset, -⟩ := hs.takes_or_other
  · rcases silent with hsame | hstop
    · rw [hsame]
    · cases htakes with
      | order _ running | hears _ _ running | completes _ _ _ _ _ running =>
        have hstop : t.stopped = true := hstop
        rw [running] at hstop
        cases hstop
  · exact hset

/-- **The credential of the settings is the newest.** -/
theorem Newest.eq_settings {credential : Credential} (h : t.Newest credential) :
    t.session.settings.credential = credential := by
  induction h with
  | start settings ids patience messageIds => rfl
  | takes h takes executes ih =>
    obtain ⟨-, executed, hexecuted, hcred⟩ :=
      takes.renews (linked h.reachable) (bearing h.reachable)
    rw [hcred, ih, executes.unique hexecuted]
  | other h step silent ih => rw [step.settings_of_silent silent, ih]

/-- There is always a newest credential. -/
theorem exists_newest (h : Reachable t) : ∃ credential, t.Newest credential := by
  induction h with
  | start settings ids patience messageIds => exact ⟨_, .start settings ids patience messageIds⟩
  | @step t t' hr hs ih =>
    obtain ⟨credential, hnewest⟩ := ih
    obtain ⟨input, htakes⟩ | ⟨silent, -⟩ := hs.takes_or_other
    · obtain ⟨-, executed, hexecuted, -⟩ := htakes.renews (linked hr) (bearing hr)
      exact ⟨_, hnewest.takes htakes hexecuted⟩
    · exact ⟨_, hnewest.other hs silent⟩

/-! ## Orders and attempts -/

/-- **An order that has not been answered** carries the credential of the settings. -/
theorem Attended.carries (h : t.Attended) (hl : t.Linked) (hb : t.Bearing) {o : Order}
    (ho : o ∈ t.issued) (hun : o.ticket ∉ Connection.answered t.course.record) :
    o.command.Carries t.session.settings.credential := by
  by_cases he : o.command.isEntry = true
  · obtain ⟨call, hcall, hst, hchange⟩ := h.entering hl ho hun he
    have hserves := hl.serves hcall hst
    have hbears := hb call.effect
      (List.mem_filter.2 ⟨List.mem_map.2 ⟨call, hcall, rfl⟩, hchange⟩)
    generalize call.effect = effect, o.command = command at hserves hbears ⊢
    cases hserves with
    | connecting p => exact hbears
    | reconnecting credential => exact hbears
  · cases hc : o.command with
    | connect | updateCredential => rw [hc] at he; exact absurd rfl he
    | disconnect | publish | subscribe | unsubscribe => trivial

/-- **The manager takes an input**: its attempts carry the newest credential, or the one in
store. -/
theorem Attended.dials (h : t.Attended) (hl : t.Linked) (hb : t.Bearing)
    (running : t.course.stopped = false) (now : Millis) {input : Connection.Input}
    (hi : ∀ o, input.order? = some o → o ∈ t.orders) {generation : Nat}
    {p : Connection.Parameters}
    (hmem : .dial generation p ∈ (t.course.manager.step now input).effects) :
    p.credential = some t.session.settings.credential ∨
      ∃ c, t.course.manager.storedCredential = some c ∧ p.credential = some c := by
  refine Connection.Manager.dials now (fun o ho => ?_) (fun hrot p hp => ?_)
    (List.mem_filter.2 ⟨hmem, rfl⟩)
  · obtain ⟨hissued, hun⟩ := hl.unanswered (o := o) <| by
      rcases List.mem_append.1 ho with hdeferred | hin
      · exact List.mem_append_left _ hdeferred
      · exact List.mem_append_right _ (hi o (Option.mem_toList.1 hin))
    exact h.carries hl hb hissued hun
  · -- a rotation is for the credential of an order whose caller still waits
    obtain ⟨ticket, credential, hw, horder, hcred⟩ := (Course.purpose hl.course running).rotation
      (Course.tended hl.course running).standing hrot
    have hun : ticket ∉ Connection.answered t.course.record :=
      Course.unanswered_of_held hl.course (.inl (by simp [Connection.Manager.callers, hw]))
    have hcarries := h.carries hl hb (o := ⟨ticket, .updateCredential credential⟩)
      (List.mem_append_left _ horder) hun
    have hcarries : credential = t.session.settings.credential := hcarries
    rw [hcred p hp, hcarries]

/-- A credential that the manager has in store, and that was ordered. -/
def InStore (t : Tandem) (c : Credential) : Prop :=
  t.course.manager.storedCredential = some c ∧
    ∃ o ∈ t.course.orders, o.command = .updateCredential c

/-- **The newest credential is dialled, or the one in store.**  In every tandem there is just one
credential that is the newest, and every attempt that is made in the next step carries it, unless it
carries a credential that the manager was given by an earlier update and had in store. -/
theorem newest_or_stored_credential_dialled (h : Reachable t) :
    ∃ newest, t.Newest newest ∧ (∀ other, t.Newest other → other = newest) ∧
      ∀ t' es generation p, Step t t' → t'.course.record = t.course.record ++ es →
        .dial generation p ∈ es →
        p.credential = some newest ∨ ∃ c, t.InStore c ∧ p.credential = some c := by
  obtain ⟨newest, hnewest⟩ := exists_newest h
  have hl := linked h
  refine ⟨newest, hnewest, ?_, ?_⟩
  · intro other hother
    rw [← hother.eq_settings, hnewest.eq_settings]
  · intro t' es generation p hs hes hdial
    rcases hl.course_of_step hs with hsame | ⟨hstep, hissued⟩
    · rw [hsame] at hes
      rw [List.append_right_eq_self.1 hes.symm] at hdial
      cases hdial
    · rw [issued] at hissued
      generalize t'.course = course at hes hstep hissued
      cases hstep with
      | takes now input e before after running ends admits split =>
        rw [Course.orders_follow, issued, List.append_assoc] at hissued
        have horders := List.append_cancel_left hissued
        rw [← List.append_cancel_left hes] at hdial
        rw [← hnewest.eq_settings]
        refine ((attended h).dials hl (bearing h) running now ?_ hdial).imp_right ?_
        · intro o ho
          rw [← horders, ho]
          exact List.mem_cons_self
        · rintro ⟨c, hstored, hcred⟩
          exact ⟨c, ⟨hstored, (Course.origin hl.course).1.stored c hstored⟩, hcred⟩
      | subscribed | unsubscribed =>
        rw [← List.append_cancel_left hes] at hdial
        simp at hdial
      | late =>
        rw [List.append_right_eq_self.1 hes.symm] at hdial
        cases hdial

/-- A session that is asked something for the first time dials with the credential of its
settings. -/
theorem first_credential_dialled :
    ∃ t t' es generation p newest, Reachable t ∧ Step t t' ∧
      t'.course.record = t.course.record ++ es ∧ .dial generation p ∈ es ∧ t.Newest newest ∧
      (p.credential = some newest ∨ ∃ c, t.InStore c ∧ p.credential = some c) := by
  obtain ⟨t, t', es, e, hr, hs, hes, he, hdial⟩ := exists_effect
    (plays _ [.order ⟨0, .ask ⟨"device", none⟩ .registration⟩, .asks 0])
    (reachable_of_plays (.start plainSettings .sequential 30000 .sequential)) (.takes 0)
    (fun _ => Connection.Effect.dialsWith plainSettings.credential) (by decide +kernel)
  cases e with
  | dial generation p =>
    obtain ⟨newest, hnewest, -, hdials⟩ := newest_or_stored_credential_dialled hr
    exact ⟨t, t', es, generation, p, newest, hr, hs, hes, he, hnewest,
      hdials t' es generation p hs hes he⟩
  | _ => cases hdial

/-- **A credential that is out of date is dialled.**  A connection is lost just before an update
reaches the manager, which stores the credential; the session is given another one while it is
disconnected, and connects. -/
theorem stale_credential_dialled :
    ∃ t t' es generation p newest, t.Newest newest ∧ Step t t' ∧
      t'.course.record = t.course.record ++ es ∧ .dial generation p ∈ es ∧
      p.credential ≠ some newest := by
  obtain ⟨t, t', es, e, hr, hs, hes, he, hdial⟩ := exists_effect
    (plays _ (connecting ++
      [.manager (.takes 0 (.completion (.link 1 .closed)) none),
        .order ⟨1, .updateCredential (.signature "second")⟩, .asks 1, .takes 0, .answered 1 11,
        .asks 1, .takes 0, .answered 1 12, .asks 1, .takes 0, .answered 1 13, .completes 1,
        .order ⟨2, .updateCredential (.signature "third")⟩,
        .order ⟨3, .ask ⟨"device", none⟩ .registration⟩, .asks 1]))
    (reachable_of_plays (.start plainSettings .sequential 30000 .sequential)) (.takes 0)
    (fun t e => t.session.settings.credential = .signature "third" ∧
      e.dialsWith (.signature "second")) (by decide +kernel)
  obtain ⟨hsettings, hdial⟩ := of_decide_eq_true hdial
  cases e with
  | dial generation p =>
    obtain ⟨newest, hnewest⟩ := exists_newest hr
    refine ⟨t, t', es, generation, p, newest, hnewest, hs, hes, he, ?_⟩
    rw [← hnewest.eq_settings, hsettings, of_decide_eq_true hdial]
    decide
  | _ => cases hdial

end Tandem

end DeviceProvisioning
